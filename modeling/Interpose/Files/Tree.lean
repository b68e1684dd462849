import Interpose.Bytes.LittleEndian
import Interpose.Files.Path
/-!
# File trees

The files that the program reads and writes, as a map from locations to entries. A location is the
list of names from the root. The tree does not have to be closed: an entry below nothing, or below a
file, is possible to write down, but no walk reaches it, since a walk asks every location on its way
to be a directory.

Operations take paths, and fail for the reasons a file system gives. What is absent is absent on
purpose: links, permissions, and everything that depends on who else is writing.
-/

namespace Interpose

/-- Why a file operation fails. -/
inductive FileError
  | notFound
  | notADirectory
  | isADirectory
  | alreadyExists
  | nameTooLong
  /-- No file name can hold a NUL. -/
  | invalidName
  deriving DecidableEq, Repr

/-- The report of a failed file operation. -/
def FileError.message : FileError → String
  | notFound => "No such file or directory (os error 2)"
  | notADirectory => "Not a directory (os error 20)"
  | isADirectory => "Is a directory (os error 21)"
  | alreadyExists => "File exists (os error 17)"
  | nameTooLong => "File name too long (os error 36)"
  | invalidName => "file name contained an unexpected NUL byte"

/-- The names from the root. -/
abbrev Location := List String

/-- What is at a location. -/
inductive Entry
  | file (content : Bytes)
  | directory
  deriving DecidableEq, Repr, Inhabited

/-- A tree of files. -/
structure FileTree where
  entries : List (Location × Entry) := []
  deriving DecidableEq, Repr, Inhabited

namespace FileTree

variable (t : FileTree)

/-- The entry at a location; the root is a directory. -/
def entry? (place : Location) : Option Entry :=
  if place.isEmpty then some .directory else t.entries.lookup place

/-- Puts an entry at a location. -/
def put (place : Location) (e : Entry) : FileTree :=
  ⟨(place, e) :: t.entries.filter fun x => x.1 != place⟩

/-- Takes away what is at a location. -/
def erase (place : Location) : FileTree := ⟨t.entries.filter fun x => x.1 != place⟩

/-- Takes away what is at a location and below it. -/
def eraseAll (place : Location) : FileTree :=
  ⟨t.entries.filter fun x => !place.isPrefixOf x.1⟩

/-- The number of files. -/
def fileCount : Nat := t.entries.countP fun x => x.2 != .directory

/-! ### Walking -/

/-- The longest name, and the longest path, in bytes. -/
def maxName : Nat := 255
def maxPath : Nat := 4095

/-- The location that a name denotes in a directory. Two dots lead back up; above the root there is
only the root. -/
def step (place : Location) (name : String) : Location :=
  if name = ".." then place.dropLast else place ++ [name]

/-- Follows names from a location. Every location on the way has to be a directory; the last one may
be anything, or nothing. -/
def walk (place : Location) : List String → Except FileError (Location × Option Entry)
  | [] => .ok (place, t.entry? place)
  | name :: rest =>
    match t.entry? place with
    | none => .error .notFound
    | some (.file _) => .error .notADirectory
    | some .directory =>
      if maxName < name.utf8ByteSize then .error .nameTooLong else walk (step place name) rest

/-- Follows a path from the root. -/
def resolve (p : Path) : Except FileError (Location × Option Entry) :=
  if p.contains '\x00' then .error .invalidName
  else if maxPath < p.text.utf8ByteSize then .error .nameTooLong
  else
    match t.walk [] p.names with
    | .ok (place, some (.file content)) =>
      if p.namesDirectory then .error .notADirectory else .ok (place, some (.file content))
    | r => r

/-! ### Operations -/

/-- The content of a file. -/
def read (p : Path) : Except FileError Bytes :=
  match t.resolve p with
  | .error e => .error e
  | .ok (_, none) => .error .notFound
  | .ok (_, some .directory) => .error .isADirectory
  | .ok (_, some (.file content)) => .ok content

/-- Writes a file, which may be new. -/
def write (p : Path) (content : Bytes) : Except FileError FileTree :=
  match t.resolve p with
  | .error e => .error e
  | .ok (_, some .directory) => .error .isADirectory
  | .ok (place, some (.file _)) => .ok (t.put place (.file content))
  | .ok (place, none) =>
    if p.namesDirectory then .error .isADirectory else .ok (t.put place (.file content))

/-- Makes the directories that are missing along some names, or none if a file is in the way. -/
def makeDirectories (t : FileTree) (place : Location) : List String → Except FileError FileTree
  | [] =>
    match t.entry? place with
    | some .directory => .ok t
    | some (.file _) => .error .alreadyExists
    | none => .ok (t.put place .directory)
  | name :: rest =>
    if maxName < name.utf8ByteSize then .error .nameTooLong
    else
      match t.entry? place with
      | some .directory => makeDirectories t (step place name) rest
      | some (.file _) => .error .notADirectory
      | none => makeDirectories (t.put place .directory) (step place name) rest

/-- Makes a directory and the ones above it. One that is there already is left alone. -/
def createDirectory (p : Path) : Except FileError FileTree :=
  if p.contains '\x00' then .error .invalidName
  else if maxPath < p.text.utf8ByteSize then .error .nameTooLong
  else t.makeDirectories [] p.names

/-- Writes a file, and makes the directories above it. -/
def writeDeep (p : Path) (content : Bytes) : Except FileError FileTree :=
  match t.createDirectory p.parent with
  | .error e => .error e
  | .ok t => t.write p content

/-- Writes files one after the other, and makes the directories above them. -/
def writeAll (t : FileTree) : List (Path × Bytes) → Except FileError FileTree
  | [] => .ok t
  | (p, content) :: rest =>
    match t.writeDeep p content with
    | .error e => .error e
    | .ok t => writeAll t rest

/-- Moves a file, over another file if need be. -/
def rename (source target : Path) : Except FileError FileTree :=
  match t.resolve source with
  | .error e => .error e
  | .ok (_, none) => .error .notFound
  | .ok (_, some .directory) => .error .isADirectory
  | .ok (old, some (.file content)) =>
    match t.resolve target with
    | .error e => .error e
    | .ok (_, some .directory) => .error .isADirectory
    | .ok (new, _) => .ok ((t.erase old).put new (.file content))

/-- Takes a file away, if it is there. -/
def remove (p : Path) : FileTree :=
  match t.resolve p with
  | .ok (place, some (.file _)) => t.erase place
  | _ => t

/-- Takes a directory away, with all that is in it. -/
def removeDirectory (p : Path) : FileTree :=
  match t.resolve p with
  | .ok (place, some .directory) => t.eraseAll place
  | _ => t

/-! ### Listing -/

/-- The path of a location below another one; directories end in a slash. -/
def relativeText (below : Location) (x : Location × Entry) : Option (String × Option Bytes) :=
  if below.isPrefixOf x.1 && x.1 != below then
    let text := "/".intercalate (x.1.drop below.length)
    match x.2 with
    | .directory => some (text ++ "/", none)
    | .file content => some (text, some content)
  else none

/-- Everything below a directory, sorted by path, files with their content. -/
def listing (below : Path) : List (String × Option Bytes) :=
  (t.entries.filterMap (relativeText below.names)).mergeSort fun a b => !decide (b.1 < a.1)

end FileTree

end Interpose
