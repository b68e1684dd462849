import Interpose.Files.Tree
/-!
# Where class bytes come from

Either from memory, by name, or from class files below a list of directories, which are searched in
order. A file that is not there leads on to the next directory; any other failure ends the search,
even where a later directory has the class.

Classes can be held in memory whether or not that is where reading looks: a source that reads
directories neither sees them nor stands in the way of adding some.
-/

namespace Interpose

/-- Why class bytes cannot be read. -/
inductive ReadFault
  | file (cause : FileError)
  | reported (text : String)
  deriving DecidableEq, Repr

/-- The report of a failed read. -/
def ReadFault.message : ReadFault → String
  | file cause => cause.message
  | reported text => text

/-- Where reading looks. -/
inductive ResourceSource
  | memory
  | directories (roots : List Path)
  deriving DecidableEq, Repr, Inhabited

/-- Class bytes: those held in memory, and a source to read from. -/
structure Resources where
  source : ResourceSource := .memory
  classes : List (String × Bytes) := []
  /-- Names that cannot be read from memory, and what is reported for them. -/
  faults : List (String × String) := []
  deriving DecidableEq, Repr, Inhabited

namespace Resources

/-- Looks a class file up below the roots, in order. -/
def readBelow (files : FileTree) (file : Path) : List Path → Except ReadFault (Option Bytes)
  | [] => .ok none
  | root :: rest =>
    match files.read (root.join file) with
    | .ok content => .ok (some content)
    | .error .notFound => readBelow files file rest
    | .error e => .error (.file e)

variable (r : Resources)

/-- The bytes of a class held in memory, if there are any. -/
def held (name : String) : Except ReadFault (Option Bytes) :=
  match r.faults.lookup name with
  | some text => .error (.reported text)
  | none => .ok (r.classes.lookup name)

/-- The bytes of a class, if there are any. -/
def read (files : FileTree) (name : String) : Except ReadFault (Option Bytes) :=
  match r.source with
  | .memory => r.held name
  | .directories roots => readBelow files (classFilePath name) roots

/-- Holds a class in memory, in place of one of its name. -/
def insert (name : String) (bytes : Bytes) : Resources :=
  { r with classes := (name, bytes) :: r.classes.filter fun e => e.1 != name }

/-- The number of classes held in memory. -/
def size : Nat := r.classes.length

/-- At least as many as there are classes to be read: entries in memory, or files. -/
def bound (files : FileTree) : Nat :=
  match r.source with
  | .memory => r.classes.length
  | .directories _ => files.fileCount

end Resources

end Interpose
