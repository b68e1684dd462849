import Interpose.Bytes.Hex
import Interpose.Digest.Sha256
import Interpose.Files.Tree
import Interpose.Text.Quoted
/-!
# Cache entries on disk

Below its root a cache keeps one directory `v<version>` for each format version, with one file for
each class, and a directory `tmp`. A file holds the SHA-256 of the class bytes in front of them.
Entries are written to `tmp` first and moved into place, so that no reader meets half an entry.

Every operation that writes answers with the tree as it left it, also when it failed: what a failed
write leaves behind is part of its answer.
-/

namespace Interpose

/-- Why a cache operation fails. -/
inductive CacheError
  | io (cause : FileError)
  /-- The class name cannot be a file name. -/
  | invalidName (name : String)
  /-- The file has no room for a checksum. -/
  | truncated (file : Path)
  | checksumMismatch (expected actual : Bytes)
  deriving DecidableEq, Repr

/-- The report of a failed cache operation. -/
def CacheError.message : CacheError → String
  | io cause => s!"IO error: {cause.message}"
  | invalidName name => s!"Invalid cache entry name: {Text.quote name}"
  | truncated file => s!"Truncated cache entry: {file.text}"
  | checksumMismatch expected actual =>
    s!"Checksum mismatch: expected {Hex.encode expected}, got {Hex.encode actual}"

/-- Bytes of the checksum in front of an entry. -/
def checksumSize : Nat := 32

/-- A file tree, the process that works on it, and the temporary names that it has used. -/
structure Disk where
  files : FileTree := {}
  /-- The id of the process: temporary names of different processes differ. -/
  writer : Nat
  /-- How many temporary names the process has used. -/
  serial : Nat := 0
  deriving DecidableEq, Repr, Inhabited

namespace Disk

/-- Whether two dots stand side by side. -/
def hasDoubleDot : List Char → Bool
  | '.' :: '.' :: _ => true
  | _ :: rest => hasDoubleDot rest
  | [] => false

/-- Entry names have to stay single files of their directory. -/
def isEntryName (name : String) : Bool :=
  let cs := name.toList
  !cs.isEmpty && cs.head? != some '.' && !hasDoubleDot cs &&
    !cs.contains '/' && !cs.contains '\\' && !cs.contains '\x00'

/-- The directory of a version. -/
def versionDirectory (root : Path) (version : UInt32) : Path :=
  root.join ("v" ++ toString version.toNat).toList

/-- The directory for unfinished entries. -/
def temporaryDirectory (root : Path) : Path := root.join "tmp".toList

/-- The file of an entry. -/
def entryPath (root : Path) (version : UInt32) (name : String) : Path :=
  (versionDirectory root version).join (name ++ ".umbc").toList

/-- The file that the next entry is written to first. -/
def temporaryPath (d : Disk) (root : Path) (name : String) : Path :=
  (temporaryDirectory root).join s!"{name}.{d.writer}.{d.serial}.tmp".toList

/-- Makes the directories of a cache. -/
def openRoot (d : Disk) (root : Path) (version : UInt32) : Except FileError Unit × Disk :=
  match d.files.createDirectory (versionDirectory root version) with
  | .error e => (.error e, d)
  | .ok files =>
    match files.createDirectory (temporaryDirectory root) with
    | .error e => (.error e, { d with files := files })
    | .ok files => (.ok (), { d with files := files })

/-- An entry as its file holds it. -/
def withChecksum (bytes : Bytes) : Bytes := Sha256.digest bytes ++ bytes

/-- The class bytes in a file, if the checksum agrees. -/
def checkedBody (file : Path) (content : Bytes) : Except CacheError Bytes :=
  if content.length < checksumSize then .error (.truncated file)
  else
    let expected := content.take checksumSize
    let body := content.drop checksumSize
    let actual := Sha256.digest body
    if expected = actual then .ok body else .error (.checksumMismatch expected actual)

/-- Reads an entry; there may be none. -/
def readEntry (d : Disk) (root : Path) (version : UInt32) (name : String) :
    Except CacheError (Option Bytes) :=
  if !isEntryName name then .error (.invalidName name)
  else
    let file := entryPath root version name
    match d.files.read file with
    | .error .notFound => .ok none
    | .error e => .error (.io e)
    | .ok content => (checkedBody file content).map some

/-- Moves a finished file into place. If that fails, the file goes. -/
def settle (d : Disk) (temporary file : Path) : Except CacheError Unit × Disk :=
  match d.files.rename temporary file with
  | .error e => (.error (.io e), { d with files := d.files.remove temporary })
  | .ok files => (.ok (), { d with files := files })

/-- Writes an entry. -/
def writeEntry (d : Disk) (root : Path) (version : UInt32) (name : String) (bytes : Bytes) :
    Except CacheError Unit × Disk :=
  if !isEntryName name then (.error (.invalidName name), d)
  else
    match d.files.createDirectory (temporaryDirectory root) with
    | .error e => (.error (.io e), d)
    | .ok files =>
      let temporary := d.temporaryPath root name
      let d := { d with files := files, serial := d.serial + 1 }
      match d.files.write temporary (withChecksum bytes) with
      | .error e => (.error (.io e), { d with files := d.files.remove temporary })
      | .ok files =>
        let d := { d with files := files }
        match d.files.createDirectory (versionDirectory root version) with
        | .error e => (.error (.io e), d)
        | .ok files =>
          { d with files := files }.settle temporary (entryPath root version name)

end Disk

end Interpose
