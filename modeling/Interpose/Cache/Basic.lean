import Interpose.Cache.Disk
import Interpose.Cache.Memory
/-!
# Class caches

Instrumenting a class always gives the same result, so results are kept by class name and format
version. A cache is a view of some storage at one version, which may be closed for writing. Views of
one storage see each other's entries.

Reading forgives everything: an entry that cannot be read is no entry.
-/

namespace Interpose

/-- A store in memory. -/
structure StoreRef where
  index : Nat
  deriving DecidableEq, Repr, Inhabited

/-- Where a cache keeps its entries. -/
inductive Backend
  | memory (store : StoreRef)
  | disk (root : Path)
  deriving DecidableEq, Repr, Inhabited

/-- Everything that caches keep entries in. Where nothing is said of a disk, nothing is on it. -/
structure Storage where
  stores : Array MemoryStore := #[]
  disk : Disk := default
  deriving DecidableEq, Repr, Inhabited

namespace Storage

variable (s : Storage)

def store (r : StoreRef) : MemoryStore := s.stores.getD r.index {}

/-- Adds an empty store. -/
def addStore : StoreRef × Storage := (⟨s.stores.size⟩, { s with stores := s.stores.push {} })

end Storage

/-- A view of a storage. -/
structure ClassCache where
  backend : Backend
  version : UInt32 := cacheVersion
  writing : Bool := true
  deriving DecidableEq, Repr, Inhabited

namespace ClassCache

variable (c : ClassCache)

/-- The same entries under another version. -/
def withVersion (version : UInt32) : ClassCache := { c with version := version }

/-- The same entries, not to be added to. -/
def readOnly : ClassCache := { c with writing := false }

/-- Opens a cache on disk. -/
def openDisk (s : Storage) (root : Path) (version : UInt32) :
    Except CacheError ClassCache × Storage :=
  match s.disk.openRoot root version with
  | (.error e, d) => (.error (.io e), { s with disk := d })
  | (.ok (), d) => (.ok ⟨.disk root, version, true⟩, { s with disk := d })

/-- Entries in the store of a cache in memory, of all versions. -/
def size (s : Storage) : Nat :=
  match c.backend with
  | .memory store => (s.store store).size
  | .disk _ => 0

/-- The bytes stored for a class. -/
def get? (s : Storage) (name : String) : Option Bytes :=
  match c.backend with
  | .memory store => (s.store store).get? name c.version
  | .disk root =>
    match s.disk.readEntry root c.version name with
    | .ok entry => entry
    | .error _ => none

/-- Stores bytes for a class, or does nothing if the view is not for writing. -/
def put (s : Storage) (name : String) (bytes : Bytes) : Except CacheError Unit × Storage :=
  if !c.writing then (.ok (), s)
  else
    match c.backend with
    | .memory store =>
      (.ok (), { s with stores := s.stores.modify store.index (·.insert name c.version bytes) })
    | .disk root =>
      let (r, d) := s.disk.writeEntry root c.version name bytes
      (r, { s with disk := d })

end ClassCache

end Interpose
