import Interpose.Cache.Basic
import Interpose.Class.Table
import Interpose.Loading.Error
import Interpose.Loading.Policy
/-!
# Realms

Everything that loading a class reads and changes: the classes loaded so far, the loaders with the
names they remember, the source of class bytes, and the storage behind the caches.

A loader remembers every class that it has answered with, its own and its parent's, and the names
that it is in the middle of loading. The latter are how it notices a circular hierarchy. Loaders are
added and never taken away: a class goes on resolving names through the loader that defined it, even
when the machine has turned to another one.
-/

namespace Interpose

/-- What an instrumenting loader works with. -/
structure Instrumentation where
  /-- The loader of classes that are not acquired. -/
  parent : LoaderRef
  policy : AcquisitionPolicy
  cache : ClassCache
  /-- The handler that instrumented classes are given. -/
  handler : HandlerRef
  deriving Inhabited

/-- The kinds of loader. -/
inductive LoaderKind
  /-- Defines classes as they are stored. -/
  | bootstrap
  | instrumenting (work : Instrumentation)
  deriving Inhabited

/-- A class loader. -/
structure Loader where
  kind : LoaderKind
  classes : List (String × ClassRef) := []
  loading : List String := []
  /-- How many classes the loader has instrumented. -/
  transforms : Nat := 0
  /-- How many instrumented classes it has found in its cache. -/
  cacheHits : Nat := 0
  deriving Inhabited

/-- The surroundings of class loading. -/
structure Realm where
  classes : ClassTable := {}
  loaders : Array Loader := #[]
  resources : Resources
  storage : Storage := {}
  deriving Inhabited

namespace Realm

variable (r : Realm)

def loader (l : LoaderRef) : Loader := r.loaders.getD l.index default

/-- Changes a loader. -/
def modifyLoader (l : LoaderRef) (f : Loader → Loader) : Realm :=
  { r with loaders := r.loaders.modify l.index f }

/-- Adds a loader. -/
def addLoader (kind : LoaderKind) : LoaderRef × Realm :=
  (⟨r.loaders.size⟩, { r with loaders := r.loaders.push { kind := kind } })

/-- The class that a loader remembers under a name. -/
def loaded? (l : LoaderRef) (name : String) : Option ClassRef := (r.loader l).classes.lookup name

/-- The files that classes and cache entries may lie in. -/
def files : FileTree := r.storage.disk.files

/-- Whether a class still has the loader that it was defined for. -/
def hasLiveLoader (c : ClassRef) : Bool := !(r.classes.get c).orphan

end Realm

end Interpose
