import Interpose.Config.Basic
import Interpose.Machine.Execute
/-!
# Contexts

A context is a machine over two loaders: a bootstrap loader, and an instrumenting loader above it
through which the machine loads what is named from outside. A context can be replaced by a new one
over the same realm. The classes that the old loaders defined, and the objects of those classes,
live on, and such a class keeps finding its neighbours through its own loader; the new loaders know
nothing of them and define classes of the same names anew.
-/

namespace Interpose

/-- A machine over two loaders. -/
structure Context where
  machine : Machine
  /-- The bootstrap loader. -/
  parent : LoaderRef
  /-- The instrumenting loader. -/
  loader : LoaderRef
  deriving Inhabited

namespace Context

/-- Adds a pair of loaders to a realm: the bootstrap loader and the instrumenting one. -/
def addLoaders (r : Realm) (policy : AcquisitionPolicy) (cache : ClassCache) (handler : HandlerRef) :
    LoaderRef × LoaderRef × Realm :=
  let (parent, r) := r.addLoader .bootstrap
  let (loader, r) := r.addLoader (.instrumenting ⟨parent, policy, cache, handler⟩)
  (parent, loader, r)

/-- A machine that nothing has happened on, over new loaders. -/
def new (r : Realm) (policy : AcquisitionPolicy) (cache : ClassCache) (handler : HandlerRef)
    (maxDepth : Nat) : Context :=
  let (parent, loader, r) := addLoaders r policy cache handler
  ⟨{ realm := r, maxDepth := maxDepth, entry := loader }, parent, loader⟩

/-- The same classes and objects under new loaders. -/
def renew (c : Context) (policy : AcquisitionPolicy) (cache : ClassCache) (handler : HandlerRef) :
    Context :=
  let (parent, loader, r) := addLoaders c.machine.realm policy cache handler
  ⟨{ c.machine with realm := r, depth := 0, entry := loader }, parent, loader⟩

/-- The cache that a configuration asks for: on disk, or new and empty. -/
def openCache (config : Config) (s : Storage) : Except ConfigError ClassCache × Storage :=
  match config.validate with
  | .error e => (.error e, s)
  | .ok () =>
    if config.cacheEnabled then
      match ClassCache.openDisk s config.cachePath config.cacheVersion with
      | (.error e, s) => (.error (.cache e), s)
      | (.ok cache, s) => (.ok cache, s)
    else
      let (store, s) := s.addStore
      (.ok { backend := .memory store, version := config.cacheVersion }, s)

end Context

end Interpose
