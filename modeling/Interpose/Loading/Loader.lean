import Interpose.Instrument.Transform
import Interpose.Loading.Realm
/-!
# Loading

A loader is asked for a class by name. It answers with the class that it remembers, or defines it:
reads and verifies the class file, loads the superclass, and prepares the class for execution. What
it has defined it remembers, and a load that fails leaves nothing behind.

The instrumenting loader leaves classes that its policy does not acquire to its parent, a bootstrap
loader, and puts instrumentation between reading and defining. Instrumented classes come from the
cache where it has them. A cached class is verified like a fresh one, but nothing compares it with
the class that was asked for.

Loading a class loads its superclasses through the same loader. The names in the middle of being
loaded are different names of classes that could be read, so the number of readable classes bounds
how deep this goes; that bound is the fuel.
-/

namespace Interpose

/-- A computation that loads classes. A failure keeps the changes made before it. -/
abbrev Load := ExceptT LoadError (StateM Realm)

namespace Load

/-- Fails. -/
def fail {α : Type} (e : LoadError) : Load α := throw e

/-- Runs a computation and hands over how it went. -/
def attempt {α : Type} (x : Load α) : Load (Except LoadError α) := fun r =>
  let (result, r) := x r
  (.ok result, r)

/-- Changes a loader. -/
def updateLoader (l : LoaderRef) (f : Loader → Loader) : Load Unit :=
  modify fun r => r.modifyLoader l f

/-- Answers with the class that a loader remembers under a name, or defines it and remembers it. The
name counts as being loaded as long as the definition takes. -/
def memoized (l : LoaderRef) (name : String) (define : Load ClassRef) : Load ClassRef := do
  let r ← get
  match r.loaded? l name with
  | some c => return c
  | none =>
    if (r.loader l).loading.contains name then fail (.link (.circular name))
    else
      updateLoader l fun x => { x with loading := name :: x.loading }
      let result ← attempt define
      updateLoader l fun x => { x with loading := x.loading.erase name }
      match result with
      | .error e => fail e
      | .ok c =>
        updateLoader l fun x => { x with classes := (name, c) :: x.classes }
        return c

/-- Reads and verifies the class file of a name. -/
def readClassFile (name : String) : Load ClassFile := do
  let r ← get
  match r.resources.read r.files name with
  | .error e => fail (.io name e)
  | .ok none => fail (.classNotFound name)
  | .ok (some bytes) =>
    match ClassFile.decode bytes with
    | .error e => fail (.malformed name e)
    | .ok file =>
      if file.name ≠ name then fail (.link (.misnamed name file.name))
      else
        match file.verify with
        | .error e => fail (.verify name e)
        | .ok () => return file

/-- Defines a class file below a superclass. -/
def define (definer : Definer) (superclass? : Option ClassRef) (file : ClassFile) :
    Load ClassRef := do
  let r ← get
  match LoadedClass.define definer (superclass?.map fun s => (s, r.classes.get s)) file with
  | .error e => fail (.link (.define e))
  | .ok c =>
    let (ref, classes) := r.classes.add c
    set { r with classes := classes }
    return ref

/-- Loads the superclass of a class file, if it has one. -/
def superclass (load : String → Load ClassRef) (file : ClassFile) : Load (Option ClassRef) :=
  match file.superName with
  | none => return none
  | some name => return some (← load name)

/-! ### The bootstrap loader -/

/-- Loads a class as it is stored. -/
def bootstrap (l : LoaderRef) : Nat → String → Load ClassRef
  | 0, name => fail (.link (.circular name))
  | depth + 1, name => memoized l name do
    let file ← readClassFile name
    let s ← superclass (bootstrap l depth) file
    define { loader := l } s file

/-! ### The instrumenting loader -/

/-- The class that the cache holds for a name, if it holds one that decodes. -/
def cached (l : LoaderRef) (cache : ClassCache) (name : String) : Load (Option ClassFile) := do
  match cache.get? (← get).storage name with
  | none => return none
  | some bytes =>
    match ClassFile.decode bytes with
    | .error _ => return none
    | .ok file =>
      updateLoader l fun x => { x with cacheHits := x.cacheHits + 1 }
      return some file

/-- Instruments a class and offers it to the cache, which may fail to take it. -/
def transform (l : LoaderRef) (cache : ClassCache) (name : String) (file : ClassFile) :
    Load ClassFile := do
  match file.transform with
  | .error e => fail (.transform e)
  | .ok transformed =>
    updateLoader l fun x => { x with transforms := x.transforms + 1 }
    modify fun r => { r with storage := (cache.put r.storage name transformed.encode).2 }
    return transformed

/-- The instrumented form of a class: the cached one, or a fresh one. It has to verify. -/
def instrument (l : LoaderRef) (cache : ClassCache) (name : String) (file : ClassFile) :
    Load ClassFile := do
  let transformed ← match ← cached l cache name with
    | some c => pure c
    | none => transform l cache name file
  match transformed.verify with
  | .error e =>
    fail (.transform (.invariantViolation name "*"
      s!"transformed class fails verification: {e.message}"))
  | .ok () => return transformed

/-- Loads a class, instrumented if the policy says so, or leaves it to the parent. -/
def instrumenting (l : LoaderRef) (work : Instrumentation) (parent : String → Load ClassRef) :
    Nat → String → Load ClassRef
  | 0, name => fail (.link (.circular name))
  | depth + 1, name => memoized l name do
    if !work.policy.acquires name then parent name
    else
      let file ← readClassFile name
      let instrumented := work.policy.instruments file
      let file ← if instrumented then instrument l work.cache name file else pure file
      let s ← superclass (instrumenting l work parent depth) file
      define { loader := l, instrumented := instrumented, handler? := some work.handler } s file

/-- How deep superclasses can be nested. -/
def depthBound : Load Nat := do
  let r ← get
  return r.resources.bound r.files + 1

/-- Loads a class through a loader. -/
def load (l : LoaderRef) (name : String) : Load ClassRef := do
  let depth ← depthBound
  match ((← get).loader l).kind with
  | .bootstrap => bootstrap l depth name
  | .instrumenting work => instrumenting l work (bootstrap work.parent depth) depth name

end Load

end Interpose
