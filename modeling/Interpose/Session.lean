import Interpose.Dispatch.Recorder
import Interpose.Report
/-!
# Sessions

A context that is worked with step by step: a machine, the handlers it has been given, the cache
behind its instrumenting loader, and the configuration it was made from. Besides what can be asked
of the machine, a session can be asked to change its handler, to look into its cache, to define
classes outside any loader, and to start over with new loaders.

A session belongs to one of three *benches*. On a recorder's or a wrangler's bench the handler and
the storage of the cache are kept when loaders are renewed. A configured bench starts over as a
configuration says, with a new wrangler and, unless the cache is on disk, an empty cache.
-/

namespace Interpose

/-- A handler that a session can change. -/
inductive Installed
  | recorder (r : Recorder)
  | wrangler (w : Wrangler)

namespace Installed

def handler : Installed → Handler
  | recorder r => r.handler
  | wrangler w => w.handler

/-- Switches direct mode. -/
def setDirect (on : Bool) : Installed → Installed
  | recorder r => recorder { r with direct := on }
  | wrangler w => wrangler (w.setDirect on)

/-- Switches strictness, which a recorder knows nothing of. -/
def setStrict (on : Bool) : Installed → Installed
  | recorder r => recorder r
  | wrangler w => wrangler (w.setStrict on)

def reset : Installed → Installed
  | recorder r => recorder r.reset
  | wrangler w => wrangler w.reset

end Installed

/-- The kinds of session. -/
inductive Bench
  | recorder (start : Recorder)
  | wrangler
  | configured
  deriving DecidableEq, Repr, Inhabited

/-- What a session starts from. -/
structure SessionPlan where
  bench : Bench
  config : Config
  /-- Whether the cache is for reading only, which a configured bench does not offer. -/
  readOnlyCache : Bool := false
  deriving DecidableEq, Repr, Inhabited

/-- Why a step of a session fails. -/
inductive StepError
  | vm (cause : VmError)
  | load (cause : LoadError)
  | define (cause : DefineError)
  | cache (cause : CacheError)
  | config (cause : ConfigError)
  | file (cause : FileError)
  /-- The handler of the session is no wrangler. -/
  | noWrangler
  | outOfFuel

/-- The report of a failed step, with thrown values shown by a function. -/
def StepError.report (shown : Value → String) : StepError → Report
  | vm cause => ⟨cause.kind, cause.message shown⟩
  | load cause => Reportable.report cause
  | define cause => Reportable.report cause
  | cache cause => Reportable.report cause
  | config cause => Reportable.report cause
  | file cause => Reportable.report cause
  | noWrangler => ⟨"NoWrangler", none⟩
  | outOfFuel => ⟨"OutOfFuel", none⟩

/-- A context at work. -/
structure Session where
  plan : SessionPlan
  context : Context
  cache : ClassCache
  /-- All handlers that loaders have been given; the last one is in use. -/
  handlers : Array Installed
  deriving Inhabited

/-- A step of a session. What a failed step did before it failed stays done. -/
abbrev SessionStep := ExceptT StepError (StateM Session)

namespace SessionPlan

variable (p : SessionPlan)

/-- The handler that a bench starts with. -/
def newHandler : Installed :=
  match p.bench with
  | .recorder start => .recorder start
  | .wrangler | .configured => .wrangler (.new p.config.wranglerOptions)

/-- The store in memory that benches with one keep it in. -/
def sharedStore : StoreRef := ⟨0⟩

/-- The cache of the bench. -/
def openCache (s : Storage) : Except StepError ClassCache × Storage :=
  match p.bench with
  | .configured =>
    let (r, s) := Context.openCache p.config s
    (r.mapError .config, s)
  | .recorder _ | .wrangler =>
    let (r, s) :=
      if p.config.cacheEnabled then
        ClassCache.openDisk s p.config.cachePath p.config.cacheVersion
      else (.ok { backend := .memory sharedStore, version := p.config.cacheVersion }, s)
    ((r.map fun c => if p.readOnlyCache then c.readOnly else c).mapError .cache, s)

/-- The id of the process that the first one of its namespace starts. -/
def firstStarted : Nat := 2

/-- Starts a session over some class files, in a file tree, as the process of an id. -/
def start (resources : Resources) (files : FileTree) (process : Nat := firstStarted) :
    Except StepError Session := do
  let (cache, storage) := p.openCache { stores := #[{}], disk := { files := files, writer := process } }
  let cache ← cache
  let realm : Realm := { resources := resources, storage := storage }
  return {
    plan := p
    context := .new realm p.config.policy.decisions cache ⟨0⟩ p.config.maxDepth
    cache := cache
    handlers := #[p.newHandler] }

end SessionPlan

namespace Session

variable (s : Session)

/-- The handler in use. -/
def current : HandlerRef := ⟨s.handlers.size - 1⟩

/-- The handlers, as the machine sees them. -/
def dispatch : Handlers := fun h => ((s.handlers[h.index]?).map Installed.handler).getD default

/-- How methods are executed. -/
def execute : Execute := execution s.dispatch

/-- The machine with something done to it. -/
def withMachine (f : Machine → Machine) : Session :=
  { s with context := { s.context with machine := f s.context.machine } }

end Session

namespace SessionStep

variable {α : Type}

def fail (e : StepError) : SessionStep α := throw e

/-- The machine of the session. -/
def machine : SessionStep Machine := return (← get).context.machine

def updateMachine (f : Machine → Machine) : SessionStep Unit := modify (·.withMachine f)

def updateRealm (f : Realm → Realm) : SessionStep Unit :=
  updateMachine fun m => { m with realm := f m.realm }

/-- Runs a computation on the machine. -/
def run (x : Run α) : SessionStep α := do
  match x (← machine) with
  | none => fail .outOfFuel
  | some (r, m) =>
    updateMachine fun _ => m
    match r with
    | .ok a => return a
    | .error e => fail (.vm e)

/-- Makes a request of the machine. -/
def request (r : Request) : SessionStep Value := do run (r.run (← get).execute)

/-- Carries a plan out. -/
def carryOut (p : Plan) : SessionStep Value := do run (p.run (← get).execute)

/-- Empties the journal. -/
def forgetEvents : SessionStep Unit := updateMachine fun m => { m with journal := #[] }

/-- Takes an operation's result, failures apart. -/
def ofExcept {ε : Type} (wrap : ε → StepError) : Except ε α → SessionStep α
  | .ok a => return a
  | .error e => fail (wrap e)

/-! ### The handler -/

/-- The handler in use. -/
def handler : SessionStep Handler := do
  let s ← get
  return s.dispatch s.current

def updateHandler (f : Installed → Installed) : SessionStep Unit :=
  modify fun s => { s with handlers := s.handlers.modify s.current.index f }

/-- The wrangler in use. -/
def wrangler : SessionStep Wrangler := do
  let s ← get
  match s.handlers[s.current.index]? with
  | some (.wrangler w) => return w
  | _ => fail .noWrangler

/-- Gives a class a shadow, and answers with the one it had. -/
def bind (target : String) (shadow : Shadow) : SessionStep (Option Shadow) := do
  let w ← wrangler
  updateHandler fun _ => .wrangler (w.bind target shadow)
  return w.binding? target

/-- Takes the shadow of a class away, and answers with it. -/
def unbind (target : String) : SessionStep (Option Shadow) := do
  let w ← wrangler
  updateHandler fun _ => .wrangler (w.unbind target)
  return w.binding? target

/-! ### Classes -/

/-- Loads a class through the bootstrap loader. -/
def loadFromParent (name : String) : SessionStep ClassRef := do
  let s ← get
  let (r, realm) := Load.load s.context.parent name s.context.machine.realm
  updateRealm fun _ => realm
  ofExcept .load r

/-- Defines a class file as the instrumenting loader would, without verifying it and without any
loader remembering it. -/
def define (file : ClassFile) (superclass? : Option ClassRef) (instrumented orphan : Bool) :
    SessionStep ClassRef := do
  let s ← get
  let t := s.context.machine.classes
  let definer : Definer := ⟨s.context.loader, orphan, instrumented, some s.current⟩
  let c ← ofExcept .define
    (LoadedClass.define definer (superclass?.map fun k => (k, t.get k)) file)
  let (ref, t) := t.add c
  updateMachine (·.updateClasses fun _ => t)
  return ref

/-- Writes a static slot, and answers whether it is there. -/
def setStaticSlot (c : ClassRef) (slot : Nat) (v : Value) : SessionStep Bool := do
  let there := ((← machine).classes.static? c slot).isSome
  updateMachine (·.updateClasses (·.setStatic c slot v))
  return there

/-- Holds a class file in memory, wherever the loaders read from. -/
def addResource (name : String) (bytes : Bytes) : SessionStep Unit :=
  updateRealm fun r => { r with resources := r.resources.insert name bytes }

/-! ### The cache -/

/-- The bytes in the cache under a name. -/
def cached (name : String) : SessionStep (Option Bytes) := do
  let s ← get
  return s.cache.get? s.context.machine.realm.storage name

/-- Puts bytes into the cache. -/
def putCached (name : String) (bytes : Bytes) : SessionStep Unit := do
  let s ← get
  let (r, storage) := s.cache.put s.context.machine.realm.storage name bytes
  updateRealm fun r => { r with storage := storage }
  ofExcept .cache r

/-- Entries in the store that benches share among their loaders. -/
def sharedEntries : SessionStep Nat := do
  return ((← machine).realm.storage.store SessionPlan.sharedStore).size

/-- The entry of a cache on disk, or why it cannot be read. A cache in memory has nothing to say. -/
def readEntry (name : String) : SessionStep (Option Bytes) := do
  let s ← get
  match s.cache.backend with
  | .memory _ => return none
  | .disk root =>
    ofExcept .cache
      (s.context.machine.realm.storage.disk.readEntry root s.cache.version name)

/-- Closes the cache for writing, for those who look into it through the session. -/
def closeCache : SessionStep Unit := modify fun s => { s with cache := s.cache.readOnly }

/-- The files that the session works on. -/
def files : SessionStep FileTree := return (← machine).realm.files

/-- Changes the files behind the back of the cache. -/
def updateFiles (f : FileTree → Except FileError FileTree) : SessionStep Unit := do
  let files ← ofExcept .file (f (← files))
  updateRealm fun r =>
    { r with storage := { r.storage with disk := { r.storage.disk with files := files } } }

/-! ### Starting over -/

/-- Renews the loaders, with the cache at another version if one is given. -/
def reload (version? : Option UInt32) : SessionStep Unit := do
  let s ← get
  let version := version?.getD s.plan.config.cacheVersion
  let plan := { s.plan with config := { s.plan.config with cacheVersion := version } }
  let (cache, storage) := plan.openCache s.context.machine.realm.storage
  updateRealm fun r => { r with storage := storage }
  let cache ← ofExcept id cache
  modify fun s =>
    let handlers := match plan.bench with
      | .configured => s.handlers.push plan.newHandler
      | .recorder _ | .wrangler => s.handlers
    let s := { s with plan := plan, cache := cache, handlers := handlers }
    { s with context := s.context.renew plan.config.policy.decisions cache s.current }

end SessionStep

end Interpose
