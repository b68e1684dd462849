import Interpose.Instrument.Naming
import Interpose.Machine.Basic
/-!
# What can be asked of the machine

Creating objects, calling methods, reading and writing fields, initializing classes, and the three
operations that dispatch handlers live on: running the body behind an intercepted call, calling a
method past its stub, and running a deferred static initializer.

Executing a method is a parameter throughout. So each request is defined without recursion, whatever
code it goes on to run.
-/

namespace Interpose

/-- Executes the method at a position of a class with its receiver, if any, and its arguments. -/
abbrev Execute := ClassRef → Nat → List Value → Run Value

/-- A request to the machine. Classes named by a text are loaded through the machine's loader. -/
inductive Request
  | loadClass (name : String)
  | initializeClass (cls : ClassRef)
  /-- Runs the declared static initializer, as often as it is asked for. -/
  | performInitializer (cls : ClassRef)
  | newInstance (cls descriptor : String) (args : List Value)
  | callVirtual (receiver : Value) (name descriptor : String) (args : List Value)
  | callSpecial (cls : ClassRef) (receiver : Value) (name descriptor : String) (args : List Value)
  | callStatic (cls name descriptor : String) (args : List Value)
  /-- Runs the body behind an intercepted call. -/
  | callDirect (call : CallRecord)
  /-- Calls a method past its stub. -/
  | directlyOn (receiver : Value) (name descriptor : String) (args : List Value)
  | getField (receiver : Value) (name : String)
  | setField (receiver : Value) (name : String) (value : Value)
  | getStatic (cls name : String)
  | setStatic (cls name : String) (value : Value)
  deriving DecidableEq, Repr, Inhabited

namespace Run

variable (execute : Execute)

/-! ### Initialization -/

/-- Runs the static initializer that a class declares, if it declares one. -/
def runInitializer (c : ClassRef) : Run Unit := do
  match ((← get).cls c).declaredMethod? staticInitializerName "()V" with
  | some i =>
    let _ ← execute c i []
  | none => pure ()

/-- Initializes the first class of a lineage, behind its superclasses, unless it has been begun. A
class whose initialization fails can be initialized again. -/
def initializeLineage : List ClassRef → Run Unit
  | [] => pure ()
  | c :: supers => do
    match ((← get).cls c).state with
    | .initializing | .initialized => pure ()
    | .uninitialized =>
      modify fun m => m.updateClasses (·.setState c .initializing)
      let result ← attempt do
        initializeLineage supers
        runInitializer execute c
      let outcome := match result with
        | .ok _ => InitState.initialized
        | .error _ => InitState.uninitialized
      modify fun m => m.updateClasses (·.setState c outcome)
      resume result

/-- Initializes a class, behind its superclasses. -/
def initializeClass (c : ClassRef) : Run Unit := do
  initializeLineage execute ((← get).classes.lineage c)

/-- Runs the declared static initializer of an instrumented class. Other classes are initialized. -/
def performInitializer (c : ClassRef) : Run Unit := do
  let k := (← get).cls c
  if !k.instrumented then initializeClass execute c
  else
    match k.declaredMethod? staticInitializerBodyName "()V" with
    | some i =>
      let _ ← execute c i []
    | none => pure ()

/-! ### Resolution -/

/-- The nearest method of a class; failures name the class as they were given it. -/
def resolveMethod (c : ClassRef) (owner name descriptor : String) : Run (ClassRef × Nat) := do
  match (← get).classes.resolveMethod? c name descriptor with
  | some found => return found
  | none => fail (.noSuchMethod (.named owner name descriptor))

/-- A method that the class itself declares. -/
def declaredMethod (c : ClassRef) (owner name descriptor : String) : Run Nat := do
  match ((← get).cls c).declaredMethod? name descriptor with
  | some i => return i
  | none => fail (.noSuchMethod (.named owner name descriptor))

/-- The nearest method of a receiver's class. -/
def resolveVirtual (o : ObjectRef) (name descriptor : String) : Run (ClassRef × Nat) := do
  let m ← get
  let c := m.classOf o
  resolveMethod c (m.cls c).name name descriptor

/-- The slot of an instance field. -/
def resolveField (c : ClassRef) (owner name : String) : Run Nat := do
  match (← get).classes.resolveField? c name with
  | some slot => return slot
  | none => fail (.noSuchField (.named owner name))

/-- The class and slot of a static field. -/
def resolveStatic (c : ClassRef) (owner name : String) : Run (ClassRef × Nat) := do
  match (← get).classes.resolveStatic? c name with
  | some found => return found
  | none => fail (.noSuchField (.named owner name))

/-- Reads a static slot that was resolved by name. -/
def getStaticSlot (missing : MissingField) (c : ClassRef) (slot : Nat) : Run Value := do
  match (← get).classes.static? c slot with
  | some v => return v
  | none => fail (.noSuchField missing)

/-- Writes a static slot that was resolved by name. -/
def setStaticSlot (missing : MissingField) (c : ClassRef) (slot : Nat) (v : Value) : Run Unit := do
  match (← get).classes.static? c slot with
  | some _ => modify fun m => m.updateClasses (·.setStatic c slot v)
  | none => fail (.noSuchField missing)

/-! ### Requests -/

/-- Creates an object and runs a constructor of its class on it. -/
def newInstance (cls descriptor : String) (args : List Value) : Run Value := do
  let c ← loadClass cls
  initializeClass execute c
  let i ← declaredMethod c cls constructorName descriptor
  let object ← allocate c
  let _ ← execute c i (object :: args)
  return object

/-- Calls the nearest method of the receiver's class. -/
def callVirtual (receiver : Value) (name descriptor : String) (args : List Value) : Run Value := do
  let o ← asObject receiver
  let (owner, i) ← resolveVirtual o name descriptor
  execute owner i (receiver :: args)

/-- Calls the nearest method of a given class. -/
def callSpecial (c : ClassRef) (receiver : Value) (name descriptor : String) (args : List Value) :
    Run Value := do
  let _ ← asObject receiver
  let (owner, i) ← resolveMethod c ((← get).cls c).name name descriptor
  execute owner i (receiver :: args)

/-- Calls a static method, after its class has been initialized. -/
def callStatic (cls name descriptor : String) (args : List Value) : Run Value := do
  let c ← loadClass cls
  initializeClass execute c
  let (owner, i) ← resolveMethod c cls name descriptor
  execute owner i args

/-- Runs the body behind an intercepted call. -/
def callDirect (call : CallRecord) : Run Value := do
  let m ← get
  let owner := m.cls call.owner
  match call.directMethod? m.classes with
  | none => fail (.dispatch (.directMethodNotFound owner.name call.method call.paramTypes))
  | some i =>
    if (owner.methods.getD i default).isStatic then execute call.owner i call.args
    else if call.receiver.isNull then fail (.dispatch (.missingReceiver owner.name call.method))
    else execute call.owner i (call.receiver :: call.args)

/-- Calls a method of the receiver's class past its stub: the receiver's marker, in the slot of the
class that declares the method, tells the stub so. -/
def directlyOn (receiver : Value) (name descriptor : String) (args : List Value) : Run Value := do
  let o ← asObject receiver
  let (owner, i) ← resolveVirtual o name descriptor
  let k := (← get).cls owner
  if k.instrumented then
    match k.declaredField? markerFieldName with
    | some slot => setSlot o slot receiver
    | none => pure ()
  execute owner i (receiver :: args)

/-- Reads an instance field by name. -/
def getField (receiver : Value) (name : String) : Run Value := do
  let o ← asObject receiver
  let m ← get
  let slot ← resolveField (m.classOf o) (m.cls (m.classOf o)).name name
  getSlot o slot

/-- Writes an instance field by name. -/
def setField (receiver : Value) (name : String) (v : Value) : Run Unit := do
  let o ← asObject receiver
  let m ← get
  let slot ← resolveField (m.classOf o) (m.cls (m.classOf o)).name name
  setSlot o slot v

/-- Finds a static field, after its class has been initialized. -/
def staticByName (cls name : String) : Run (ClassRef × Nat) := do
  let c ← loadClass cls
  initializeClass execute c
  resolveStatic c cls name

end Run

/-- Carries a request out. Requests without a result answer null. -/
def Request.run (execute : Execute) : Request → Run Value
  | loadClass name => return .cls (← Run.loadClass name)
  | initializeClass c => do
    Run.initializeClass execute c
    return .null
  | performInitializer c => do
    Run.performInitializer execute c
    return .null
  | newInstance cls descriptor args => Run.newInstance execute cls descriptor args
  | callVirtual receiver name descriptor args =>
    Run.callVirtual execute receiver name descriptor args
  | callSpecial c receiver name descriptor args =>
    Run.callSpecial execute c receiver name descriptor args
  | callStatic cls name descriptor args => Run.callStatic execute cls name descriptor args
  | callDirect call => Run.callDirect execute call
  | directlyOn receiver name descriptor args =>
    Run.directlyOn execute receiver name descriptor args
  | getField receiver name => Run.getField receiver name
  | setField receiver name v => do
    Run.setField receiver name v
    return .null
  | getStatic cls name => do
    let (owner, slot) ← Run.staticByName execute cls name
    Run.getStaticSlot (.named cls name) owner slot
  | setStatic cls name v => do
    let (owner, slot) ← Run.staticByName execute cls name
    Run.setStaticSlot (.named cls name) owner slot v
    return .null

end Interpose
