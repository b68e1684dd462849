import Interpose.Machine.Step
import Interpose.Proofs.Executions
/-!
# Deferred initializers

The static initializer of an instrumented class stands under another name, and what stands in its
place only notifies the handler. So a class has two methods that are nobody's business but that of
its initialization: the generated initializer, its *entry*, and the declared one, its *body*. The
handler has the body run, or does something else instead, the *override*.

A program may get at both all the same: it may call them by their names, ask for the body, or give
the notification of its own accord. Where it *abstains* from all that, its runs are the ones that are
defined first, which have no outcome where it does not. The others have no outcome where the class is
not treated as it should be: where the body is executed otherwise than in a *turn*, where a turn is
taken while the class is not in the middle of its initialization, or where one is taken in the course
of another. Nothing is said about them yet.

When its fuel ends, a run *lapses*: it is given up, or it fails, so that something can be said of runs
that would not come to an end.

## Main definitions

* `Deferral`: a class whose initializer is taken over
* `Deferral.abstaining`: executions that abstain from its entry and its body
* `Deferral.takeTurn`: a turn
* `Deferral.deferring`, `Deferral.idle`: executions where turns are taken, and where none are
-/

namespace Interpose

/-- A class whose static initializer is taken over. -/
structure Deferral where
  cls : ClassRef
  /-- The position of the generated initializer, which notifies the handler. -/
  entry : Nat
  /-- The position of the declared initializer. -/
  body : Nat
  /-- What is done instead of running the declared initializer. -/
  override? : Option (ClassRef → Plan)

/-- Runs a body from where its frame stands until it returns, what instructions do being given. -/
def Frame.runBy (step : Instruction → Act (Option Value)) (lapse : Run Value) (owner : String)
    (m : LoadedMethod) : Nat → Frame → Run Value
  | 0, _ => lapse
  | fuel + 1, f =>
    match m.code[f.pc]? with
    | none => Run.fail (.type (.pastEnd owner m.name))
    | some i => do
      match ← step i { f with pc := f.pc + 1 } with
      | (some result, _) => return result
      | (none, f) => Frame.runBy step lapse owner m fuel f

namespace Deferral

variable (d : Deferral)

/-- Calls, none of which gets to the entry or the body. -/
def bar (execute : Execute) : Execute := fun c i args =>
  if c = d.cls ∧ (i = d.entry ∨ i = d.body) then Run.outOfFuel else execute c i args

/-! ### Abstaining

Initialization is as it was. All other calls are barred, and so is what gets to the body by way of a
request. -/

section Abstaining

variable (execute : Execute)

/-- Carries a request out, unless it asks for the body. -/
def request : Request → Run Value
  | .performInitializer c => do
    if c = d.cls then Run.outOfFuel
    else
      Run.performInitializer execute c
      return .null
  | .newInstance cls descriptor args => do
    let c ← Run.loadClass cls
    Run.initializeClass execute c
    let i ← Run.declaredMethod c cls constructorName descriptor
    let object ← Run.allocate c
    let _ ← d.bar execute c i (object :: args)
    return object
  | .callVirtual receiver name descriptor args =>
    Run.callVirtual (d.bar execute) receiver name descriptor args
  | .callSpecial c receiver name descriptor args =>
    Run.callSpecial (d.bar execute) c receiver name descriptor args
  | .callStatic cls name descriptor args => do
    let c ← Run.loadClass cls
    Run.initializeClass execute c
    let (owner, i) ← Run.resolveMethod c cls name descriptor
    d.bar execute owner i args
  | .callDirect call => Run.callDirect (d.bar execute) call
  | .directlyOn receiver name descriptor args =>
    Run.directlyOn (d.bar execute) receiver name descriptor args
  | r => r.run execute

/-- Carries a plan out. -/
def plan : Plan → Run Value
  | .finish result => Run.resume result
  | .request r next => do
    let result ← Run.attempt (d.request execute r)
    plan (next result)
  | .look next => do
    plan (next (← get))
  | .note e next => do
    Run.note e
    plan next

/-- What a handler does about the initialization of a class. Where there is no override, the handler
may ask for the body itself. Of the class in question it is not to be notified but by its entry. -/
def notify (atEntry : Bool) (h : Handler) (c : ClassRef) : Run Value :=
  if c = d.cls then
    if atEntry then
      if d.override?.isSome then d.plan execute (h.classInitializing c)
      else (h.classInitializing c).run execute
    else Run.outOfFuel
  else d.plan execute (h.classInitializing c)

/-- Calls a method, as the instruction does. -/
def invoke (kind : CallKind) (index : UInt32) : Act Unit := do
  let ref ← Act.constant .method index Pool.method?
  let args ← Act.popCall kind ref.descriptor
  let (owner, i) ← Act.callTarget execute kind ref args
  let result ← d.bar execute owner i args
  if !Act.endsInVoid ref.descriptor then Act.push result

/-- Hands an intercepted call to the handler. -/
def methodInvoked (handlers : Handlers) : Act Unit := do
  let call ← Act.popRecord
  let h ← Act.handler handlers
  Act.push (← d.plan execute (h.methodInvoked call))

/-- Tells the handler that a static initializer is due. -/
def classInitializing (atEntry : Bool) (handlers : Handlers) : Act Unit := do
  let c ← Run.asClass (← Act.pop)
  let h ← Act.handler handlers
  let _ ← d.notify execute atEntry h c

/-- Does what an instruction says, at the entry or somewhere else. -/
def step (atEntry : Bool) (handlers : Handlers) : Instruction → Act (Option Value)
  | .invoke kind index => do d.invoke execute kind index; return none
  | .simple .methodInvoked => do d.methodInvoked execute handlers; return none
  | .simple .classInitializing => do d.classInitializing execute atEntry handlers; return none
  | i => Act.step execute handlers i

/-- Enters a method, the entry or some other, and runs it. -/
def enter (atEntry : Bool) (lapse : Run Value) (handlers : Handlers) (fuel : Nat) : Execute :=
  Run.enterBy .enforced fun owner m f =>
    Frame.runBy (d.step execute atEntry handlers) lapse owner m fuel f

end Abstaining

/-- Executes methods, where nothing but the initialization of the class gets to its entry and its
body. -/
def abstaining (lapse : Run Value) (handlers : Handlers) : Nat → Execute
  | 0 => fun _ _ _ => lapse
  | fuel + 1 => fun c i args =>
    d.enter (abstaining lapse handlers fuel) (decide (c = d.cls ∧ i = d.entry)) lapse handlers fuel c
      i args

/-! ### Turns -/

/-- Executes methods, with something else in place of the entry, and without the body. -/
def deferring (lapse : Run Value) (handlers : Handlers) (turn : Nat → List Value → Run Value) :
    Nat → Execute
  | 0 => fun _ _ _ => lapse
  | fuel + 1 => fun c i args =>
    if c = d.cls ∧ i = d.entry then turn fuel args
    else if c = d.cls ∧ i = d.body then Run.outOfFuel
    else d.enter (deferring lapse handlers turn fuel) false lapse handlers fuel c i args

/-- Executes methods, but neither the entry nor the body. -/
def idle (lapse : Run Value) (handlers : Handlers) : Nat → Execute :=
  d.deferring lapse handlers fun _ _ => Run.outOfFuel

/-- Executes the body, and from there neither the entry nor the body. -/
def executeBody (lapse : Run Value) (handlers : Handlers) : Nat → Run Value
  | 0 => lapse
  | fuel + 1 => d.enter (d.idle lapse handlers fuel) false lapse handlers fuel d.cls d.body []

/-- What is due in a turn: the override, or else the body. -/
def due (lapse : Run Value) (handlers : Handlers) (fuel : Nat) : Run Value :=
  match d.override? with
  | some override => d.plan (d.idle lapse handlers fuel) (override d.cls)
  | none => do
    let _ ← d.executeBody lapse handlers fuel
    return .null

/-- What is done in a turn. It takes three instructions, the second of which notifies the handler. -/
def turnBody (lapse : Run Value) (handlers : Handlers) (fuel : Nat) : Run Value :=
  if fuel < 2 then lapse
  else do
    let _ ← d.due lapse handlers fuel
    if fuel < 3 then lapse else return .null

/-- A turn: while the class is in the middle of its initialization, and there is room for a call, what
is due is done. -/
def takeTurn (lapse : Run Value) (handlers : Handlers) (fuel : Nat) (args : List Value) :
    Run Value := do
  if ((← get).cls d.cls).state = .initializing then
    Run.enterBy .enforced (fun _ _ _ => d.turnBody lapse handlers fuel) d.cls d.entry args
  else Run.outOfFuel

/-- A turn without an outcome where what is due succeeds. -/
def failTurn (lapse : Run Value) (handlers : Handlers) (fuel : Nat) (args : List Value) :
    Run Value := do
  let _ ← d.takeTurn lapse handlers fuel args
  Run.outOfFuel

end Deferral

end Interpose
