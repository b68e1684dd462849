import Interpose.Machine.Step
/-!
# Execution

Executing a method: the checks at its door, one call deeper, and its instructions one after the
other until one of them returns. A call made on the way, and whatever a handler has done on its
behalf, is executed in the same manner with less fuel.

Fuel bounds both how many instructions a body may take and how deep executions may be nested. More
fuel never changes an outcome, it only adds outcomes; `execution` fixes an amount that no run
exhausts that would end in practice.
-/

namespace Interpose

/-- Runs a body from where its frame stands until it returns. -/
def Frame.run (handlers : Handlers) (execute : Execute) (owner : String) (m : LoadedMethod) :
    Nat → Frame → Run Value
  | 0, _ => Run.outOfFuel
  | fuel + 1, f =>
    match m.code[f.pc]? with
    | none => Run.fail (.type (.pastEnd owner m.name))
    | some i => do
      match ← (Act.step execute handlers i).run { f with pc := f.pc + 1 } with
      | (some result, _) => return result
      | (none, f) => Frame.run handlers execute owner m fuel f

/-- Why a method cannot be entered, if it cannot: it has no body, it is handed the wrong number of
values, or calls are nested too deep. -/
def LoadedMethod.obstacle? (m : LoadedMethod) (owner : String) (args : List Value)
    (machine : Machine) : Option VmError :=
  if m.isNative then some (.unsatisfiedLink owner m.name m.descriptor)
  else if m.isAbstract then some (.abstractMethod owner m.name m.descriptor)
  else if args.length ≠ m.argumentCount then
    some (.type (.arity owner m.name m.argumentCount args.length))
  else if machine.maxDepth ≤ machine.depth then some .stackOverflow
  else none

/-- Enters a method and runs it. -/
def Run.enter (handlers : Handlers) (execute : Execute) (fuel : Nat) : Execute := fun c i args => do
  let machine ← get
  let k := machine.cls c
  match k.methods[i]? with
  | none => fail (.noSuchMethod (.position k.name i))
  | some m =>
    match m.obstacle? k.name args machine with
    | some e => fail e
    | none => deeper (Frame.run handlers execute k.name m fuel (.enter c m.maxLocals.toNat args))

/-- Executes methods with bounded fuel. -/
def executeWith (handlers : Handlers) : Nat → Execute
  | 0 => fun _ _ _ => Run.outOfFuel
  | fuel + 1 => Run.enter handlers (executeWith handlers fuel) fuel

/-- The fuel of ordinary runs. -/
def ordinaryFuel : Nat := 1000000000000000

/-- Executes methods. -/
def execution (handlers : Handlers) : Execute := executeWith handlers ordinaryFuel

end Interpose
