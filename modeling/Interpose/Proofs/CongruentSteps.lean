import Interpose.Machine.Step
import Interpose.Proofs.Congruences
/-!
# Congruences of instructions

Every instruction is put together from computations of the machine that are related to themselves and
from computations of the frame, which leave the machine alone. Three of them execute methods: a call,
the creation of an object and an access to a static field, the latter two by way of an initialization.
The dispatch instructions leave it to plans.

## Main definitions

* `Act.Related`: related computations inside a frame

## Main results

* `Act.step_related`: instructions
-/

namespace Interpose

/-- Whether an instruction executes methods of its own accord, and not by an initialization. -/
def Instruction.calls : Instruction → Bool
  | .invoke _ _ => true
  | .simple .methodInvoked => true
  | .simple .classInitializing => true
  | _ => false

namespace Act

variable {α β : Type}

/-- Computations that are related, whatever the frame is. -/
class Related (R : Run.Congruence) (x y : Act α) : Prop where
  run : ∀ f, R.Related (x f) (y f)

variable {R : Run.Congruence}

namespace Related

instance pure (a : α) : Related R (pure a) (pure a) := ⟨fun f => .pure (a, f)⟩

theorem seq {x y : Act α} {g k : α → Act β} [hx : Related R x y]
    (hg : ∀ a, Related R (g a) (k a)) :
    Related R (x >>= g) (y >>= k) :=
  ⟨fun f => have := hx.run f; .seq fun p => (hg p.1).run p.2⟩

instance bind {x y : Act α} {g k : α → Act β} [hx : Related R x y]
    [hg : ∀ a, Related R (g a) (k a)] : Related R (x >>= g) (y >>= k) := .seq hg

instance lift {x y : Run α} [hx : R.Related x y] : Related R (liftM x) (liftM y) :=
  ⟨fun f => .seq fun a => .pure (a, f)⟩

instance fail (e : VmError) : Related R (Act.fail e : Act α) (Act.fail e) :=
  lift (x := Run.fail e) (y := Run.fail e)

instance get : Related R (get : Act Frame) get := ⟨fun f => .pure (f, f)⟩

instance set (f : Frame) : Related R (set f : Act Unit) (set f) := ⟨fun _ => .pure ((), f)⟩

instance modify (g : Frame → Frame) : Related R (modify g : Act Unit) (modify g) :=
  ⟨fun f => .pure ((), g f)⟩

instance ite {p : Prop} [Decidable p] {x x' y y' : Act α} [Related R x y] [Related R x' y'] :
    Related R (if p then x else x') (if p then y else y') := by
  split <;> assumption

end Related

/-! ### Frames -/

instance machine_related : Related R machine machine := Related.lift (x := get) (y := get)

instance push_related (v : Value) : Related R (push v) (push v) := Related.modify _

instance pop_related : Related R pop pop := by
  refine .seq fun f => ?_
  split <;> infer_instance

instance peek_related : Related R peek peek := by
  refine .seq fun f => ?_
  split <;> infer_instance

instance popMany_related (count : Nat) : Related R (popMany count) (popMany count) := by
  unfold popMany
  infer_instance

instance jump_related (target : Nat) : Related R (jump target) (jump target) := Related.modify _

instance readLocal_related (slot : UInt16) : Related R (readLocal slot) (readLocal slot) := by
  refine .seq fun f => ?_
  split <;> infer_instance

instance writeLocal_related (slot : UInt16) (v : Value) :
    Related R (writeLocal slot v) (writeLocal slot v) := by
  unfold writeLocal
  infer_instance

instance currentClass_related : Related R currentClass currentClass := by
  unfold currentClass
  infer_instance

instance constant_related (table : PoolTable) (index : UInt32) (find : Pool → UInt32 → Option α) :
    Related R (constant table index find) (constant table index find) := by
  refine .seq fun k => ?_
  split <;> infer_instance

/-! ### Operators -/

instance integerOp_related (op : IntOp) : Related R (integerOp op) (integerOp op) := by
  have hrest : Related R
      (do
        let b ← pop
        let a ← pop
        match a, b with
        | .int x, .int y => push (.int (op.int x y))
        | a, b =>
          let x ← Run.asLong a
          let y ← Run.asLong b
          push (.long (op.long x y)))
      (do
        let b ← pop
        let a ← pop
        match a, b with
        | .int x, .int y => push (.int (op.int x y))
        | a, b =>
          let x ← Run.asLong a
          let y ← Run.asLong b
          push (.long (op.long x y))) := by
    refine .seq fun b => .seq fun a => ?_
    split <;> infer_instance
  unfold integerOp
  split
  · refine .seq fun b => .seq fun n => ?_
    split
    · exact .seq fun _ => hrest
    · exact hrest
  · exact hrest

instance negate_related : Related R negate negate := by
  refine .seq fun v => ?_
  split <;> infer_instance

instance doubleOp_related (op : FloatOp) : Related R (doubleOp op) (doubleOp op) := by
  unfold doubleOp
  infer_instance

instance compare_related (rel : Relation) : Related R (compare rel) (compare rel) := by
  unfold compare
  infer_instance

instance compareValues_related (expected : Bool) :
    Related R (compareValues expected) (compareValues expected) := by
  unfold compareValues
  infer_instance

instance concat_related : Related R concat concat := by
  unfold concat
  infer_instance

/-! ### Arrays -/

instance newArray_related : Related R newArray newArray := by
  unfold newArray
  infer_instance

instance arrayLoad_related : Related R arrayLoad arrayLoad := by
  unfold arrayLoad
  infer_instance

instance arrayStore_related : Related R arrayStore arrayStore := by
  unfold arrayStore
  infer_instance

instance arrayLength_related : Related R arrayLength arrayLength := by
  unfold arrayLength
  infer_instance

/-! ### Dispatch -/

instance handler_related (handlers : Handlers) : Related R (handler handlers) (handler handlers) := by
  refine .seq fun k => ?_
  split <;> infer_instance

instance recordPart_related (part : RecordPart) (a : Option α) :
    Related R (recordPart part a) (recordPart part a) := by
  cases a with
  | some a => exact .pure a
  | none => exact .fail _

instance elements_related (a : ArrayRef) : Related R (elements a) (elements a) := by
  unfold elements
  infer_instance

instance popRecord_related : Related R popRecord popRecord := by
  refine .seq fun args => .seq fun types => .seq fun receiver => .seq fun name => ?_
  refine .seq fun owner => ?_
  infer_instance

instance shouldCallDirectly_related (handlers : Handlers) :
    Related R (shouldCallDirectly handlers) (shouldCallDirectly handlers) := by
  unfold shouldCallDirectly
  infer_instance

/-! ### Classes and fields -/

instance classConstant_related (index : UInt32) :
    Related R (classConstant index) (classConstant index) := by
  unfold classConstant
  infer_instance

instance fieldConstant_related (index : UInt32) :
    Related R (fieldConstant index) (fieldConstant index) := by
  unfold fieldConstant
  infer_instance

instance staticMissing_related (c : ClassRef) (slot : Nat) :
    Related R (staticMissing c slot) (staticMissing c slot) := by
  unfold staticMissing
  infer_instance

instance instanceOf_related (index : UInt32) : Related R (instanceOf index) (instanceOf index) := by
  refine .seq fun v => ?_
  split <;> infer_instance

instance classOf_related : Related R classOf classOf := by
  unfold classOf
  infer_instance

instance popCall_related (kind : CallKind) (descriptor : String) :
    Related R (popCall kind descriptor) (popCall kind descriptor) := by
  unfold popCall
  split <;> infer_instance

instance taken_related (condition : Condition) : Related R (taken condition) (taken condition) := by
  cases condition <;> unfold taken <;> infer_instance

/-! ### Instructions that execute methods -/

section Executing

variable {execute execute' : Execute}
variable [hinit : ∀ c, R.Related (Run.initializeClass execute c) (Run.initializeClass execute' c)]

instance staticConstant_related (index : UInt32) :
    Related R (staticConstant execute index) (staticConstant execute' index) := by
  unfold staticConstant
  infer_instance

instance accessField_related (index : UInt32) (access : FieldAccess) :
    Related R (accessField execute index access) (accessField execute' index access) := by
  cases access <;> unfold accessField <;> infer_instance

instance newObject_related (index : UInt32) :
    Related R (newObject execute index) (newObject execute' index) := by
  unfold newObject
  infer_instance

instance callTarget_related (kind : CallKind) (ref : MethodRef) (args : List Value) :
    Related R (callTarget execute kind ref args) (callTarget execute' kind ref args) := by
  cases kind <;> unfold callTarget <;> infer_instance

/-- Instructions that execute methods at most by way of an initialization. -/
theorem step_related_of_not_calls (handlers : Handlers) {i : Instruction} (h : i.calls = false) :
    Related R (step execute handlers i) (step execute' handlers i) := by
  cases i with
  | invoke => cases h
  | simple op =>
    unfold step
    cases op with
    | methodInvoked => cases h
    | classInitializing => cases h
    | _ =>
      unfold simple
      infer_instance
  | unbox tag =>
    simp only [step]
    split <;> infer_instance
  | _ =>
    unfold step
    infer_instance

variable [he : ∀ c i args, R.Related (execute c i args) (execute' c i args)]

instance methodInvoked_related (handlers : Handlers) :
    Related R (methodInvoked execute handlers) (methodInvoked execute' handlers) := by
  unfold methodInvoked
  infer_instance

instance classInitializing_related (handlers : Handlers) :
    Related R (classInitializing execute handlers) (classInitializing execute' handlers) := by
  unfold classInitializing
  infer_instance

instance invoke_related (kind : CallKind) (index : UInt32) :
    Related R (invoke execute kind index) (invoke execute' kind index) := by
  unfold invoke
  infer_instance

/-- **Instructions.** -/
instance step_related (handlers : Handlers) (i : Instruction) :
    Related R (step execute handlers i) (step execute' handlers i) := by
  cases hi : i.calls with
  | false => exact step_related_of_not_calls handlers hi
  | true =>
    cases i with
    | invoke kind index =>
      unfold step
      infer_instance
    | simple op =>
      unfold step
      cases op with
      | methodInvoked =>
        unfold simple
        infer_instance
      | classInitializing =>
        unfold simple
        infer_instance
      | _ => cases hi
    | _ => cases hi

end Executing

end Act

end Interpose
