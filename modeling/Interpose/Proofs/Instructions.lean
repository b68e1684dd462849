import Interpose.Proofs.Descriptors
import Interpose.Proofs.Views
import Interpose.Verifier
/-!
# Simulations of instructions

Every instruction is simulated through every view, the second with its label moved like the program
counter. If the view knows its frames, the operands on the stack become fewer and more exactly as
the static effect of the instruction says, and control goes where the verifier expects it. This is
the one place where instructions are gone through one by one; all that is said about runs of the
interpreter elsewhere is an instance of it.

## Main results

* `View.step_sim`: instructions
-/

namespace Interpose

namespace View

variable {S : Simulation} {V : View S} {execute execute' : Execute} {handlers : Handlers}
variable {depth : Nat} {places : Nat → Prop}

/-! ### Operators -/

theorem expect_sim {α : Type} {P : Frame → Prop} {expected : String} {v : Value} {a : Option α} :
    V.Sim P P Eq (liftM (Run.expect expected v a)) (liftM (Run.expect expected v a)) :=
  Sim.lift Simulation.expect_sim

theorem binaryOp_sim (op : IntOp) :
    V.Sim (V.At (depth + 2) places) (V.At (depth + 1) places) Eq
      (do
        let b ← Act.pop
        let a ← Act.pop
        match a, b with
        | .int x, .int y => Act.push (.int (op.int x y))
        | a, b =>
          let x ← Run.asLong a
          let y ← Run.asLong b
          Act.push (.long (op.long x y)))
      (do
        let b ← Act.pop
        let a ← Act.pop
        match a, b with
        | .int x, .int y => Act.push (.int (op.int x y))
        | a, b =>
          let x ← Run.asLong a
          let y ← Run.asLong b
          Act.push (.long (op.long x y))) := by
  refine pop_sim.seq fun b => ?_
  refine pop_sim.seq fun a => ?_
  split
  · exact push_sim
  · refine expect_sim.seq fun x => ?_
    refine expect_sim.seq fun y => ?_
    exact push_sim

theorem integerOp_sim (op : IntOp) :
    V.Sim (V.At (depth + 2) places) (V.At (depth + 1) places) Eq (Act.integerOp op)
      (Act.integerOp op) := by
  unfold Act.integerOp
  refine Sim.ite (fun _ => ?_) fun _ => binaryOp_sim op
  refine peek_sim.seq fun b => ?_
  refine expect_sim.seq fun n => ?_
  refine Sim.ite (fun _ => ?_) fun _ => binaryOp_sim op
  have hfail : V.Sim (V.At (depth + 2) places) (V.At (depth + 2) places) Eq
      (Act.fail (.thrown (.text "ArithmeticException: / by zero")) : Act Unit)
      (Act.fail (.thrown (.text "ArithmeticException: / by zero"))) := Sim.failure rfl
  exact hfail.seq fun _ => binaryOp_sim op

theorem negate_sim :
    V.Sim (V.At (depth + 1) places) (V.At (depth + 1) places) Eq Act.negate Act.negate := by
  refine pop_sim.seq fun v => ?_
  split
  · exact push_sim
  · refine expect_sim.seq fun n => ?_
    exact push_sim

theorem doubleOp_sim (op : FloatOp) :
    V.Sim (V.At (depth + 2) places) (V.At (depth + 1) places) Eq (Act.doubleOp op)
      (Act.doubleOp op) := by
  refine pop_sim.seq fun v => ?_
  refine expect_sim.seq fun b => ?_
  refine pop_sim.seq fun v => ?_
  refine expect_sim.seq fun a => ?_
  exact push_sim

theorem compare_sim (rel : Relation) :
    V.Sim (V.At (depth + 2) places) (V.At (depth + 1) places) Eq (Act.compare rel)
      (Act.compare rel) := by
  refine pop_sim.seq fun v => ?_
  refine expect_sim.seq fun b => ?_
  refine pop_sim.seq fun v => ?_
  refine expect_sim.seq fun a => ?_
  exact push_sim

theorem compareValues_sim (expected : Bool) :
    V.Sim (V.At (depth + 2) places) (V.At (depth + 1) places) Eq (Act.compareValues expected)
      (Act.compareValues expected) := by
  refine pop_sim.seq fun b => ?_
  refine pop_sim.seq fun a => ?_
  exact push_sim

theorem concat_sim :
    V.Sim (V.At (depth + 2) places) (V.At (depth + 1) places) Eq Act.concat Act.concat := by
  refine pop_sim.seq fun b => ?_
  refine pop_sim.seq fun a => ?_
  refine (Sim.lift Simulation.display_sim).seq fun x => ?_
  refine (Sim.lift Simulation.display_sim).seq fun y => ?_
  exact push_sim

/-! ### Arrays -/

theorem newArray_sim :
    V.Sim (V.At (depth + 1) places) (V.At (depth + 1) places) Eq Act.newArray Act.newArray := by
  refine pop_sim.seq fun v => ?_
  refine expect_sim.seq fun n => ?_
  refine Sim.ite (fun _ => Sim.failure rfl) fun _ => ?_
  refine (Sim.lift Simulation.allocateArray_sim).seq fun a => ?_
  exact push_sim

theorem arrayLoad_sim :
    V.Sim (V.At (depth + 2) places) (V.At (depth + 1) places) Eq Act.arrayLoad Act.arrayLoad := by
  refine pop_sim.seq fun v => ?_
  refine expect_sim.seq fun i => ?_
  refine pop_sim.seq fun v => ?_
  refine (Sim.lift Simulation.asArray_sim).seq fun a => ?_
  refine (Sim.lift Simulation.getElement_sim).seq fun x => ?_
  exact push_sim

theorem arrayStore_sim :
    V.Sim (V.At (depth + 3) places) (V.At depth places) Eq Act.arrayStore Act.arrayStore := by
  refine pop_sim.seq fun x => ?_
  refine pop_sim.seq fun v => ?_
  refine expect_sim.seq fun i => ?_
  refine pop_sim.seq fun v => ?_
  refine (Sim.lift Simulation.asArray_sim).seq fun a => ?_
  exact Sim.lift Simulation.setElement_sim

theorem arrayLength_sim :
    V.Sim (V.At (depth + 1) places) (V.At (depth + 1) places) Eq Act.arrayLength
      Act.arrayLength := by
  refine pop_sim.seq fun v => ?_
  refine (Sim.lift Simulation.asArray_sim).seq fun a => ?_
  exact Sim.machine_bind fun _ _ => push_sim

/-! ### Dispatch -/

theorem handler_sim :
    V.Sim (V.At depth places) (V.At depth places) (fun h h' => h = h' ∧ ∃ ref, h = handlers ref)
      (Act.handler handlers) (Act.handler handlers) := by
  refine currentClass_sim.bind ?_
  rintro k _ ⟨rfl, -⟩
  split
  · exact Sim.pure ⟨rfl, _, rfl⟩
  · exact Sim.failure rfl

theorem recordPart_sim {α : Type} {P : Frame → Prop} {part : RecordPart} {a : Option α} :
    V.Sim P P Eq (Act.recordPart part a) (Act.recordPart part a) := by
  cases a with
  | some a => exact Sim.pure rfl
  | none => exact Sim.failure rfl

theorem elements_sim {P : Frame → Prop} {a : ArrayRef} :
    V.Sim P P Eq (Act.elements a) (Act.elements a) :=
  Sim.machine_bind fun _ _ => Sim.pure rfl

theorem popRecord_sim :
    V.Sim (V.At (depth + 5) places) (V.At depth places) Eq Act.popRecord Act.popRecord := by
  refine pop_sim.seq fun args => ?_
  refine pop_sim.seq fun types => ?_
  refine pop_sim.seq fun receiver => ?_
  refine pop_sim.seq fun name => ?_
  refine pop_sim.seq fun owner => ?_
  refine recordPart_sim.seq fun owner => ?_
  refine recordPart_sim.seq fun name => ?_
  refine recordPart_sim.seq fun types => ?_
  refine elements_sim.seq fun types => ?_
  refine recordPart_sim.seq fun types => ?_
  refine recordPart_sim.seq fun args => ?_
  refine elements_sim.seq fun args => ?_
  exact Sim.pure rfl

theorem methodInvoked_sim (he : S.ExecuteSim execute execute') (hh : S.HandlersSim handlers) :
    V.Sim (V.At (depth + 5) places) (V.At (depth + 1) places) Eq
      (Act.methodInvoked execute handlers) (Act.methodInvoked execute' handlers) := by
  refine popRecord_sim.seq fun call => ?_
  refine handler_sim.bind ?_
  rintro h _ ⟨rfl, ref, rfl⟩
  refine (Sim.lift (Simulation.plan_sim he (hh.methodInvoked ref call))).seq fun v => ?_
  exact push_sim

theorem classInitializing_sim (he : S.ExecuteSim execute execute')
    (hh : S.HandlersSim handlers) :
    V.Sim (V.At (depth + 1) places) (V.At depth places) Eq
      (Act.classInitializing execute handlers) (Act.classInitializing execute' handlers) := by
  refine pop_sim.seq fun v => ?_
  refine (Sim.lift Simulation.asClass_sim).seq fun c => ?_
  refine handler_sim.bind ?_
  rintro h _ ⟨rfl, ref, rfl⟩
  exact (Sim.lift (Simulation.plan_sim he (hh.classInitializing ref c))).bind
    fun _ _ _ => Sim.pure rfl

theorem shouldCallDirectly_sim (hh : S.HandlersSim handlers) :
    V.Sim (V.At (depth + 1) places) (V.At (depth + 1) places) Eq
      (Act.shouldCallDirectly handlers) (Act.shouldCallDirectly handlers) := by
  refine pop_sim.seq fun receiver => ?_
  refine handler_sim.bind ?_
  rintro h _ ⟨rfl, ref, rfl⟩
  intro f hf
  refine Simulation.Sim.intro fun m d hr => ?_
  show S.Outcome _ _ (Act.push (.bool ((handlers ref).callsDirectly m receiver)) f m)
    (Act.push (.bool ((handlers ref).callsDirectly (m.atDepth d) receiver)) (V.shift f)
      (m.atDepth d))
  rw [hh.callsDirectly ref receiver m d hr]
  exact push_sim f hf m _ hr

/-! ### Classes and fields -/

theorem classConstant_sim {index : UInt32} (h : V.known → (V.pool.class? index).isSome) :
    V.Sim (V.At depth places) (V.At depth places) Eq (Act.classConstant index)
      (Act.classConstant index) := by
  refine (constant_sim h).bind ?_
  rintro name _ ⟨rfl, -⟩
  refine Sim.frame_bind fun f _ => ?_
  exact Sim.lift Simulation.resolveClass_sim

theorem fieldConstant_sim {index : UInt32} (h : V.known → (V.pool.field? index).isSome) :
    V.Sim (V.At depth places) (V.At depth places) Eq (Act.fieldConstant index)
      (Act.fieldConstant index) := by
  refine (constant_sim h).bind ?_
  rintro ref _ ⟨rfl, -⟩
  refine Sim.frame_bind fun f _ => ?_
  refine (Sim.lift Simulation.resolveClass_sim).seq fun c => ?_
  exact Sim.lift Simulation.resolveField_sim

theorem staticConstant_sim (he : S.ExecuteSim execute execute') {index : UInt32}
    (h : V.known → (V.pool.field? index).isSome) :
    V.Sim (V.At depth places) (V.At depth places) Eq (Act.staticConstant execute index)
      (Act.staticConstant execute' index) := by
  refine (constant_sim h).bind ?_
  rintro ref _ ⟨rfl, -⟩
  refine Sim.frame_bind fun f _ => ?_
  refine (Sim.lift Simulation.resolveClass_sim).seq fun c => ?_
  refine (Sim.lift (Simulation.initializeClass_sim he c)).seq fun _ => ?_
  exact Sim.lift Simulation.resolveStatic_sim

theorem staticMissing_sim {P : Frame → Prop} {c : ClassRef} {slot : Nat} :
    V.Sim P P Eq (Act.staticMissing c slot) (Act.staticMissing c slot) :=
  Sim.machine_bind fun _ _ => Sim.pure rfl

theorem getField_sim {index : UInt32} (h : V.known → (V.pool.field? index).isSome) :
    V.Sim (V.At (depth + 1) places) (V.At (depth + 1) places) Eq
      (Act.accessField execute index .get) (Act.accessField execute' index .get) := by
  refine (fieldConstant_sim h).seq fun slot => ?_
  refine pop_sim.seq fun v => ?_
  refine (Sim.lift Simulation.asObject_sim).seq fun o => ?_
  exact (Sim.lift Simulation.getSlot_sim).seq fun v => push_sim

theorem putField_sim {index : UInt32} (h : V.known → (V.pool.field? index).isSome) :
    V.Sim (V.At (depth + 2) places) (V.At depth places) Eq
      (Act.accessField execute index .put) (Act.accessField execute' index .put) := by
  refine (fieldConstant_sim h).seq fun slot => ?_
  refine pop_sim.seq fun v => ?_
  refine pop_sim.seq fun receiver => ?_
  refine (Sim.lift Simulation.asObject_sim).seq fun o => ?_
  exact Sim.lift Simulation.setSlot_sim

theorem getStatic_sim (he : S.ExecuteSim execute execute') {index : UInt32}
    (h : V.known → (V.pool.field? index).isSome) :
    V.Sim (V.At depth places) (V.At (depth + 1) places) Eq
      (Act.accessField execute index .getStatic) (Act.accessField execute' index .getStatic) := by
  refine (staticConstant_sim he h).seq fun ⟨c, slot⟩ => ?_
  refine staticMissing_sim.seq fun missing => ?_
  exact (Sim.lift Simulation.getStaticSlot_sim).seq fun v => push_sim

theorem putStatic_sim (he : S.ExecuteSim execute execute') {index : UInt32}
    (h : V.known → (V.pool.field? index).isSome) :
    V.Sim (V.At (depth + 1) places) (V.At depth places) Eq
      (Act.accessField execute index .putStatic) (Act.accessField execute' index .putStatic) := by
  refine (staticConstant_sim he h).seq fun ⟨c, slot⟩ => ?_
  refine pop_sim.seq fun v => ?_
  refine staticMissing_sim.seq fun missing => ?_
  exact Sim.lift Simulation.setStaticSlot_sim

/-- In a strict simulation the frame is known, and its class is one of the table. -/
theorem newObject_sim (he : S.ExecuteSim execute execute') {index : UInt32}
    (h : V.known → (V.pool.class? index).isSome) :
    V.Sim (V.At depth places) (V.At (depth + 1) places) Eq (Act.newObject execute index)
      (Act.newObject execute' index) := by
  have hnew : ∀ e : Execute, Act.newObject e index = (do
      let name ← Act.constant .cls index Pool.class?
      let f ← get
      let v ← liftM (do
        let c ← Run.resolveClass f.cls name
        Run.initializeClass e c
        Run.allocate c)
      Act.push v) := fun e => by
    simp only [Act.newObject, Act.classConstant, bind_assoc, liftM_bind]
  rw [hnew, hnew]
  refine (constant_sim h).bind ?_
  rintro name _ ⟨rfl, -⟩
  refine Sim.frame_bind fun f hf => ?_
  refine Sim.seq (Sim.lift (Simulation.newObject_sim he fun hs m n hr => ?_)) fun v => push_sim
  have hk : V.known := by
    refine Classical.byContradiction fun hk => (V.lenient hk).2.2 hs
  have hcls := (hf hk).cls
  show m.classes.Has f.cls
  rw [hcls]
  exact V.has hs hr

theorem instanceOf_sim {index : UInt32} (h : V.known → (V.pool.class? index).isSome) :
    V.Sim (V.At (depth + 1) places) (V.At (depth + 1) places) Eq (Act.instanceOf index)
      (Act.instanceOf index) := by
  refine pop_sim.seq fun v => ?_
  split
  · refine (classConstant_sim h).seq fun c => ?_
    exact Sim.machine_bind fun _ _ => push_sim
  · exact push_sim

theorem classOf_sim :
    V.Sim (V.At (depth + 1) places) (V.At (depth + 1) places) Eq Act.classOf Act.classOf := by
  refine pop_sim.seq fun v => ?_
  refine (Sim.lift Simulation.asObject_sim).seq fun o => ?_
  exact Sim.machine_bind fun _ _ => push_sim

/-! ### Calls -/

theorem popCall_sim {kind : CallKind} {descriptor : String} {n : Nat}
    (h : V.known → ∃ signature, MethodDesc.parse descriptor = .ok signature ∧
      n = signature.arity + kind.hasReceiver.toNat) :
    V.Sim (V.At (depth + n) places) (V.At depth places) Eq (Act.popCall kind descriptor)
      (Act.popCall kind descriptor) := by
  unfold Act.popCall
  cases hp : MethodDesc.parse descriptor with
  | error e =>
    have hk : ¬V.known := fun hk => by
      obtain ⟨signature, hs, -⟩ := h hk
      rw [hp] at hs
      exact nomatch hs
    exact Sim.fault hk
  | ok signature =>
    by_cases hk : V.known
    · obtain ⟨signature', hs, rfl⟩ := h hk
      rw [hp] at hs
      cases hs
      exact popMany_sim
    · have hpop : V.Sim (V.At (depth + (signature.arity + kind.hasReceiver.toNat)) places)
          (V.At depth places) Eq (Act.popMany (signature.arity + kind.hasReceiver.toNat))
          (Act.popMany (signature.arity + kind.hasReceiver.toNat)) := popMany_sim
      exact hpop.mono (fun f _ hk' => absurd hk' hk) (fun _ hf => hf) fun _ _ h => h

theorem callTarget_sim (he : S.ExecuteSim execute execute') {P : Frame → Prop} {kind : CallKind}
    {ref : MethodRef} {args : List Value} :
    V.Sim P P Eq (Act.callTarget execute kind ref args) (Act.callTarget execute' kind ref args) := by
  cases kind with
  | virtual =>
    refine (Sim.lift Simulation.asObject_sim).seq fun o => ?_
    exact Sim.lift Simulation.resolveVirtual_sim
  | special =>
    refine (Sim.lift Simulation.asObject_sim).seq fun _ => ?_
    refine Sim.frame_bind fun f _ => ?_
    refine (Sim.lift Simulation.resolveClass_sim).seq fun c => ?_
    refine Sim.ite (fun _ => ?_) fun _ => Sim.lift Simulation.resolveMethod_sim
    exact (Sim.lift Simulation.declaredMethod_sim).seq fun i => Sim.pure rfl
  | static =>
    refine Sim.frame_bind fun f _ => ?_
    refine (Sim.lift Simulation.resolveClass_sim).seq fun c => ?_
    refine (Sim.lift (Simulation.initializeClass_sim he c)).seq fun _ => ?_
    exact Sim.lift Simulation.resolveMethod_sim

/-- The result is kept exactly if the static effect says so. -/
theorem pushResult_sim {descriptor : String} {n : Nat} {v : Value}
    (h : V.known → ∃ signature, MethodDesc.parse descriptor = .ok signature ∧
      n = (!signature.ret.isVoid).toNat) :
    V.Sim (V.At depth places) (V.At (depth + n) places) Eq
      (if !Act.endsInVoid descriptor then Act.push v else pure ())
      (if !Act.endsInVoid descriptor then Act.push v else pure ()) := by
  have hn : V.known → n = (!Act.endsInVoid descriptor).toNat := fun hk => by
    obtain ⟨signature, hs, rfl⟩ := h hk
    rw [Act.endsInVoid_eq hs]
  refine Sim.ite (fun hv => ?_) fun hv => ?_
  · refine push_sim.mono (fun _ hf => hf) (fun f hf hk => ?_) fun _ _ h => h
    rw [hn hk, hv]
    exact hf hk
  · refine (Sim.pure (P := V.At depth places) rfl).mono (fun _ hf => hf) (fun f hf hk => ?_)
      fun _ _ h => h
    rw [hn hk, Bool.eq_false_iff.2 hv]
    exact hf hk

/-- The effect of a call, where it is known, is that of the descriptor. -/
theorem signature_of_stackEffect {pool : Pool} {kind : CallKind} {index : UInt32}
    {effect : StackEffect}
    (h : Instruction.stackEffect? pool (.invoke kind index) = some effect) :
    ∃ ref signature, pool.method? index = some ref ∧
      MethodDesc.parse ref.descriptor = .ok signature ∧ effect = signature.stackEffect kind := by
  simp only [Instruction.stackEffect?] at h
  split at h
  · cases h
  · rename_i ref href
    split at h
    · rename_i signature hs
      cases h
      exact ⟨ref, signature, href, hs, rfl⟩
    · cases h

theorem invoke_sim (he : S.ExecuteSim execute execute') {kind : CallKind} {index : UInt32}
    {effect : StackEffect}
    (h : V.known → Instruction.stackEffect? V.pool (.invoke kind index) = some effect) :
    V.Sim (V.At (depth + effect.pops) places) (V.At (depth + effect.pushes) places) Eq
      (Act.invoke execute kind index) (Act.invoke execute' kind index) := by
  have hsome : V.known → (V.pool.method? index).isSome := fun hk => by
    obtain ⟨ref, signature, href, -⟩ := signature_of_stackEffect (h hk)
    rw [href]
    rfl
  refine (constant_sim hsome).bind ?_
  rintro ref _ ⟨rfl, href⟩
  have hs : V.known → ∃ signature, MethodDesc.parse ref.descriptor = .ok signature ∧
      effect = signature.stackEffect kind := fun hk => by
    obtain ⟨ref', signature, href', hs, he⟩ := signature_of_stackEffect (h hk)
    rw [href hk] at href'
    cases href'
    exact ⟨signature, hs, he⟩
  refine (popCall_sim fun hk => ?_).seq fun args => ?_
  · obtain ⟨signature, hp, rfl⟩ := hs hk
    exact ⟨signature, hp, rfl⟩
  refine (callTarget_sim he).seq fun ⟨owner, i⟩ => ?_
  refine (Sim.lift (he owner i args)).seq fun result => ?_
  refine pushResult_sim fun hk => ?_
  obtain ⟨signature, hp, rfl⟩ := hs hk
  exact ⟨signature, hp, rfl⟩

/-! ### Jumps -/

/-- How many values a condition pops. -/
def conditionPops : Condition → Nat
  | .always => 0
  | .ifFalse | .ifTrue | .ifNull | .ifNotNull => 1

theorem taken_sim (c : Condition) :
    V.Sim (V.At (depth + conditionPops c) places) (V.At depth places)
      (fun a b => a = b ∧ (c = .always → a = true)) (Act.taken c) (Act.taken c) := by
  have hbool : ∀ v : Value, V.Sim (V.At depth places) (V.At depth places) Eq
      (liftM (Run.asBool v)) (liftM (Run.asBool v)) := fun v => expect_sim
  cases c with
  | always => exact Sim.pure ⟨rfl, fun _ => rfl⟩
  | ifFalse =>
    refine pop_sim.seq fun v => ?_
    exact (hbool v).seq fun b => Sim.pure ⟨rfl, nofun⟩
  | ifTrue =>
    refine pop_sim.seq fun v => ?_
    exact (hbool v).mono (fun _ hf => hf) (fun _ hf => hf) fun _ _ h => ⟨h, nofun⟩
  | ifNull => exact pop_sim.seq fun v => Sim.pure ⟨rfl, nofun⟩
  | ifNotNull => exact pop_sim.seq fun v => Sim.pure ⟨rfl, nofun⟩

/-! ### All together -/

/-- What an instruction answers: a result if it returns, which is null if there is none. -/
def Answers (i : Instruction) (a : Option Value) : Prop :=
  match i with
  | .simple .ret => a.isSome
  | .simple .retVoid => a = some .null
  | _ => a = none

/-- The result of an instruction that may stand in a body without a result. -/
theorem Answers.eq_null {i : Instruction} {v : Value} (h : Answers i (some v))
    (hr : Verifier.returnMismatch true i = false) : v = .null := by
  unfold Answers at h
  split at h
  · exact nomatch hr
  · exact Option.some.inj h
  · exact nomatch h

theorem Answers.isReturn_eq_false {i : Instruction} (h : Answers i none) :
    i.opcode.isReturn = false := by
  cases i with
  | simple op => cases op <;> first | rfl | exact nomatch h
  | _ => rfl

theorem Answers.eq_none {i : Instruction} {a : Option Value} (h : Answers i a)
    (hr : i.opcode.isReturn = false) : a = none := by
  unfold Answers at h
  split at h
  · exact nomatch hr
  · exact nomatch hr
  · exact h

/-- What the verifier has looked at in an instruction: its operand names something, and its effect
on the stack is this one. -/
structure Accepts (pool : Pool) (keeps : List Value → Prop) (i : Instruction)
    (effect : StackEffect) : Prop where
  effect_eq : Instruction.stackEffect? pool i = some effect
  string : ∀ index, i = .constString index → (pool.string? index).isSome
  cls : ∀ index, i = .constClass index ∨ i = .new index ∨ i = .instanceOf index →
    (pool.class? index).isSome
  field : ∀ access index, i = .field access index → (pool.field? index).isSome
  read : ∀ slot, i = .loadLocal slot → ∀ locals, keeps locals → slot.toNat < locals.length
  write : ∀ slot, i = .storeLocal slot → ∀ locals, keeps locals →
    slot.toNat < locals.length ∧ ∀ v, keeps (locals.set slot.toNat v)
  tag : ∀ tag, i = .unbox tag → (TypeDesc.ofTag? tag).isSome

/-- Depths are of no account unless the frame is known. -/
theorem Sim.adjust {α β : Type} {d d' e e' : Nat} {p q : Nat → Prop} {Q : α → β → Prop}
    {x : Act α} {y : Act β} (h : V.Sim (V.At d p) (V.At e q) Q x y) (hd : V.known → d' = d)
    (he : V.known → e = e') : V.Sim (V.At d' p) (V.At e' q) Q x y := by
  refine h.mono (fun f hf hk => ?_) (fun f hf hk => ?_) fun _ _ h => h
  · rw [← hd hk]
    exact hf hk
  · rw [← he hk]
    exact hf hk

variable {r p : Nat}

/-- Where a frame stands behind the instruction at a place, and with how many operands. -/
def Behind (V : View S) (i : Instruction) (p depth : Nat) : Frame → Prop :=
  V.At depth fun q => i.opcode.isReturn ∨ q ∈ Verifier.successors p i

/-- One instruction follows another. -/
def Follows (V : View S) (P : Frame → Prop) (i : Instruction) (p depth : Nat)
    (x y : Act (Option Value)) : Prop :=
  V.Sim P (V.Behind i p depth) (fun a b => a = b ∧ Answers i a) x y

/-- An instruction without an answer, behind which the next one comes. -/
theorem Follows.of_sim {P : Frame → Prop} {i : Instruction} {x y : Act Unit}
    (h : V.Sim P (V.At depth (· = p + 1)) Eq x y) (hi : i.opcode.isTerminator = false)
    (ha : Answers i none) :
    V.Follows P i p depth (do x; return none) (do y; return none) := by
  have hseq : V.Sim P (V.At depth (· = p + 1)) (fun a b => a = b ∧ Answers i a)
      (do x; return none) (do y; return none) := h.seq fun _ => Sim.pure ⟨rfl, ha⟩
  refine hseq.mono (fun _ hf => hf) (fun f hf hk => ?_) fun _ _ h => h
  obtain ⟨hcls, hdepth, hlocals, hplace⟩ := hf hk
  refine ⟨hcls, hdepth, hlocals, .inr ?_⟩
  rw [Verifier.successors, hi]
  exact List.mem_append_right _ (List.mem_singleton.2 hplace)

theorem simple_sim (he : S.ExecuteSim execute execute') (hh : S.HandlersSim handlers)
    (op : Simple) :
    V.Follows (V.At (r + op.stackEffect.pops) (· = p + 1)) (.simple op) p
      (r + op.stackEffect.pushes) (Act.simple execute handlers op)
      (Act.simple execute' handlers op) := by
  have hpop : V.Sim (V.At (r + 1) (· = p + 1)) (V.At r (· = p + 1)) Eq Act.pop Act.pop := pop_sim
  cases op with
  | nop => exact Follows.of_sim (Sim.pure (a := ()) rfl) rfl rfl
  | pop => exact hpop.seq fun _ => Follows.of_sim (Sim.pure (a := ()) rfl) rfl rfl
  | dup => exact peek_sim.seq fun v => Follows.of_sim push_sim rfl rfl
  | swap =>
    refine pop_sim.seq fun b => ?_
    refine hpop.seq fun a => ?_
    exact push_sim.seq fun _ => Follows.of_sim push_sim rfl rfl
  | constNull | constTrue | constFalse => exact Follows.of_sim push_sim rfl rfl
  | arith op => exact Follows.of_sim (integerOp_sim op) rfl rfl
  | negate => exact Follows.of_sim negate_sim rfl rfl
  | floatArith op => exact Follows.of_sim (doubleOp_sim op) rfl rfl
  | floatNegate =>
    refine hpop.seq fun v => ?_
    exact expect_sim.seq fun x => Follows.of_sim push_sim rfl rfl
  | compare rel => exact Follows.of_sim (compare_sim rel) rfl rfl
  | equal | notEqual => exact Follows.of_sim (compareValues_sim _) rfl rfl
  | logicalNot =>
    refine hpop.seq fun v => ?_
    exact expect_sim.seq fun b => Follows.of_sim push_sim rfl rfl
  | concat => exact Follows.of_sim concat_sim rfl rfl
  | textLength | upper =>
    refine hpop.seq fun v => ?_
    exact expect_sim.seq fun s => Follows.of_sim push_sim rfl rfl
  | toText =>
    refine hpop.seq fun v => ?_
    exact (Sim.lift Simulation.display_sim).seq fun s => Follows.of_sim push_sim rfl rfl
  | ret =>
    refine (hpop.seq fun v => Sim.pure ⟨rfl, rfl⟩).mono (fun _ hf => hf) (fun f hf hk => ?_)
      fun _ _ h => h
    exact ⟨(hf hk).cls, (hf hk).depth, (hf hk).locals, .inl rfl⟩
  | retVoid =>
    refine (Sim.pure ⟨rfl, rfl⟩).mono (fun _ hf => hf) (fun f hf hk => ?_) fun _ _ h => h
    exact ⟨(hf hk).cls, (hf hk).depth, (hf hk).locals, .inl rfl⟩
  | classOf => exact Follows.of_sim classOf_sim rfl rfl
  | newArray => exact Follows.of_sim newArray_sim rfl rfl
  | arrayLoad => exact Follows.of_sim arrayLoad_sim rfl rfl
  | arrayStore => exact Follows.of_sim arrayStore_sim rfl rfl
  | arrayLength => exact Follows.of_sim arrayLength_sim rfl rfl
  | raise => exact hpop.seq fun v => Sim.failure rfl
  | shouldCallDirectly => exact Follows.of_sim (shouldCallDirectly_sim hh) rfl rfl
  | methodInvoked => exact Follows.of_sim (methodInvoked_sim he hh) rfl rfl
  | classInitializing => exact Follows.of_sim (classInitializing_sim he hh) rfl rfl

/-- A jump goes where its label says, in each program by its own count, or on. -/
theorem jump_follows {c : Condition} {target : Nat} :
    V.Follows (V.At (r + conditionPops c) (· = p + 1)) (.jump c target) p r
      (Act.step execute handlers (.jump c target))
      (Act.step execute' handlers (.jump c (target + V.offset))) := by
  refine (taken_sim c).bind ?_
  rintro b _ ⟨rfl, hb⟩
  refine Sim.ite (fun _ => ?_) fun hfalse => ?_
  · refine jump_sim.seq (fun _ => Sim.pure ⟨rfl, rfl⟩) |>.mono (fun _ hf => hf) (fun f hf hk => ?_)
      fun _ _ h => h
    obtain ⟨hcls, hdepth, hlocals, hplace⟩ := hf hk
    exact ⟨hcls, hdepth, hlocals, .inr (List.mem_append_left _ (List.mem_singleton.2 hplace))⟩
  · refine (Sim.pure ⟨rfl, rfl⟩).mono (fun _ hf => hf) (fun f hf hk => ?_) fun _ _ h => h
    obtain ⟨hcls, hdepth, hlocals, hplace⟩ := hf hk
    refine ⟨hcls, hdepth, hlocals, .inr (List.mem_append_right _ ?_)⟩
    have hc : c ≠ .always := fun h => hfalse (hb h)
    rw [hplace]
    cases c with
    | always => exact absurd rfl hc
    | ifFalse | ifTrue | ifNull | ifNotNull => exact List.mem_singleton_self _

/-- **Instructions.** Of all that is said of an instruction, only what its operand names and how it
changes the stack has to be checked beforehand, and of that nothing if the frame is not known. -/
theorem step_sim (he : S.ExecuteSim execute execute') (hh : S.HandlersSim handlers)
    {i : Instruction} {effect : StackEffect} (hi : V.known → Accepts V.pool V.keeps i effect) :
    V.Follows (V.At (r + effect.pops) (· = p + 1)) i p (r + effect.pushes)
      (Act.step execute handlers i) (Act.step execute' handlers (i.mapTarget (· + V.offset))) := by
  -- The effect of every instruction but a call is fixed, and equal to `e` if anything is known.
  have settle : ∀ (e : StackEffect) {x y : Act (Option Value)},
      (∀ e', Instruction.stackEffect? V.pool i = some e' → e' = e) →
      V.Follows (V.At (r + e.pops) (· = p + 1)) i p (r + e.pushes) x y →
      V.Follows (V.At (r + effect.pops) (· = p + 1)) i p (r + effect.pushes) x y :=
    fun e _ _ hfix h => h.adjust (fun hk => by rw [hfix _ (hi hk).effect_eq])
      (fun hk => by rw [hfix _ (hi hk).effect_eq])
  cases i with
  | simple op =>
    exact settle op.stackEffect (fun _ h => (Option.some.inj h).symm) (simple_sim he hh op)
  | constInt | constLong | constDouble =>
    exact settle ⟨0, 1⟩ (fun _ h => (Option.some.inj h).symm) (Follows.of_sim push_sim rfl rfl)
  | constString index =>
    refine settle ⟨0, 1⟩ (fun _ h => (Option.some.inj h).symm) ?_
    refine (constant_sim fun hk => (hi hk).string index rfl).bind ?_
    rintro s _ ⟨rfl, -⟩
    exact Follows.of_sim push_sim rfl rfl
  | constClass index =>
    refine settle ⟨0, 1⟩ (fun _ h => (Option.some.inj h).symm) ?_
    refine (classConstant_sim fun hk => (hi hk).cls index (.inl rfl)).seq fun c => ?_
    exact Follows.of_sim push_sim rfl rfl
  | loadLocal slot =>
    refine settle ⟨0, 1⟩ (fun _ h => (Option.some.inj h).symm) ?_
    refine (readLocal_sim fun hk => (hi hk).read slot rfl).seq fun v => ?_
    exact Follows.of_sim push_sim rfl rfl
  | storeLocal slot =>
    refine settle ⟨1, 0⟩ (fun _ h => (Option.some.inj h).symm) ?_
    refine pop_sim.seq fun v => Follows.of_sim (writeLocal_sim fun hk locals hlocals => ?_) rfl rfl
    obtain ⟨hlt, hset⟩ := (hi hk).write slot rfl locals hlocals
    exact ⟨hlt, hset v⟩
  | jump c target =>
    refine settle ⟨conditionPops c, 0⟩ (fun _ h => ?_) jump_follows
    cases c <;> exact (Option.some.inj h).symm
  | invoke kind index => exact Follows.of_sim (invoke_sim he fun hk => (hi hk).effect_eq) rfl rfl
  | new index =>
    refine settle ⟨0, 1⟩ (fun _ h => (Option.some.inj h).symm) ?_
    exact Follows.of_sim (newObject_sim he fun hk => (hi hk).cls index (.inr (.inl rfl))) rfl rfl
  | field access index =>
    have hfield : V.known → (V.pool.field? index).isSome := fun hk =>
      (hi hk).field access index rfl
    cases access with
    | get =>
      exact settle ⟨1, 1⟩ (fun _ h => (Option.some.inj h).symm)
        (Follows.of_sim (getField_sim hfield) rfl rfl)
    | put =>
      exact settle ⟨2, 0⟩ (fun _ h => (Option.some.inj h).symm)
        (Follows.of_sim (putField_sim hfield) rfl rfl)
    | getStatic =>
      exact settle ⟨0, 1⟩ (fun _ h => (Option.some.inj h).symm)
        (Follows.of_sim (getStatic_sim he hfield) rfl rfl)
    | putStatic =>
      exact settle ⟨1, 0⟩ (fun _ h => (Option.some.inj h).symm)
        (Follows.of_sim (putStatic_sim he hfield) rfl rfl)
  | instanceOf index =>
    refine settle ⟨1, 1⟩ (fun _ h => (Option.some.inj h).symm) ?_
    exact Follows.of_sim (instanceOf_sim fun hk => (hi hk).cls index (.inr (.inr rfl))) rfl rfl
  | unbox tag =>
    refine settle ⟨1, 1⟩ (fun _ h => (Option.some.inj h).symm) ?_
    simp only [InstructionOf.mapTarget, Act.step]
    split
    · rename_i hnone
      refine Sim.fault fun hk => ?_
      have := (hi hk).tag tag rfl
      rw [hnone] at this
      exact absurd this (by simp)
    · refine pop_sim.seq fun v => ?_
      exact expect_sim.seq fun w => Follows.of_sim push_sim rfl rfl

end View

end Interpose
