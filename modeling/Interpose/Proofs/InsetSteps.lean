import Interpose.Machine.Execute
import Interpose.Proofs.Fuel
import Interpose.Proofs.InsetRequests
/-!
# Instructions beside an inset

A frame holds values too, and an inset takes them over. Beside it, an instruction does to the frame
taken over what it does to the frame; so does a body from its first instruction to its last, and a
method that is entered. Executions go over by induction on the fuel.

## Main definitions

* `Inset.CarriesHandler`: handlers to which numbers of arrays mean nothing
* `Inset.CarriesAct`: computations inside a frame

## Main results

* `Inset.step_carries`: instructions
* `Inset.run_carries`: bodies
* `Inset.executeWith_carries`: executions
* `Inset.comesTo_iff`: what is carried over comes to the same, taken over
-/

namespace Interpose

namespace Inset

/-- Handlers to which numbers of arrays mean nothing: beside the inset they decide the same, and
have plans that it carries over. -/
structure CarriesHandler (s : Inset) (h : Handler) : Prop where
  callsDirectly : ∀ m v, h.callsDirectly (s.machine m) (s.value v) = h.callsDirectly m v
  classInitializing : ∀ c, s.CarriesPlan (h.classInitializing c) (h.classInitializing c)
  methodInvoked : ∀ call, s.CarriesPlan (h.methodInvoked call) (h.methodInvoked (s.call call))

/-- Computations inside a frame that the inset carries over. -/
class CarriesAct (s : Inset) {α : Type} (g : outParam (α → α)) (x y : Act α) : Prop where
  run : ∀ f, s.Carries (Prod.map g s.frame) (x f) (y (s.frame f))

variable {s : Inset} {α β : Type}

/-! ### Putting computations together -/

namespace CarriesAct

instance pure {g : α → α} {a b : α} [h : Takes s g a b] : CarriesAct s g (pure a) (pure b) := by
  obtain rfl := h.eq
  exact ⟨fun _ => .pure (h := ⟨rfl⟩)⟩

theorem seq {g : α → α} {k : β → β} {x y : Act α} {f f' : α → Act β} [h : CarriesAct s g x y]
    (hf : ∀ a, CarriesAct s k (f a) (f' (g a))) : CarriesAct s k (x >>= f) (y >>= f') :=
  ⟨fun frame => have := h.run frame; .seq fun p => (hf p.1).run p.2⟩

instance bind {g : α → α} {k : β → β} {x y : Act α} {f f' : α → Act β} [CarriesAct s g x y]
    [hf : ∀ a, CarriesAct s k (f a) (f' (g a))] : CarriesAct s k (x >>= f) (y >>= f') := .seq hf

instance lift {g : α → α} {x y : Run α} [Carries s g x y] : CarriesAct s g (liftM x) (liftM y) :=
  ⟨fun _ => .seq fun _ => .pure (h := ⟨rfl⟩)⟩

theorem fail {g : α → α} {e e' : VmError} [Takes s s.error e e'] :
    CarriesAct s g (Act.fail e) (Act.fail e') :=
  ⟨fun _ => .seq (h := .fail) fun _ => .pure (h := ⟨rfl⟩)⟩

/-- What comes behind a failure does not matter. -/
theorem fail_bind {k : β → β} {x y : α → Act β} {e e' : VmError} [Takes s s.error e e'] :
    CarriesAct s k (Act.fail e >>= x) (Act.fail e' >>= y) :=
  ⟨fun _ => show Carries s (Prod.map k s.frame) (Run.fail e) (Run.fail e') from .fail⟩

/-- What is done with the frame that is read. -/
theorem get_bind {k : β → β} {x y : Frame → Act β}
    (h : ∀ f, CarriesAct s k (x f) (y (s.frame f))) : CarriesAct s k (get >>= x) (get >>= y) :=
  ⟨fun f => (h f).run f⟩

/-- What is done with the machine that is read. -/
theorem machine_bind {k : β → β} {x y : Machine → Act β}
    (h : ∀ m, CarriesAct s k (x m) (y (s.machine m))) :
    CarriesAct s k (Act.machine >>= x) (Act.machine >>= y) :=
  ⟨fun f => .get_bind fun m => (h m).run f⟩

instance ite {p : Prop} [Decidable p] {g : α → α} {x x' y y' : Act α} [CarriesAct s g x y]
    [CarriesAct s g x' y'] : CarriesAct s g (if p then x else x') (if p then y else y') := by
  split <;> assumption

end CarriesAct

/-! ### Frames -/

section Frames

variable (s)

@[simp] theorem cls_frame (f : Frame) : (s.frame f).cls = f.cls := rfl

@[simp] theorem pc_frame (f : Frame) : (s.frame f).pc = f.pc := rfl

@[simp] theorem stack_frame (f : Frame) : (s.frame f).stack = f.stack.map s.value := rfl

@[simp] theorem locals_frame (f : Frame) : (s.frame f).locals = f.locals.map s.value := rfl

end Frames

instance push_carries {v w : Value} [h : Takes s s.value v w] :
    CarriesAct s (fun u => u) (Act.push v) (Act.push w) := by
  obtain rfl := h.eq
  exact ⟨fun _ => .pure (h := ⟨rfl⟩)⟩

instance pop_carries : CarriesAct s s.value Act.pop Act.pop := by
  refine .get_bind fun f => ?_
  rw [stack_frame]
  cases f.stack with
  | nil => exact .fail
  | cons v rest => exact ⟨fun _ => .pure (h := ⟨rfl⟩)⟩

instance peek_carries : CarriesAct s s.value Act.peek Act.peek := by
  refine .get_bind fun f => ?_
  rw [stack_frame]
  cases f.stack with
  | nil => exact .fail
  | cons v rest => exact .pure

instance popMany_carries (count : Nat) :
    CarriesAct s (List.map s.value) (Act.popMany count) (Act.popMany count) := by
  refine .get_bind fun f => ?_
  rw [stack_frame, List.length_map]
  split
  · exact .fail
  · refine ⟨fun _ => .pure (h := ⟨?_⟩)⟩
    rw [← List.map_take, ← List.map_drop, ← List.map_reverse]
    rfl

instance jump_carries (target : Nat) :
    CarriesAct s (fun u => u) (Act.jump target) (Act.jump target) :=
  ⟨fun _ => .pure (h := ⟨rfl⟩)⟩

instance readLocal_carries (slot : UInt16) :
    CarriesAct s s.value (Act.readLocal slot) (Act.readLocal slot) := by
  refine .get_bind fun f => ?_
  rw [locals_frame, List.getElem?_map]
  cases f.locals[slot.toNat]? with
  | some v => exact .pure
  | none => exact .fail

instance writeLocal_carries (slot : UInt16) {v w : Value} [h : Takes s s.value v w] :
    CarriesAct s (fun u => u) (Act.writeLocal slot v) (Act.writeLocal slot w) := by
  obtain rfl := h.eq
  refine .get_bind fun f => ?_
  rw [locals_frame, List.length_map]
  split
  · refine ⟨fun _ => .pure (h := ⟨?_⟩)⟩
    rw [← List.map_set]
    rfl
  · exact .fail

instance currentClass_carries : CarriesAct s s.cls Act.currentClass Act.currentClass := by
  refine .get_bind fun f => .machine_bind fun m => ?_
  rw [cls_machine, cls_frame]
  exact .pure (h := ⟨rfl⟩)

instance constant_carries (table : PoolTable) (index : UInt32) (find : Pool → UInt32 → Option α) :
    CarriesAct s (fun a => a) (Act.constant table index find) (Act.constant table index find) := by
  refine .seq fun k => ?_
  rw [constants_cls]
  cases find k.constants index with
  | some a => exact .pure
  | none => exact .fail

/-! ### Operators -/

instance integerOp_carries (op : IntOp) :
    CarriesAct s (fun u => u) (Act.integerOp op) (Act.integerOp op) := by
  have hrest : CarriesAct s (fun u => u)
      (do
        let b ← Act.pop
        let a ← Act.pop
        match a, b with
        | .int x, .int y => Act.push (.int (op.int x y))
        | a, b =>
          let x ← Run.asLong a
          let y ← Run.asLong b
          Act.push (.long (op.long x y)))
      (do
        let b ← Act.pop
        let a ← Act.pop
        match a, b with
        | .int x, .int y => Act.push (.int (op.int x y))
        | a, b =>
          let x ← Run.asLong a
          let y ← Run.asLong b
          Act.push (.long (op.long x y))) := by
    refine .seq fun b => .seq fun a => ?_
    have hlong : ∀ a b : Value, CarriesAct s (fun u => u)
        (do
          let x ← Run.asLong a
          let y ← Run.asLong b
          Act.push (.long (op.long x y)))
        (do
          let x ← Run.asLong (s.value a)
          let y ← Run.asLong (s.value b)
          Act.push (.long (op.long x y))) := fun _ _ => inferInstance
    cases a with
    | int x =>
      cases b with
      | int y => exact push_carries
      | _ => exact hlong _ _
    | _ => exact hlong _ _
  unfold Act.integerOp
  split
  · refine .seq fun b => .seq fun n => ?_
    split
    · exact .fail_bind
    · exact hrest
  · exact hrest

instance negate_carries : CarriesAct s (fun u => u) Act.negate Act.negate := by
  refine .seq fun v => ?_
  cases v <;> dsimp only [value] <;> infer_instance

instance doubleOp_carries (op : FloatOp) :
    CarriesAct s (fun u => u) (Act.doubleOp op) (Act.doubleOp op) := by
  unfold Act.doubleOp
  infer_instance

instance compare_carries (rel : Relation) :
    CarriesAct s (fun u => u) (Act.compare rel) (Act.compare rel) := by
  unfold Act.compare
  infer_instance

instance compareValues_carries (expected : Bool) :
    CarriesAct s (fun u => u) (Act.compareValues expected) (Act.compareValues expected) := by
  refine .seq fun b => .seq fun a => ?_
  rw [equal_value]
  infer_instance

instance concat_carries : CarriesAct s (fun u => u) Act.concat Act.concat := by
  unfold Act.concat
  infer_instance

/-! ### Arrays -/

instance newArray_carries : CarriesAct s (fun u => u) Act.newArray Act.newArray := by
  refine .seq fun v => .seq fun n => ?_
  split
  · exact .fail
  · infer_instance

instance arrayLoad_carries : CarriesAct s (fun u => u) Act.arrayLoad Act.arrayLoad := by
  unfold Act.arrayLoad
  infer_instance

instance arrayStore_carries : CarriesAct s (fun u => u) Act.arrayStore Act.arrayStore := by
  unfold Act.arrayStore
  infer_instance

instance arrayLength_carries : CarriesAct s (fun u => u) Act.arrayLength Act.arrayLength := by
  refine .seq fun v => .seq fun a => .machine_bind fun m => ?_
  rw [show (s.machine m).heap.elements (s.array a) = (m.heap.elements a).map s.value from
    elements_heap, Array.size_map]
  infer_instance

/-! ### Dispatch -/

section Dispatch

variable {execute : Execute} [s.Executes execute]
variable {handlers : Handlers}

/-- What is done with the handler of the class. -/
theorem handler_bind {k : β → β} {x y : Handler → Act β}
    (h : ∀ ref, CarriesAct s k (x (handlers ref)) (y (handlers ref))) :
    CarriesAct s k (Act.handler handlers >>= x) (Act.handler handlers >>= y) := by
  unfold Act.handler
  rw [bind_assoc, bind_assoc]
  refine .seq fun c => ?_
  rw [handler?_cls, name_cls]
  cases c.handler? with
  | some ref => exact h ref
  | none => exact .fail_bind

theorem recordPart_carries {g : α → α} (part : RecordPart) {a? b? : Option α} (h : b? = a?.map g) :
    CarriesAct s g (Act.recordPart part a?) (Act.recordPart part b?) := by
  subst h
  cases a? with
  | some a => exact .pure (h := ⟨rfl⟩)
  | none => exact .fail

instance elements_carries (a : ArrayRef) :
    CarriesAct s (List.map s.value) (Act.elements a) (Act.elements (s.array a)) := by
  refine .machine_bind fun m => ?_
  rw [show (s.machine m).heap.elements (s.array a) = (m.heap.elements a).map s.value from
    elements_heap, Array.toList_map]
  infer_instance

/-- A record is read from two arrays, and where they are is not kept. -/
instance popRecord_carries : CarriesAct s s.call Act.popRecord Act.popRecord := by
  refine .seq fun args => .seq fun types => .seq fun receiver => .seq fun name => .seq fun owner => ?_
  have howner : CarriesAct s (fun c => c) (Act.recordPart .classToken (Act.cls? owner))
      (Act.recordPart .classToken (Act.cls? (s.value owner))) :=
    recordPart_carries _ (by cases owner <;> rfl)
  have hname : CarriesAct s (fun t => t) (Act.recordPart .methodName name.text?)
      (Act.recordPart .methodName (s.value name).text?) :=
    recordPart_carries _ (by cases name <;> rfl)
  have harray : ∀ part v, CarriesAct s s.array (Act.recordPart part (Act.array? v))
      (Act.recordPart part (Act.array? (s.value v))) :=
    fun _ v => recordPart_carries _ (by cases v <;> rfl)
  have hnames : ∀ vs : List Value, CarriesAct s (fun names => names)
      (Act.recordPart .paramTypeName (vs.mapM Value.text?))
      (Act.recordPart .paramTypeName ((vs.map s.value).mapM Value.text?)) := by
    intro vs
    refine recordPart_carries _ ?_
    rw [Option.map_id', List.mapM_map]
    exact congrArg (List.mapM · vs) (funext s.text?_value)
  have hrecord : ∀ c name (types : List String) args, Takes s s.call
      ⟨c, name, receiver, types, args⟩ ⟨c, name, s.value receiver, types, args.map s.value⟩ :=
    fun _ _ _ _ => ⟨rfl⟩
  infer_instance

variable (hhandlers : ∀ ref, s.CarriesHandler (handlers ref))

include hhandlers

theorem methodInvoked_carries :
    CarriesAct s (fun u => u) (Act.methodInvoked execute handlers)
      (Act.methodInvoked execute handlers) := by
  refine .seq fun call => handler_bind fun ref => ?_
  have hplan : s.Carries _ (((handlers ref).methodInvoked call).run execute) _ :=
    plan_carries ((hhandlers ref).methodInvoked call)
  infer_instance

theorem classInitializing_carries :
    CarriesAct s (fun u => u) (Act.classInitializing execute handlers)
      (Act.classInitializing execute handlers) := by
  refine .seq fun v => .seq fun c => handler_bind fun ref => ?_
  have hplan : s.Carries _ (((handlers ref).classInitializing c).run execute) _ :=
    plan_carries ((hhandlers ref).classInitializing c)
  infer_instance

theorem shouldCallDirectly_carries :
    CarriesAct s (fun u => u) (Act.shouldCallDirectly handlers)
      (Act.shouldCallDirectly handlers) := by
  refine .seq fun receiver => handler_bind fun ref => .machine_bind fun m => ?_
  rw [(hhandlers ref).callsDirectly m receiver]
  infer_instance

end Dispatch

/-! ### Classes, fields and calls -/

instance classConstant_carries (index : UInt32) :
    CarriesAct s (fun c => c) (Act.classConstant index) (Act.classConstant index) := by
  refine .seq fun name => .get_bind fun f => ?_
  rw [cls_frame]
  infer_instance

instance fieldConstant_carries (index : UInt32) :
    CarriesAct s (fun slot => slot) (Act.fieldConstant index) (Act.fieldConstant index) := by
  refine .seq fun field => .get_bind fun f => ?_
  rw [cls_frame]
  infer_instance

instance staticMissing_carries (c : ClassRef) (slot : Nat) :
    CarriesAct s (fun missing => missing) (Act.staticMissing c slot) (Act.staticMissing c slot) := by
  refine .machine_bind fun m => ?_
  rw [cls_machine, name_cls]
  infer_instance

instance instanceOf_carries (index : UInt32) :
    CarriesAct s (fun u => u) (Act.instanceOf index) (Act.instanceOf index) := by
  refine .seq fun v => ?_
  cases v with
  | object o =>
    refine .seq fun c => .machine_bind fun m => ?_
    rw [classOf_machine, classes_machine, isSubclass_table]
    infer_instance
  | _ => exact push_carries

instance classOf_carries : CarriesAct s (fun u => u) Act.classOf Act.classOf := by
  refine .seq fun v => .seq fun o => .machine_bind fun m => ?_
  rw [classOf_machine]
  infer_instance

instance popCall_carries (kind : CallKind) (descriptor : String) :
    CarriesAct s (List.map s.value) (Act.popCall kind descriptor) (Act.popCall kind descriptor) := by
  unfold Act.popCall
  cases MethodDesc.parse descriptor with
  | error e => exact .fail
  | ok signature => exact popMany_carries _

instance taken_carries (condition : Condition) :
    CarriesAct s (fun b => b) (Act.taken condition) (Act.taken condition) := by
  cases condition with
  | ifNull | ifNotNull =>
    refine .seq fun v => ?_
    rw [isNull_value]
    infer_instance
  | always | ifFalse | ifTrue =>
    unfold Act.taken
    infer_instance

/-! ### Instructions -/

section Executing

variable {execute : Execute} [s.Executes execute]

instance staticConstant_carries (index : UInt32) :
    CarriesAct s (fun found => found) (Act.staticConstant execute index)
      (Act.staticConstant execute index) := by
  refine .seq fun field => .get_bind fun f => ?_
  rw [cls_frame]
  infer_instance

instance accessField_carries (index : UInt32) (access : FieldAccess) :
    CarriesAct s (fun u => u) (Act.accessField execute index access)
      (Act.accessField execute index access) := by
  cases access <;> unfold Act.accessField <;> infer_instance

instance newObject_carries (index : UInt32) :
    CarriesAct s (fun u => u) (Act.newObject execute index) (Act.newObject execute index) := by
  unfold Act.newObject
  infer_instance

instance callTarget_carries (kind : CallKind) (ref : MethodRef) (args : List Value) :
    CarriesAct s (fun found => found) (Act.callTarget execute kind ref args)
      (Act.callTarget execute kind ref (args.map s.value)) := by
  have hreceiver : Takes s s.value (args.headD .null) ((args.map s.value).headD .null) := by
    cases args <;> exact ⟨rfl⟩
  cases kind with
  | virtual =>
    unfold Act.callTarget
    infer_instance
  | special =>
    refine .seq fun _ => .get_bind fun f => ?_
    rw [cls_frame]
    infer_instance
  | static =>
    refine .get_bind fun f => ?_
    rw [cls_frame]
    infer_instance

instance invoke_carries (kind : CallKind) (index : UInt32) :
    CarriesAct s (fun u => u) (Act.invoke execute kind index) (Act.invoke execute kind index) := by
  refine .seq fun ref => .seq fun args => .seq fun target => ?_
  infer_instance

variable {handlers : Handlers} (hhandlers : ∀ ref, s.CarriesHandler (handlers ref))

include hhandlers

theorem simple_carries (op : Simple) :
    CarriesAct s (Option.map s.value) (Act.simple execute handlers op)
      (Act.simple execute handlers op) := by
  have hinvoked : s.CarriesAct _ (Act.methodInvoked execute handlers) _ :=
    methodInvoked_carries hhandlers
  have hinitializing : s.CarriesAct _ (Act.classInitializing execute handlers) _ :=
    classInitializing_carries hhandlers
  have hdirectly := shouldCallDirectly_carries hhandlers
  cases op with
  | raise => exact .seq fun v => .fail
  | _ =>
    unfold Act.simple
    infer_instance

/-- **Instructions.** -/
theorem step_carries (i : Instruction) :
    CarriesAct s (Option.map s.value) (Act.step execute handlers i)
      (Act.step execute handlers i) := by
  cases i with
  | simple op => exact simple_carries hhandlers op
  | unbox tag =>
    simp only [Act.step]
    cases TypeDesc.ofTag? tag with
    | none => exact .fail
    | some t => infer_instance
  | _ =>
    unfold Act.step
    infer_instance

end Executing

/-! ### Executions -/

theorem outOfFuel_carries {g : α → α} : Carries s g (Run.outOfFuel : Run α) Run.outOfFuel where
  grows _ _ _ h := absurd h (Option.some_ne_none _).symm
  run _ _ _ h := absurd h (Option.some_ne_none _).symm
  stops _ _ _ := rfl

theorem deeper_carries {g : α → α} {x y : Run α} (h : Carries s g x y) :
    Carries s g (Run.deeper x) (Run.deeper y) where
  grows m r m' hr := by
    unfold Run.deeper at hr
    rcases hx : x { m with depth := m.depth + 1 } with _ | ⟨r', n⟩ <;> rw [hx] at hr
    · exact nomatch hr
    · cases hr
      exact h.grows { m with depth := m.depth + 1 } _ n hx
  run m r m' hr hplaced := by
    unfold Run.deeper at hr ⊢
    rcases hx : x { m with depth := m.depth + 1 } with _ | ⟨r', n⟩ <;> rw [hx] at hr
    · exact nomatch hr
    · cases hr
      rw [show y { s.machine m with depth := (s.machine m).depth + 1 } = _ from
        h.run { m with depth := m.depth + 1 } _ n hx hplaced]
      rfl
  stops m hm hr := by
    unfold Run.deeper at hr ⊢
    rcases hx : x { m with depth := m.depth + 1 } with _ | ⟨r', n⟩ <;> rw [hx] at hr
    · rw [show y { s.machine m with depth := (s.machine m).depth + 1 } = none from
        h.stops { m with depth := m.depth + 1 } hm hx]
    · exact nomatch hr

/-- What keeps a method from being entered is no value. -/
theorem error_of_obstacle? {m : LoadedMethod} {owner : String} {args : List Value}
    {machine : Machine} {e : VmError} (h : m.obstacle? owner args machine = some e) :
    s.error e = e := by
  unfold LoadedMethod.obstacle? at h
  repeat' split at h
  all_goals cases h
  all_goals rfl

section Executions

variable {handlers : Handlers} (hhandlers : ∀ ref, s.CarriesHandler (handlers ref))

include hhandlers

/-- **Bodies.** -/
theorem run_carries {execute : Execute} [s.Executes execute] (owner : String) (m : LoadedMethod)
    (fuel : Nat) (f : Frame) :
    Carries s s.value (Frame.run handlers execute owner m fuel f)
      (Frame.run handlers execute owner m fuel (s.frame f)) := by
  induction fuel generalizing f with
  | zero => exact outOfFuel_carries
  | succ fuel ih =>
    unfold Frame.run
    rw [pc_frame]
    cases m.code[f.pc]? with
    | none => exact .fail
    | some i =>
      have hstep : s.CarriesAct (Option.map s.value) (Act.step execute handlers i) _ :=
        step_carries hhandlers i
      refine .seq (h := hstep.run { f with pc := f.pc + 1 }) fun p => ?_
      rcases p with ⟨_ | result, f'⟩
      · exact ih f'
      · exact .pure

theorem enter_carries {execute : Execute} [s.Executes execute] (fuel : Nat) :
    s.Executes (Run.enter handlers execute fuel) := by
  refine ⟨fun c i args => .get_bind fun machine => ?_⟩
  dsimp only
  rw [cls_machine, methods_cls, name_cls]
  cases (machine.cls c).methods[i]? with
  | none => exact .fail
  | some m =>
    dsimp only
    rw [show m.obstacle? (machine.cls c).name (args.map s.value) (s.machine machine) =
      m.obstacle? (machine.cls c).name args machine by
        unfold LoadedMethod.obstacle?; rw [List.length_map]; rfl]
    cases hobstacle : m.obstacle? (machine.cls c).name args machine with
    | some e => exact .fail (h := ⟨(error_of_obstacle? hobstacle).symm⟩)
    | none =>
      have hframe : s.frame (.enter c m.maxLocals.toNat args) =
          .enter c m.maxLocals.toNat (args.map s.value) := by
        simp only [frame, Frame.enter, List.map_append, List.map_replicate, List.length_map]
        rfl
      refine deeper_carries ?_
      rw [← hframe]
      exact run_carries hhandlers (machine.cls c).name m fuel _

/-- **Executions.** -/
theorem executeWith_carries (fuel : Nat) : s.Executes (executeWith handlers fuel) := by
  induction fuel with
  | zero => exact ⟨fun _ _ _ => outOfFuel_carries⟩
  | succ fuel ih => exact enter_carries hhandlers fuel

end Executions

/-- Where the inset is set in already, what it carries over comes beside it to what it comes to without
it, taken over, and to nothing else. -/
theorem comesTo_iff {g : α → α} {x y : Nat → Run α} (h : ∀ n, Carries s g (x n) (y n)) {m : Machine}
    (hm : s.Placed m.heap.arrays.size) (o : Except VmError α × Machine) :
    ComesTo y (s.machine m) o ↔ ∃ p, ComesTo x m p ∧ o = s.outcome g p := by
  constructor
  · rintro ⟨n, hn⟩
    rcases hx : x n m with _ | p
    · rw [(h n).stops m hm hx] at hn
      exact nomatch hn
    · rw [(h n).run m _ _ hx fun _ => hm] at hn
      exact ⟨p, ⟨n, hx⟩, (Option.some.inj hn).symm⟩
  · rintro ⟨p, ⟨n, hn⟩, rfl⟩
    exact ⟨n, (h n).run m _ _ hn fun _ => hm⟩

end Inset

end Interpose
