import Interpose.Proofs.Walks
/-!
# Courses of a body

A frame takes a *course* through a body when instruction after instruction is done and none returns.
A course lists the places that it comes through, so one can speak of the first time that it comes to a
place. The machine may change on the way in whatever manner the instructions make it, and the methods
that they execute.

Only jumps move a frame elsewhere: whatever else an instruction does, it leaves the program counter
alone, which stands on the next instruction already. So a course that is behind a place, with no jump
there that leads back, stays behind that place.

## Main definitions

* `Act.Stays`: computations of a frame that leave its program counter alone
* `Frame.Course`

## Main results

* `Act.pc_of_step`: where an instruction leads
* `Frame.Course.behind`: a course stays behind what nothing leads back from
-/

namespace Interpose

/-! ### Program counters -/

namespace Act

variable {α β : Type}

theorem bind_eq_ok {x : Act α} {g : α → Act β} {f f' : Frame} {m m' : Machine} {b : β}
    (h : (x >>= g) f m = some (.ok (b, f'), m')) :
    ∃ a f₁ m₁, x f m = some (.ok (a, f₁), m₁) ∧ g a f₁ m₁ = some (.ok (b, f'), m') := by
  obtain ⟨⟨a, f₁⟩, m₁, hx, hg⟩ := Run.bind_eq_ok h
  exact ⟨a, f₁, m₁, hx, hg⟩

/-- An entry of the pool that is found is one of the class of the frame. -/
theorem constant_eq_ok {table : PoolTable} {index : UInt32} {find : Pool → UInt32 → Option α}
    {f f' : Frame} {m m' : Machine} {a : α}
    (h : constant table index find f m = some (.ok (a, f'), m')) :
    find (m.cls f.cls).constants index = some a := by
  obtain ⟨k, f₁, m₁, hclass, hfind⟩ := bind_eq_ok h
  cases hclass
  cases hsome : find (m.cls f.cls).constants index with
  | some b =>
    rw [hsome] at hfind
    cases hfind
    rfl
  | none =>
    rw [hsome] at hfind
    cases hfind

/-- A computation of a frame that leaves its program counter alone. -/
class Stays (x : Act α) : Prop where
  pc_eq : ∀ {f f' : Frame} {m m' : Machine} {a : α}, x f m = some (.ok (a, f'), m') → f'.pc = f.pc

namespace Stays

instance pure (a : α) : Stays (pure a) :=
  ⟨fun h => by
    cases h
    rfl⟩

theorem seq {x : Act α} {g : α → Act β} [hx : Stays x] (hg : ∀ a, Stays (g a)) :
    Stays (x >>= g) := by
  refine ⟨fun h => ?_⟩
  obtain ⟨a, f₁, m₁, hfirst, hrest⟩ := bind_eq_ok h
  exact ((hg a).pc_eq hrest).trans (hx.pc_eq hfirst)

instance bind {x : Act α} {g : α → Act β} [Stays x] [hg : ∀ a, Stays (g a)] : Stays (x >>= g) :=
  .seq hg

/-- The machine knows nothing of frames. -/
instance lift (x : Run α) : Stays (liftM x) := by
  refine ⟨fun h => ?_⟩
  obtain ⟨a, m₁, -, hrest⟩ := Run.bind_eq_ok h
  cases hrest
  rfl

instance fail (e : VmError) : Stays (Act.fail e : Act α) := lift (Run.fail e)

instance get : Stays (get : Act Frame) :=
  ⟨fun h => by
    cases h
    rfl⟩

instance ite {p : Prop} [Decidable p] {x y : Act α} [Stays x] [Stays y] :
    Stays (if p then x else y) := by
  split <;> assumption

end Stays

/-! ### Computations of the frame -/

instance machine_stays : Stays machine := Stays.lift get

instance push_stays (v : Value) : Stays (push v) :=
  ⟨fun h => by
    cases h
    rfl⟩

instance pop_stays : Stays pop := by
  refine ⟨fun {f} _ _ _ _ h => ?_⟩
  cases hs : f.stack with
  | nil =>
    rw [pop_of_nil hs] at h
    cases h
  | cons v rest =>
    rw [pop_of_cons hs] at h
    cases h
    rfl

instance popMany_stays (count : Nat) : Stays (popMany count) := by
  refine ⟨fun {f} _ _ _ _ h => ?_⟩
  by_cases hcount : count ≤ f.stack.length
  · rw [popMany_of_le hcount] at h
    cases h
    rfl
  · rw [popMany_of_lt (Nat.lt_of_not_le hcount)] at h
    cases h

instance writeLocal_stays (slot : UInt16) (v : Value) : Stays (writeLocal slot v) := by
  refine ⟨fun {f} _ _ _ _ h => ?_⟩
  by_cases hslot : slot.toNat < f.locals.length
  · rw [writeLocal_of_lt hslot] at h
    cases h
    rfl
  · rw [writeLocal_of_le (Nat.le_of_not_lt hslot)] at h
    cases h

instance peek_stays : Stays peek := by
  refine .seq fun f => ?_
  split <;> infer_instance

instance readLocal_stays (slot : UInt16) : Stays (readLocal slot) := by
  refine .seq fun f => ?_
  split <;> infer_instance

instance currentClass_stays : Stays currentClass := by
  unfold currentClass
  infer_instance

instance constant_stays (table : PoolTable) (index : UInt32) (find : Pool → UInt32 → Option α) :
    Stays (constant table index find) := by
  refine .seq fun k => ?_
  split <;> infer_instance

/-! ### Instructions -/

instance integerOp_stays (op : IntOp) : Stays (integerOp op) := by
  have hrest : Stays (do
      let b ← pop
      let a ← pop
      match a, b with
      | .int x, .int y => push (.int (op.int x y))
      | a, b =>
        let x ← Run.asLong a
        let y ← Run.asLong b
        push (.long (op.long x y))) := by
    refine .seq fun b => .seq fun a => ?_
    split <;> infer_instance
  unfold integerOp
  split
  · refine .seq fun b => .seq fun n => ?_
    split
    · exact .seq fun _ => hrest
    · exact hrest
  · exact hrest

instance negate_stays : Stays negate := by
  refine .seq fun v => ?_
  split <;> infer_instance

instance doubleOp_stays (op : FloatOp) : Stays (doubleOp op) := by
  unfold doubleOp
  infer_instance

instance compare_stays (rel : Relation) : Stays (compare rel) := by
  unfold compare
  infer_instance

instance compareValues_stays (expected : Bool) : Stays (compareValues expected) := by
  unfold compareValues
  infer_instance

instance concat_stays : Stays concat := by
  unfold concat
  infer_instance

instance newArray_stays : Stays newArray := by
  unfold newArray
  infer_instance

instance arrayLoad_stays : Stays arrayLoad := by
  unfold arrayLoad
  infer_instance

instance arrayStore_stays : Stays arrayStore := by
  unfold arrayStore
  infer_instance

instance arrayLength_stays : Stays arrayLength := by
  unfold arrayLength
  infer_instance

instance classOf_stays : Stays classOf := by
  unfold classOf
  infer_instance

instance handler_stays (handlers : Handlers) : Stays (handler handlers) := by
  refine .seq fun k => ?_
  split <;> infer_instance

instance recordPart_stays (part : RecordPart) (a : Option α) : Stays (recordPart part a) := by
  cases a with
  | some a => exact .pure a
  | none => exact .fail _

instance elements_stays (a : ArrayRef) : Stays (elements a) := by
  unfold elements
  infer_instance

instance popRecord_stays : Stays popRecord := by
  refine .seq fun args => .seq fun types => .seq fun receiver => .seq fun name => ?_
  refine .seq fun owner => ?_
  infer_instance

instance shouldCallDirectly_stays (handlers : Handlers) : Stays (shouldCallDirectly handlers) := by
  unfold shouldCallDirectly
  infer_instance

instance classConstant_stays (index : UInt32) : Stays (classConstant index) := by
  unfold classConstant
  infer_instance

instance fieldConstant_stays (index : UInt32) : Stays (fieldConstant index) := by
  unfold fieldConstant
  infer_instance

instance instanceOf_stays (index : UInt32) : Stays (instanceOf index) := by
  refine .seq fun v => ?_
  split <;> infer_instance

instance popCall_stays (kind : CallKind) (descriptor : String) :
    Stays (popCall kind descriptor) := by
  unfold popCall
  split <;> infer_instance

instance taken_stays (condition : Condition) : Stays (taken condition) := by
  cases condition <;> unfold taken <;> infer_instance

section Executing

variable (execute : Execute)

instance methodInvoked_stays (handlers : Handlers) : Stays (methodInvoked execute handlers) := by
  unfold methodInvoked
  infer_instance

instance classInitializing_stays (handlers : Handlers) :
    Stays (classInitializing execute handlers) := by
  unfold classInitializing
  infer_instance

instance newObject_stays (index : UInt32) : Stays (newObject execute index) := by
  unfold newObject
  infer_instance

instance staticConstant_stays (index : UInt32) : Stays (staticConstant execute index) := by
  unfold staticConstant
  infer_instance

instance accessField_stays (index : UInt32) (access : FieldAccess) :
    Stays (accessField execute index access) := by
  cases access <;> unfold accessField <;> unfold staticMissing <;> infer_instance

instance callTarget_stays (kind : CallKind) (ref : MethodRef) (args : List Value) :
    Stays (callTarget execute kind ref args) := by
  cases kind <;> unfold callTarget <;> infer_instance

instance invoke_stays (kind : CallKind) (index : UInt32) : Stays (invoke execute kind index) := by
  unfold invoke
  infer_instance

instance simple_stays (handlers : Handlers) (op : Simple) : Stays (simple execute handlers op) := by
  cases op <;> unfold simple <;> infer_instance

end Executing

/-- **Control.** An instruction leads to the next one, or to where it jumps. -/
theorem pc_of_step {execute : Execute} {handlers : Handlers} {i : Instruction} {f f' : Frame}
    {m m' : Machine} {a : Option Value}
    (h : step execute handlers i f m = some (.ok (a, f'), m')) :
    f'.pc = f.pc ∨ i.target? = some f'.pc := by
  have hstays : Stays (step execute handlers i) → f'.pc = f.pc ∨ i.target? = some f'.pc :=
    fun hs => .inl (hs.pc_eq h)
  cases i with
  | jump c target =>
    obtain ⟨b, f₁, m₁, htaken, hrest⟩ := bind_eq_ok h
    have hpc : f₁.pc = f.pc := (taken_stays c).pc_eq htaken
    cases b with
    | true =>
      cases hrest
      exact .inr rfl
    | false =>
      cases hrest
      exact .inl hpc
  | unbox tag =>
    refine hstays ?_
    simp only [step]
    split <;> infer_instance
  | _ =>
    refine hstays ?_
    unfold step
    infer_instance

end Act

/-! ### Courses -/

namespace Frame

/-- Doing what the instructions of a body say, from one frame on one machine to another, without
returning. The places are those of the instructions that are done, in their order. -/
inductive Course (handlers : Handlers) (execute : Execute) (code : Array Instruction) :
    List Nat → Frame → Machine → Frame → Machine → Prop
  | stay (f : Frame) (m : Machine) : Course handlers execute code [] f m f m
  | step {places : List Nat} {i : Instruction} {f f' f'' : Frame} {m m' m'' : Machine} :
    code[f.pc]? = some i →
    Act.step execute handlers i { f with pc := f.pc + 1 } m = some (.ok (none, f'), m') →
    Course handlers execute code places f' m' f'' m'' →
    Course handlers execute code (f.pc :: places) f m f'' m''

variable {handlers : Handlers} {execute : Execute} {places : List Nat} {f f' : Frame}
variable {m m' : Machine} {code : Array Instruction}

/-- The course that a frame takes in a number of steps, if it gets so far. -/
def follow (handlers : Handlers) (execute : Execute) (code : Array Instruction) :
    Nat → Frame → Machine → Option (List Nat × Frame × Machine)
  | 0, f, m => some ([], f, m)
  | n + 1, f, m =>
    match code[f.pc]? with
    | none => none
    | some i =>
      match Act.step execute handlers i { f with pc := f.pc + 1 } m with
      | some (.ok (none, f'), m') =>
        (follow handlers execute code n f' m').map fun found => (f.pc :: found.1, found.2)
      | _ => none

theorem course_of_follow {n : Nat}
    (h : follow handlers execute code n f m = some (places, f', m')) :
    Course handlers execute code places f m f' m' := by
  induction n generalizing f m places with
  | zero =>
    cases h
    exact .stay _ _
  | succ n ih =>
    unfold follow at h
    split at h
    next => cases h
    next i hi =>
      split at h
      next f₁ m₁ hstep =>
        obtain ⟨⟨rest, f₂, m₂⟩, hrest, heq⟩ := Option.map_eq_some_iff.1 h
        cases heq
        exact .step hi hstep (ih hrest)
      next => cases h

/-- A course that comes to a place goes on from there. -/
theorem Course.exists_of_mem {p : Nat} (h : Course handlers execute code places f m f' m')
    (hp : p ∈ places) :
    ∃ before behind f₁ m₁, Course handlers execute code before f m f₁ m₁ ∧ f₁.pc = p ∧
      Course handlers execute code (p :: behind) f₁ m₁ f' m' := by
  induction h with
  | stay f m => exact nomatch hp
  | @step places i f f₁ f' m m₁ m' hi hstep hrest ih =>
    rcases List.mem_cons.1 hp with rfl | hp
    · exact ⟨[], places, f, m, .stay f m, rfl, .step hi hstep hrest⟩
    · obtain ⟨before, behind, f₂, m₂, hbefore, hpc, hbehind⟩ := ih hp
      exact ⟨f.pc :: before, behind, f₂, m₂, .step hi hstep hbefore, hpc, hbehind⟩

/-- **Behind.** Where no jump behind a place leads back to it, a course that is behind it stays there. -/
theorem Course.behind {p : Nat} (h : Course handlers execute code places f m f' m')
    (hback : ∀ q i target, p < q → code[q]? = some i → i.target? = some target → p < target)
    (hf : p < f.pc) : p < f'.pc := by
  induction h with
  | stay f m => exact hf
  | step hi hstep _ ih =>
    refine ih ?_
    rcases Act.pc_of_step hstep with hnext | hjump
    · rw [hnext]
      exact Nat.lt_succ_of_lt hf
    · exact hback _ _ _ hf hi hjump

end Frame

end Interpose
