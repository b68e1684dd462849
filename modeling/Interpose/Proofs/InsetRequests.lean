import Interpose.Proofs.InsetLoads
/-!
# Computations beside an inset

A computation of the machine is *carried over* to another by an inset if the second, on the machine
with the arrays set in, comes to what the first comes to, with the arrays set in. What a computation
is told are values taken over, and so is what it answers; how that is, depends on the type of the
answer. Nothing is said of a computation on whose way the heap comes so far that the inset begins to
be set in.

Nothing the machine does looks at the numbers of arrays, so every computation is carried over to
itself, with other values. This is put together by instances, as computations are put together.
Plans come from outside. They are to be such that numbers of arrays mean nothing to them, and then
they are carried over as well.

## Main definitions

* `Inset.Takes`: what an inset makes of data
* `Inset.Carries`: computations
* `Inset.CarriesPlan`: plans

## Main results

* `Inset.request_carries`, `Inset.plan_carries`: requests and plans
-/

namespace Interpose

namespace Inset

/-- An outcome taken over. -/
def outcome {α : Type} (s : Inset) (g : α → α) (o : Except VmError α × Machine) :
    Except VmError α × Machine :=
  (s.result g o.1, s.machine o.2)

/-- Data and what an inset makes of it. The function goes with the type. -/
class Takes (s : Inset) {α : Type} (g : outParam (α → α)) (a b : α) : Prop where
  eq : b = g a

/-- Computations that the inset carries over: the second does beside the inset what the first does
without it, and its answer is taken over. That is, unless the inset is set in on the way. -/
class Carries (s : Inset) {α : Type} (g : outParam (α → α)) (x y : Run α) : Prop where
  grows : ∀ m r m', x m = some (r, m') → m.heap.arrays.size ≤ m'.heap.arrays.size
  run : ∀ m r m', x m = some (r, m') →
    (s.Placed m'.heap.arrays.size → s.Placed m.heap.arrays.size) →
    y (s.machine m) = some (s.outcome g (r, m'))
  stops : ∀ m, s.Placed m.heap.arrays.size → x m = none → y (s.machine m) = none

/-- An execution of methods that the inset carries over to itself. -/
class Executes (s : Inset) (execute : Execute) : Prop where
  run : ∀ c i args, s.Carries s.value (execute c i args) (execute c i (args.map s.value))

variable {s : Inset} {α β : Type}

/-! ### Data -/

namespace Takes

instance (priority := low) same (a : α) : Takes s (fun a => a) a a := ⟨rfl⟩

instance value (v : Value) : Takes s s.value v (s.value v) := ⟨rfl⟩

instance null : Takes s s.value .null .null := ⟨rfl⟩

instance bool (b : Bool) : Takes s s.value (.bool b) (.bool b) := ⟨rfl⟩

instance int (n : Int32) : Takes s s.value (.int n) (.int n) := ⟨rfl⟩

instance long (n : Int64) : Takes s s.value (.long n) (.long n) := ⟨rfl⟩

instance double (x : Binary64) : Takes s s.value (.double x) (.double x) := ⟨rfl⟩

instance text (t : String) : Takes s s.value (.text t) (.text t) := ⟨rfl⟩

instance object (o : ObjectRef) : Takes s s.value (.object o) (.object o) := ⟨rfl⟩

instance array (a : ArrayRef) : Takes s s.value (.array a) (.array (s.array a)) := ⟨rfl⟩

instance cls (c : ClassRef) : Takes s s.value (.cls c) (.cls c) := ⟨rfl⟩

instance arrayRef (a : ArrayRef) : Takes s s.array a (s.array a) := ⟨rfl⟩

instance none : Takes s (Option.map s.value) none none := ⟨rfl⟩

instance some {v w : Value} [h : Takes s s.value v w] :
    Takes s (Option.map s.value) (some v) (some w) := by
  obtain rfl := h.eq
  exact ⟨rfl⟩

instance values (vs : List Value) : Takes s (List.map s.value) vs (vs.map s.value) := ⟨rfl⟩

instance nil : Takes s (List.map s.value) [] [] := ⟨rfl⟩

instance cons {v w : Value} {vs ws : List Value} [h : Takes s s.value v w]
    [hs : Takes s (List.map s.value) vs ws] :
    Takes s (List.map s.value) (v :: vs) (w :: ws) := by
  obtain rfl := h.eq
  obtain rfl := hs.eq
  exact ⟨rfl⟩

instance nulls (n : Nat) :
    Takes s (Array.map s.value) (Array.replicate n .null) (Array.replicate n .null) :=
  ⟨(Array.map_replicate (f := s.value) (a := Value.null)).symm⟩

instance event (e : Event) : Takes s s.event e (s.event e) := ⟨rfl⟩

instance thrown {v w : Value} [h : Takes s s.value v w] :
    Takes s s.error (.thrown v) (.thrown w) := by
  obtain rfl := h.eq
  exact ⟨rfl⟩

instance stackUnderflow : Takes s s.error .stackUnderflow .stackUnderflow := ⟨rfl⟩

instance nullPointer : Takes s s.error .nullPointer .nullPointer := ⟨rfl⟩

instance type (cause : TypeFault) : Takes s s.error (.type cause) (.type cause) := ⟨rfl⟩

instance noSuchMethod (missing : MissingMethod) :
    Takes s s.error (.noSuchMethod missing) (.noSuchMethod missing) := ⟨rfl⟩

instance noSuchField (missing : MissingField) :
    Takes s s.error (.noSuchField missing) (.noSuchField missing) := ⟨rfl⟩

instance dispatch (cause : DispatchError) : Takes s s.error (.dispatch cause) (.dispatch cause) :=
  ⟨rfl⟩

end Takes

/-! ### Putting computations together -/

namespace Carries

/-- A computation that always comes to something. -/
theorem intro {g : α → α} {x y : Run α}
    (h : ∀ m, ∃ r m', x m = some (r, m') ∧ m.heap.arrays.size ≤ m'.heap.arrays.size ∧
      ((s.Placed m'.heap.arrays.size → s.Placed m.heap.arrays.size) →
        y (s.machine m) = some (s.result g r, s.machine m'))) : Carries s g x y where
  grows m r m' hx := by
    obtain ⟨r', n, hx', hn, -⟩ := h m
    obtain ⟨-, rfl⟩ : r' = r ∧ n = m' := by simpa [hx'] using hx
    exact hn
  run m r m' hx := by
    obtain ⟨r', n, hx', -, hy⟩ := h m
    obtain ⟨rfl, rfl⟩ : r' = r ∧ n = m' := by simpa [hx'] using hx
    exact hy
  stops m _ hx := by
    obtain ⟨r', n, hx', -⟩ := h m
    exact absurd hx (hx' ▸ Option.some_ne_none _)

instance pure {g : α → α} {a b : α} [h : Takes s g a b] : Carries s g (pure a) (pure b) := by
  obtain rfl := h.eq
  exact .intro fun m => ⟨.ok a, m, rfl, Nat.le_refl _, fun _ => rfl⟩

theorem fail {g : α → α} {e e' : VmError} [h : Takes s s.error e e'] :
    Carries s g (Run.fail e) (Run.fail e') := by
  obtain rfl := h.eq
  exact .intro fun m => ⟨.error e, m, rfl, Nat.le_refl _, fun _ => rfl⟩

theorem seq {g : α → α} {k : β → β} {x y : Run α} {f f' : α → Run β} [h : Carries s g x y]
    (hf : ∀ a, Carries s k (f a) (f' (g a))) : Carries s k (x >>= f) (y >>= f') where
  grows m r m' hr := by
    rw [Run.bind_apply] at hr
    rcases hx : x m with _ | ⟨e | a, n⟩ <;> rw [hx] at hr
    · exact nomatch hr
    · cases hr
      exact h.grows m _ _ hx
    · exact Nat.le_trans (h.grows m _ _ hx) ((hf a).grows n r m' hr)
  run m r m' hr hplaced := by
    rw [Run.bind_apply] at hr ⊢
    rcases hx : x m with _ | ⟨e | a, n⟩ <;> rw [hx] at hr
    · exact nomatch hr
    · cases hr
      rw [h.run m _ _ hx hplaced]
      rfl
    -- In between, there are at least as many arrays as before, and at most as many as after.
    · have hn : s.Placed n.heap.arrays.size → s.Placed m'.heap.arrays.size :=
        fun hn => Nat.le_trans hn ((hf a).grows n r m' hr)
      have hm : s.Placed m.heap.arrays.size → s.Placed n.heap.arrays.size :=
        fun hm => Nat.le_trans hm (h.grows m _ _ hx)
      rw [h.run m _ _ hx (hplaced ∘ hn)]
      exact (hf a).run n r m' hr (hm ∘ hplaced)
  stops m hm hr := by
    rw [Run.bind_apply] at hr ⊢
    rcases hx : x m with _ | ⟨e | a, n⟩ <;> rw [hx] at hr
    · rw [h.stops m hm hx]
    · exact nomatch hr
    · rw [h.run m _ _ hx fun _ => hm]
      exact (hf a).stops n (Nat.le_trans hm (h.grows m _ _ hx)) hr

instance bind {g : α → α} {k : β → β} {x y : Run α} {f f' : α → Run β} [Carries s g x y]
    [hf : ∀ a, Carries s k (f a) (f' (g a))] : Carries s k (x >>= f) (y >>= f') := .seq hf

/-- What is done with the machine that is read. -/
theorem get_bind {k : β → β} {f f' : Machine → Run β}
    (h : ∀ m, Carries s k (f m) (f' (s.machine m))) : Carries s k (get >>= f) (get >>= f') where
  grows m := (h m).grows m
  run m := (h m).run m
  stops m := (h m).stops m

/-- A change of the machine that the inset goes over with, and that adds no arrays. -/
theorem modify {f f' : Machine → Machine}
    (hsize : ∀ m, (f m).heap.arrays.size = m.heap.arrays.size)
    (h : ∀ m, f' (s.machine m) = s.machine (f m)) :
    Carries s (fun u => u) (modify f : Run Unit) (modify f') := by
  refine .intro fun m => ⟨.ok (), f m, rfl, Nat.le_of_eq (hsize m).symm, fun _ => ?_⟩
  rw [← h m]
  rfl

instance ite {p : Prop} [Decidable p] {g : α → α} {x x' y y' : Run α} [Carries s g x y]
    [Carries s g x' y'] : Carries s g (if p then x else x') (if p then y else y') := by
  split <;> assumption

instance attempt {g : α → α} {x y : Run α} [h : Carries s g x y] :
    Carries s (s.result g) (Run.attempt x) (Run.attempt y) where
  grows m r m' hr := by
    unfold Run.attempt at hr
    rcases hx : x m with _ | ⟨r', n⟩ <;> rw [hx] at hr
    · exact nomatch hr
    · cases hr
      exact h.grows m _ _ hx
  run m r m' hr hplaced := by
    unfold Run.attempt at hr ⊢
    rcases hx : x m with _ | ⟨r', n⟩ <;> rw [hx] at hr
    · exact nomatch hr
    · cases hr
      rw [h.run m _ _ hx hplaced]
      rfl
  stops m hm hr := by
    unfold Run.attempt at hr ⊢
    rcases hx : x m with _ | ⟨r', n⟩ <;> rw [hx] at hr
    · rw [h.stops m hm hx]
    · exact nomatch hr

instance resume {g : α → α} (r : Except VmError α) :
    Carries s g (Run.resume r) (Run.resume (s.result g r)) := by
  cases r with
  | ok a => exact .pure (h := ⟨rfl⟩)
  | error e => exact .fail (h := ⟨rfl⟩)

end Carries

/-! ### Values -/

/-- What a value was expected to be, taken over. A failure tells no more of an array than that it is
one. -/
theorem expect_carries {g : α → α} (expected : String) (v : Value) {a? b? : Option α}
    (h : b? = a?.map g) :
    Carries s g (Run.expect expected v a?) (Run.expect expected (s.value v) b?) := by
  subst h
  cases a? with
  | some a => exact .pure (h := ⟨rfl⟩)
  | none =>
    refine .get_bind fun m => ?_
    rw [show (s.value v).typeName (s.machine m).classes (s.machine m).heap =
      v.typeName m.classes m.heap from s.typeName_value m.classes m.heap v]
    exact .fail

section Values

variable {v w : Value} [h : Takes s s.value v w]

include h

/-- Payloads that are no references are what they were. -/
theorem payload_carries (expected : String) {payload? : Value → Option α}
    (hpayload : payload? (s.value v) = payload? v) :
    Carries s (fun a => a) (Run.expect expected v (payload? v))
      (Run.expect expected w (payload? w)) := by
  obtain rfl := h.eq
  refine expect_carries expected v ?_
  rw [hpayload, Option.map_id']

instance asBool_carries : Carries s (fun b => b) (Run.asBool v) (Run.asBool w) :=
  payload_carries "boolean" (s.bool?_value v)

instance asInt_carries : Carries s (fun n => n) (Run.asInt v) (Run.asInt w) :=
  payload_carries "int" (s.int?_value v)

instance asLong_carries : Carries s (fun n => n) (Run.asLong v) (Run.asLong w) :=
  payload_carries "long" (s.long?_value v)

instance asDouble_carries : Carries s (fun x => x) (Run.asDouble v) (Run.asDouble w) :=
  payload_carries "double" (s.double?_value v)

instance asText_carries : Carries s (fun t => t) (Run.asText v) (Run.asText w) :=
  payload_carries "string" (s.text?_value v)

instance unbox_carries (t : TypeDesc) : Carries s s.value (Run.unbox t v) (Run.unbox t w) := by
  obtain rfl := h.eq
  exact expect_carries t.name v (s.unbox?_value t v)

instance asObject_carries : Carries s (fun o => o) (Run.asObject v) (Run.asObject w) := by
  obtain rfl := h.eq
  cases v with
  | object o => exact .pure
  | null => exact .fail
  | bool | int | long | double | text | array | cls =>
    show Carries s _ (Run.expect "object" _ none) (Run.expect "object" _ none)
    exact expect_carries "object" _ rfl

instance asArray_carries : Carries s s.array (Run.asArray v) (Run.asArray w) := by
  obtain rfl := h.eq
  cases v with
  | array a => exact .pure
  | null => exact .fail
  | bool | int | long | double | text | object | cls =>
    show Carries s _ (Run.expect "array" _ none) (Run.expect "array" _ none)
    exact expect_carries "array" _ rfl

instance asClass_carries : Carries s (fun c => c) (Run.asClass v) (Run.asClass w) := by
  obtain rfl := h.eq
  cases v with
  | cls c => exact .pure
  | null => exact .fail
  | bool | int | long | double | text | object | array =>
    show Carries s _ (Run.expect "class" _ none) (Run.expect "class" _ none)
    exact expect_carries "class" _ rfl

instance display_carries : Carries s (fun t => t) (Run.display v) (Run.display w) := by
  obtain rfl := h.eq
  refine .get_bind fun m => ?_
  rw [show (s.value v).display (s.machine m).classes (s.machine m).heap =
    v.display m.classes m.heap from s.display_value m.classes m.heap v]
  exact .pure

end Values

/-! ### The heap -/

instance allocate_carries (c : ClassRef) : Carries s s.value (Run.allocate c) (Run.allocate c) := by
  refine .intro fun m => ⟨_, _, rfl, Nat.le_refl _, fun _ => ?_⟩
  let x := (s.table m.classes).newInstance c
  show some (Except.ok (Value.object ((s.heap m.heap).allocate x).1),
    { s.machine m with heap := ((s.heap m.heap).allocate x).2 }) = _
  rw [show x = s.object (m.classes.newInstance c) from s.newInstance_table m.classes c,
    heap_allocate]
  rfl

/-- Of all computations, only this one adds to the arrays. -/
instance allocateArray_carries {items items' : Array Value}
    [h : Takes s (Array.map s.value) items items'] :
    Carries s s.value (Run.allocateArray items) (Run.allocateArray items') := by
  obtain rfl := h.eq
  refine .intro fun m => ⟨.ok (.array (m.heap.allocateArray items).1),
    { m with heap := (m.heap.allocateArray items).2 }, rfl, ?_⟩
  have hsize : (m.heap.allocateArray items).2.arrays.size = m.heap.arrays.size + 1 :=
    Array.size_push items
  rw [hsize]
  refine ⟨Nat.le_succ _, fun hplaced => ?_⟩
  show some (Except.ok (Value.array ((s.heap m.heap).allocateArray (items.map s.value)).1),
    { s.machine m with heap := ((s.heap m.heap).allocateArray (items.map s.value)).2 }) = _
  rw [heap_allocateArray hplaced]
  rfl

/-- The report of a slot that is not there. -/
theorem missingSlot_machine (m : Machine) (o : ObjectRef) (slot : Nat) :
    MissingField.slot ((s.machine m).cls ((s.machine m).classOf o)).name slot =
      .slot (m.cls (m.classOf o)).name slot := by
  rw [classOf_machine, cls_machine]
  rfl

instance getSlot_carries (o : ObjectRef) (slot : Nat) :
    Carries s s.value (Run.getSlot o slot) (Run.getSlot o slot) := by
  refine .get_bind fun m => ?_
  rw [show (s.machine m).heap.slot? o slot = (m.heap.slot? o slot).map s.value from slot?_heap slot,
    missingSlot_machine]
  cases m.heap.slot? o slot with
  | some v => exact .pure
  | none => exact .fail

instance setSlot_carries (o : ObjectRef) (slot : Nat) {v w : Value} [h : Takes s s.value v w] :
    Carries s (fun u => u) (Run.setSlot o slot v) (Run.setSlot o slot w) := by
  obtain rfl := h.eq
  refine .intro fun m => ?_
  unfold Run.setSlot
  rw [Run.get_bind_apply, Run.get_bind_apply, missingSlot_machine,
    show (s.machine m).heap.slot? o slot = (m.heap.slot? o slot).map s.value from slot?_heap slot]
  cases m.heap.slot? o slot with
  | some _ =>
    refine ⟨_, _, rfl, Nat.le_refl _, fun _ => ?_⟩
    show some (Except.ok (), { s.machine m with heap := (s.heap m.heap).setSlot o slot (s.value v) }) = _
    rw [← heap_setSlot]
    rfl
  | none => exact ⟨_, m, rfl, Nat.le_refl _, fun _ => rfl⟩

theorem outOfBounds_carries {g : α → α} (a : ArrayRef) (i : Int32) :
    Carries s g (Run.outOfBounds a i) (Run.outOfBounds (s.array a) i) := by
  refine .get_bind fun m => ?_
  rw [show ((s.machine m).heap.elements (s.array a)) = (m.heap.elements a).map s.value from
    elements_heap, Array.size_map]
  exact .fail

instance getElement_carries (a : ArrayRef) (i : Int32) :
    Carries s s.value (Run.getElement a i) (Run.getElement (s.array a) i) := by
  refine .get_bind fun m => ?_
  rw [show (s.machine m).heap.element? (s.array a) i = (m.heap.element? a i).map s.value from
    element?_heap i]
  cases m.heap.element? a i with
  | some v => exact .pure
  | none => exact outOfBounds_carries a i

instance setElement_carries (a : ArrayRef) (i : Int32) {v w : Value} [h : Takes s s.value v w] :
    Carries s (fun u => u) (Run.setElement a i v) (Run.setElement (s.array a) i w) := by
  obtain rfl := h.eq
  have hmissing : Carries s (fun u => u) (Run.outOfBounds a i : Run Unit) _ := outOfBounds_carries a i
  refine .intro fun m => ?_
  unfold Run.setElement
  rw [Run.get_bind_apply, Run.get_bind_apply,
    show (s.machine m).heap.position? (s.array a) i = m.heap.position? a i from position?_heap i]
  cases m.heap.position? a i with
  | some p =>
    have hsize : (m.heap.setElement a p v).arrays.size = m.heap.arrays.size := Array.size_modify
    refine ⟨.ok (), { m with heap := m.heap.setElement a p v }, rfl, Nat.le_of_eq hsize.symm,
      fun _ => ?_⟩
    show some (Except.ok (),
      { s.machine m with heap := (s.heap m.heap).setElement (s.array a) p (s.value v) }) = _
    rw [← heap_setElement]
    rfl
  | none => exact ⟨_, m, rfl, Nat.le_refl _, hmissing.run m _ m rfl⟩

/-! ### Classes -/

instance loadThrough_carries (l : LoaderRef) (name : String) :
    Carries s (fun c => c) (Run.loadThrough l name) (Run.loadThrough l name) := by
  refine .intro fun m => ?_
  unfold Run.loadThrough
  rw [show Load.load l name (s.machine m).realm = _ from (Load.load_carried l name).run m.realm]
  rcases Load.load l name m.realm with ⟨_ | c, r⟩ <;>
    exact ⟨_, _, rfl, Nat.le_refl _, fun _ => rfl⟩

instance loadClass_carries (name : String) :
    Carries s (fun c => c) (Run.loadClass name) (Run.loadClass name) :=
  .get_bind fun m => loadThrough_carries m.entry name

instance resolveClass_carries (current : ClassRef) (name : String) :
    Carries s (fun c => c) (Run.resolveClass current name) (Run.resolveClass current name) := by
  refine .get_bind fun m => ?_
  have hlive : (s.machine m).realm.hasLiveLoader current = m.realm.hasLiveLoader current := by
    unfold Realm.hasLiveLoader
    rw [show (s.machine m).realm.classes.get current = s.cls (m.realm.classes.get current) from
      s.get_table m.realm.classes current]
    rfl
  have hentry : (s.machine m).entry = m.entry := rfl
  dsimp only
  rw [cls_machine, name_cls, loader_cls, hlive, hentry]
  infer_instance

instance note_carries {e e' : Event} [h : Takes s s.event e e'] :
    Carries s (fun u => u) (Run.note e) (Run.note e') := by
  obtain rfl := h.eq
  refine .modify (fun _ => rfl) fun m => ?_
  show { s.machine m with journal := (m.journal.map s.event).push (s.event e) } = _
  rw [← Array.map_push]
  rfl

/-! ### Resolution -/

instance resolveMethod_carries (c : ClassRef) (owner name descriptor : String) :
    Carries s (fun found => found) (Run.resolveMethod c owner name descriptor)
      (Run.resolveMethod c owner name descriptor) := by
  refine .get_bind fun m => ?_
  rw [classes_machine, resolveMethod?_table]
  cases m.classes.resolveMethod? c name descriptor with
  | some found => exact .pure
  | none => exact .fail

instance declaredMethod_carries (c : ClassRef) (owner name descriptor : String) :
    Carries s (fun i => i) (Run.declaredMethod c owner name descriptor)
      (Run.declaredMethod c owner name descriptor) := by
  refine .get_bind fun m => ?_
  rw [cls_machine, declaredMethod?_cls]
  cases (m.cls c).declaredMethod? name descriptor with
  | some i => exact .pure
  | none => exact .fail

instance resolveVirtual_carries (o : ObjectRef) (name descriptor : String) :
    Carries s (fun found => found) (Run.resolveVirtual o name descriptor)
      (Run.resolveVirtual o name descriptor) := by
  refine .get_bind fun m => ?_
  dsimp only
  rw [classOf_machine, cls_machine, name_cls]
  infer_instance

instance resolveField_carries (c : ClassRef) (owner name : String) :
    Carries s (fun slot => slot) (Run.resolveField c owner name) (Run.resolveField c owner name) := by
  refine .get_bind fun m => ?_
  rw [classes_machine, resolveField?_table]
  cases m.classes.resolveField? c name with
  | some slot => exact .pure
  | none => exact .fail

instance resolveStatic_carries (c : ClassRef) (owner name : String) :
    Carries s (fun found => found) (Run.resolveStatic c owner name)
      (Run.resolveStatic c owner name) := by
  refine .get_bind fun m => ?_
  rw [classes_machine, resolveStatic?_table]
  cases m.classes.resolveStatic? c name with
  | some found => exact .pure
  | none => exact .fail

instance getStaticSlot_carries (missing : MissingField) (c : ClassRef) (slot : Nat) :
    Carries s s.value (Run.getStaticSlot missing c slot) (Run.getStaticSlot missing c slot) := by
  refine .get_bind fun m => ?_
  rw [classes_machine, static?_table]
  cases m.classes.static? c slot with
  | some v => exact .pure
  | none => exact .fail

instance setStaticSlot_carries (missing : MissingField) (c : ClassRef) (slot : Nat) {v w : Value}
    [h : Takes s s.value v w] :
    Carries s (fun u => u) (Run.setStaticSlot missing c slot v)
      (Run.setStaticSlot missing c slot w) := by
  obtain rfl := h.eq
  refine .get_bind fun m => ?_
  rw [classes_machine, static?_table]
  cases m.classes.static? c slot with
  | some _ =>
    refine .modify (fun _ => rfl) fun n => ?_
    show { s.machine n with realm := { s.realm n.realm with
      classes := (s.table n.classes).setStatic c slot (s.value v) } } = _
    rw [← table_setStatic]
    rfl
  | none => exact .fail

/-! ### Initialization and requests -/

section Executing

variable {execute : Execute} [he : s.Executes execute]

instance (priority := low) execute_carries (c : ClassRef) (i : Nat) {args args' : List Value}
    [h : Takes s (List.map s.value) args args'] :
    Carries s s.value (execute c i args) (execute c i args') := by
  obtain rfl := h.eq
  exact he.run c i args

instance runInitializer_carries (c : ClassRef) :
    Carries s (fun u => u) (Run.runInitializer execute c) (Run.runInitializer execute c) := by
  refine .get_bind fun m => ?_
  rw [cls_machine, declaredMethod?_cls]
  cases (m.cls c).declaredMethod? staticInitializerName "()V" with
  | some i => infer_instance
  | none => exact .pure

instance setState_carries (c : ClassRef) (state : InitState) :
    Carries s (fun u => u) (modify fun m => m.updateClasses (·.setState c state) : Run Unit)
      (modify fun m => m.updateClasses (·.setState c state)) := by
  refine .modify (fun _ => rfl) fun m => ?_
  show { s.machine m with realm := { s.realm m.realm with
    classes := (s.table m.classes).setState c state } } = _
  rw [← table_setState]
  rfl

/-- What becomes of a class does not depend on where arrays are. -/
instance initializeLineage_carries (lineage : List ClassRef) :
    Carries s (fun u => u) (Run.initializeLineage execute lineage)
      (Run.initializeLineage execute lineage) := by
  induction lineage with
  | nil => exact .pure
  | cons c supers ih =>
    refine .get_bind fun m => ?_
    rw [cls_machine, state_cls]
    cases (m.cls c).state with
    | initializing => exact .pure
    | initialized => exact .pure
    | uninitialized =>
      refine .seq fun _ => .seq fun result => ?_
      cases result with
      | ok u => exact .seq (h := setState_carries c .initialized) fun _ => .resume (.ok u)
      | error e => exact .seq (h := setState_carries c .uninitialized) fun _ => .resume (.error e)

instance initializeClass_carries (c : ClassRef) :
    Carries s (fun u => u) (Run.initializeClass execute c) (Run.initializeClass execute c) := by
  refine .get_bind fun m => ?_
  rw [classes_machine, lineage_table]
  infer_instance

instance performInitializer_carries (c : ClassRef) :
    Carries s (fun u => u) (Run.performInitializer execute c)
      (Run.performInitializer execute c) := by
  refine .get_bind fun m => ?_
  dsimp only
  rw [cls_machine, instrumented_cls, declaredMethod?_cls]
  split
  · infer_instance
  · cases (m.cls c).declaredMethod? staticInitializerBodyName "()V" with
    | some i => infer_instance
    | none => exact .pure

section Calls

variable {receiver receiver' : Value} [hreceiver : Takes s s.value receiver receiver']
variable {args args' : List Value} [hargs : Takes s (List.map s.value) args args']

instance newInstance_carries (cls descriptor : String) :
    Carries s s.value (Run.newInstance execute cls descriptor args)
      (Run.newInstance execute cls descriptor args') := by
  unfold Run.newInstance
  infer_instance

instance callVirtual_carries (name descriptor : String) :
    Carries s s.value (Run.callVirtual execute receiver name descriptor args)
      (Run.callVirtual execute receiver' name descriptor args') := by
  unfold Run.callVirtual
  infer_instance

instance callSpecial_carries (c : ClassRef) (name descriptor : String) :
    Carries s s.value (Run.callSpecial execute c receiver name descriptor args)
      (Run.callSpecial execute c receiver' name descriptor args') := by
  refine .seq fun _ => .get_bind fun m => ?_
  rw [cls_machine, name_cls]
  infer_instance

instance callStatic_carries (cls name descriptor : String) :
    Carries s s.value (Run.callStatic execute cls name descriptor args)
      (Run.callStatic execute cls name descriptor args') := by
  unfold Run.callStatic
  infer_instance

instance directlyOn_carries (name descriptor : String) :
    Carries s s.value (Run.directlyOn execute receiver name descriptor args)
      (Run.directlyOn execute receiver' name descriptor args') := by
  refine .seq fun o => .seq fun found => .get_bind fun m => ?_
  dsimp only
  rw [cls_machine, instrumented_cls, declaredField?_cls]
  split
  · cases (m.cls found.1).declaredField? markerFieldName <;> infer_instance
  · infer_instance

instance getField_carries (name : String) :
    Carries s s.value (Run.getField receiver name) (Run.getField receiver' name) := by
  refine .seq fun o => .get_bind fun m => ?_
  rw [classOf_machine, cls_machine, name_cls]
  infer_instance

instance setField_carries (name : String) {v w : Value} [Takes s s.value v w] :
    Carries s (fun u => u) (Run.setField receiver name v) (Run.setField receiver' name w) := by
  refine .seq fun o => .get_bind fun m => ?_
  rw [classOf_machine, cls_machine, name_cls]
  infer_instance

end Calls

instance callDirect_carries (call : CallRecord) :
    Carries s s.value (Run.callDirect execute call) (Run.callDirect execute (s.call call)) := by
  refine .get_bind fun m => ?_
  dsimp only
  rw [classes_machine, directMethod?_table, owner_call, method_call, paramTypes_call, cls_machine,
    name_cls, methods_cls]
  cases call.directMethod? m.classes with
  | none => exact .fail
  | some i =>
    dsimp only
    rw [show (s.call call).receiver.isNull = call.receiver.isNull from s.isNull_value _]
    have hargs : Takes s (List.map s.value) call.args (s.call call).args := ⟨rfl⟩
    have hall : Takes s (List.map s.value) (call.receiver :: call.args)
        ((s.call call).receiver :: (s.call call).args) := ⟨rfl⟩
    split
    · infer_instance
    · split
      · exact .fail
      · infer_instance

instance staticByName_carries (cls name : String) :
    Carries s (fun found => found) (Run.staticByName execute cls name)
      (Run.staticByName execute cls name) := by
  unfold Run.staticByName
  infer_instance

/-- **Requests.** -/
instance request_carries (r : Request) :
    Carries s s.value (r.run execute) ((s.request r).run execute) := by
  cases r <;> simp only [Request.run, Inset.request] <;> infer_instance

/-! ### Plans -/

/-- Plans that the inset carries over: they look at the same, make the same requests and note the
same, with values taken over, and go on alike however a request went. -/
inductive CarriesPlan (s : Inset) : Plan → Plan → Prop
  | finish (result : Except VmError Value) :
    CarriesPlan s (.finish result) (.finish (s.result s.value result))
  | request (r : Request) {next next' : Except VmError Value → Plan}
      (h : ∀ result, CarriesPlan s (next result) (next' (s.result s.value result))) :
    CarriesPlan s (.request r next) (.request (s.request r) next')
  | look {next next' : Machine → Plan}
      (h : ∀ m, CarriesPlan s (next m) (next' (s.machine m))) :
    CarriesPlan s (.look next) (.look next')
  | note (e : Event) {next next' : Plan} (h : CarriesPlan s next next') :
    CarriesPlan s (.note e next) (.note (s.event e) next')

/-- **Plans.** -/
theorem plan_carries {p p' : Plan} (h : s.CarriesPlan p p') :
    Carries s s.value (p.run execute) (p'.run execute) := by
  induction h with
  | finish result => exact .resume result
  | request r _ ih => exact .seq fun result => ih result
  | look _ ih => exact .get_bind ih
  | note e _ ih => exact .seq fun _ => ih

end Executing

end Inset

end Interpose
