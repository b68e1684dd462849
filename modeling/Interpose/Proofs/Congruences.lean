import Interpose.Dispatch.Handler
import Interpose.Proofs.Simulation
/-!
# Congruences of computations

To compare two ways of executing methods, computations are compared two at a time: those that use one
way with those that use the other. Nearly everything that computations do is the same on both sides,
and they are put together in the same manner. So what is to be shown is what a relation says of the
parts that do not execute anything, and that it is kept when computations are put together; then it
holds of all requests and plans, as far as it does of initialization and of the execution of methods.

The parts that execute nothing *retain* what a machine has: its classes, how far each has come in its
initialization, and the call depth. They may add classes, objects and events, and write to slots.

## Main definitions

* `Machine.Retains`: what becomes of a machine where nothing is executed
* `Run.Congruence`: a relation that is kept when computations are put together
* `Run.Congruence.Related`: the relation as a class, so that it is put together by instances

## Main results

* `Load.load_inert`: loading initializes nothing
* `Run.request_related`, `Run.plan_related`: requests and plans
-/

namespace Interpose

/-! ### States of classes -/

namespace ClassTable

variable {t : ClassTable} {a c : ClassRef}

theorem get_modify_self (f : LoadedClass → LoadedClass) (hc : t.Has c) :
    (t.modify c f).get c = f (t.get c) := by
  simp [get, modify, Array.getElem?_modify, Array.getElem?_eq_getElem hc]

theorem get_modify_of_ne (f : LoadedClass → LoadedClass) (h : c ≠ a) :
    (t.modify c f).get a = t.get a := by
  have hindex : c.index ≠ a.index := fun e => h (by cases c; cases a; cases e; rfl)
  simp [get, modify, Array.getElem?_modify, hindex]

/-- Where there is no class, nothing changes. -/
theorem modify_of_not_has (f : LoadedClass → LoadedClass) (hc : ¬ t.Has c) : t.modify c f = t := by
  refine congrArg ClassTable.mk (Array.ext_getElem? fun i => ?_)
  rw [Array.getElem?_modify]
  split
  · next hi => rw [← hi, Array.getElem?_eq_none (Nat.le_of_not_lt hc), Option.map_none]
  · rfl

/-- What a change keeps of each class, it keeps throughout. -/
theorem get_modify_eq {β : Type} (view : LoadedClass → β) {f : LoadedClass → LoadedClass}
    (h : ∀ k, view (f k) = view k) (c a : ClassRef) :
    view ((t.modify c f).get a) = view (t.get a) := by
  by_cases ha : c = a
  · subst ha
    by_cases hc : t.Has c
    · rw [get_modify_self f hc, h]
    · rw [modify_of_not_has f hc]
  · rw [get_modify_of_ne f ha]

theorem get_of_not_has (hc : ¬ t.Has c) : t.get c = default := by
  exact Decidable.byContradiction fun hne => hc (has_of_get_ne hne)

/-- A class that has just been added has not been begun. -/
theorem state_add {k : LoadedClass} (hk : k.state = .uninitialized) (c : ClassRef) :
    ((t.add k).2.get c).state = (t.get c).state := by
  by_cases hc : t.Has c
  · rw [get_add_of_has hc]
  rw [get_of_not_has hc]
  by_cases hself : c = (t.add k).1
  · rw [hself, get_add_self, hk]
    rfl
  · rw [get_of_not_has]
    intro hhas
    refine hself (congrArg ClassRef.mk ?_)
    simp only [Has, size_add] at hc hhas
    omega

end ClassTable

namespace Load

variable {α β : Type}

/-- A computation that loads classes and initializes none. -/
class Inert (x : Load α) : Prop where
  state : ∀ r c, ((x r).2.classes.get c).state = (r.classes.get c).state

namespace Inert

instance pure (a : α) : Inert (pure a) := ⟨fun _ _ => rfl⟩

instance fail (e : LoadError) : Inert (Load.fail e : Load α) := ⟨fun _ _ => rfl⟩

instance get : Inert (get : Load Realm) := ⟨fun _ _ => rfl⟩

theorem seq {x : Load α} {f : α → Load β} [hx : Inert x] (hf : ∀ a, Inert (f a)) :
    Inert (x >>= f) := by
  refine ⟨fun r c => ?_⟩
  have hstate := hx.state r c
  rw [bind_apply]
  cases hxr : x r with
  | mk result r' =>
    rw [hxr] at hstate
    cases result with
    | error e => exact hstate
    | ok a => exact ((hf a).state r' c).trans hstate

instance bind {x : Load α} {f : α → Load β} [hx : Inert x] [hf : ∀ a, Inert (f a)] :
    Inert (x >>= f) := .seq hf

/-- What is done with the realm that is read, in that realm. -/
theorem of_get_bind {f : Realm → Load β}
    (h : ∀ r c, ((f r r).2.classes.get c).state = (r.classes.get c).state) :
    Inert (MonadState.get >>= f) :=
  ⟨h⟩

instance attempt {x : Load α} [hx : Inert x] : Inert (attempt x) := ⟨hx.state⟩

instance updateLoader (l : LoaderRef) (f : Loader → Loader) : Inert (updateLoader l f) :=
  ⟨fun _ _ => rfl⟩

instance ite {p : Prop} [Decidable p] {x y : Load α} [Inert x] [Inert y] :
    Inert (if p then x else y) := by
  split <;> assumption

end Inert

instance memoized_inert (l : LoaderRef) (name : String) (define : Load ClassRef) [Inert define] :
    Inert (memoized l name define) := by
  refine .seq fun r => ?_
  split
  · infer_instance
  split
  · infer_instance
  refine .seq fun _ => .seq fun result => .seq fun _ => ?_
  split <;> infer_instance

instance readClassFile_inert (name : String) : Inert (readClassFile name) := by
  refine .seq fun r => ?_
  split
  · infer_instance
  · infer_instance
  split
  · infer_instance
  split
  · infer_instance
  split <;> infer_instance

/-- What is defined has not been begun. -/
instance define_inert (definer : Definer) (superclass? : Option ClassRef) (file : ClassFile) :
    Inert (define definer superclass? file) := by
  refine .of_get_bind fun r c => ?_
  cases hk : LoadedClass.define definer (superclass?.map fun s => (s, r.classes.get s)) file with
  | error e => rfl
  | ok k =>
    obtain ⟨methods, layout, -, -, rfl⟩ := LoadedClass.define_eq_ok hk
    exact ClassTable.state_add rfl c

instance superclass_inert (load : String → Load ClassRef) [∀ name, Inert (load name)]
    (file : ClassFile) : Inert (superclass load file) := by
  unfold superclass
  split <;> infer_instance

instance bootstrap_inert (l : LoaderRef) (depth : Nat) (name : String) :
    Inert (bootstrap l depth name) := by
  induction depth generalizing name with
  | zero => exact .fail _
  | succ depth ih =>
    unfold bootstrap
    infer_instance

instance cached_inert (l : LoaderRef) (cache : ClassCache) (name : String) :
    Inert (cached l cache name) := by
  refine .seq fun r => ?_
  split
  · infer_instance
  split <;> infer_instance

instance transform_inert (l : LoaderRef) (cache : ClassCache) (name : String) (file : ClassFile) :
    Inert (transform l cache name file) := by
  unfold transform
  split
  · infer_instance
  next transformed ht =>
  have hstorage : Inert (modify fun r =>
      { r with storage := (cache.put r.storage name transformed.encode).2 } : Load Unit) :=
    ⟨fun _ _ => rfl⟩
  infer_instance

instance instrument_inert (l : LoaderRef) (cache : ClassCache) (name : String)
    (file : ClassFile) : Inert (instrument l cache name file) := by
  refine .seq fun found => ?_
  have hverified : ∀ transformed : ClassFile, Inert (match transformed.verify with
      | .error e => Load.fail (.transform (.invariantViolation name "*"
          s!"transformed class fails verification: {e.message}"))
      | .ok () => Pure.pure transformed : Load ClassFile) := by
    intro transformed
    split <;> infer_instance
  split <;> infer_instance

instance instrumenting_inert (l : LoaderRef) (work : Instrumentation)
    (parent : String → Load ClassRef) [∀ name, Inert (parent name)] (depth : Nat) (name : String) :
    Inert (instrumenting l work parent depth name) := by
  induction depth generalizing name with
  | zero => exact .fail _
  | succ depth ih =>
    unfold instrumenting
    infer_instance

instance depthBound_inert : Inert depthBound := by
  unfold depthBound
  infer_instance

/-- **Loading** initializes nothing. -/
instance load_inert (l : LoaderRef) (name : String) : Inert (load l name) := by
  refine .seq fun depth => .seq fun r => ?_
  split <;> infer_instance

end Load

/-! ### Machines on which nothing is executed -/

namespace Machine

/-- What becomes of a machine where nothing is executed: its classes are there still, each as far in
its initialization as it was, and as many methods are entered as were. -/
structure Retains (m m' : Machine) : Prop where
  classes : m.Extends m'
  state : ∀ c, (m'.cls c).state = (m.cls c).state
  depth : m'.depth = m.depth
  maxDepth : m'.maxDepth = m.maxDepth

variable {m : Machine}

theorem Retains.refl (m : Machine) : m.Retains m := ⟨.refl m, fun _ => rfl, rfl, rfl⟩

/-- A change of the heap is no change of the classes. -/
theorem retains_heap (m : Machine) (h : Heap) : m.Retains { m with heap := h } :=
  ⟨.refl m, fun _ => rfl, rfl, rfl⟩

theorem retains_load (m : Machine) (l : LoaderRef) (name : String) :
    m.Retains { m with realm := (Load.load l name m.realm).2 } :=
  ⟨(Change.load m l name : m.Change False _).extends, (Load.load_inert l name).state m.realm, rfl,
    rfl⟩

theorem retains_setStatic (m : Machine) (c : ClassRef) (slot : Nat) (v : Value) :
    m.Retains (m.updateClasses (·.setStatic c slot v)) := by
  refine ⟨(Change.static m c slot v : m.Change False _).extends, fun a => ?_, rfl, rfl⟩
  exact ClassTable.get_modify_eq (f := fun k =>
    { k with statics := k.statics.setIfInBounds slot v }) LoadedClass.state (fun _ => rfl) c a

end Machine

/-! ### Congruences -/

namespace Run

/-- A relation between computations that is kept when computations are put together. It holds of
what executes nothing and itself. -/
structure Congruence where
  Rel : {α : Type} → Run α → Run α → Prop
  refl : ∀ {α : Type} {x : Run α}, (∀ m, ∃ r m', x m = some (r, m') ∧ m.Retains m') → Rel x x
  bind : ∀ {α β : Type} {x y : Run α} {f g : α → Run β}, Rel x y → (∀ a, Rel (f a) (g a)) →
    Rel (x >>= f) (y >>= g)
  attempt : ∀ {α : Type} {x y : Run α}, Rel x y → Rel (attempt x) (attempt y)

/-- Two computations in the relation of a congruence. -/
class Congruence.Related (R : Congruence) {α : Type} (x y : Run α) : Prop where
  rel : R.Rel x y

variable {α β : Type} {R : Congruence}

namespace Congruence.Related

theorem of_retains {x : Run α} (h : ∀ m, ∃ r m', x m = some (r, m') ∧ m.Retains m') :
    R.Related x x := ⟨R.refl h⟩

instance pure (a : α) : R.Related (pure a) (pure a) :=
  .of_retains fun m => ⟨.ok a, m, rfl, .refl m⟩

instance fail (e : VmError) : R.Related (Run.fail e : Run α) (Run.fail e) :=
  .of_retains fun m => ⟨.error e, m, rfl, .refl m⟩

instance get : R.Related (get : Run Machine) get :=
  .of_retains fun m => ⟨.ok m, m, rfl, .refl m⟩

theorem seq {x y : Run α} {f g : α → Run β} [hx : R.Related x y]
    (hf : ∀ a, R.Related (f a) (g a)) : R.Related (x >>= f) (y >>= g) :=
  ⟨R.bind hx.rel fun a => (hf a).rel⟩

instance bind {x y : Run α} {f g : α → Run β} [R.Related x y] [hf : ∀ a, R.Related (f a) (g a)] :
    R.Related (x >>= f) (y >>= g) := .seq hf

instance ite {p : Prop} [Decidable p] {x x' y y' : Run α} [R.Related x y] [R.Related x' y'] :
    R.Related (if p then x else x') (if p then y else y') := by
  split <;> assumption

instance attempt {x y : Run α} [h : R.Related x y] :
    R.Related (Run.attempt x) (Run.attempt y) :=
  ⟨R.attempt h.rel⟩

instance resume (r : Except VmError α) : R.Related (Run.resume r) (Run.resume r) := by
  cases r with
  | ok a => exact .pure a
  | error e => exact .fail e

end Congruence.Related

/-! ### Values -/

instance expect_related (expected : String) (v : Value) (a : Option α) :
    R.Related (expect expected v a) (expect expected v a) := by
  cases a with
  | some a => exact .pure a
  | none =>
    unfold expect
    infer_instance

instance asBool_related (v : Value) : R.Related (asBool v) (asBool v) := expect_related ..

instance asInt_related (v : Value) : R.Related (asInt v) (asInt v) := expect_related ..

instance asLong_related (v : Value) : R.Related (asLong v) (asLong v) := expect_related ..

instance asDouble_related (v : Value) : R.Related (asDouble v) (asDouble v) := expect_related ..

instance asText_related (v : Value) : R.Related (asText v) (asText v) := expect_related ..

instance unbox_related (t : TypeDesc) (v : Value) : R.Related (unbox t v) (unbox t v) :=
  expect_related ..

instance asObject_related (v : Value) : R.Related (asObject v) (asObject v) := by
  unfold asObject
  split <;> infer_instance

instance asArray_related (v : Value) : R.Related (asArray v) (asArray v) := by
  unfold asArray
  split <;> infer_instance

instance asClass_related (v : Value) : R.Related (asClass v) (asClass v) := by
  unfold asClass
  split <;> infer_instance

instance display_related (v : Value) : R.Related (display v) (display v) := by
  unfold display
  infer_instance

/-! ### The heap -/

instance allocate_related (c : ClassRef) : R.Related (allocate c) (allocate c) :=
  .of_retains fun m => ⟨_, _, rfl, m.retains_heap _⟩

instance allocateArray_related (items : Array Value) :
    R.Related (allocateArray items) (allocateArray items) :=
  .of_retains fun m => ⟨_, _, rfl, m.retains_heap _⟩

instance getSlot_related (o : ObjectRef) (slot : Nat) :
    R.Related (getSlot o slot) (getSlot o slot) := by
  refine .seq fun m => ?_
  split <;> infer_instance

instance setSlot_related (o : ObjectRef) (slot : Nat) (v : Value) :
    R.Related (setSlot o slot v) (setSlot o slot v) := by
  refine .of_retains fun m => ?_
  rw [setSlot, get_bind_apply]
  cases m.heap.slot? o slot with
  | none => exact ⟨_, m, rfl, .refl m⟩
  | some _ => exact ⟨_, _, rfl, m.retains_heap _⟩

instance outOfBounds_related (a : ArrayRef) (i : Int32) :
    R.Related (outOfBounds a i : Run α) (outOfBounds a i) := by
  unfold outOfBounds
  infer_instance

instance getElement_related (a : ArrayRef) (i : Int32) :
    R.Related (getElement a i) (getElement a i) := by
  refine .seq fun m => ?_
  split <;> infer_instance

instance setElement_related (a : ArrayRef) (i : Int32) (v : Value) :
    R.Related (setElement a i v) (setElement a i v) := by
  refine .of_retains fun m => ?_
  rw [setElement, get_bind_apply]
  cases m.heap.position? a i with
  | none => exact ⟨_, m, rfl, .refl m⟩
  | some p => exact ⟨_, _, rfl, m.retains_heap _⟩

/-! ### Classes -/

instance loadThrough_related (l : LoaderRef) (name : String) :
    R.Related (loadThrough l name) (loadThrough l name) := by
  refine .of_retains fun m => ?_
  have hretains := m.retains_load l name
  rw [loadThrough]
  cases hl : Load.load l name m.realm with
  | mk result r =>
    rw [hl] at hretains
    cases result with
    | error e => exact ⟨_, _, rfl, hretains⟩
    | ok c => exact ⟨_, _, rfl, hretains⟩

instance loadClass_related (name : String) : R.Related (loadClass name) (loadClass name) := by
  unfold loadClass
  infer_instance

instance resolveClass_related (current : ClassRef) (name : String) :
    R.Related (resolveClass current name) (resolveClass current name) := by
  unfold resolveClass
  infer_instance

instance note_related (e : Event) : R.Related (note e) (note e) :=
  .of_retains fun _ => ⟨_, _, rfl, .refl _, fun _ => rfl, rfl, rfl⟩

/-! ### Resolution -/

instance resolveMethod_related (c : ClassRef) (owner name descriptor : String) :
    R.Related (resolveMethod c owner name descriptor) (resolveMethod c owner name descriptor) := by
  refine .seq fun m => ?_
  split <;> infer_instance

instance declaredMethod_related (c : ClassRef) (owner name descriptor : String) :
    R.Related (declaredMethod c owner name descriptor) (declaredMethod c owner name descriptor) := by
  refine .seq fun m => ?_
  split <;> infer_instance

instance resolveVirtual_related (o : ObjectRef) (name descriptor : String) :
    R.Related (resolveVirtual o name descriptor) (resolveVirtual o name descriptor) := by
  unfold resolveVirtual
  infer_instance

instance resolveField_related (c : ClassRef) (owner name : String) :
    R.Related (resolveField c owner name) (resolveField c owner name) := by
  refine .seq fun m => ?_
  split <;> infer_instance

instance resolveStatic_related (c : ClassRef) (owner name : String) :
    R.Related (resolveStatic c owner name) (resolveStatic c owner name) := by
  refine .seq fun m => ?_
  split <;> infer_instance

instance getStaticSlot_related (missing : MissingField) (c : ClassRef) (slot : Nat) :
    R.Related (getStaticSlot missing c slot) (getStaticSlot missing c slot) := by
  refine .seq fun m => ?_
  split <;> infer_instance

instance setStaticSlot_related (missing : MissingField) (c : ClassRef) (slot : Nat) (v : Value) :
    R.Related (setStaticSlot missing c slot v) (setStaticSlot missing c slot v) := by
  have hwrite : R.Related (modify fun m => m.updateClasses (·.setStatic c slot v) : Run Unit)
      (modify fun m => m.updateClasses (·.setStatic c slot v)) :=
    .of_retains fun m => ⟨_, _, rfl, m.retains_setStatic c slot v⟩
  refine .seq fun m => ?_
  split <;> infer_instance

instance getField_related (receiver : Value) (name : String) :
    R.Related (getField receiver name) (getField receiver name) := by
  unfold getField
  infer_instance

instance setField_related (receiver : Value) (name : String) (v : Value) :
    R.Related (setField receiver name v) (setField receiver name v) := by
  unfold setField
  infer_instance

/-! ### Requests

Initialization marks classes, which is nothing that a relation could be expected to be kept by. So it
is taken as related here, and so is the execution of methods. -/

section Executing

variable {execute execute' : Execute}
variable [he : ∀ c i args, R.Related (execute c i args) (execute' c i args)]

instance runInitializer_related (c : ClassRef) :
    R.Related (runInitializer execute c) (runInitializer execute' c) := by
  refine .seq fun m => ?_
  split <;> infer_instance

instance callVirtual_related (receiver : Value) (name descriptor : String) (args : List Value) :
    R.Related (callVirtual execute receiver name descriptor args)
      (callVirtual execute' receiver name descriptor args) := by
  unfold callVirtual
  infer_instance

instance callSpecial_related (c : ClassRef) (receiver : Value) (name descriptor : String)
    (args : List Value) :
    R.Related (callSpecial execute c receiver name descriptor args)
      (callSpecial execute' c receiver name descriptor args) := by
  unfold callSpecial
  infer_instance

instance callDirect_related (call : CallRecord) :
    R.Related (callDirect execute call) (callDirect execute' call) := by
  refine .seq fun m => ?_
  dsimp only
  split <;> infer_instance

instance directlyOn_related (receiver : Value) (name descriptor : String) (args : List Value) :
    R.Related (directlyOn execute receiver name descriptor args)
      (directlyOn execute' receiver name descriptor args) := by
  refine .seq fun o => .seq fun found => .seq fun m => ?_
  dsimp only
  split
  · split <;> infer_instance
  · infer_instance

variable [hinit : ∀ c, R.Related (initializeClass execute c) (initializeClass execute' c)]

instance performInitializer_related (c : ClassRef) :
    R.Related (performInitializer execute c) (performInitializer execute' c) := by
  refine .seq fun m => ?_
  dsimp only
  split
  · infer_instance
  · split <;> infer_instance

instance newInstance_related (cls descriptor : String) (args : List Value) :
    R.Related (newInstance execute cls descriptor args)
      (newInstance execute' cls descriptor args) := by
  unfold newInstance
  infer_instance

instance callStatic_related (cls name descriptor : String) (args : List Value) :
    R.Related (callStatic execute cls name descriptor args)
      (callStatic execute' cls name descriptor args) := by
  unfold callStatic
  infer_instance

instance staticByName_related (cls name : String) :
    R.Related (staticByName execute cls name) (staticByName execute' cls name) := by
  unfold staticByName
  infer_instance

/-- **Requests.** -/
instance request_related (r : Request) : R.Related (r.run execute) (r.run execute') := by
  cases r <;> unfold Request.run <;> infer_instance

/-- **Plans.** What a plan does after a request it does on both sides, since the request comes to
the same. -/
instance plan_related (p : Plan) : R.Related (p.run execute) (p.run execute') := by
  induction p with
  | finish result => exact .resume result
  | request r next ih =>
    unfold Plan.run
    infer_instance
  | look next ih =>
    unfold Plan.run
    infer_instance
  | note e next ih =>
    unfold Plan.run
    infer_instance

end Executing

end Run

end Interpose
