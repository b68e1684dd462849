import Interpose.Proofs.Congruences
import Interpose.Proofs.Insets
/-!
# Loading beside an inset

Of the values in a realm, loading reads none but the defaults of instance fields, which go down from
a class to those that are defined below it, and makes none but zeros. So an inset goes over the realm
that a load leaves as it goes over the realm that the load begins in, and the load answers the same.

## Main definitions

* `Load.Carried`: computations that load classes, whether the inset is there or not

## Main results

* `LoadedClass.define_cls`: definition
* `Load.load_carried`: loading
-/

namespace Interpose

variable {s : Inset}

/-! ### Definition -/

/-- A layout whose values are taken over. -/
def Inset.layout (s : Inset) (l : Layout) : Layout :=
  { l with fieldDefaults := l.fieldDefaults.map s.value, statics := l.statics.map s.value }

/-- A field holds a zero, whatever those before it hold. -/
theorem Layout.add_layout (l : Layout) (name : String) (isStatic : Bool) (t : TypeDesc) :
    (s.layout l).add name isStatic t = s.layout (l.add name isStatic t) := by
  cases isStatic with
  | true => simp [Layout.add, Inset.layout]
  | false => simp [Layout.add, Inset.layout]

theorem Layout.addAll_layout (owner : String) (l : Layout) (fields : List FieldDef) :
    (s.layout l).addAll owner fields = (l.addAll owner fields).map s.layout := by
  induction fields generalizing l with
  | nil => rfl
  | cons f rest ih =>
    unfold Layout.addAll
    cases TypeDesc.parse f.descriptor with
    | error cause => rfl
    | ok t =>
      dsimp only
      rw [Layout.add_layout, ih]

/-- What is inherited is taken over, and nothing else comes from before. -/
theorem Layout.addAll_inherited (owner : String) (inherited : Array Value) (fields : List FieldDef) :
    Layout.addAll owner { fieldDefaults := inherited.map s.value } fields =
      (Layout.addAll owner { fieldDefaults := inherited } fields).map s.layout := by
  rw [← Layout.addAll_layout, Inset.layout, Array.map_empty]

/-- **Definition.** Below a superclass whose values are taken over, a class file defines the class
whose values are. -/
theorem LoadedClass.define_cls (definer : Definer) (superclass? : Option (ClassRef × LoadedClass))
    (file : ClassFile) :
    LoadedClass.define definer (superclass?.map (Prod.map id s.cls)) file =
      (LoadedClass.define definer superclass? file).map s.cls := by
  unfold LoadedClass.define
  cases file.methods.mapM (LoadedMethod.define file.name) with
  | error e => rfl
  | ok methods =>
    have hbind : ∀ f : List LoadedMethod → Except DefineError LoadedClass,
        (Except.ok methods >>= f) = f methods := fun _ => rfl
    rw [hbind, hbind]
    rcases superclass? with _ | ⟨c, k⟩ <;> dsimp only [Option.map_none, Option.map_some, Prod.map]
    · have hlayout := Layout.addAll_inherited (s := s) file.name #[] file.fields
      rw [Array.map_empty] at hlayout
      conv => lhs; rw [hlayout]
      cases Layout.addAll file.name { fieldDefaults := #[] } file.fields <;> rfl
    · have hlayout := Layout.addAll_inherited (s := s) file.name k.fieldDefaults file.fields
      conv => lhs; rw [Inset.cls, hlayout]
      cases Layout.addAll file.name { fieldDefaults := k.fieldDefaults } file.fields <;> rfl

namespace Load

variable {α β : Type}

/-- A computation that loads classes and answers the same beside an inset, which goes over the realm
that is left. -/
class Carried (s : Inset) (x : Load α) : Prop where
  run : ∀ r, x (s.realm r) = ((x r).1, s.realm (x r).2)

namespace Carried

instance pure (a : α) : Carried s (pure a) := ⟨fun _ => rfl⟩

instance fail (e : LoadError) : Carried s (Load.fail e : Load α) := ⟨fun _ => rfl⟩

theorem seq {x : Load α} {f : α → Load β} [hx : Carried s x] (hf : ∀ a, Carried s (f a)) :
    Carried s (x >>= f) := by
  refine ⟨fun r => ?_⟩
  rw [bind_apply, bind_apply, hx.run]
  rcases x r with ⟨_ | a, r'⟩
  · rfl
  · exact (hf a).run r'

instance bind {x : Load α} {f : α → Load β} [hx : Carried s x] [hf : ∀ a, Carried s (f a)] :
    Carried s (x >>= f) := .seq hf

/-- What is done with the realm that is read, in that realm. -/
theorem of_get_bind {f : Realm → Load β}
    (h : ∀ r, f (s.realm r) (s.realm r) = ((f r r).1, s.realm (f r r).2)) :
    Carried s (MonadState.get >>= f) :=
  ⟨h⟩

/-- What is done with the realm that is read is often done without a look at its values. -/
theorem get_bind {f : Realm → Load β} (hf : ∀ r, Carried s (f r))
    (hsame : ∀ r, f (s.realm r) = f r) : Carried s (MonadState.get >>= f) :=
  .of_get_bind fun r => (congrFun (hsame r) _).trans ((hf r).run r)

instance attempt {x : Load α} [hx : Carried s x] : Carried s (attempt x) := by
  refine ⟨fun r => ?_⟩
  unfold Load.attempt
  rw [hx.run]
  rcases x r with ⟨result, r'⟩
  rfl

instance updateLoader (l : LoaderRef) (f : Loader → Loader) : Carried s (updateLoader l f) :=
  ⟨fun _ => rfl⟩

instance ite {p : Prop} [Decidable p] {x y : Load α} [Carried s x] [Carried s y] :
    Carried s (if p then x else y) := by
  split <;> assumption

end Carried

instance memoized_carried (l : LoaderRef) (name : String) (define : Load ClassRef)
    [Carried s define] : Carried s (memoized l name define) := by
  refine .get_bind (fun r => ?_) fun _ => rfl
  split
  · infer_instance
  split
  · infer_instance
  refine .seq fun _ => .seq fun result => .seq fun _ => ?_
  split <;> infer_instance

instance readClassFile_carried (name : String) : Carried s (readClassFile name) := by
  refine .get_bind (fun r => ?_) fun _ => rfl
  split
  · infer_instance
  · infer_instance
  split
  · infer_instance
  split
  · infer_instance
  split <;> infer_instance

instance define_carried (definer : Definer) (superclass? : Option ClassRef) (file : ClassFile) :
    Carried s (define definer superclass? file) := by
  refine .of_get_bind fun r => ?_
  have hsuperclass : (superclass?.map fun c => (c, (s.realm r).classes.get c)) =
      (superclass?.map fun c => (c, r.classes.get c)).map (Prod.map id s.cls) := by
    rw [Option.map_map]
    exact congrArg (superclass?.map ·) (funext fun c => congrArg (c, ·) (s.get_table r.classes c))
  rw [hsuperclass, LoadedClass.define_cls]
  cases LoadedClass.define definer (superclass?.map fun c => (c, r.classes.get c)) file with
  | error e => rfl
  | ok k =>
    show ((Except.ok ((s.table r.classes).add (s.cls k)).1,
      { s.realm r with classes := ((s.table r.classes).add (s.cls k)).2 }) :
        Except LoadError ClassRef × Realm) = _
    rw [s.table_add]
    rfl

instance superclass_carried (load : String → Load ClassRef) [∀ name, Carried s (load name)]
    (file : ClassFile) : Carried s (superclass load file) := by
  unfold superclass
  split <;> infer_instance

instance bootstrap_carried (l : LoaderRef) (depth : Nat) (name : String) :
    Carried s (bootstrap l depth name) := by
  induction depth generalizing name with
  | zero => exact .fail _
  | succ depth ih =>
    unfold bootstrap
    infer_instance

instance cached_carried (l : LoaderRef) (cache : ClassCache) (name : String) :
    Carried s (cached l cache name) := by
  refine .get_bind (fun r => ?_) fun _ => rfl
  split
  · infer_instance
  split <;> infer_instance

instance transform_carried (l : LoaderRef) (cache : ClassCache) (name : String)
    (file : ClassFile) : Carried s (transform l cache name file) := by
  unfold transform
  split
  · infer_instance
  next transformed ht =>
  have hstorage : Carried s (modify fun r =>
      { r with storage := (cache.put r.storage name transformed.encode).2 } : Load Unit) :=
    ⟨fun _ => rfl⟩
  infer_instance

instance instrument_carried (l : LoaderRef) (cache : ClassCache) (name : String)
    (file : ClassFile) : Carried s (instrument l cache name file) := by
  refine .seq fun found => ?_
  have hverified : ∀ transformed : ClassFile, Carried s (match transformed.verify with
      | .error e => Load.fail (.transform (.invariantViolation name "*"
          s!"transformed class fails verification: {e.message}"))
      | .ok () => Pure.pure transformed : Load ClassFile) := by
    intro transformed
    split <;> infer_instance
  split <;> infer_instance

instance instrumenting_carried (l : LoaderRef) (work : Instrumentation)
    (parent : String → Load ClassRef) [∀ name, Carried s (parent name)] (depth : Nat)
    (name : String) : Carried s (instrumenting l work parent depth name) := by
  induction depth generalizing name with
  | zero => exact .fail _
  | succ depth ih =>
    unfold instrumenting
    infer_instance

/-- **Loading** answers the same beside an inset. -/
instance load_carried (l : LoaderRef) (name : String) : Carried s (load l name) := by
  have hbound : Carried s depthBound := .get_bind (fun _ => .pure _) fun _ => rfl
  refine .seq fun depth => .get_bind (fun r => ?_) fun _ => rfl
  split <;> infer_instance

end Load

end Interpose
