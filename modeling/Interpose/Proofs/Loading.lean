import Interpose.Loading.Loader
import Interpose.Proofs.Tables
/-!
# What loading keeps

Loading a class adds classes and changes none. What it adds was verified, so the table stays
founded, and it answers with a class of the table. Loaders remember classes of the table only.

A load that fails has kept all this as well: classes that were added before the failure stay.

## Main definitions

* `Realm.Sound`
* `Load.SafeAt`: what a computation that loads classes does to a sound realm

## Main results

* `Load.load_safe`
-/

namespace Interpose

/-- The classes are founded, and loaders remember nothing else. -/
structure Realm.Sound (r : Realm) : Prop where
  founded : r.classes.Founded
  remembered : ∀ l, ∀ p ∈ (r.loader l).classes, r.classes.Has p.2

namespace Realm

variable {r : Realm}

/-- A changed loader is the changed one or, where there is none, what it was. -/
theorem loader_modifyLoader (l a : LoaderRef) (f : Loader → Loader) :
    (r.modifyLoader l f).loader a = r.loader a ∨
      (r.modifyLoader l f).loader a = f (r.loader a) := by
  show (r.loaders.modify l.index f).getD a.index default = _ ∨
    (r.loaders.modify l.index f).getD a.index default = f (r.loaders.getD a.index default)
  rw [Array.getD_eq_getD_getElem?, Array.getElem?_modify]
  unfold loader
  rw [Array.getD_eq_getD_getElem?]
  by_cases hl : l.index = a.index
  · rw [if_pos hl]
    cases r.loaders[a.index]? with
    | none => exact .inl rfl
    | some x => exact .inr rfl
  · rw [if_neg hl]
    exact .inl rfl

theorem Sound.modifyLoader (h : r.Sound) {l : LoaderRef} {f : Loader → Loader}
    (hf : ∀ x, (∀ p ∈ x.classes, r.classes.Has p.2) → ∀ p ∈ (f x).classes, r.classes.Has p.2) :
    (r.modifyLoader l f).Sound := by
  refine ⟨h.founded, fun a => ?_⟩
  rcases loader_modifyLoader (r := r) l a f with ha | ha
  · rw [ha]
    exact h.remembered a
  · rw [ha]
    exact hf _ (h.remembered a)

theorem Sound.loaded (h : r.Sound) {l : LoaderRef} {name : String} {c : ClassRef}
    (hc : r.loaded? l name = some c) : r.classes.Has c := by
  obtain ⟨l₁, l₂, hl, -⟩ := List.lookup_eq_some_iff.1 hc
  refine h.remembered l (name, c) ?_
  rw [hl]
  exact List.mem_append_right _ List.mem_cons_self

/-- A realm with one loader is sound if its classes are founded and the loader remembers no others. -/
theorem sound_of_single {l : Loader} (hloaders : r.loaders = #[l]) (hfounded : r.classes.Founded)
    (hclasses : ∀ p ∈ l.classes, r.classes.Has p.2) : r.Sound := by
  refine ⟨hfounded, ?_⟩
  rintro ⟨_ | a⟩ p hp
  · rw [loader, hloaders] at hp
    exact hclasses p hp
  · rw [loader, hloaders] at hp
    exact absurd hp List.not_mem_nil

end Realm

namespace Load

variable {α β : Type} {r : Realm}

/-! ### Computations that load classes -/

theorem bind_apply (x : Load α) (f : α → Load β) :
    (x >>= f) r =
      match x r with
      | (.ok a, r') => f a r'
      | (.error e, r') => (.error e, r') := by
  show ExceptT.bindCont f (x r).1 (x r).2 = _
  obtain ⟨result, r'⟩ := x r
  cases result <;> rfl

/-- A computation only adds classes; under a proviso it also keeps the realm sound, and its result,
if it has one, is as said. -/
structure SafeAt (proviso : Prop) (r : Realm) (x : Load α) (Q : α → Realm → Prop) : Prop where
  grows : r.classes.Extends (x r).2.classes
  sound : proviso → (x r).2.Sound
  result : proviso → ∀ a, (x r).1 = .ok a → Q a (x r).2

variable {proviso : Prop} {Q : α → Realm → Prop} {R : β → Realm → Prop}

theorem SafeAt.pure {a : α} (hr : proviso → r.Sound) (h : proviso → Q a r) :
    SafeAt proviso r (pure a) Q :=
  ⟨.refl _, hr, fun hp _ ha => Except.ok.inj ha ▸ h hp⟩

theorem SafeAt.fail {e : LoadError} (hr : proviso → r.Sound) :
    SafeAt proviso r (Load.fail e) Q :=
  ⟨.refl _, hr, fun _ _ ha => nomatch ha⟩

theorem SafeAt.bind {x : Load α} {f : α → Load β} (hx : SafeAt proviso r x Q)
    (hf : ∀ a r', (proviso → r'.Sound) → r.classes.Extends r'.classes → (proviso → Q a r') →
      SafeAt proviso r' (f a) R) :
    SafeAt proviso r (x >>= f) R := by
  obtain ⟨hgrows, hsound, hresult⟩ := hx
  rcases hxr : x r with ⟨e | a, r'⟩ <;> rw [hxr] at hsound hgrows hresult
  · have happ : (x >>= f) r = (.error e, r') := by rw [bind_apply, hxr]
    refine ⟨?_, ?_, ?_⟩ <;> rw [happ]
    · exact hgrows
    · exact hsound
    · exact fun _ _ hb => nomatch hb
  · have happ : (x >>= f) r = f a r' := by rw [bind_apply, hxr]
    obtain ⟨hgrows', hsound', hresult'⟩ := hf a r' hsound hgrows fun hp => hresult hp a rfl
    refine ⟨?_, ?_, ?_⟩ <;> rw [happ]
    · exact hgrows.trans hgrows'
    · exact hsound'
    · exact hresult'

/-- Reading the realm. -/
theorem SafeAt.get_bind {f : Realm → Load β} (h : SafeAt proviso r (f r) R) :
    SafeAt proviso r (get >>= f) R :=
  ⟨h.grows, h.sound, h.result⟩

theorem SafeAt.updateLoader {l : LoaderRef} {f : Loader → Loader} (hr : proviso → r.Sound)
    (hf : proviso → ∀ x, (∀ p ∈ x.classes, r.classes.Has p.2) →
      ∀ p ∈ (f x).classes, r.classes.Has p.2) :
    SafeAt proviso r (updateLoader l f) fun _ r' => r'.classes = r.classes :=
  ⟨.refl _, fun hp => (hr hp).modifyLoader (hf hp), fun _ _ _ => rfl⟩

theorem SafeAt.attempt {x : Load α} (hx : SafeAt proviso r x Q) :
    SafeAt proviso r (attempt x) fun result r' => ∀ a, result = .ok a → Q a r' := by
  obtain ⟨hgrows, hsound, hresult⟩ := hx
  refine ⟨hgrows, hsound, ?_⟩
  rintro hp _ ⟨⟩
  exact hresult hp

/-! ### Definition -/

/-- An answer is a class of the table. -/
def Answers (c : ClassRef) (r : Realm) : Prop := r.classes.Has c

/-- A loader that can be asked for any class, in any realm. -/
def Safe (proviso : Prop) (load : String → Load ClassRef) : Prop :=
  ∀ name (r : Realm), (proviso → r.Sound) → SafeAt proviso r (load name) Answers

theorem memoized_safe {l : LoaderRef} {name : String} {define : Load ClassRef}
    (hd : ∀ r : Realm, (proviso → r.Sound) → SafeAt proviso r define Answers)
    (hr : proviso → r.Sound) : SafeAt proviso r (memoized l name define) Answers := by
  refine SafeAt.get_bind ?_
  split
  · rename_i c hc
    exact .pure hr fun hp => (hr hp).loaded hc
  split
  · exact .fail hr
  refine SafeAt.bind (SafeAt.updateLoader hr fun _ _ h => h) fun _ r₁ hr₁ _ _ => ?_
  refine (hd r₁ hr₁).attempt.bind fun result r₂ hr₂ _ hresult => ?_
  refine SafeAt.bind (SafeAt.updateLoader hr₂ fun _ _ h => h) fun _ r₃ hr₃ _ hclasses => ?_
  split
  · exact .fail hr₃
  · rename_i c
    have hc : proviso → r₃.classes.Has c := fun hp => hclasses hp ▸ hresult hp c rfl
    refine SafeAt.bind (SafeAt.updateLoader hr₃ fun hp x hx p hmem => ?_) fun _ r₄ hr₄ hgrows _ =>
      .pure hr₄ fun hp => hgrows.has (hc hp)
    rcases List.mem_cons.1 hmem with rfl | hmem
    · exact hc hp
    · exact hx p hmem

theorem readClassFile_safe {name : String} (hr : proviso → r.Sound) :
    SafeAt proviso r (readClassFile name) fun file _ => file.verify = .ok () := by
  refine SafeAt.get_bind ?_
  split
  · exact .fail hr
  · exact .fail hr
  split
  · exact .fail hr
  split
  · exact .fail hr
  split
  · exact .fail hr
  · rename_i h
    exact .pure hr fun _ => h

theorem define_safe {definer : Definer} {superclass? : Option ClassRef} {file : ClassFile}
    (hr : proviso → r.Sound) (hs : proviso → ∀ s, superclass? = some s → r.classes.Has s)
    (hv : proviso → file.verify = .ok ()) :
    SafeAt proviso r (define definer superclass? file) Answers := by
  refine SafeAt.get_bind ?_
  split
  · exact .fail hr
  · rename_i k hk
    have hgrows := ClassTable.extends_add (t := r.classes) k
    refine ⟨hgrows, fun hp => ?_, ?_⟩
    · exact ⟨(hr hp).founded.add (hs hp) (hv hp) hk,
        fun l p hmem => hgrows.has ((hr hp).remembered l p hmem)⟩
    · rintro - _ ⟨⟩
      show r.classes.classes.size < (r.classes.add k).2.classes.size
      rw [ClassTable.size_add]
      exact Nat.lt_succ_self _

theorem superclass_safe {load : String → Load ClassRef} {file : ClassFile}
    (hl : Safe proviso load) (hr : proviso → r.Sound) :
    SafeAt proviso r (superclass load file) fun s? r' => ∀ s, s? = some s → r'.classes.Has s := by
  unfold superclass
  split
  · exact .pure hr fun _ _ h => nomatch h
  · refine (hl _ r hr).bind fun c r' hr' _ hc => .pure hr' ?_
    rintro hp _ ⟨⟩
    exact hc hp

/-! ### The two loaders -/

theorem bootstrap_safe (l : LoaderRef) (depth : Nat) : Safe proviso (bootstrap l depth) := by
  induction depth with
  | zero => exact fun name r hr => .fail hr
  | succ depth ih =>
    intro name r hr
    refine memoized_safe (fun r hr => ?_) hr
    refine (readClassFile_safe hr).bind fun file r₁ hr₁ _ hv => ?_
    refine (superclass_safe ih hr₁).bind fun s? r₂ hr₂ _ hs => ?_
    exact define_safe hr₂ hs hv

theorem cached_safe {l : LoaderRef} {cache : ClassCache} {name : String}
    (hr : proviso → r.Sound) : SafeAt proviso r (cached l cache name) fun _ _ => True := by
  refine SafeAt.get_bind ?_
  split
  · exact .pure hr fun _ => trivial
  split
  · exact .pure hr fun _ => trivial
  · refine SafeAt.bind (SafeAt.updateLoader hr fun _ _ h => h) fun _ r' hr' _ _ => ?_
    exact .pure hr' fun _ => trivial

theorem transform_safe {l : LoaderRef} {cache : ClassCache} {name : String} {file : ClassFile}
    (hr : proviso → r.Sound) :
    SafeAt proviso r (transform l cache name file) fun _ _ => True := by
  unfold transform
  split
  · exact .fail hr
  · refine SafeAt.bind (SafeAt.updateLoader hr fun _ _ h => h) fun _ r' hr' _ _ => ?_
    exact ⟨.refl _, fun hp => ⟨(hr' hp).founded, (hr' hp).remembered⟩, fun _ _ _ => trivial⟩

/-- A class file, if it is verified. -/
theorem verified_safe {file : ClassFile} {error : VerifyError → LoadError}
    (hr : proviso → r.Sound) :
    SafeAt proviso r (match file.verify with
      | .error e => Load.fail (error e)
      | .ok () => Pure.pure file) fun file _ => file.verify = .ok () := by
  split
  · exact .fail hr
  · rename_i h
    exact .pure hr fun _ => h

theorem instrument_safe {l : LoaderRef} {cache : ClassCache} {name : String} {file : ClassFile}
    (hr : proviso → r.Sound) :
    SafeAt proviso r (instrument l cache name file) fun file _ => file.verify = .ok () := by
  refine (cached_safe hr).bind fun cached? r₁ hr₁ _ _ => ?_
  cases cached? with
  | some transformed => exact verified_safe hr₁
  | none => exact (transform_safe hr₁).bind fun _ _ hr₂ _ _ => verified_safe hr₂

theorem instrumenting_safe (l : LoaderRef) (work : Instrumentation)
    {parent : String → Load ClassRef} (hp : Safe proviso parent) (depth : Nat) :
    Safe proviso (instrumenting l work parent depth) := by
  induction depth with
  | zero => exact fun name r hr => .fail hr
  | succ depth ih =>
    intro name r hr
    refine memoized_safe (fun r hr => ?_) hr
    split
    · exact hp name r hr
    refine (readClassFile_safe hr).bind fun file r₁ hr₁ _ hv => ?_
    dsimp only
    split
    · refine (instrument_safe hr₁).bind fun file r₂ hr₂ _ hv => ?_
      refine (superclass_safe ih hr₂).bind fun s? r₃ hr₃ _ hs => ?_
      exact define_safe hr₃ hs hv
    · refine SafeAt.bind (Q := fun file _ => file.verify = .ok ()) (.pure hr₁ hv)
        fun file r₂ hr₂ _ hv => ?_
      refine (superclass_safe ih hr₂).bind fun s? r₃ hr₃ _ hs => ?_
      exact define_safe hr₃ hs hv

/-- **Loading.** Whatever comes of it, a load only adds to the classes, and if the realm was sound,
it stays so and the answer is a class of the table. -/
theorem load_safe (proviso : Prop) (l : LoaderRef) : Safe proviso (load l) := by
  intro name r hr
  refine SafeAt.get_bind (SafeAt.get_bind ?_)
  split
  · exact bootstrap_safe _ _ _ r hr
  · exact instrumenting_safe _ _ (bootstrap_safe _ _) _ _ r hr

end Load

end Interpose
