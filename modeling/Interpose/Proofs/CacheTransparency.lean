import Interpose.Proofs.DirectCalls
import Interpose.Proofs.LoadDepths
/-!
# Caches cannot be told from their absence

The same classes are loaded twice over: through loaders whose caches start out empty and fill up on
the way, and through loaders whose caches stay empty. After every load both sides have defined the
same classes and give the same answer, be it a class or an error; what is different are the caches
and the counters. So no cache decides what comes of a load, whether loaders share it or have one
each, whether it takes what it is offered, refuses it, or fails halfway.

The two sides are compared load by load. Inside a load they may stand at different depths, since
entries on disk add to the files that bound the depth; both depths leave room, so neither side runs
out of it.

## Main definitions

* `Realm.Abreast`: two realms that have come the same way
* `Load.Agrees`: two computations that come to the same on both sides
* `Realm.uncached`: a realm whose loaders have caches that are always empty
* `Load.loadAll`: loads one after the other

## Main results

* `Load.load_agrees`: a load comes to the same on both sides
* `loadAll_transparent`: so do all loads, and the transformer has run on those classes only that the
  caches did not hold
-/

namespace Interpose

namespace Realm

variable {r₀ u₀ r u : Realm} {l a : LoaderRef} {f g : Loader → Loader} {name : String}

/-! ### Side by side -/

/-- Two realms after the same loads, alike but for caches and counters. -/
structure Abreast (r₀ u₀ r u : Realm) : Prop where
  alike : r.Alike u
  left : r₀.Follows r
  right : u₀.Follows u

theorem Abreast.modifyLoader (h : r₀.Abreast u₀ r u) (hbare : ∀ x, (f x).bare = f x.bare)
    (hkind : ∀ x, (f x).kind = x.kind) (htransforms : ∀ x, (f x).transforms = x.transforms) :
    r₀.Abreast u₀ (r.modifyLoader l f) (u.modifyLoader l f) :=
  ⟨h.alike.modifyLoader hbare, h.left.modifyLoader hkind htransforms,
    h.right.modifyLoader hkind htransforms⟩

/-- The realm in which a loader has begun to load a class. -/
def enter (r : Realm) (l : LoaderRef) (name : String) : Realm :=
  r.modifyLoader l fun x => { x with loading := name :: x.loading }

/-- The realm in which it is through with that. -/
def leave (r : Realm) (l : LoaderRef) (name : String) : Realm :=
  r.modifyLoader l fun x => { x with loading := x.loading.erase name }

/-- The realm in which it remembers the class. -/
def remember (r : Realm) (l : LoaderRef) (name : String) (c : ClassRef) : Realm :=
  r.modifyLoader l fun x => { x with classes := (name, c) :: x.classes }

theorem Abreast.enter (h : r₀.Abreast u₀ r u) : r₀.Abreast u₀ (r.enter l name) (u.enter l name) :=
  h.modifyLoader (fun _ => rfl) (fun _ => rfl) fun _ => rfl

theorem Abreast.leave (h : r₀.Abreast u₀ r u) : r₀.Abreast u₀ (r.leave l name) (u.leave l name) :=
  h.modifyLoader (fun _ => rfl) (fun _ => rfl) fun _ => rfl

theorem Abreast.remember (h : r₀.Abreast u₀ r u) {c : ClassRef} :
    r₀.Abreast u₀ (r.remember l name c) (u.remember l name c) :=
  h.modifyLoader (fun _ => rfl) (fun _ => rfl) fun _ => rfl

theorem loading_enter_self (h : r.HasLoader l) (name : String) :
    ((r.enter l name).loader l).loading = name :: (r.loader l).loading := by
  rw [enter, loader_modifyLoader_self h]

theorem loading_enter_of_ne (h : l ≠ a) :
    ((r.enter l name).loader a).loading = (r.loader a).loading := by
  rw [enter, loader_modifyLoader_of_ne h]

theorem loading_remember {c : ClassRef} :
    ((r.remember l name c).loader a).loading = (r.loader a).loading := by
  refine loader_modifyLoader_eq Loader.loading ?_ a
  exact fun _ => rfl

/-- Who leaves a class is in the middle of what it was in the middle of before it entered. -/
theorem loading_leave {r' : Realm} (hl : r.HasLoader l) (hl' : r'.HasLoader l)
    (h : ∀ a, (r'.loader a).loading = ((r.enter l name).loader a).loading) (a : LoaderRef) :
    ((r'.leave l name).loader a).loading = (r.loader a).loading := by
  by_cases ha : l = a
  · subst ha
    rw [leave, loader_modifyLoader_self hl']
    dsimp only
    rw [h, loading_enter_self hl, List.erase_cons_head]
  · rw [leave, loader_modifyLoader_of_ne ha, h, loading_enter_of_ne ha]

/-- Two realms from which the same loads can be compared: they are alike, in both of them loading
through the caches goes well, and there is the same to be read. -/
structure Comparable (r₀ u₀ : Realm) : Prop where
  alike : r₀.Alike u₀
  left : r₀.Steady
  right : u₀.Steady
  reads : ∀ name, u₀.classFile name = r₀.classFile name

theorem Comparable.classFile_left (hc : r₀.Comparable u₀) (h : r₀.Abreast u₀ r u) (name : String) :
    r.classFile name = r₀.classFile name :=
  h.left.classFile hc.left name

theorem Comparable.classFile_right (hc : r₀.Comparable u₀) (h : r₀.Abreast u₀ r u)
    (name : String) : u.classFile name = r₀.classFile name :=
  (h.right.classFile hc.right name).trans (hc.reads name)

/-- No load is going on, and what instrumenting loaders leave to others they leave to bootstrap
loaders. -/
structure AtRest (r : Realm) : Prop where
  idle : ∀ l, (r.loader l).loading = []
  parents : ∀ l work, (r.loader l).kind = .instrumenting work →
    r.HasLoader work.parent ∧ (r.loader work.parent).kind = .bootstrap

end Realm

/-- Without their caches, two instrumenting loaders work alike. -/
theorem LoaderKind.eq_of_bare_eq {kind : LoaderKind} {work : Instrumentation}
    (h : (LoaderKind.instrumenting work).bare = kind.bare) :
    ∃ work', kind = .instrumenting work' ∧ work.parent = work'.parent ∧
      work.policy = work'.policy ∧ work.handler = work'.handler := by
  cases kind with
  | bootstrap => cases h
  | instrumenting work' =>
    simp only [bare, instrumenting.injEq, Instrumentation.mk.injEq] at h
    exact ⟨work', rfl, h.1, h.2.1, h.2.2.2⟩

theorem LoaderKind.eq_bootstrap_of_bare_eq {kind : LoaderKind}
    (h : LoaderKind.bootstrap.bare = kind.bare) : kind = .bootstrap := by
  cases kind with
  | bootstrap => rfl
  | instrumenting work' => cases h

namespace Load

variable {α β : Type} {r₀ u₀ r u : Realm} {l : LoaderRef} {name : String}

/-- Two computations come to the same on both sides, and leave the loaders in the middle of what
they were in the middle of. -/
structure Agrees (r₀ u₀ : Realm) (x : Load α) (r : Realm) (y : Load α) (u : Realm) : Prop where
  result : (x r).1 = (y u).1
  abreast : r₀.Abreast u₀ (x r).2 (y u).2
  loading : ∀ a, ((x r).2.loader a).loading = (r.loader a).loading

theorem Agrees.of_eq {x y : Load α} {result : Except LoadError α} {r' u' : Realm}
    (hx : x r = (result, r')) (hy : y u = (result, u')) (h : r₀.Abreast u₀ r' u')
    (hloading : ∀ a, (r'.loader a).loading = (r.loader a).loading) : Agrees r₀ u₀ x r y u :=
  ⟨by rw [hx, hy], by rw [hx, hy]; exact h, by rw [hx]; exact hloading⟩

/-- The two runs, with the result that they have in common. -/
theorem Agrees.exists_runs {x y : Load α} (h : Agrees r₀ u₀ x r y u) :
    ∃ result r' u', x r = (result, r') ∧ y u = (result, u') ∧ r₀.Abreast u₀ r' u' ∧
      ∀ a, (r'.loader a).loading = (r.loader a).loading :=
  ⟨(x r).1, (x r).2, (y u).2, rfl, Prod.ext h.result.symm rfl, h.abreast, h.loading⟩

/-- Computations that go on as others agree if these do. -/
theorem Agrees.of_run {x y x' y' : Load α} {r' u' : Realm} (h : Agrees r₀ u₀ x' r' y' u')
    (hx : x r = x' r') (hy : y u = y' u')
    (hloading : ∀ a, (r'.loader a).loading = (r.loader a).loading) : Agrees r₀ u₀ x r y u := by
  refine ⟨?_, ?_, fun a => ?_⟩
  · rw [hx, hy]
    exact h.result
  · rw [hx, hy]
    exact h.abreast
  · rw [hx]
    exact (h.loading a).trans (hloading a)

theorem Agrees.pure (h : r₀.Abreast u₀ r u) (a : α) : Agrees r₀ u₀ (pure a) r (pure a) u :=
  ⟨rfl, h, fun _ => rfl⟩

theorem Agrees.bind {x y : Load α} {f g : α → Load β} (hx : Agrees r₀ u₀ x r y u)
    (hf : ∀ a r' u', r₀.Abreast u₀ r' u' →
      (∀ a, (r'.loader a).loading = (r.loader a).loading) → Agrees r₀ u₀ (f a) r' (g a) u') :
    Agrees r₀ u₀ (x >>= f) r (y >>= g) u := by
  obtain ⟨result, r', u', hxr, hyu, habreast, hloading⟩ := hx.exists_runs
  have hxf := bind_apply (r := r) x f
  have hyg := bind_apply (r := u) y g
  rw [hxr] at hxf
  rw [hyu] at hyg
  cases result with
  | error e => exact .of_eq hxf hyg habreast hloading
  | ok a => exact (hf a r' u' habreast hloading).of_run hxf hyg hloading

/-! ### One class -/

theorem attempt_bind_apply (x : Load α) (f : Except LoadError α → Load β) (r : Realm) :
    (attempt x >>= f) r = f (x r).1 (x r).2 := by
  rw [bind_apply]
  rfl

theorem memoized_apply (l : LoaderRef) (name : String) (define : Load ClassRef) (r : Realm) :
    memoized l name define r =
      match r.loaded? l name with
      | some c => (.ok c, r)
      | none =>
        if (r.loader l).loading.contains name then (.error (.link (.circular name)), r)
        else
          match define (r.enter l name) with
          | (.error e, r') => (.error e, r'.leave l name)
          | (.ok c, r') => (.ok c, (r'.leave l name).remember l name c) := by
  rw [memoized, get_bind_apply]
  cases r.loaded? l name with
  | some c => rfl
  | none =>
    dsimp only
    split
    · rfl
    · rw [updateLoader_bind_apply, attempt_bind_apply, updateLoader_bind_apply]
      rw [Realm.enter]
      rcases define _ with ⟨e | c, r'⟩ <;> rfl

theorem memoized_agrees {define define' : Load ClassRef} (hl : r₀.HasLoader l)
    (h : r₀.Abreast u₀ r u)
    (hdefine : name ∉ (r.loader l).loading →
      Agrees r₀ u₀ define (r.enter l name) define' (u.enter l name)) :
    Agrees r₀ u₀ (memoized l name define) r (memoized l name define') u := by
  have hr := memoized_apply l name define r
  have hu := memoized_apply l name define' u
  rw [← h.alike.loaded?, ← h.alike.loading] at hu
  cases hloaded : r.loaded? l name with
  | some c =>
    rw [hloaded] at hr hu
    exact .of_eq hr hu h fun _ => rfl
  | none =>
    rw [hloaded] at hr hu
    dsimp only at hr hu
    by_cases hcontains : (r.loader l).loading.contains name
    · rw [if_pos hcontains] at hr hu
      exact .of_eq hr hu h fun _ => rfl
    · rw [if_neg hcontains] at hr hu
      have hnew : name ∉ (r.loader l).loading := fun hmem =>
        hcontains (List.contains_iff_mem.2 hmem)
      obtain ⟨result, r', u', hdr, hdu, habreast, hloading⟩ := (hdefine hnew).exists_runs
      have hleave := Realm.loading_leave (h.left.hasLoader.2 hl) (habreast.left.hasLoader.2 hl)
        hloading
      rw [hdr] at hr
      rw [hdu] at hu
      cases result with
      | error e => exact .of_eq hr hu habreast.leave hleave
      | ok c =>
        refine .of_eq hr hu habreast.leave.remember fun a => ?_
        rw [Realm.loading_remember, hleave]

/-- Both sides read the same. -/
theorem readClassFile_bind_agrees (hc : r₀.Comparable u₀) (h : r₀.Abreast u₀ r u)
    {f g : ClassFile → Load β}
    (hf : ∀ file, r₀.classFile name = .ok file → Agrees r₀ u₀ (f file) r (g file) u) :
    Agrees r₀ u₀ (readClassFile name >>= f) r (readClassFile name >>= g) u := by
  have hrf := bind_apply (r := r) (readClassFile name) f
  have hug := bind_apply (r := u) (readClassFile name) g
  rw [readClassFile_apply, hc.classFile_left h] at hrf
  rw [readClassFile_apply, hc.classFile_right h] at hug
  cases hfile : r₀.classFile name with
  | error e =>
    rw [hfile] at hrf hug
    exact .of_eq hrf hug h fun _ => rfl
  | ok file =>
    rw [hfile] at hrf hug
    exact (hf file hfile).of_run hrf hug fun _ => rfl

theorem define_apply (definer : Definer) (superclass? : Option ClassRef) (file : ClassFile)
    (r : Realm) :
    define definer superclass? file r =
      match LoadedClass.define definer (superclass?.map fun s => (s, r.classes.get s)) file with
      | .error e => (.error (.link (.define e)), r)
      | .ok c => (.ok (r.classes.add c).1, { r with classes := (r.classes.add c).2 }) := by
  rw [define, get_bind_apply]
  cases LoadedClass.define definer (superclass?.map fun s => (s, r.classes.get s)) file <;> rfl

theorem define_agrees {definer : Definer} {superclass? : Option ClassRef} {file : ClassFile}
    (h : r₀.Abreast u₀ r u) :
    Agrees r₀ u₀ (define definer superclass? file) r (define definer superclass? file) u := by
  have hr := define_apply definer superclass? file r
  have hu := define_apply definer superclass? file u
  rw [← h.alike.classes] at hu
  split at hr
  · next hdefine =>
    rw [hdefine] at hu
    exact .of_eq hr hu h fun _ => rfl
  · next c hdefine =>
    rw [hdefine] at hu
    refine .of_eq hr hu ?_ fun _ => rfl
    exact ⟨⟨rfl, h.alike.size, h.alike.loaders⟩,
      ⟨h.left.resources, h.left.size, h.left.kinds, h.left.history⟩,
      ⟨h.right.resources, h.right.size, h.right.kinds, h.right.history⟩⟩

theorem superclass_agrees {load load' : String → Load ClassRef} {file : ClassFile}
    (h : r₀.Abreast u₀ r u) (hload : ∀ name, Agrees r₀ u₀ (load name) r (load' name) u) :
    Agrees r₀ u₀ (superclass load file) r (superclass load' file) u := by
  rw [superclass, superclass]
  split
  · exact .pure h none
  · exact (hload _).bind fun c r' u' h' _ => .pure h' (some c)

theorem link_agrees {load load' : String → Load ClassRef} {definer : Definer} {file : ClassFile}
    (h : r₀.Abreast u₀ r u) (hload : ∀ name, Agrees r₀ u₀ (load name) r (load' name) u) :
    Agrees r₀ u₀ (superclass load file >>= fun s => define definer s file) r
      (superclass load' file >>= fun s => define definer s file) u :=
  (superclass_agrees h hload).bind fun _ _ _ h' _ => define_agrees h'

/-- Both sides instrument a class with the same result, from the cache or not. -/
theorem instrument_agrees {work work' : Instrumentation} {file : ClassFile}
    (hc : r₀.Comparable u₀) (h : r₀.Abreast u₀ r u) (hl : (r₀.loader l).kind = .instrumenting work)
    (hl' : (u₀.loader l).kind = .instrumenting work') (hpolicy : work.policy = work'.policy)
    (hfile : r₀.classFile name = .ok file) (hwanted : work.policy.instruments file) :
    Agrees r₀ u₀ (instrument l work.cache name file) r (instrument l work'.cache name file) u := by
  obtain ⟨r', hr, hleft, hrr'⟩ := instrument_apply hc.left h.left hl hfile hwanted
  obtain ⟨u', hu, hright, huu'⟩ :=
    instrument_apply hc.right h.right hl' ((hc.reads name).trans hfile) (hpolicy ▸ hwanted)
  exact .of_eq hr hu ⟨(hrr'.symm.trans h.alike).trans huu', hleft, hright⟩ fun a =>
    (hrr'.loading a).symm

/-! ### The two loaders -/

/-- By induction on one of the depths. The room that is left on either side excludes that it runs
out, and the class that is entered takes one place of it. -/
theorem bootstrap_agrees (hc : r₀.Comparable u₀) (hl : r₀.HasLoader l) {depth depth' : Nat}
    (h : r₀.Abreast u₀ r u) (hroom : r₀.Room depth (r.loader l).loading)
    (hroom' : r₀.Room depth' (r.loader l).loading) :
    Agrees r₀ u₀ (bootstrap l depth name) r (bootstrap l depth' name) u := by
  induction depth generalizing depth' name r u with
  | zero => exact absurd rfl hroom.ne_zero
  | succ depth ih =>
    cases depth' with
    | zero => exact absurd rfl hroom'.ne_zero
    | succ depth' =>
      refine memoized_agrees hl h fun hnew => ?_
      refine readClassFile_bind_agrees hc h.enter fun file hfile => ?_
      have hloading := Realm.loading_enter_self (h.left.hasLoader.2 hl) name
      have hbelow : ∀ name', Agrees r₀ u₀ (bootstrap l depth name') (r.enter l name)
          (bootstrap l depth' name') (u.enter l name) := fun name' =>
        ih h.enter (hloading ▸ hroom.cons ⟨file, hfile⟩ hnew)
          (hloading ▸ hroom'.cons ⟨file, hfile⟩ hnew)
      exact link_agrees h.enter hbelow

/-- As for the bootstrap loader. That the parent is idle carries over to the superclasses, since the
loader is not its own parent. -/
theorem instrumenting_agrees {work work' : Instrumentation} (hc : r₀.Comparable u₀)
    (hl : (r₀.loader l).kind = .instrumenting work)
    (hl' : (u₀.loader l).kind = .instrumenting work') (hpolicy : work.policy = work'.policy)
    (hhandler : work.handler = work'.handler) {parent parent' : String → Load ClassRef}
    (hne : l ≠ work.parent)
    (hparent : ∀ name r u, r₀.Abreast u₀ r u → (r.loader work.parent).loading = [] →
      Agrees r₀ u₀ (parent name) r (parent' name) u) {depth depth' : Nat} (name : String)
    (h : r₀.Abreast u₀ r u) (hidle : (r.loader work.parent).loading = [])
    (hroom : r₀.Room depth (r.loader l).loading) (hroom' : r₀.Room depth' (r.loader l).loading) :
    Agrees r₀ u₀ (instrumenting l work parent depth name) r
      (instrumenting l work' parent' depth' name) u := by
  have hhas : r₀.HasLoader l := .of_kind hl
  induction depth generalizing depth' name r u with
  | zero => exact absurd rfl hroom.ne_zero
  | succ depth ih =>
    cases depth' with
    | zero => exact absurd rfl hroom'.ne_zero
    | succ depth' =>
      refine memoized_agrees hhas h fun hnew => ?_
      have henter : r₀.Abreast u₀ (r.enter l name) (u.enter l name) := h.enter
      have hidle' : ((r.enter l name).loader work.parent).loading = [] :=
        (Realm.loading_enter_of_ne hne).trans hidle
      rw [← hpolicy, ← hhandler]
      split
      · exact hparent name _ _ henter hidle'
      refine readClassFile_bind_agrees hc henter fun file hfile => ?_
      have hself := Realm.loading_enter_self (h.left.hasLoader.2 hhas) name
      have hroom₁ := hroom.cons ⟨file, hfile⟩ hnew
      have hroom₁' := hroom'.cons ⟨file, hfile⟩ hnew
      rw [← hself] at hroom₁ hroom₁'
      have hbelow : ∀ r' u', r₀.Abreast u₀ r' u' →
          (∀ a, (r'.loader a).loading = ((r.enter l name).loader a).loading) →
          ∀ name', Agrees r₀ u₀ (instrumenting l work parent depth name') r'
            (instrumenting l work' parent' depth' name') u' := fun r' u' h' hloading name' =>
        ih name' h' ((hloading _).trans hidle') (hloading l ▸ hroom₁) (hloading l ▸ hroom₁')
      dsimp only
      split
      · next hwanted =>
        have hinstrument := instrument_agrees hc henter hl hl' hpolicy hfile hwanted
        refine hinstrument.bind fun file r' u' h' hloading => ?_
        exact link_agrees h' (hbelow r' u' h' hloading)
      · refine Agrees.bind (.pure henter file) fun file r' u' h' hloading => ?_
        exact link_agrees h' (hbelow r' u' h' hloading)

/-- The depth that loads start with is enough on either side. -/
theorem room_of_abreast (hc : r₀.Comparable u₀) (h : r₀.Abreast u₀ r u) :
    r₀.Room (r.resources.bound r.files + 1) [] ∧ r₀.Room (u.resources.bound u.files + 1) [] :=
  ⟨r.room_of_bound.congr (hc.classFile_left h), u.room_of_bound.congr (hc.classFile_right h)⟩

theorem load_apply (l : LoaderRef) (name : String) (r : Realm) :
    load l name r =
      match (r.loader l).kind with
      | .bootstrap => bootstrap l (r.resources.bound r.files + 1) name r
      | .instrumenting work =>
        instrumenting l work (bootstrap work.parent (r.resources.bound r.files + 1))
          (r.resources.bound r.files + 1) name r := by
  show (match (r.loader l).kind with
    | .bootstrap => bootstrap l (r.resources.bound r.files + 1) name
    | .instrumenting work => instrumenting l work
        (bootstrap work.parent (r.resources.bound r.files + 1))
        (r.resources.bound r.files + 1) name) r = _
  cases (r.loader l).kind <;> rfl

/-- **A load.** It comes to the same on both sides. -/
theorem load_agrees (hc : r₀.Comparable u₀) (hrest : r₀.AtRest) (hl : r₀.HasLoader l)
    (h : r₀.Abreast u₀ r u) (hidle : ∀ a, (r.loader a).loading = []) :
    Agrees r₀ u₀ (load l name) r (load l name) u := by
  obtain ⟨hroom, hroom'⟩ := room_of_abreast hc h
  have hr := load_apply l name r
  have hu := load_apply l name u
  have hbare : (r₀.loader l).kind.bare = (u₀.loader l).kind.bare :=
    congrArg Loader.kind (hc.alike.loaders l)
  rw [h.left.kinds] at hr
  rw [h.right.kinds] at hu
  cases hkind : (r₀.loader l).kind with
  | bootstrap =>
    rw [hkind] at hbare hr
    rw [LoaderKind.eq_bootstrap_of_bare_eq hbare] at hu
    have hbootstrap : Agrees r₀ u₀ (bootstrap l (r.resources.bound r.files + 1) name) r
        (bootstrap l (u.resources.bound u.files + 1) name) u :=
      bootstrap_agrees hc hl h (hidle l ▸ hroom) (hidle l ▸ hroom')
    exact hbootstrap.of_run hr hu fun _ => rfl
  | instrumenting work =>
    rw [hkind] at hbare hr
    obtain ⟨work', hkind', hparent, hpolicy, hhandler⟩ := LoaderKind.eq_of_bare_eq hbare
    rw [hkind'] at hu
    obtain ⟨hhas, hbootstrap⟩ := hrest.parents l work hkind
    have hne : l ≠ work.parent := by
      intro heq
      rw [heq, hbootstrap] at hkind
      cases hkind
    have hparents : ∀ name r' u', r₀.Abreast u₀ r' u' → (r'.loader work.parent).loading = [] →
        Agrees r₀ u₀ (bootstrap work.parent (r.resources.bound r.files + 1) name) r'
          (bootstrap work'.parent (u.resources.bound u.files + 1) name) u' := by
      intro name r' u' h' hidle'
      rw [← hparent]
      exact bootstrap_agrees hc hhas h' (hidle' ▸ hroom) (hidle' ▸ hroom')
    have hinstrumenting := instrumenting_agrees hc hkind hkind' hpolicy hhandler hne hparents
      name h (hidle _) (hidle l ▸ hroom) (hidle l ▸ hroom')
    exact hinstrumenting.of_run hr hu fun _ => rfl

/-! ### One load after the other -/

/-- Loads classes one after the other, each through its loader. Of each load there is the answer,
and the classes after it. -/
def loadAll : List (LoaderRef × String) → Realm →
    List (Except LoadError ClassRef × ClassTable) × Realm
  | [], r => ([], r)
  | (l, name) :: calls, r =>
    let (answer, r) := load l name r
    let (outcomes, r') := loadAll calls r
    ((answer, r.classes) :: outcomes, r')

theorem loadAll_cons (l : LoaderRef) (name : String) (calls : List (LoaderRef × String))
    (r : Realm) :
    loadAll ((l, name) :: calls) r =
      (((load l name r).1, (load l name r).2.classes) :: (loadAll calls (load l name r).2).1,
        (loadAll calls (load l name r).2).2) :=
  rfl

theorem loadAll_agrees (hc : r₀.Comparable u₀) (hrest : r₀.AtRest)
    {calls : List (LoaderRef × String)} (hcalls : ∀ call ∈ calls, r₀.HasLoader call.1)
    (h : r₀.Abreast u₀ r u) (hidle : ∀ a, (r.loader a).loading = []) :
    (loadAll calls r).1 = (loadAll calls u).1 ∧
      r₀.Abreast u₀ (loadAll calls r).2 (loadAll calls u).2 := by
  induction calls generalizing r u with
  | nil => exact ⟨rfl, h⟩
  | cons call calls ih =>
    obtain ⟨l, name⟩ := call
    have hl : r₀.HasLoader l := hcalls _ List.mem_cons_self
    have hload : Agrees r₀ u₀ (load l name) r (load l name) u := load_agrees hc hrest hl h hidle
    obtain ⟨hanswer, habreast, hloading⟩ := hload
    obtain ⟨houtcomes, hafter⟩ := ih (fun c hmem => hcalls c (List.mem_cons_of_mem _ hmem)) habreast
      fun a => (hloading a).trans (hidle a)
    rw [loadAll_cons, loadAll_cons, hanswer, habreast.alike.classes, houtcomes]
    exact ⟨rfl, hafter⟩

end Load

/-! ### Without caches -/

/-- The same loader with a cache that nothing is put into. -/
def LoaderKind.uncached (store : StoreRef) : LoaderKind → LoaderKind
  | .bootstrap => .bootstrap
  | .instrumenting work =>
    .instrumenting { work with cache := ⟨.memory store, work.cache.version, false⟩ }

/-- The realm whose loaders all have a cache that is empty and stays so. -/
def Realm.uncached (r : Realm) : Realm where
  classes := r.classes
  loaders := r.loaders.map fun x => { x with kind := x.kind.uncached r.storage.addStore.1 }
  resources := r.resources
  storage := r.storage.addStore.2

namespace Realm

variable {r : Realm} {l : LoaderRef} {work : Instrumentation} {runs : List (LoaderRef × String)}
  {s : Storage}

theorem loader_uncached (r : Realm) (l : LoaderRef) :
    r.uncached.loader l =
      { r.loader l with kind := (r.loader l).kind.uncached r.storage.addStore.1 } := by
  simp only [loader, uncached, Array.getD_eq_getD_getElem?, Array.getElem?_map]
  cases r.loaders[l.index]? <;> rfl

theorem alike_uncached (r : Realm) : r.Alike r.uncached := by
  refine ⟨rfl, (Array.size_map ..).symm, fun l => ?_⟩
  rw [loader_uncached, Loader.bare, Loader.bare]
  cases (r.loader l).kind <;> rfl

/-- The loaders are those of the realm, with other caches. -/
theorem exists_of_uncached (h : (r.uncached.loader l).kind = .instrumenting work) :
    (∃ version, work.cache = ⟨.memory r.storage.addStore.1, version, false⟩) ∧
      ∃ work', (r.loader l).kind = .instrumenting work' ∧ work'.policy = work.policy := by
  rw [loader_uncached] at h
  dsimp only at h
  cases hkind : (r.loader l).kind with
  | bootstrap =>
    rw [hkind] at h
    cases h
  | instrumenting work' =>
    rw [hkind] at h
    cases h
    exact ⟨⟨_, rfl⟩, work', rfl, rfl⟩

/-- Runs of the transformer store nothing there. -/
theorem storage_of_history_uncached (h : r.uncached.History runs s) : s = r.storage.addStore.2 := by
  induction h with
  | start => rfl
  | run _ hl _ _ _ _ ih =>
    obtain ⟨⟨version, hcache⟩, -⟩ := exists_of_uncached hl
    rw [hcache, ih]
    rfl

theorem comparable_uncached (h : r.Steady) : r.Comparable r.uncached where
  alike := r.alike_uncached
  left := h
  right := by
    refine ⟨fun l work hl => ?_, fun l work hl name file transformed hfile hwanted ht => ?_,
      fun runs s hs name => ?_⟩
    · obtain ⟨⟨version, hcache⟩, -⟩ := exists_of_uncached hl
      rw [hcache]
      exact ClassCache.vacant_addStore _ version false
    · obtain ⟨-, work', hl', hpolicy⟩ := exists_of_uncached hl
      exact h.storable l work' hl' name file transformed hfile (hpolicy ▸ hwanted) ht
    · rw [storage_of_history_uncached hs]
      rfl
  reads := fun _ => rfl

/-- Nothing that is done to caches reaches classes in memory. -/
theorem steady_of_memory (hsource : r.resources.source = .memory)
    (hvacant : ∀ l work, (r.loader l).kind = .instrumenting work → work.cache.Vacant r.storage)
    (hstorable : ∀ name file transformed, r.classFile name = .ok file →
      file.transform = .ok transformed → transformed.Storable) : r.Steady := by
  refine ⟨hvacant, fun l work _ name file transformed hfile _ ht => ?_,
    undisturbed_of_memory hsource⟩
  exact hstorable name file transformed hfile ht

end Realm

/-- **Transparency.** Through loaders whose caches start out without entries, any sequence of loads
goes as it goes through loaders without caches: after each load there is the same answer, and the
same classes have been defined. The transformer has run as often as the loaders have counted, each
time on a class that the loader's cache did not hold. -/
theorem loadAll_transparent {r : Realm} (h : r.Steady) (hrest : r.AtRest)
    {calls : List (LoaderRef × String)} (hcalls : ∀ call ∈ calls, r.HasLoader call.1) :
    (Load.loadAll calls r).1 = (Load.loadAll calls r.uncached).1 ∧
      ∃ runs, r.History runs (Load.loadAll calls r).2.storage ∧
        ∀ l, ((Load.loadAll calls r).2.loader l).transforms =
          (r.loader l).transforms + runs.countP (·.1 = l) := by
  have hc := Realm.comparable_uncached h
  obtain ⟨houtcomes, habreast⟩ := Load.loadAll_agrees hc hrest hcalls
    ⟨hc.alike, .refl r, .refl r.uncached⟩ hrest.idle
  exact ⟨houtcomes, habreast.left.history⟩

/-! ### Two loaders with one cache -/

/-- A subclass of the class that echoes. -/
def loudFile : ClassFile where
  name := "t.Loud"
  superName := some "t.Echo"

/-- A loader that instruments both classes, with the first cache in memory. -/
def sharingLoader : Loader where
  kind := .instrumenting
    { parent := ⟨0⟩
      policy := ({ instrumented := ["t."] } : Policy).decisions
      cache := ⟨.memory ⟨0⟩, cacheVersion, true⟩
      handler := ⟨0⟩ }

/-- Two such loaders over a bootstrap loader. -/
def sharedRealm : Realm where
  loaders := #[{ kind := .bootstrap }, sharingLoader, sharingLoader]
  resources := { classes := [("t.Echo", echoFile.encode), ("t.Loud", loudFile.encode)] }
  storage := { stores := #[{}] }

theorem storable_of_transform_echoFile {transformed : ClassFile}
    (h : echoFile.transform = .ok transformed) : transformed.Storable := by
  cases echoMachine_intercepts.transform.symm.trans h
  decide +kernel

theorem storable_of_transform_loudFile {transformed : ClassFile}
    (h : loudFile.transform = .ok transformed) : transformed.Storable := by
  have hloud : loudFile.transform = .ok (loudFile.transform.toOption.getD default) := by
    decide +kernel
  cases hloud.symm.trans h
  decide +kernel

namespace Realm

/-- What there is to be read are the two classes. -/
theorem eq_of_classFile_sharedRealm {name : String} {file : ClassFile}
    (h : sharedRealm.classFile name = .ok file) : file = echoFile ∨ file = loudFile := by
  have hecho : echoFile.Storable :=
    ⟨⟨by decide, by decide, by decide, by decide⟩, by decide, by decide, by decide, by decide,
      by decide +kernel⟩
  have hloud : loudFile.Storable :=
    ⟨⟨by decide, by decide, by decide, by decide⟩, by decide, by decide, by decide, by decide,
      by decide⟩
  obtain ⟨bytes, hread, hdecode, -⟩ := exists_bytes_of_classFile h
  have hmem : (name, bytes) ∈ sharedRealm.resources.classes := Resources.mem_of_held hread
  rcases List.mem_cons.1 hmem with heq | hmem
  · cases heq
    exact .inl (Except.ok.inj (hdecode.symm.trans (ClassFile.decode_encode hecho)))
  · cases List.mem_singleton.1 hmem
    exact .inr (Except.ok.inj (hdecode.symm.trans (ClassFile.decode_encode hloud)))

theorem kind_sharedRealm {l : LoaderRef} {work : Instrumentation}
    (h : (sharedRealm.loader l).kind = .instrumenting work) :
    sharingLoader.kind = .instrumenting work := by
  have hl : l.index < 3 := HasLoader.of_kind h
  rcases l with ⟨_ | _ | _ | index⟩
  · cases h
  · exact h
  · exact h
  · exact absurd hl (by simp)

theorem steady_sharedRealm : sharedRealm.Steady := by
  refine steady_of_memory rfl (fun l work hl => ?_) fun name file transformed hfile ht => ?_
  · cases kind_sharedRealm hl
    exact fun name bytes hb => nomatch hb
  · rcases eq_of_classFile_sharedRealm hfile with rfl | rfl
    · exact storable_of_transform_echoFile ht
    · exact storable_of_transform_loudFile ht

theorem atRest_sharedRealm : sharedRealm.AtRest := by
  refine ⟨fun l => ?_, fun l work hl => ?_⟩
  · by_cases hl : sharedRealm.HasLoader l
    · have hindex : l.index < 3 := hl
      rcases l with ⟨_ | _ | _ | index⟩
      · rfl
      · rfl
      · rfl
      · exact absurd hindex (by simp)
    · rw [loader_of_not_hasLoader hl]
      rfl
  · cases kind_sharedRealm hl
    exact ⟨by decide, rfl⟩

end Realm

/-- Both loaders are sent for the subclass, and the second one for a class that is not there. -/
def sharedCalls : List (LoaderRef × String) := [(⟨1⟩, "t.Loud"), (⟨2⟩, "t.Loud"), (⟨2⟩, "t.Mute")]

/-- All goes as without the cache, and no class is transformed twice. -/
theorem sharedRealm_transparent :
    sharedRealm.Steady ∧ sharedRealm.AtRest ∧ (∀ call ∈ sharedCalls, sharedRealm.HasLoader call.1) ∧
    (Load.loadAll sharedCalls sharedRealm).1 = (Load.loadAll sharedCalls sharedRealm.uncached).1 ∧
    ∃ runs : List (LoaderRef × String), (runs.map Prod.snd).Nodup ∧
      ∀ l, ((Load.loadAll sharedCalls sharedRealm).2.loader l).transforms =
        (sharedRealm.loader l).transforms + runs.countP (·.1 = l) := by
  have hsteady := Realm.steady_sharedRealm
  have hcalls : ∀ call ∈ sharedCalls, sharedRealm.HasLoader call.1 := by decide
  obtain ⟨houtcomes, runs, hruns, hcount⟩ :=
    loadAll_transparent hsteady Realm.atRest_sharedRealm hcalls
  refine ⟨hsteady, Realm.atRest_sharedRealm, hcalls, houtcomes, runs, ?_, hcount⟩
  refine hruns.nodup_of_shared hsteady ⟨0⟩ cacheVersion (by decide) fun l work hl => ?_
  cases Realm.kind_sharedRealm hl
  rfl

end Interpose
