import Interpose.Proofs.LoadOrder
/-!
# Histories of loading

Loaders are asked for classes, one after the other, while the resources change in between. What a
loader has answered with it answers with ever after. What it has failed to load it is free to load
later: nothing is remembered under the name and no name is left in the middle of being loaded, so a
load goes well whenever it would go well for loaders that nobody has asked for anything yet.

That it would is a matter of what there is to be read and of the caches. The classes that are
remembered make a load shorter, and definition does not depend on what the superclass is like.

## Main definitions

* `Realm.afterAll`: a realm after some calls
* `Realm.Unused`: loaders that nobody has asked for anything
* `Realm.Ahead`: a realm that remembers more

## Main results

* `Load.load_succeeds_of_ahead`: what is remembered does not stand in the way of a load
* `Realm.Unused.loaded_once_and_for_all`: what holds over every history
-/

namespace Interpose

/-! ### Definitions that succeed -/

/-- Whether fields can be laid out does not depend on the slots before them. -/
theorem Layout.exists_addAll {owner : String} {fields : List FieldDef} {layout layout' : Layout}
    (h : addAll owner layout fields = .ok layout') (other : Layout) :
    ∃ other', addAll owner other fields = .ok other' := by
  induction fields generalizing layout other with
  | nil => exact ⟨other, rfl⟩
  | cons f rest ih =>
    obtain ⟨t, ht, h⟩ := addAll_cons h
    rw [addAll, ht]
    exact ih h _

/-- Whether a class file can be defined does not depend on the superclass. -/
theorem LoadedClass.exists_define {definer : Definer} {file : ClassFile} {k : LoadedClass}
    {superclass? : Option (ClassRef × LoadedClass)}
    (h : define definer superclass? file = .ok k) (other? : Option (ClassRef × LoadedClass)) :
    ∃ k', define definer other? file = .ok k' := by
  obtain ⟨methods, layout, hmethods, hlayout, -⟩ := define_eq_ok h
  obtain ⟨layout', hlayout'⟩ := Layout.exists_addAll hlayout { fieldDefaults := inheritedSlots other? }
  exact exists_define_of_parts hmethods hlayout'

namespace Realm

variable {r u : Realm} {l : LoaderRef} {name : String} {f : Loader → Loader}

/-! ### Remembering more -/

/-- The second realm has the same to be read and the same caches as the first, its loaders are in the
middle of loading the same classes, and they remember a class wherever those of the first do. -/
structure Ahead (r u : Realm) : Prop where
  resources : u.resources = r.resources
  storage : u.storage = r.storage
  size : u.loaders.size = r.loaders.size
  kind : ∀ a, (u.loader a).kind = (r.loader a).kind
  loading : ∀ a, (u.loader a).loading = (r.loader a).loading
  loaded : ∀ a name c, r.loaded? a name = some c → ∃ c', u.loaded? a name = some c'

theorem Ahead.classFile (h : r.Ahead u) (name : String) : u.classFile name = r.classFile name := by
  rw [Realm.classFile, Realm.classFile, files, files, h.resources, h.storage]

theorem Ahead.hasLoader (h : r.Ahead u) : u.HasLoader l ↔ r.HasLoader l := by
  rw [HasLoader, HasLoader, h.size]

theorem Ahead.modifyLoader (h : r.Ahead u) (hkind : ∀ x, (f x).kind = x.kind)
    (hclasses : ∀ x, (f x).classes = x.classes)
    (hloading : ∀ x y : Loader, x.loading = y.loading → (f x).loading = (f y).loading) :
    (r.modifyLoader l f).Ahead (u.modifyLoader l f) := by
  have hr : r.Same (r.modifyLoader l f) := same_modifyLoader hkind hclasses
  have hu : u.Same (u.modifyLoader l f) := same_modifyLoader hkind hclasses
  refine ⟨h.resources, h.storage, ?_, fun a => ?_, fun a => ?_, fun a name c hc => ?_⟩
  · rw [hu.size, h.size, hr.size]
  · rw [hu.kind, h.kind, hr.kind]
  · by_cases hl : r.HasLoader l
    · by_cases ha : l = a
      · subst ha
        rw [loader_modifyLoader_self hl, loader_modifyLoader_self (h.hasLoader.2 hl)]
        exact hloading _ _ (h.loading l)
      · rw [loader_modifyLoader_of_ne ha, loader_modifyLoader_of_ne ha, h.loading]
    · rw [modifyLoader_of_not hl, modifyLoader_of_not fun hl' => hl (h.hasLoader.1 hl'), h.loading]
  · rw [hu.loaded?]
    exact h.loaded a name c ((hr.loaded? a name).symm.trans hc)

theorem Ahead.enter (h : r.Ahead u) : (r.enter l name).Ahead (u.enter l name) :=
  h.modifyLoader (fun _ => rfl) (fun _ => rfl) fun _ _ heq => congrArg (name :: ·) heq

theorem Ahead.noteHit (h : r.Ahead u) : (r.noteHit l).Ahead (u.noteHit l) :=
  h.modifyLoader (fun _ => rfl) (fun _ => rfl) fun _ _ heq => heq

theorem Ahead.noteRun (h : r.Ahead u) {cache : ClassCache} {transformed : ClassFile} :
    (r.noteRun l cache name transformed).Ahead (u.noteRun l cache name transformed) := by
  have hcount : (r.countRun l).Ahead (u.countRun l) :=
    h.modifyLoader (fun _ => rfl) (fun _ => rfl) fun _ _ heq => heq
  refine ⟨hcount.resources, ?_, hcount.size, hcount.kind, hcount.loading, hcount.loaded⟩
  show (cache.put u.storage name transformed.encode).2 = (cache.put r.storage name _).2
  rw [h.storage]

end Realm

namespace Load

variable {α β : Type} {r u : Realm} {l : LoaderRef} {name : String} {work : Instrumentation}

/-- A computation has a result. -/
def Succeeds (x : Load α) (r : Realm) : Prop := ∃ a r', x r = (.ok a, r')

theorem succeeds_bind {x : Load α} {f : α → Load β} :
    Succeeds (x >>= f) r ↔ ∃ a r', x r = (.ok a, r') ∧ Succeeds (f a) r' := by
  rw [Succeeds, bind_apply]
  rcases x r with ⟨e | a, r'⟩
  · constructor
    · rintro ⟨_, _, h⟩
      cases h
    · rintro ⟨_, _, h, -⟩
      cases h
  · constructor
    · exact fun h => ⟨a, r', rfl, h⟩
    · rintro ⟨_, _, heq, h⟩
      obtain ⟨ha, rfl⟩ := Prod.mk.inj heq
      cases ha
      exact h

/-- A loader that remembers the class need not define it. -/
theorem memoized_succeeds {define define' : Load ClassRef} (h : r.Ahead u)
    (hdefine : Succeeds define (r.enter l name) → Succeeds define' (u.enter l name)) :
    Succeeds (memoized l name define) r → Succeeds (memoized l name define') u := by
  rintro ⟨c, r', hr⟩
  have hu := memoized_apply l name define' u
  cases hloaded : u.loaded? l name with
  | some c' =>
    rw [hloaded] at hu
    exact ⟨c', u, hu⟩
  | none =>
    have hnone : r.loaded? l name = none := by
      refine Option.eq_none_iff_forall_ne_some.2 fun c' hc' => ?_
      obtain ⟨c'', hc''⟩ := h.loaded l name c' hc'
      exact nomatch hloaded.symm.trans hc''
    rw [memoized_apply, hnone] at hr
    rw [hloaded, h.loading] at hu
    dsimp only at hr hu
    split at hr
    · cases hr
    next hnew =>
    rw [if_neg hnew] at hu
    have hsucceeds : Succeeds define (r.enter l name) := by
      rcases hd : define (r.enter l name) with ⟨e | c', r''⟩
      · rw [hd] at hr
        cases hr
      · exact ⟨c', r'', hd⟩
    obtain ⟨c', u', hd⟩ := hdefine hsucceeds
    rw [hd] at hu
    exact ⟨c', _, hu⟩

theorem readClassFile_bind_succeeds {f g : ClassFile → Load β} (h : r.Ahead u)
    (hf : ∀ file, Succeeds (f file) r → Succeeds (g file) u) :
    Succeeds (readClassFile name >>= f) r → Succeeds (readClassFile name >>= g) u := by
  simp only [succeeds_bind, readClassFile_apply, h.classFile]
  rintro ⟨file, r', hread, hs⟩
  obtain ⟨hfile, rfl⟩ := Prod.mk.inj hread
  exact ⟨file, u, congrArg (·, u) hfile, hf file hs⟩

theorem define_succeeds {definer : Definer} {s? s?' : Option ClassRef} {file : ClassFile}
    (h : Succeeds (define definer s? file) r) : Succeeds (define definer s?' file) u := by
  obtain ⟨c, r', hr⟩ := h
  rw [define_apply] at hr
  split at hr
  · cases hr
  next k hk =>
  obtain ⟨k', hk'⟩ := LoadedClass.exists_define hk (s?'.map fun s => (s, u.classes.get s))
  have hu := define_apply definer s?' file u
  rw [hk'] at hu
  exact ⟨_, _, hu⟩

theorem link_succeeds {load load' : String → Load ClassRef} {definer : Definer} {file : ClassFile}
    (hload : ∀ name, Succeeds (load name) r → Succeeds (load' name) u) :
    Succeeds (superclass load file >>= fun s => define definer s file) r →
      Succeeds (superclass load' file >>= fun s => define definer s file) u := by
  rw [succeeds_bind, succeeds_bind, superclass, superclass]
  rintro ⟨s?, r', hs, hdefine⟩
  cases hsuper : file.superName with
  | none => exact ⟨none, u, rfl, define_succeeds hdefine⟩
  | some name =>
    rw [hsuper] at hs
    obtain ⟨c, r'', hc, -⟩ := succeeds_bind.1 ⟨s?, r', hs⟩
    obtain ⟨c', u', hc'⟩ := hload name ⟨c, r'', hc⟩
    refine ⟨some c', u', ?_, define_succeeds hdefine⟩
    show (load' name >>= fun c => pure (some c)) u = _
    rw [bind_apply, hc']
    rfl

/-- Both sides instrument a class with the same result, and one stays ahead. -/
theorem instrument_bind_succeeds {cache : ClassCache} {file : ClassFile} {f g : ClassFile → Load β}
    (h : r.Ahead u) (hf : ∀ file r' u', r'.Ahead u' → Succeeds (f file) r' → Succeeds (g file) u') :
    Succeeds (instrument l cache name file >>= f) r →
      Succeeds (instrument l cache name file >>= g) u := by
  rw [succeeds_bind, succeeds_bind]
  rintro ⟨file', r', hr, hs⟩
  cases hfind : cache.find? r.storage name with
  | some transformed =>
    rw [instrument_of_find? hfind] at hr
    obtain ⟨hchecked, rfl⟩ := Prod.mk.inj hr
    refine ⟨file', u.noteHit l, ?_, hf file' _ _ h.noteHit hs⟩
    rw [instrument_of_find? (h.storage ▸ hfind), hchecked]
  | none =>
    rw [instrument_of_not_find? hfind] at hr
    have hu : instrument l cache name file u = _ := instrument_of_not_find? (h.storage ▸ hfind)
    cases ht : file.transform with
    | error e =>
      rw [ht] at hr
      cases hr
    | ok transformed =>
      rw [ht] at hr hu
      obtain ⟨hchecked, rfl⟩ := Prod.mk.inj hr
      refine ⟨file', u.noteRun l cache name transformed, ?_, hf file' _ _ h.noteRun hs⟩
      exact hu.trans (congrArg (·, _) hchecked)

theorem bootstrap_succeeds (depth : Nat) (h : r.Ahead u) :
    Succeeds (bootstrap l depth name) r → Succeeds (bootstrap l depth name) u := by
  induction depth generalizing r u name with
  | zero =>
    rintro ⟨c, r', hr⟩
    cases hr
  | succ depth ih =>
    refine memoized_succeeds h ?_
    exact readClassFile_bind_succeeds h.enter fun file => link_succeeds fun name' => ih h.enter

theorem instrumenting_succeeds {parent : String → Load ClassRef} (depth : Nat) (h : r.Ahead u)
    (hparent : ∀ name r u, r.Ahead u → Succeeds (parent name) r → Succeeds (parent name) u) :
    Succeeds (instrumenting l work parent depth name) r →
      Succeeds (instrumenting l work parent depth name) u := by
  induction depth generalizing r u name with
  | zero =>
    rintro ⟨c, r', hr⟩
    cases hr
  | succ depth ih =>
    refine memoized_succeeds h ?_
    split
    · exact hparent name _ _ h.enter
    refine readClassFile_bind_succeeds h.enter fun file => ?_
    dsimp only
    split
    · refine instrument_bind_succeeds h.enter fun file' r' u' h' => ?_
      exact link_succeeds fun name' => ih h'
    · exact link_succeeds fun name' => ih h.enter

/-- **Success.** What loaders remember does not stand in the way of a load. -/
theorem load_succeeds_of_ahead (h : r.Ahead u) :
    Succeeds (load l name) r → Succeeds (load l name) u := by
  have hdepth : u.resources.bound u.files = r.resources.bound r.files := by
    rw [Realm.files, Realm.files, h.resources, h.storage]
  rw [Succeeds, Succeeds, load_apply, load_apply, h.kind, hdepth]
  cases (r.loader l).kind with
  | bootstrap => exact bootstrap_succeeds _ h
  | instrumenting work =>
    exact instrumenting_succeeds _ h fun name r u h => bootstrap_succeeds _ h

end Load

/-! ### Histories -/

/-- What can happen to a realm from outside: a loader is asked for a class or for what it remembers,
and what there is to be read or in the caches is replaced. -/
inductive LoadingCall
  | load (l : LoaderRef) (name : String)
  | find (l : LoaderRef) (name : String)
  | supply (resources : Resources) (storage : Storage)

namespace Realm

variable {r r₀ : Realm} {l : LoaderRef} {name : String}

/-- A realm over other resources and other storage. -/
def supplied (r : Realm) (resources : Resources) (storage : Storage) : Realm :=
  { r with resources := resources, storage := storage }

/-- The realm after a call. -/
def after (r : Realm) : LoadingCall → Realm
  | .load l name => (Load.load l name r).2
  | .find _ _ => r
  | .supply resources storage => r.supplied resources storage

/-- The realm after some calls, the first one first. -/
def afterAll (r : Realm) (calls : List LoadingCall) : Realm := calls.foldl after r

theorem same_supplied (resources : Resources) (storage : Storage) :
    r.Same (r.supplied resources storage) :=
  ⟨rfl, rfl, fun _ => rfl, fun _ _ => rfl⟩

/-- A call keeps what loads keep, and the realm in order. -/
theorem Orderly.after (h : r.Orderly) (call : LoadingCall) :
    r.Keeps (r.after call) ∧ (r.after call).Orderly := by
  cases call with
  | load l name =>
    have hload := Load.load_orderly h l name
    exact ⟨hload.keeps, hload.orderly⟩
  | find l name => exact ⟨.refl r, h⟩
  | supply resources storage =>
    have hsame : r.Same (r.supplied resources storage) := same_supplied resources storage
    exact ⟨hsame.keeps fun _ => rfl, h.of_same hsame⟩

theorem Orderly.afterAll (h : r.Orderly) (calls : List LoadingCall) :
    r.Keeps (r.afterAll calls) ∧ (r.afterAll calls).Orderly := by
  induction calls generalizing r with
  | nil => exact ⟨.refl r, h⟩
  | cons call calls ih =>
    obtain ⟨hkeeps, horderly⟩ := h.after call
    obtain ⟨hkeeps', horderly'⟩ := ih horderly
    exact ⟨hkeeps.trans hkeeps', horderly'⟩

/-- No class has been loaded, and no loader has been asked for any. -/
structure Unused (r : Realm) : Prop extends AtRest r where
  classes : r.classes = {}
  forgets : ∀ l, (r.loader l).classes = []

theorem Unused.loaded? (h : r.Unused) (l : LoaderRef) (name : String) : r.loaded? l name = none := by
  rw [Realm.loaded?, h.forgets]
  rfl

theorem Unused.orderly (h : r.Unused) : r.Orderly := by
  refine ⟨h.parents, fun l name c hc => ?_, fun c hc => ?_⟩
  · exact nomatch (h.loaded? l name).symm.trans hc
  · rw [h.classes] at hc
    exact absurd hc (Nat.not_lt_zero _)

/-- After any calls, a realm is ahead of the one in which the calls began, over the same resources
and caches. -/
theorem Unused.ahead (h : r₀.Unused) (hkeeps : r₀.Keeps r) (resources : Resources)
    (storage : Storage) : (r₀.supplied resources storage).Ahead (r.supplied resources storage) where
  resources := rfl
  storage := rfl
  size := hkeeps.size
  kind := hkeeps.kind
  loading := hkeeps.loading
  loaded a name _ hc := nomatch (h.loaded? a name).symm.trans hc

/-- **Loading over whole histories.** Let a realm have come about by any calls. What a loader answers
with it remembers and answers with after any further calls. A load that fails leaves nothing under
the name, no loader is left in the middle of loading, and a load succeeds over any resources over
which it would succeed for unused loaders. What an instrumenting loader does not acquire, its parent
remembers as the same class, and classes of a bootstrap loader stand below classes of that loader
only. -/
theorem Unused.loaded_once_and_for_all (h : r₀.Unused) {calls : List LoadingCall}
    (hr : r = r₀.afterAll calls) :
    (∀ l name c, r₀.HasLoader l → (Load.load l name r).1 = .ok c → ∀ later,
      let r' := (Load.load l name r).2.afterAll later
      (Load.load l name r').1 = .ok c ∧ r'.loaded? l name = some c) ∧
    (∀ l name e, (Load.load l name r).1 = .error e →
      (Load.load l name r).2.loaded? l name = none) ∧
    (∀ l, (r.loader l).loading = []) ∧
    (∀ l name resources storage c,
      (Load.load l name (r₀.supplied resources storage)).1 = .ok c →
        ∃ c', (Load.load l name (r.supplied resources storage)).1 = .ok c') ∧
    (∀ l work name c, (r.loader l).kind = .instrumenting work →
      work.policy.acquires name = false → r.loaded? l name = some c →
        r.loaded? work.parent name = some c) ∧
    ∀ c, r.classes.Has c → (r.loader (r.classes.get c).loader).kind = .bootstrap →
      ∀ s ∈ (r.classes.get c).ancestors, r.classes.Has s ∧
        (r.classes.get s).loader = (r.classes.get c).loader := by
  obtain ⟨hkeeps, horderly⟩ := hr ▸ h.orderly.afterAll calls
  refine ⟨fun l name c hl hc later => ?_, fun l name e he => ?_, fun l => ?_,
    fun l name resources storage c hc => ?_, fun l work name c hkind hacquires hc => ?_,
    horderly.below⟩
  · have hload := Load.load_orderly horderly l name
    obtain ⟨hkeeps', horderly'⟩ := hload.orderly.afterAll later
    have hl' : (Load.load l name r).2.HasLoader l :=
      hload.keeps.hasLoader.2 (hkeeps.hasLoader.2 hl)
    have hloaded := hkeeps'.loaded l name c ((hload.result c hc).2 hl')
    exact ⟨congrArg Prod.fst (Load.load_of_loaded? hloaded), hloaded⟩
  · exact Load.loaded?_of_load_error horderly he
  · rw [hkeeps.loading]
    exact h.idle l
  · obtain ⟨c', r', hc'⟩ := Load.load_succeeds_of_ahead (h.ahead hkeeps resources storage)
      ⟨c, _, Prod.ext hc rfl⟩
    exact ⟨c', congrArg Prod.fst hc'⟩
  · exact (horderly.fits l name c hc).passed work hkind hacquires

/-! ### Repaired resources -/

/-- Two loaders and their parent, before there is anything to be read. -/
def bareRealm : Realm := { sharedRealm with resources := {} }

/-- A class that is there later. -/
def lateResources : Resources where
  classes := [("t.Late", ClassFile.encode { name := "t.Late" })]

theorem bareRealm_unused : bareRealm.Unused where
  idle := atRest_sharedRealm.idle
  parents := atRest_sharedRealm.parents
  classes := rfl
  forgets l := by
    by_cases hl : bareRealm.HasLoader l
    · have hindex : l.index < 3 := hl
      rcases l with ⟨_ | _ | _ | index⟩
      · rfl
      · rfl
      · rfl
      · exact absurd hindex (by simp)
    · rw [loader_of_not_hasLoader hl]
      rfl

/-- A class that could not be found is found once it is there. -/
theorem bareRealm_repaired :
    bareRealm.Unused ∧ bareRealm.HasLoader ⟨1⟩ ∧
      (Load.load ⟨1⟩ "t.Late" bareRealm).1 = .error (.classNotFound "t.Late") ∧
      ∃ c, (Load.load ⟨1⟩ "t.Late" ((bareRealm.afterAll [.load ⟨1⟩ "t.Late"]).supplied
        lateResources bareRealm.storage)).1 = .ok c := by
  have hfresh : (Load.load ⟨1⟩ "t.Late"
      (bareRealm.supplied lateResources bareRealm.storage)).1 = .ok ⟨0⟩ := by
    decide +kernel
  obtain ⟨-, -, -, hagain, -⟩ := bareRealm_unused.loaded_once_and_for_all
    (r := bareRealm.afterAll [.load ⟨1⟩ "t.Late"]) rfl
  exact ⟨bareRealm_unused, by decide, by decide +kernel, hagain _ _ _ _ _ hfresh⟩

end Realm

end Interpose
