import Interpose.Proofs.CacheTransparency
/-!
# What loaders remember

A loader never forgets, and never changes its mind: what it remembers under a name it goes on
remembering there. While it is in the middle of loading a class nothing else can put that class into
its memory, since the name counts as being loaded; so the class is remembered once, when its
definition has succeeded, and a definition that fails leaves the name free.

What loaders come to remember is in order. A bootstrap loader remembers classes of its own, under
their names, and defines them below classes of its own. An instrumenting loader remembers what its
parent remembers, under the names that it does not acquire, and elsewhere classes of its own.

## Main definitions

* `Realm.Keeps`: what every load leaves as it is
* `Realm.Fits`: what a loader may remember under a name
* `Realm.Orderly`: all that is remembered fits

## Main results

* `Load.load_orderly`: a load keeps what it should, and the realm in order
-/

namespace Interpose

namespace Realm

variable {r r' r'' : Realm} {l a : LoaderRef} {name name' : String} {c : ClassRef}
  {f : Loader → Loader} {work : Instrumentation}

/-! ### Memories -/

theorem loaded?_remember_self (h : r.HasLoader l) :
    (r.remember l name c).loaded? l name = some c := by
  rw [loaded?, remember, loader_modifyLoader_self h]
  exact List.lookup_cons_self

theorem loaded?_remember_of_ne (h : (a, name') ≠ (l, name)) :
    (r.remember l name c).loaded? a name' = r.loaded? a name' := by
  by_cases ha : l = a
  · subst ha
    by_cases hl : r.HasLoader l
    · have hname : (name' == name) = false := by
        simp only [beq_eq_false_iff_ne, ne_eq]
        exact fun heq => h (by rw [heq])
      rw [loaded?, remember, loader_modifyLoader_self hl, List.lookup_cons, hname, loaded?]
    · rw [remember, modifyLoader_of_not hl]
  · rw [loaded?, remember, loader_modifyLoader_of_ne ha, loaded?]

/-- The two realms have the same classes, and loaders of the same kinds that remember the same. -/
structure Same (r r' : Realm) : Prop where
  classes : r'.classes = r.classes
  size : r'.loaders.size = r.loaders.size
  kind : ∀ a, (r'.loader a).kind = (r.loader a).kind
  loaded? : ∀ a name, r'.loaded? a name = r.loaded? a name

theorem same_modifyLoader (hkind : ∀ x, (f x).kind = x.kind)
    (hclasses : ∀ x, (f x).classes = x.classes) : r.Same (r.modifyLoader l f) where
  classes := rfl
  size := size_modifyLoader r l f
  kind := loader_modifyLoader_eq Loader.kind hkind
  loaded? a name := by rw [Realm.loaded?, Realm.loaded?, loader_modifyLoader_eq _ hclasses]

theorem same_enter : r.Same (r.enter l name) :=
  same_modifyLoader (fun _ => rfl) fun _ => rfl

theorem same_leave : r.Same (r.leave l name) :=
  same_modifyLoader (fun _ => rfl) fun _ => rfl

theorem same_noteHit : r.Same (r.noteHit l) :=
  same_modifyLoader (fun _ => rfl) fun _ => rfl

theorem same_noteRun {cache : ClassCache} {transformed : ClassFile} :
    r.Same (r.noteRun l cache name transformed) := by
  have h : r.Same (r.countRun l) := same_modifyLoader (fun _ => rfl) fun _ => rfl
  exact ⟨h.classes, h.size, h.kind, h.loaded?⟩

theorem Same.hasLoader (h : r.Same r') : r'.HasLoader l ↔ r.HasLoader l := by
  rw [HasLoader, HasLoader, h.size]

/-! ### What is kept -/

/-- The second realm has the classes and the loaders of the first. The loaders are in the middle of
loading the same classes, remember what they remembered, and nothing under the names that they are
in the middle of loading. -/
structure Keeps (r r' : Realm) : Prop where
  classes : r.classes.Extends r'.classes
  size : r'.loaders.size = r.loaders.size
  kind : ∀ a, (r'.loader a).kind = (r.loader a).kind
  loading : ∀ a, (r'.loader a).loading = (r.loader a).loading
  loaded : ∀ a name c, r.loaded? a name = some c → r'.loaded? a name = some c
  unloaded : ∀ a name, name ∈ (r.loader a).loading → r.loaded? a name = none →
    r'.loaded? a name = none

theorem Keeps.refl (r : Realm) : r.Keeps r :=
  ⟨.refl _, rfl, fun _ => rfl, fun _ => rfl, fun _ _ _ h => h, fun _ _ _ h => h⟩

theorem Keeps.trans (h : r.Keeps r') (h' : r'.Keeps r'') : r.Keeps r'' where
  classes := h.classes.trans h'.classes
  size := h'.size.trans h.size
  kind a := (h'.kind a).trans (h.kind a)
  loading a := (h'.loading a).trans (h.loading a)
  loaded a name c hc := h'.loaded a name c (h.loaded a name c hc)
  unloaded a name hmem hnone :=
    h'.unloaded a name (h.loading a ▸ hmem) (h.unloaded a name hmem hnone)

theorem Keeps.hasLoader (h : r.Keeps r') : r'.HasLoader l ↔ r.HasLoader l := by
  rw [HasLoader, HasLoader, h.size]

theorem Same.keeps (h : r.Same r')
    (hloading : ∀ a, (r'.loader a).loading = (r.loader a).loading) : r.Keeps r' where
  classes := h.classes ▸ .refl _
  size := h.size
  kind := h.kind
  loading := hloading
  loaded a name _ hc := (h.loaded? a name).trans hc
  unloaded a name _ hnone := (h.loaded? a name).trans hnone

theorem keeps_noteHit : r.Keeps (r.noteHit l) :=
  same_noteHit.keeps (loader_modifyLoader_eq Loader.loading fun _ => rfl)

theorem keeps_noteRun {cache : ClassCache} {transformed : ClassFile} :
    r.Keeps (r.noteRun l cache name transformed) := by
  refine same_noteRun.keeps fun a => Eq.trans (loader_modifyLoader_eq Loader.loading ?_ a) rfl
  exact fun _ => rfl

/-- A load that has failed, seen from before it began. -/
theorem Keeps.leave (h : (r.enter l name).Keeps r') : r.Keeps (r'.leave l name) := by
  have henter : r.Same (r.enter l name) := same_enter
  have hleave : r'.Same (r'.leave l name) := same_leave
  refine ⟨?_, ?_, fun a => ?_, fun a => ?_, fun a n c hc => ?_, fun a n hmem hnone => ?_⟩
  · rw [hleave.classes, ← henter.classes]
    exact h.classes
  · rw [hleave.size, h.size, henter.size]
  · rw [hleave.kind, h.kind, henter.kind]
  · by_cases hl : r.HasLoader l
    · exact loading_leave hl (h.hasLoader.2 (henter.hasLoader.2 hl)) h.loading a
    · have hl' : ¬ r'.HasLoader l := fun hl' => hl (henter.hasLoader.1 (h.hasLoader.1 hl'))
      rw [Realm.leave, modifyLoader_of_not hl', h.loading, enter, modifyLoader_of_not hl]
  · rw [hleave.loaded?]
    exact h.loaded a n c ((henter.loaded? a n).trans hc)
  · rw [hleave.loaded?]
    refine h.unloaded a n ?_ ((henter.loaded? a n).trans hnone)
    by_cases ha : l = a
    · subst ha
      by_cases hl : r.HasLoader l
      · rw [loading_enter_self hl]
        exact List.mem_cons_of_mem name hmem
      · rwa [enter, modifyLoader_of_not hl]
    · rwa [loading_enter_of_ne ha]

/-- While a class is being loaded, its name stays free. -/
theorem Keeps.free (h : (r.enter l name).Keeps r') (hfree : r.loaded? l name = none) :
    r'.loaded? l name = none := by
  have henter : r.Same (r.enter l name) := same_enter
  by_cases hl : r.HasLoader l
  · refine h.unloaded l name ?_ ((henter.loaded? l name).trans hfree)
    rw [loading_enter_self hl]
    exact List.mem_cons_self
  · have hl' : ¬ r'.HasLoader l := fun hl' => hl (henter.hasLoader.1 (h.hasLoader.1 hl'))
    rw [loaded?, loader_of_not_hasLoader hl']
    rfl

/-- A load that has succeeded: the name was free, and not in the middle of being loaded. -/
theorem Keeps.remember (h : r.Keeps r') (hfree : r.loaded? l name = none)
    (hnew : name ∉ (r.loader l).loading) : r.Keeps (r'.remember l name c) where
  classes := h.classes
  size := (size_modifyLoader ..).trans h.size
  kind a := by
    refine Eq.trans (loader_modifyLoader_eq Loader.kind ?_ a) (h.kind a)
    exact fun _ => rfl
  loading a := loading_remember.trans (h.loading a)
  loaded a n c' hc := by
    rw [loaded?_remember_of_ne]
    · exact h.loaded a n c' hc
    · rintro ⟨⟩
      exact nomatch hfree.symm.trans hc
  unloaded a n hmem hnone := by
    rw [loaded?_remember_of_ne]
    · exact h.unloaded a n hmem hnone
    · rintro ⟨⟩
      exact hnew hmem

/-! ### Order -/

/-- What a loader may remember under a name: a bootstrap loader a class of its own that has this
name, an instrumenting loader what its parent remembers if it does not acquire the name. Only what
it has instrumented itself can be of another name. -/
structure Fits (r : Realm) (l : LoaderRef) (name : String) (c : ClassRef) : Prop where
  has : r.classes.Has c
  own : (r.loader l).kind = .bootstrap →
    (r.classes.get c).loader = l ∧ (r.classes.get c).name = name
  passed : ∀ work, (r.loader l).kind = .instrumenting work → work.policy.acquires name = false →
    r.loaded? work.parent name = some c
  named : ∀ work, (r.loader l).kind = .instrumenting work →
    (r.classes.get c).name = name ∨
      (r.classes.get c).instrumented = true ∧ (r.classes.get c).loader = l

/-- All that is remembered fits, and what a bootstrap loader has defined stands below classes of its
own. What instrumenting loaders do not acquire, a bootstrap loader is asked for. -/
structure Orderly (r : Realm) : Prop where
  parents : ∀ l work, (r.loader l).kind = .instrumenting work →
    r.HasLoader work.parent ∧ (r.loader work.parent).kind = .bootstrap
  fits : ∀ l name c, r.loaded? l name = some c → r.Fits l name c
  below : ∀ c, r.classes.Has c → (r.loader (r.classes.get c).loader).kind = .bootstrap →
    ∀ s ∈ (r.classes.get c).ancestors,
      r.classes.Has s ∧ (r.classes.get s).loader = (r.classes.get c).loader

theorem Fits.keeps (h : r.Fits l name c) (hr : r.Keeps r') : r'.Fits l name c := by
  have hfixed := hr.classes.fixed_eq c h.has
  refine ⟨hr.classes.has h.has, fun hkind => ?_, fun work hkind ha => ?_, fun work hkind => ?_⟩
  · rw [LoadedClass.loader_eq_of_fixed hfixed, LoadedClass.name_eq_of_fixed hfixed]
    exact h.own ((hr.kind l).symm.trans hkind)
  · exact hr.loaded _ name c (h.passed work ((hr.kind l).symm.trans hkind) ha)
  · rw [LoadedClass.loader_eq_of_fixed hfixed, LoadedClass.name_eq_of_fixed hfixed,
      LoadedClass.instrumented_eq_of_fixed hfixed]
    exact h.named work ((hr.kind l).symm.trans hkind)

theorem Fits.of_same (h : r.Fits l name c) (hr : r.Same r') : r'.Fits l name c := by
  obtain ⟨hhas, hown, hpassed, hnamed⟩ := h
  refine ⟨?_, ?_, ?_, ?_⟩
  · rwa [hr.classes]
  · rwa [hr.classes, hr.kind]
  · simpa only [hr.kind, hr.loaded?] using hpassed
  · rwa [hr.classes, hr.kind]

theorem Orderly.of_same (h : r.Orderly) (hr : r.Same r') : r'.Orderly := by
  refine ⟨fun l work hkind => ?_, fun l name c hc => ?_, fun c hc hkind s hs => ?_⟩
  · rw [hr.hasLoader, hr.kind]
    exact h.parents l work ((hr.kind l).symm.trans hkind)
  · exact (h.fits l name c ((hr.loaded? l name).symm.trans hc)).of_same hr
  · rw [hr.classes] at hc hs ⊢
    rw [hr.kind, hr.classes] at hkind
    exact h.below c hc hkind s hs

/-- A loader comes to remember what fits, under a name that was free. -/
theorem Orderly.remember (h : r.Orderly) (hfits : r.Fits l name c)
    (hfree : r.loaded? l name = none) (hnew : name ∉ (r.loader l).loading) :
    (r.remember l name c).Orderly := by
  have hkeeps : r.Keeps (r.remember l name c) := (Keeps.refl r).remember hfree hnew
  refine ⟨fun a work hk => ?_, fun a n c' hc => ?_, fun c' hc hk => ?_⟩
  · rw [hkeeps.hasLoader, hkeeps.kind]
    exact h.parents a work ((hkeeps.kind a).symm.trans hk)
  · by_cases heq : (a, n) = (l, name)
    · obtain ⟨rfl, rfl⟩ := Prod.mk.inj heq
      by_cases hl : r.HasLoader a
      · cases (loaded?_remember_self hl).symm.trans hc
        exact hfits.keeps hkeeps
      · rw [Realm.remember, modifyLoader_of_not hl] at hc ⊢
        exact h.fits a n c' hc
    · rw [loaded?_remember_of_ne heq] at hc
      exact (h.fits a n c' hc).keeps hkeeps
  · rw [hkeeps.kind] at hk
    exact h.below c' hc hk

/-- A class is added that, if a bootstrap loader defined it, stands below classes of that loader. -/
theorem Orderly.add (h : r.Orderly) {k : LoadedClass}
    (hk : (r.loader k.loader).kind = .bootstrap →
      ∀ s ∈ k.ancestors, r.classes.Has s ∧ (r.classes.get s).loader = k.loader) :
    Orderly { r with classes := (r.classes.add k).2 } := by
  have hgrows := ClassTable.extends_add (t := r.classes) k
  have hkeeps : r.Keeps { r with classes := (r.classes.add k).2 } :=
    ⟨hgrows, rfl, fun _ => rfl, fun _ => rfl, fun _ _ _ hc => hc, fun _ _ _ hc => hc⟩
  refine ⟨h.parents, fun l name c hc => (h.fits l name c hc).keeps hkeeps, fun c hc => ?_⟩
  have hbefore : ∀ s, r.classes.Has s → (r.classes.add k).2.get s = r.classes.get s :=
    fun s hs => ClassTable.get_add_of_has hs
  by_cases hlt : r.classes.Has c
  · intro hkind s hs
    have hc' : (r.classes.add k).2.get c = r.classes.get c := hbefore c hlt
    dsimp only at hkind hs ⊢
    rw [hc'] at hkind hs ⊢
    obtain ⟨hhas, heq⟩ := h.below c hlt hkind s hs
    exact ⟨hgrows.has hhas, (congrArg LoadedClass.loader (hbefore s hhas)).trans heq⟩
  · obtain rfl : c = (r.classes.add k).1 := ClassTable.eq_of_has_add hc hlt
    intro hkind s hs
    dsimp only at hkind hs ⊢
    rw [ClassTable.get_add_self] at hkind hs ⊢
    obtain ⟨hhas, heq⟩ := hk hkind s hs
    exact ⟨hgrows.has hhas, (congrArg LoadedClass.loader (hbefore s hhas)).trans heq⟩

/-! ### Names -/

/-- The class file that a loader takes from its cache to define a class, if it does that. -/
def served? (r : Realm) (l : LoaderRef) (name : String) : Option ClassFile :=
  match (r.loader l).kind, r.classFile name with
  | .instrumenting work, .ok file =>
    if work.policy.acquires name && work.policy.instruments file then
      work.cache.find? r.storage name
    else none
  | _, _ => none

/-- The name of the class that a loader defines for a name. -/
def definedName (r : Realm) (l : LoaderRef) (name : String) : String :=
  (r.served? l name).elim name ClassFile.name

theorem definedName_of_bootstrap (h : (r.loader l).kind = .bootstrap) :
    r.definedName l name = name := by
  rw [definedName, served?, h]
  rfl

theorem definedName_of_not_acquires (h : (r.loader l).kind = .instrumenting work)
    (ha : work.policy.acquires name = false) : r.definedName l name = name := by
  rw [definedName, served?, h]
  cases r.classFile name with
  | error e => rfl
  | ok file =>
    dsimp only
    rw [ha, Bool.false_and, if_neg Bool.false_ne_true]
    rfl

theorem definedName_of_acquires {file : ClassFile} (h : (r.loader l).kind = .instrumenting work)
    (ha : work.policy.acquires name = true) (hfile : r.classFile name = .ok file) :
    r.definedName l name =
      if work.policy.instruments file then
        (work.cache.find? r.storage name).elim name ClassFile.name
      else name := by
  rw [definedName, served?, h, hfile]
  dsimp only
  rw [ha, Bool.true_and]
  split <;> rfl

end Realm

namespace Load

variable {α β : Type} {r r' : Realm} {l : LoaderRef} {name : String} {work : Instrumentation}
  {Q : α → Realm → Prop} {R : β → Realm → Prop}

/-! ### Orderly computations -/

/-- A computation keeps what loads keep, leaves the realm in order, and its result, if it has one,
is as said. -/
structure OrderlyAt (r : Realm) (x : Load α) (Q : α → Realm → Prop) : Prop where
  keeps : r.Keeps (x r).2
  orderly : (x r).2.Orderly
  result : ∀ a, (x r).1 = .ok a → Q a (x r).2

theorem OrderlyAt.of_eq {x : Load α} {result : Except LoadError α} (hx : x r = (result, r'))
    (hkeeps : r.Keeps r') (horderly : r'.Orderly) (hresult : ∀ a, result = .ok a → Q a r') :
    OrderlyAt r x Q := by
  refine ⟨?_, ?_, ?_⟩ <;> rw [hx]
  · exact hkeeps
  · exact horderly
  · exact hresult

theorem OrderlyAt.of_ok {x : Load α} {a : α} (hx : x r = (.ok a, r')) (hkeeps : r.Keeps r')
    (horderly : r'.Orderly) (hresult : Q a r') : OrderlyAt r x Q :=
  .of_eq hx hkeeps horderly fun _ ha => Except.ok.inj ha ▸ hresult

theorem OrderlyAt.of_error {x : Load α} {e : LoadError} (hx : x r = (.error e, r'))
    (hkeeps : r.Keeps r') (horderly : r'.Orderly) : OrderlyAt r x Q :=
  .of_eq hx hkeeps horderly fun _ ha => nomatch ha

theorem OrderlyAt.bind {x : Load α} {f : α → Load β} (hx : OrderlyAt r x Q)
    (hf : ∀ a r', r.Keeps r' → r'.Orderly → Q a r' → OrderlyAt r' (f a) R) :
    OrderlyAt r (x >>= f) R := by
  obtain ⟨hkeeps, horderly, hresult⟩ := hx
  have happ := bind_apply (r := r) x f
  rcases hxr : x r with ⟨e | a, r'⟩ <;> rw [hxr] at hkeeps horderly hresult happ
  · exact .of_error happ hkeeps horderly
  · obtain ⟨hkeeps', horderly', hresult'⟩ := hf a r' hkeeps horderly (hresult a rfl)
    refine ⟨?_, ?_, ?_⟩ <;> rw [happ]
    · exact hkeeps.trans hkeeps'
    · exact horderly'
    · exact hresult'

theorem OrderlyAt.mono {x : Load α} {P : α → Realm → Prop} (hx : OrderlyAt r x P)
    (h : ∀ a r', r.Keeps r' → r'.Orderly → P a r' → Q a r') : OrderlyAt r x Q :=
  ⟨hx.keeps, hx.orderly, fun a ha => h a _ hx.keeps hx.orderly (hx.result a ha)⟩

/-- A loader answers with a class that fits and that it remembers. -/
def Answered (l : LoaderRef) (name : String) (c : ClassRef) (r : Realm) : Prop :=
  r.Fits l name c ∧ (r.HasLoader l → r.loaded? l name = some c)

/-- A loader that defines what fits comes to remember it. -/
theorem memoized_orderly {define : Load ClassRef} (hr : r.Orderly)
    (hdefine : OrderlyAt (r.enter l name) define fun c r' => r'.Fits l name c) :
    OrderlyAt r (memoized l name define) (Answered l name) := by
  have happ := memoized_apply l name define r
  cases hloaded : r.loaded? l name with
  | some c =>
    rw [hloaded] at happ
    exact .of_ok happ (.refl r) hr ⟨hr.fits l name c hloaded, fun _ => hloaded⟩
  | none =>
    rw [hloaded] at happ
    dsimp only at happ
    by_cases hcontains : (r.loader l).loading.contains name
    · rw [if_pos hcontains] at happ
      exact .of_error happ (.refl r) hr
    rw [if_neg hcontains] at happ
    have hnew : name ∉ (r.loader l).loading := fun hmem => hcontains (List.contains_iff_mem.2 hmem)
    obtain ⟨hkeeps, horderly, hresult⟩ := hdefine
    rcases hd : define (r.enter l name) with ⟨e | c, r'⟩ <;>
      rw [hd] at hkeeps horderly hresult happ
    · exact .of_error happ hkeeps.leave (horderly.of_same Realm.same_leave)
    · have hleft : r.Keeps (r'.leave l name) := hkeeps.leave
      have horderly' : (r'.leave l name).Orderly := horderly.of_same Realm.same_leave
      have hfits : (r'.leave l name).Fits l name c := (hresult c rfl).of_same Realm.same_leave
      have hfree : (r'.leave l name).loaded? l name = none :=
        (Realm.same_leave.loaded? l name).trans (hkeeps.free hloaded)
      have hnew' : name ∉ ((r'.leave l name).loader l).loading := by rwa [hleft.loading]
      have hkept := (Realm.Keeps.refl (r'.leave l name)).remember (c := c) hfree hnew'
      refine .of_ok happ (hleft.trans hkept) (horderly'.remember hfits hfree hnew') ⟨?_, ?_⟩
      · exact hfits.keeps hkept
      · intro hl
        exact Realm.loaded?_remember_self (hkept.hasLoader.1 hl)

theorem readClassFile_orderly (hr : r.Orderly) :
    OrderlyAt r (readClassFile name) fun file r' => r.classFile name = .ok file ∧ r' = r := by
  have happ := readClassFile_apply name r
  cases hfile : r.classFile name with
  | error e =>
    rw [hfile] at happ
    exact .of_error happ (.refl r) hr
  | ok file =>
    rw [hfile] at happ
    exact .of_ok happ (.refl r) hr ⟨rfl, rfl⟩

/-- What a class file is defined as, and below what. -/
theorem define_orderly {definer : Definer} {superclass? : Option ClassRef} {file : ClassFile}
    (hr : r.Orderly)
    (hs : (r.loader definer.loader).kind = .bootstrap → ∀ s, superclass? = some s →
      r.classes.Has s ∧ (r.classes.get s).loader = definer.loader) :
    OrderlyAt r (define definer superclass? file) fun c r' =>
      r'.classes.Has c ∧ (r'.classes.get c).loader = definer.loader ∧
        (r'.classes.get c).name = file.name ∧
        (r'.classes.get c).instrumented = definer.instrumented := by
  have happ := define_apply definer superclass? file r
  split at happ
  · exact .of_error happ (.refl r) hr
  · next k hk =>
    obtain ⟨methods, layout, -, -, rfl⟩ := LoadedClass.define_eq_ok hk
    have hgrows := ClassTable.extends_add (t := r.classes)
    refine .of_ok happ ?_ (hr.add fun hkind s hmem => ?_) ?_
    · exact ⟨hgrows _, rfl, fun _ => rfl, fun _ => rfl, fun _ _ _ hc => hc, fun _ _ _ hc => hc⟩
    · cases superclass? with
      | none => exact absurd hmem List.not_mem_nil
      | some s' =>
        obtain ⟨hhas, hloader⟩ := hs hkind s' rfl
        rcases List.mem_cons.1 hmem with rfl | hmem
        · exact ⟨hhas, hloader⟩
        · have hbelow := hr.below s' hhas (by rw [hloader]; exact hkind) s hmem
          exact ⟨hbelow.1, hbelow.2.trans hloader⟩
    · refine ⟨?_, ?_⟩
      · show r.classes.classes.size < (r.classes.add _).2.classes.size
        rw [ClassTable.size_add]
        exact Nat.lt_succ_self _
      · dsimp only
        rw [ClassTable.get_add_self]
        exact ⟨rfl, rfl, rfl⟩

/-- A class file is defined below the class that the loader answers with for its superclass. -/
theorem link_orderly {load : String → Load ClassRef} {definer : Definer} {file : ClassFile}
    (hr : r.Orderly)
    (hload : ∀ name, OrderlyAt r (load name) (Answered definer.loader name)) :
    OrderlyAt r (superclass load file >>= fun s => define definer s file) fun c r' =>
      r'.classes.Has c ∧ (r'.classes.get c).loader = definer.loader ∧
        (r'.classes.get c).name = file.name ∧
        (r'.classes.get c).instrumented = definer.instrumented := by
  have hsuper : OrderlyAt r (superclass load file) fun s? r' =>
      ∀ s, s? = some s → ∃ name, Answered definer.loader name s r' := by
    rw [superclass]
    split
    · exact .of_ok rfl (.refl r) hr fun s hs => nomatch hs
    · refine (hload _).bind fun c r' _ hr' hc => .of_ok rfl (.refl r') hr' ?_
      rintro _ ⟨⟩
      exact ⟨_, hc⟩
  refine hsuper.bind fun s? r' _ hr' hs => define_orderly hr' fun hkind s hs' => ?_
  obtain ⟨name, hfits, -⟩ := hs s hs'
  exact ⟨hfits.has, (hfits.own hkind).1⟩

/-! ### The two loaders -/

/-- The bootstrap loader defines what fits, if one level down it answers as it should. -/
theorem exists_define_bootstrap {depth : Nat} (hr : r.Orderly)
    (hkind : (r.loader l).kind = .bootstrap)
    (hbelow : ∀ r' name', r'.Orderly → (r'.loader l).kind = .bootstrap →
      OrderlyAt r' (bootstrap l depth name') (Answered l name')) :
    ∃ define, bootstrap l (depth + 1) name = memoized l name define ∧
      OrderlyAt (r.enter l name) define fun c r' =>
        r'.Fits l name c ∧ (r'.classes.get c).name = r.definedName l name := by
  have henter : r.Same (r.enter l name) := Realm.same_enter
  refine ⟨_, rfl, ?_⟩
  refine (readClassFile_orderly (hr.of_same henter)).bind fun file r₁ h₁ hr₁ hfile => ?_
  obtain ⟨-, -, -, hname, -⟩ := Realm.exists_bytes_of_classFile hfile.1
  have hkind₁ : (r₁.loader l).kind = .bootstrap := by rw [h₁.kind, henter.kind, hkind]
  refine (link_orderly hr₁ fun name' => hbelow r₁ name' hr₁ hkind₁).mono fun c r₂ h₂ _ hc => ?_
  obtain ⟨hhas, hloader, hcname, -⟩ := hc
  have hcname : (r₂.classes.get c).name = name := hcname.trans hname
  have hkind₂ : (r₂.loader l).kind = .bootstrap := (h₂.kind l).trans hkind₁
  refine ⟨⟨hhas, fun _ => ⟨hloader, hcname⟩, fun work hw => ?_, fun work hw => ?_⟩, ?_⟩
  · exact nomatch hkind₂.symm.trans hw
  · exact nomatch hkind₂.symm.trans hw
  · rw [hcname, Realm.definedName_of_bootstrap hkind]

theorem bootstrap_orderly (depth : Nat) (hr : r.Orderly) (hkind : (r.loader l).kind = .bootstrap) :
    OrderlyAt r (bootstrap l depth name) (Answered l name) := by
  induction depth generalizing r name with
  | zero => exact .of_error rfl (.refl r) hr
  | succ depth ih =>
    obtain ⟨define, heq, hdefine⟩ := exists_define_bootstrap hr hkind
      fun r' name' hr' hkind' => ih hr' hkind'
    rw [heq]
    exact memoized_orderly hr (hdefine.mono fun c r' _ _ hc => hc.1)

/-- The transformer keeps the name of a class. A cached class has the name it has. -/
theorem instrument_orderly {cache : ClassCache} {file : ClassFile} (hr : r.Orderly) :
    OrderlyAt r (instrument l cache name file) fun file' _ =>
      file'.name = (cache.find? r.storage name).elim file.name ClassFile.name := by
  have hchecked : ∀ {transformed file' : ClassFile}, transformed.checkedAs name = .ok file' →
      file' = transformed := by
    intro transformed file' h
    rw [ClassFile.checkedAs] at h
    split at h
    · cases h
    · exact (Except.ok.inj h).symm
  cases hf : cache.find? r.storage name with
  | some cached =>
    refine .of_eq (instrument_of_find? hf) Realm.keeps_noteHit (hr.of_same Realm.same_noteHit) ?_
    intro file' h
    rw [hchecked h]
    rfl
  | none =>
    have happ : instrument l cache name file r = _ := instrument_of_not_find? hf
    cases ht : file.transform with
    | error e =>
      rw [ht] at happ
      exact .of_error happ (.refl r) hr
    | ok transformed =>
      rw [ht] at happ
      refine .of_eq happ Realm.keeps_noteRun (hr.of_same Realm.same_noteRun) fun file' h => ?_
      obtain ⟨bodies, entries, added, pool, hshape⟩ := ClassFile.exists_instrumented_of_transform ht
      rw [hchecked h, hshape.name]
      rfl

/-- What an instrumenting loader has defined itself, under a name that it acquires. -/
theorem fits_of_acquires {c : ClassRef} (hkind : (r.loader l).kind = .instrumenting work)
    (hacquires : work.policy.acquires name = true) (hhas : r.classes.Has c)
    (hnamed : (r.classes.get c).name = name ∨
      (r.classes.get c).instrumented = true ∧ (r.classes.get c).loader = l) :
    r.Fits l name c := by
  refine ⟨hhas, fun h => ?_, fun work' h hnot => ?_, fun _ _ => hnamed⟩
  · exact nomatch hkind.symm.trans h
  · cases hkind.symm.trans h
    exact nomatch hacquires.symm.trans hnot

/-- What is linked fits under the name that its loader acquires, if it is instrumented or has this
name. -/
theorem link_fits {load : String → Load ClassRef} {definer : Definer} {file : ClassFile}
    (hdefiner : definer.loader = l) (hr : r.Orderly)
    (hkind : (r.loader l).kind = .instrumenting work) (hacquires : work.policy.acquires name = true)
    (hload : ∀ below, OrderlyAt r (load below) (Answered l below))
    (hname : definer.instrumented = true ∨ file.name = name) :
    OrderlyAt r (superclass load file >>= fun s => define definer s file) fun c r' =>
      r'.Fits l name c ∧ (r'.classes.get c).name = file.name := by
  subst hdefiner
  refine (link_orderly hr hload).mono fun c r' h _ hc => ?_
  obtain ⟨hhas, hloader, hcname, hinstrumented⟩ := hc
  refine ⟨fits_of_acquires ((h.kind _).trans hkind) hacquires hhas ?_, hcname⟩
  rcases hname with hname | hname
  · exact .inr ⟨hinstrumented.trans hname, hloader⟩
  · exact .inl (hcname.trans hname)

/-- As for the bootstrap loader, with the parent's answers for what is not acquired. -/
theorem exists_define_instrumenting {parent : String → Load ClassRef} {depth : Nat}
    (hr : r.Orderly) (hkind : (r.loader l).kind = .instrumenting work)
    (hparent : ∀ r' name', r'.Orderly → (r'.loader work.parent).kind = .bootstrap →
      OrderlyAt r' (parent name') (Answered work.parent name'))
    (hbelow : ∀ r' name', r'.Orderly → (r'.loader l).kind = .instrumenting work →
      OrderlyAt r' (instrumenting l work parent depth name') (Answered l name')) :
    ∃ define, instrumenting l work parent (depth + 1) name = memoized l name define ∧
      OrderlyAt (r.enter l name) define fun c r' =>
        r'.Fits l name c ∧ (r'.classes.get c).name = r.definedName l name := by
  have henter : r.Same (r.enter l name) := Realm.same_enter
  have hr' : (r.enter l name).Orderly := hr.of_same henter
  have hkind' : ((r.enter l name).loader l).kind = .instrumenting work :=
    (henter.kind l).trans hkind
  refine ⟨_, rfl, ?_⟩
  cases hacquires : work.policy.acquires name with
  | false =>
    rw [Bool.not_false, if_pos rfl, Realm.definedName_of_not_acquires hkind hacquires]
    obtain ⟨-, hbootstrap⟩ := hr'.parents l work hkind'
    refine (hparent _ name hr' hbootstrap).mono fun c r₁ h₁ hr₁ hc => ?_
    have hkind₁ : (r₁.loader l).kind = .instrumenting work := (h₁.kind l).trans hkind'
    obtain ⟨hhas, hbootstrap⟩ := hr₁.parents l work hkind₁
    have hname : (r₁.classes.get c).name = name := (hc.1.own hbootstrap).2
    refine ⟨⟨hc.1.has, fun h => ?_, fun work' h _ => ?_, fun _ _ => .inl hname⟩, hname⟩
    · exact nomatch hkind₁.symm.trans h
    · cases hkind₁.symm.trans h
      exact hc.2 hhas
  | true =>
    rw [Bool.not_true, if_neg Bool.false_ne_true]
    refine (readClassFile_orderly hr').bind fun file r₁ h₁ hr₁ hfile => ?_
    obtain ⟨hfile, rfl⟩ := hfile
    obtain ⟨-, -, -, hname, -⟩ := Realm.exists_bytes_of_classFile hfile
    rw [Realm.definedName_of_acquires hkind hacquires hfile]
    dsimp only
    split
    · next hwanted =>
      refine (instrument_orderly hr').bind fun file' r₂ h₂ hr₂ hname' => ?_
      rw [hname] at hname'
      have hkind₂ := (h₂.kind l).trans hkind'
      exact (link_fits rfl hr₂ hkind₂ hacquires (fun below => hbelow r₂ below hr₂ hkind₂)
        (.inl hwanted)).mono fun c r₃ _ _ hc => ⟨hc.1, hc.2.trans hname'⟩
    · refine OrderlyAt.bind (Q := fun file _ => file.name = name) (.of_ok rfl (.refl _) hr' hname)
        fun file' r₂ h₂ hr₂ hname' => ?_
      have hkind₂ := (h₂.kind l).trans hkind'
      exact (link_fits rfl hr₂ hkind₂ hacquires (fun below => hbelow r₂ below hr₂ hkind₂)
        (.inr hname')).mono fun c r₃ _ _ hc => ⟨hc.1, hc.2.trans hname'⟩

theorem instrumenting_orderly {parent : String → Load ClassRef} (depth : Nat) (hr : r.Orderly)
    (hkind : (r.loader l).kind = .instrumenting work)
    (hparent : ∀ r' name', r'.Orderly → (r'.loader work.parent).kind = .bootstrap →
      OrderlyAt r' (parent name') (Answered work.parent name')) :
    OrderlyAt r (instrumenting l work parent depth name) (Answered l name) := by
  induction depth generalizing r name with
  | zero => exact .of_error rfl (.refl r) hr
  | succ depth ih =>
    obtain ⟨define, heq, hdefine⟩ := exists_define_instrumenting hr hkind hparent
      fun r' name' hr' hkind' => ih hr' hkind'
    rw [heq]
    exact memoized_orderly hr (hdefine.mono fun c r' _ _ hc => hc.1)

/-- A load remembers what its loader defines, and that fits. -/
theorem exists_define_load (hr : r.Orderly) (l : LoaderRef) (name : String) :
    ∃ define, load l name r = memoized l name define r ∧
      OrderlyAt (r.enter l name) define fun c r' =>
        r'.Fits l name c ∧ (r'.classes.get c).name = r.definedName l name := by
  have happ := load_apply l name r
  cases hkind : (r.loader l).kind with
  | bootstrap =>
    rw [hkind] at happ
    obtain ⟨define, heq, hdefine⟩ := exists_define_bootstrap hr hkind
      fun r' name' hr' hkind' => bootstrap_orderly _ hr' hkind'
    exact ⟨define, happ.trans (congrFun heq r), hdefine⟩
  | instrumenting work =>
    rw [hkind] at happ
    have hparent : ∀ depth r' name', r'.Orderly → (r'.loader work.parent).kind = .bootstrap →
        OrderlyAt r' (bootstrap work.parent depth name') (Answered work.parent name') :=
      fun depth r' name' hr' hbootstrap => bootstrap_orderly depth hr' hbootstrap
    obtain ⟨define, heq, hdefine⟩ := exists_define_instrumenting hr hkind (hparent _)
      fun r' name' hr' hkind' => instrumenting_orderly _ hr' hkind' (hparent _)
    exact ⟨define, happ.trans (congrFun heq r), hdefine⟩

/-- **Order.** A load keeps what loads keep and leaves the realm in order, and the loader answers with
a class that fits and that it remembers from then on. -/
theorem load_orderly (hr : r.Orderly) (l : LoaderRef) (name : String) :
    OrderlyAt r (load l name) (Answered l name) := by
  obtain ⟨define, heq, hdefine⟩ := exists_define_load hr l name
  obtain ⟨hkeeps, horderly, hresult⟩ :=
    memoized_orderly hr (hdefine.mono fun c r' _ _ hc => hc.1)
  exact .of_eq heq hkeeps horderly hresult

/-- A load that fails leaves the name free. -/
theorem loaded?_of_load_error {e : LoadError} (hr : r.Orderly)
    (h : (load l name r).1 = .error e) : (load l name r).2.loaded? l name = none := by
  obtain ⟨define, heq, hdefine⟩ := exists_define_load hr l name
  rw [heq, memoized_apply] at h ⊢
  cases hloaded : r.loaded? l name with
  | some c =>
    rw [hloaded] at h
    cases h
  | none =>
    rw [hloaded] at h
    dsimp only at h ⊢
    split
    · exact hloaded
    · next hnew =>
      rw [if_neg hnew] at h
      have hkeeps := hdefine.keeps
      rcases hd : define (r.enter l name) with ⟨e' | c, r'⟩ <;> rw [hd] at h hkeeps
      · exact (Realm.same_leave.loaded? l name).trans (hkeeps.free hloaded)
      · cases h

/-- A class that was not remembered has the name that it is defined with. -/
theorem name_of_load {c : ClassRef} (hr : r.Orderly) (hnew : r.loaded? l name = none)
    (h : (load l name r).1 = .ok c) :
    ((load l name r).2.classes.get c).name = r.definedName l name := by
  obtain ⟨define, heq, hdefine⟩ := exists_define_load hr l name
  rw [heq, memoized_apply, hnew] at h ⊢
  dsimp only at h ⊢
  split
  · next hloading =>
    rw [if_pos hloading] at h
    cases h
  · next hloading =>
    rw [if_neg hloading] at h
    have hresult := hdefine.result
    rcases hd : define (r.enter l name) with ⟨e' | c', r'⟩ <;> rw [hd] at h hresult
    · cases h
    · cases h
      exact (hresult c rfl).2

/-- A class that is remembered is the answer, and nothing happens. -/
theorem load_of_loaded? {c : ClassRef} (h : r.loaded? l name = some c) :
    load l name r = (.ok c, r) := by
  have hmemoized : ∀ define, memoized l name define r = (.ok c, r) := fun define => by
    rw [memoized_apply, h]
  rw [load_apply]
  cases (r.loader l).kind with
  | bootstrap => exact hmemoized _
  | instrumenting work => exact hmemoized _

end Load

end Interpose
