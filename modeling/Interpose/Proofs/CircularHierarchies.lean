import Interpose.Proofs.Lineages
import Interpose.Proofs.LoadHistories
import Interpose.Proofs.LoadTrails
/-!
# Circular hierarchies

A class leads its loader on: to the class above it, or to the parent if it is not the loader's. The
resources say where, whatever has been loaded, and a load climbs from one class to the next. It ends
since there are finitely many classes. It ends well at a root or at a class that is remembered, and
where the way up comes back before it gets to either it ends in an error. Nothing that it met is
remembered then.

A cache that holds something else than the class files can lead a loader elsewhere. It makes no
difference to the end of loads, nor to what an error leaves behind, but the way up is not the one
that the resources say.

## Main definitions

* `Realm.next?`, `Realm.climb`: the way up from a class
* `Realm.Faithful`: caches with the superclass names of the class files
* `Realm.Underway`: what is kept while a load climbs

## Main results

* `Load.Comes.climb_eq`: the trail of a load is the way up
* `Load.Comes.error_of_endless`: a way up without an end
* `Load.load_ends_and_rejects_cycles`
-/

namespace Interpose

/-! ### The way up -/

namespace Realm

variable {r r' r₀ : Realm} {l l₀ : LoaderRef} {name : String} {x y : LoaderRef × String}
  {n : Nat} {file used : ClassFile}

/-- What a loader asks for when it is asked for a class: the class above, or the class itself from
the parent. -/
def next? (r : Realm) (x : LoaderRef × String) : Option (LoaderRef × String) :=
  let above? := (r.classFile x.2).toOption.bind fun file => file.superName.map fun n => (x.1, n)
  match (r.loader x.1).kind with
  | .bootstrap => above?
  | .instrumenting work => if work.policy.acquires x.2 then above? else some (work.parent, x.2)

/-- Where some steps lead. -/
def climb (r : Realm) : Nat → LoaderRef × String → Option (LoaderRef × String)
  | 0, x => some x
  | n + 1, x => (r.next? x).bind (r.climb n)

theorem climb_succ (r : Realm) (n : Nat) (x : LoaderRef × String) :
    r.climb (n + 1) x = (r.climb n x).bind r.next? := by
  induction n generalizing x with
  | zero => cases h : r.next? x <;> simp [climb, h]
  | succ n ih =>
    rw [climb]
    cases h : r.next? x with
    | none => simp [climb, h]
    | some y => rw [Option.bind_some, ih, climb, h, Option.bind_some]

/-- Whoever gets far has been everywhere below. -/
theorem isSome_climb_of_le {m : Nat} (h : (r.climb n x).isSome) (hm : m ≤ n) :
    (r.climb m x).isSome := by
  induction hm with
  | refl => exact h
  | step _ ih =>
    rw [climb_succ] at h
    exact ih (Option.isSome_of_isSome_bind h)

theorem next?_of_defines (h : r.Defines l name) (hfile : r.classFile name = .ok file) :
    r.next? (l, name) = file.superName.map fun n => (l, n) := by
  have habove : (r.classFile name).toOption.bind
      (fun file => file.superName.map fun n => (l, n)) = file.superName.map fun n => (l, n) := by
    rw [hfile]
    rfl
  unfold next?
  dsimp only
  cases hkind : (r.loader l).kind with
  | bootstrap => exact habove
  | instrumenting work =>
    dsimp only
    rw [if_pos (h work hkind)]
    exact habove

theorem next?_of_not_acquires {work : Instrumentation}
    (hkind : (r.loader l).kind = .instrumenting work) (ha : work.policy.acquires name = false) :
    r.next? (l, name) = some (work.parent, name) := by
  unfold next?
  dsimp only
  rw [hkind]
  dsimp only
  rw [if_neg (ha ▸ Bool.false_ne_true)]

/-! ### While a load climbs -/

/-- An entry with the superclass name of the class file that is there to be read. -/
def Expected (r : Realm) (name : String) (bytes : Bytes) : Prop :=
  ∀ file used, r.classFile name = .ok file → ClassFile.decode bytes = .ok used →
    used.superName = file.superName

/-- The cache of a loader does not lead it elsewhere than the class files do. -/
def Faithful (r : Realm) (l : LoaderRef) : Prop :=
  ∀ work, (r.loader l).kind = .instrumenting work → work.cache.HoldsOnly r.storage r.Expected

/-- What is kept on the way up from a request to a loader. What is put into caches is put there
under the names that the loader is in the middle of loading. -/
structure Underway (r₀ : Realm) (l₀ : LoaderRef) (r : Realm) : Prop where
  follows : r₀.Follows r
  loaded? : ∀ a n, r.loaded? a n = r₀.loaded? a n
  cached : ∀ work, (r₀.loader l₀).kind = .instrumenting work →
    work.cache.HoldsOnly r.storage fun n bytes => n ∈ (r.loader l₀).loading ∨ r₀.Expected n bytes

/-- A loader that is concerned in a request: the one that was asked, or its parent. -/
def Concerned (r₀ : Realm) (l₀ l : LoaderRef) : Prop :=
  l = l₀ ∨ (r₀.loader l).kind = .bootstrap

theorem Concerned.eq {work : Instrumentation} (h : r₀.Concerned l₀ l)
    (hkind : (r₀.loader l).kind = .instrumenting work) : l = l₀ :=
  h.resolve_right fun hbootstrap => nomatch hkind.symm.trans hbootstrap

theorem Faithful.underway (h : r₀.Faithful l₀) : r₀.Underway l₀ r₀ where
  follows := .refl r₀
  loaded? _ _ := rfl
  cached work hkind := (h work hkind).mono fun _ _ => .inr

theorem mem_loading_enter_of_mem {a : LoaderRef} {n : String} (h : n ∈ (r.loader a).loading) :
    n ∈ ((r.enter l name).loader a).loading := by
  by_cases hl : r.HasLoader l
  · exact (mem_loading_enter hl a n).2 (.inr h)
  · rwa [enter, modifyLoader_of_not hl]

/-- What is stored when a class has been made ready. -/
theorem Readied.storage (h : r.Readied l name r') : r'.storage = r.storage ∨
    ∃ work bytes, (r.loader l).kind = .instrumenting work ∧
      r'.storage = (work.cache.put r.storage name bytes).2 := by
  cases h with
  | same | hit => exact .inl rfl
  | run hkind => exact .inr ⟨_, _, hkind, rfl⟩

end Realm

namespace Load

variable {r r' r₀ r₁ : Realm} {l l₀ : LoaderRef} {name : String} {outcome : Except LoadError Turn}
variable {file used : ClassFile} {result : Except LoadError ClassRef}
variable {trail : List (LoaderRef × String)}

theorem Turns.storage (h : Turns r l name outcome r') : r'.storage = r.storage ∨
    ∃ work bytes, (r.loader l).kind = .instrumenting work ∧
      r'.storage = (work.cache.put r.storage name bytes).2 := by
  cases h with
  | fails _ hr | asks _ _ _ _ _ hr => exact hr.storage
  | delegates => exact .inl rfl
  | done _ _ _ _ hr => exact hr.storage

/-- A turn on the way up. -/
theorem underway_of_turn (h : r₀.Underway l₀ r) (hquiet : r₀.Undisturbed) (hl₀ : r₀.HasLoader l₀)
    (hl : r₀.Concerned l₀ l) (hturn : turn l name (r.enter l name) = (outcome, r₁)) :
    r₀.Underway l₀ r₁ := by
  have hturns := turns_of_turn hturn
  refine ⟨follows_of_turns hquiet h.follows hturns,
    fun a n => (loaded?_of_turn hturn a n).trans (h.loaded? a n), fun work hkind => ?_⟩
  have hbefore : work.cache.HoldsOnly r.storage fun n bytes =>
      n ∈ (r₁.loader l₀).loading ∨ r₀.Expected n bytes := by
    refine (h.cached work hkind).mono fun n bytes hn => hn.imp_left fun hmem => ?_
    rw [hturns.keeps.loading]
    exact Realm.mem_loading_enter_of_mem hmem
  rcases hturns.storage with hstorage | ⟨work', bytes, hkind', hstorage⟩
  · rw [hstorage]
    exact hbefore
  -- bootstrap loaders put nothing into caches
  · obtain rfl := hl.eq ((h.follows.kind_enter l name l).symm.trans hkind')
    rw [hstorage]
    refine hbefore.put (.inl ?_)
    rw [hturns.keeps.loading, Realm.loading_enter_self (h.follows.hasLoader.2 hl₀)]
    exact List.mem_cons_self

/-- Whatever the form that is defined, it has the superclass of the class file. -/
theorem superName_of_uses (h : r₀.Underway l₀ r) (hl : r₀.Concerned l₀ l)
    (hbegins : r.Begins l name) (hfile : r₀.classFile name = .ok file)
    (hused : (r.enter l name).Uses l name file used) : used.superName = file.superName := by
  cases hused with
  | stored => rfl
  | @cached work _ hkind hfind =>
    have hkind₀ := (h.follows.kind_enter l name l).symm.trans hkind
    obtain rfl := hl.eq hkind₀
    obtain ⟨bytes, hbytes, hdecode⟩ := (h.cached work hkind₀).find? hfind
    exact hbytes.resolve_left hbegins.new file used hfile hdecode
  | fresh ht =>
    obtain ⟨_, _, _, _, hinstrumented⟩ := ClassFile.exists_instrumented_of_transform ht
    exact hinstrumented.superName

section Climbing

variable (hrest : r₀.AtRest) (hquiet : r₀.Undisturbed) (hl₀ : r₀.HasLoader l₀)

include hquiet in
/-- What a loader defines, it defines below the class that the way up leads to. -/
theorem next?_of_uses (h : r₀.Underway l₀ r) (hl : r₀.Concerned l₀ l) (hbegins : r.Begins l name)
    (hdefines : (r.enter l name).Defines l name)
    (hfile : (r.enter l name).classFile name = .ok file)
    (hused : (r.enter l name).Uses l name file used) :
    r₀.next? (l, name) = used.superName.map fun n => (l, n) := by
  have hfile₀ : r₀.classFile name = .ok file :=
    (h.follows.classFile_of_undisturbed hquiet name).symm.trans hfile
  have hdefines₀ : r₀.Defines l name := fun work hkind =>
    hdefines work ((h.follows.kind_enter l name l).trans hkind)
  rw [superName_of_uses h hl hbegins hfile₀ hused]
  exact Realm.next?_of_defines hdefines₀ hfile₀

include hrest hquiet in
/-- A class that asks for another one asks for the next one on the way up. -/
theorem next?_of_asks (h : r₀.Underway l₀ r) (hl : r₀.Concerned l₀ l) (hbegins : r.Begins l name)
    {a : LoaderRef} {n : String} {resume : ClassRef → Load ClassRef}
    (hturn : turn l name (r.enter l name) = (.ok (.asks a n resume), r₁)) :
    r₀.next? (l, name) = some (a, n) ∧ r₀.Concerned l₀ a := by
  cases turns_of_turn hturn with
  | @delegates work hkind ha =>
    have hkind₀ := (h.follows.kind_enter l name l).symm.trans hkind
    exact ⟨Realm.next?_of_not_acquires hkind₀ ha, .inr (hrest.parents l work hkind₀).2⟩
  | asks hdefines hfile hused _ hn =>
    refine ⟨?_, hl⟩
    rw [next?_of_uses hquiet h hl hbegins hdefines hfile hused, hn]
    rfl

include hquiet in
/-- The way up ends at roots. -/
theorem next?_of_done (h : r₀.Underway l₀ r) (hl : r₀.Concerned l₀ l) (hbegins : r.Begins l name)
    {c : ClassRef} (hturn : turn l name (r.enter l name) = (.ok (.done c), r₁)) :
    r₀.next? (l, name) = none := by
  generalize houtcome : (.ok (.done c) : Except LoadError Turn) = outcome at hturn
  cases turns_of_turn hturn with
  | fails | delegates | asks => cases houtcome
  | done hdefines hfile hused hn =>
    rw [next?_of_uses hquiet h hl hbegins hdefines hfile hused, hn]
    rfl

include hrest hquiet hl₀ in
/-- **Trails.** The requests on the trail of a load are those on the way up. -/
theorem Comes.climb_eq (h : Comes l name r trail result r') (hr : r₀.Underway l₀ r)
    (hl : r₀.Concerned l₀ l) :
    ∀ i x, trail[i]? = some x → r₀.climb i (l, name) = some x := by
  have hone : ∀ (y : LoaderRef × String) i x, [y][i]? = some x → r₀.climb i y = some x := by
    rintro y (_ | i) x hx
    · exact hx
    · cases hx
  induction h with
  | remembered | circular | stuck | root => exact hone _
  | @asked l a name n r r₁ _ _ resume trail _ _ hbegins hturn _ _ ih =>
    obtain ⟨hnext, ha⟩ := next?_of_asks hrest hquiet hr hl hbegins hturn
    rintro (_ | i) x hx
    · exact hx
    · rw [Realm.climb, hnext]
      exact ih (underway_of_turn hr hquiet hl₀ hl hturn) ha i x hx

include hrest hquiet hl₀ in
/-- **Ways up without an end.** A load fails if its way up stays among classes that are not
remembered and below others. The induction is on the load: it does not end well before the one that
it asks for does. -/
theorem Comes.error_of_endless {S : LoaderRef × String → Prop}
    (hfree : ∀ x, S x → r₀.loaded? x.1 x.2 = none)
    (hnext : ∀ x, S x → ∃ y, r₀.next? x = some y ∧ S y)
    (h : Comes l name r trail result r') (hr : r₀.Underway l₀ r) (hl : r₀.Concerned l₀ l)
    (hS : S (l, name)) : ∃ e, result = .error e := by
  induction h with
  | @remembered l name r _ h =>
    cases h.symm.trans ((hr.loaded? l name).trans (hfree _ hS))
  | circular | stuck => exact ⟨_, rfl⟩
  | root hbegins hturn =>
    obtain ⟨y, hy, -⟩ := hnext _ hS
    cases hy.symm.trans (next?_of_done hquiet hr hl hbegins hturn)
  | asked hbegins hturn _ hrest' ih =>
    obtain ⟨hy, ha⟩ := next?_of_asks hrest hquiet hr hl hbegins hturn
    obtain ⟨y, hy', hSy⟩ := hnext _ hS
    cases hy.symm.trans hy'
    obtain ⟨e, rfl⟩ := ih (underway_of_turn hr hquiet hl₀ hl hturn) ha hSy
    cases hrest'
    exact ⟨e, rfl⟩

end Climbing

/-! ### Loads -/

/-- A way up that comes back, over classes that are not remembered, has no end. -/
theorem Comes.error_of_climb (hrest : r.AtRest) (hquiet : r.Undisturbed) (hl : r.HasLoader l)
    (hfaithful : r.Faithful l) (h : Comes l name r trail result r') {i n : Nat} (hi : i < n)
    (hsome : (r.climb n (l, name)).isSome) (hback : r.climb n (l, name) = r.climb i (l, name))
    (hfree : ∀ j < n, ∀ x, r.climb j (l, name) = some x → r.loaded? x.1 x.2 = none) :
    ∃ e, result = .error e := by
  refine h.error_of_endless (S := fun x => ∃ j < n, r.climb j (l, name) = some x) hrest hquiet hl
    (fun x hx => ?_) (fun x hx => ?_) hfaithful.underway (.inl rfl)
    ⟨0, Nat.zero_lt_of_lt hi, rfl⟩
  · obtain ⟨j, hj, hx⟩ := hx
    exact hfree j hj x hx
  · obtain ⟨j, hj, hx⟩ := hx
    obtain ⟨y, hy⟩ := Option.isSome_iff_exists.1 (Realm.isSome_climb_of_le hsome hj)
    have hnext : r.next? x = some y := by
      rwa [Realm.climb_succ, hx, Option.bind_some] at hy
    refine ⟨y, hnext, ?_⟩
    rcases Nat.lt_or_eq_of_le hj with hj | hj
    · exact ⟨j + 1, hj, hy⟩
    -- the last step leads to where the way has been
    · rw [hj, hback] at hy
      exact ⟨i, hi, hy⟩

end Load

namespace Realm

variable {r r' : Realm}

theorem AtRest.of_keeps (h : r.AtRest) (hr : r.Keeps r') : r'.AtRest where
  idle a := (hr.loading a).trans (h.idle a)
  parents a work hkind := by
    rw [hr.hasLoader, hr.kind]
    exact h.parents a work ((hr.kind a).symm.trans hkind)

/-- What can happen to the caches later can happen to them now, after what has happened. -/
theorem Undisturbed.of_follows (h : r.Undisturbed) (hr : r.Follows r') : r'.Undisturbed := by
  have hhistory : ∀ runs s, r'.History runs s → ∃ runs', r.History runs' s := by
    intro runs s hs
    induction hs with
    | start =>
      obtain ⟨runs, hruns, -⟩ := hr.history
      exact ⟨runs, hruns⟩
    | run _ loader source wanted result absent ih =>
      obtain ⟨runs', hruns'⟩ := ih
      exact ⟨_, hruns'.run ((hr.kinds _).symm.trans loader)
        ((hr.classFile_of_undisturbed h _).symm.trans source) wanted result absent⟩
  intro runs s hs name
  obtain ⟨runs', hruns'⟩ := hhistory runs s hs
  obtain ⟨before, hbefore, -⟩ := hr.history
  rw [hr.resources]
  exact (h runs' s hruns' name).trans (h before _ hbefore name).symm

end Realm

/-- **Loading ends, and rejects circular hierarchies.** Let no load be going on. A load comes to
what it would come to without a bound, after a number of requests that depends on the resources
alone. It is told of a circular hierarchy if and only if it has come back to a class that it was
loading. After any failure the loaders remember what they remembered before, and nothing that was
asked for on the way. If the caches do not lead elsewhere, the requests are those on the way up from
the name, and where this comes back before there is a class that is remembered, the load fails. The
superclasses of a class that has been loaded are different ones, and the last of them has none. All
this holds of the next load as well. What is put into caches must leave alone what there is to be
read, as it does where the classes are in memory (`Realm.undisturbed_of_memory`). -/
theorem load_ends_and_rejects_cycles {r : Realm} {l : LoaderRef} (hrest : r.AtRest)
    (hsound : r.Sound) (hquiet : r.Undisturbed) (hl : r.HasLoader l) (name : String) :
    let outcome := (Load.load l name r).1
    let r' := (Load.load l name r).2
    ∃ trail,
      (∀ trail' result r'', Load.Comes l name r trail' result r'' ↔
        trail' = trail ∧ result = outcome ∧ r'' = r') ∧
      trail.length ≤ 2 * (r.resources.bound r.files + 1) ∧
      (Load.Circular outcome ↔ ¬ trail.Nodup) ∧
      (∀ e, outcome = .error e → (∀ a n, r'.loaded? a n = r.loaded? a n) ∧
        ∀ x ∈ trail, r'.loaded? x.1 x.2 = none) ∧
      (r.Faithful l → (∀ i x, trail[i]? = some x → r.climb i (l, name) = some x) ∧
        ∀ i n, i < n → (r.climb n (l, name)).isSome →
          r.climb n (l, name) = r.climb i (l, name) →
          (∀ j < n, ∀ x, r.climb j (l, name) = some x → r.loaded? x.1 x.2 = none) →
            (∃ e, outcome = .error e) ∧
            ∀ j < n, ∀ x, r.climb j (l, name) = some x → r'.loaded? x.1 x.2 = none) ∧
      (∀ c, outcome = .ok c → r'.classes.Has c ∧ (r'.classes.lineage c).Nodup ∧
        ∀ i a, (r'.classes.lineage c)[i]? = some a →
          (r'.classes.get a).ancestors.head? = (r'.classes.lineage c)[i + 1]?) ∧
      r'.AtRest ∧ r'.Sound ∧ r'.Undisturbed ∧ r'.HasLoader l := by
  obtain ⟨trail, hlength, hcomes⟩ := Load.exists_comes_load hrest hquiet hl name
  have hsafe := Load.load_safe True l name r fun _ => hsound
  have hsound' := hsafe.sound trivial
  have hkept : ∀ e, (Load.load l name r).1 = .error e →
      ∀ a n, (Load.load l name r).2.loaded? a n = r.loaded? a n := by
    intro e he
    rw [he] at hcomes
    exact hcomes.loaded?_of_error
  refine ⟨trail, fun trail' result r'' => ⟨fun h => hcomes.unique h, ?_⟩, hlength, ?_,
    fun e he => ⟨hkept e he, fun x hx => ?_⟩,
    fun hfaithful => ⟨?_, fun i n hi hsome hback hfree => ?_⟩, fun c hc => ?_,
    hrest.of_keeps hcomes.keeps, hsound', hquiet.of_follows (hcomes.follows hquiet (.refl r)),
    hcomes.keeps.hasLoader.2 hl⟩
  · rintro ⟨rfl, rfl, rfl⟩
    exact hcomes
  · rw [← hrest.straight_iff]
    exact hcomes.circular_iff hrest.engaged hl
  · rw [hkept e he]
    rw [he] at hcomes
    exact hcomes.free_of_error x hx
  · exact hcomes.climb_eq hrest hquiet hl hfaithful.underway (.inl rfl)
  · obtain ⟨e, he⟩ := hcomes.error_of_climb hrest hquiet hl hfaithful hi hsome hback hfree
    exact ⟨⟨e, he⟩, fun j hj x hx => (hkept e he _ _).trans (hfree j hj x hx)⟩
  · have hhas : (Load.load l name r).2.classes.Has c := hsafe.result trivial c hc
    exact ⟨hhas, hsound'.founded.nodup_lineage hhas, hsound'.founded.head?_ancestors hhas⟩

/-! ### Two classes that extend each other -/

/-- The two classes, for a bootstrap loader and two that instrument. -/
def loopRealm : Realm :=
  { sharedRealm with resources.classes :=
      [("t.Upper", ClassFile.encode { name := "t.Upper", superName := some "t.Lower" }),
        ("t.Lower", ClassFile.encode { name := "t.Lower", superName := some "t.Upper" })] }

/-- No loader gets to the end of them, and no loader remembers them. -/
theorem loopRealm_rejects :
    loopRealm.AtRest ∧ loopRealm.Sound ∧ loopRealm.Undisturbed ∧ loopRealm.HasLoader ⟨1⟩ ∧
      (∃ e, (Load.load ⟨1⟩ "t.Upper" loopRealm).1 = .error e) ∧
      (Load.load ⟨1⟩ "t.Upper" loopRealm).2.loaded? ⟨1⟩ "t.Lower" = none := by
  have hrest : loopRealm.AtRest :=
    ⟨Realm.atRest_sharedRealm.idle, Realm.atRest_sharedRealm.parents⟩
  have hforgets : ∀ a, (loopRealm.loader a).classes = [] := Realm.bareRealm_unused.forgets
  have hfree : ∀ a n, loopRealm.loaded? a n = none := Realm.bareRealm_unused.loaded?
  have hsound : loopRealm.Sound :=
    ⟨ClassTable.founded_empty, fun a p hp => absurd (hforgets a ▸ hp) List.not_mem_nil⟩
  have hquiet : loopRealm.Undisturbed := Realm.undisturbed_of_memory rfl
  have hl : loopRealm.HasLoader ⟨1⟩ := by decide
  have hfaithful : loopRealm.Faithful ⟨1⟩ := by
    intro work hkind
    cases Realm.kind_sharedRealm hkind
    exact fun name bytes hb => nomatch hb
  obtain ⟨_, -, -, -, -, hcycles, -⟩ :=
    load_ends_and_rejects_cycles hrest hsound hquiet hl "t.Upper"
  have hback : loopRealm.climb 2 (⟨1⟩, "t.Upper") = some (⟨1⟩, "t.Upper") := by decide +kernel
  obtain ⟨he, hnone⟩ := (hcycles hfaithful).2 0 2 (by decide) (hback ▸ rfl) hback
    fun _ _ x _ => hfree x.1 x.2
  exact ⟨hrest, hsound, hquiet, hl, he,
    hnone 1 (by decide) (⟨1⟩, "t.Lower") (by decide +kernel)⟩

end Interpose
