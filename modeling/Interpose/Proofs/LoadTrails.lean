import Interpose.Proofs.LoadTurns
/-!
# Loads without a bound

The fuel of a load stands for a recursion that knows no bound: a loader begins, takes its turn, asks
for another class if it has to, goes on when that is there, and settles. `Load.Comes` says this
without fuel. What a load leaves behind it has left after finitely many turns, and the requests on
the way, in order, are its *trail*.

A load that begins when no other is going on comes to exactly what the bounded one comes to. The
bound is large enough since the names that one loader is in the middle of are different names of
classes that can be read, and a class is handed on to the parent at most once.

What a trail looks like tells whether the hierarchy is circular: it is if a class comes up again
that is being loaded, and then nothing on the trail is remembered.

## Main definitions

* `Load.Comes`: loads without a bound, with their trails

## Main results

* `Load.Comes.unique`: there is one way to go
* `Load.exists_comes_load`: the bounded load goes this way, and how far
* `Load.Comes.keeps`, `Load.Comes.loaded?_of_error`: what is left alone
* `Load.Comes.circular_iff`, `Load.Comes.free_of_error`: trails that come back
-/

namespace Interpose

namespace Realm

/-- A name that is neither remembered nor being loaded is one that a load begins with. -/
structure Begins (r : Realm) (l : LoaderRef) (name : String) : Prop where
  free : r.loaded? l name = none
  new : name ∉ (r.loader l).loading

/-- The realm when a load has come to a result: the name is no longer being loaded, and a class is
remembered under it. -/
def settle (r : Realm) (l : LoaderRef) (name : String) : Except LoadError ClassRef → Realm
  | .error _ => r.leave l name
  | .ok c => (r.leave l name).remember l name c

/-- Loaders stay of their kinds. -/
theorem Follows.kind_enter {r₀ r : Realm} (h : r₀.Follows r) (l : LoaderRef) (name : String)
    (a : LoaderRef) : ((r.enter l name).loader a).kind = (r₀.loader a).kind := by
  have henter : r.Same (r.enter l name) := same_enter
  exact (henter.kind a).trans (h.kinds a)

end Realm

namespace Load

/-! ### Loads and their trails -/

/-- The rest of a definition, when the class that it asked for has come to a result. -/
def conclude (resume : ClassRef → Load ClassRef) (result : Except LoadError ClassRef) (r : Realm) :
    Except LoadError ClassRef × Realm :=
  match result with
  | .ok s => resume s r
  | .error e => (.error e, r)

/-- What a load comes to, and the requests on the way, its own first. -/
inductive Comes : LoaderRef → String → Realm → List (LoaderRef × String) →
    Except LoadError ClassRef → Realm → Prop
  | remembered {l : LoaderRef} {name : String} {r : Realm} {c : ClassRef}
      (h : r.loaded? l name = some c) : Comes l name r [(l, name)] (.ok c) r
  | circular {l : LoaderRef} {name : String} {r : Realm} (hfree : r.loaded? l name = none)
      (h : name ∈ (r.loader l).loading) :
      Comes l name r [(l, name)] (.error (.link (.circular name))) r
  | stuck {l : LoaderRef} {name : String} {r r' : Realm} {e : LoadError}
      (hbegins : r.Begins l name) (hturn : turn l name (r.enter l name) = (.error e, r')) :
      Comes l name r [(l, name)] (.error e) (r'.settle l name (.error e))
  | root {l : LoaderRef} {name : String} {r r' : Realm} {c : ClassRef}
      (hbegins : r.Begins l name) (hturn : turn l name (r.enter l name) = (.ok (.done c), r')) :
      Comes l name r [(l, name)] (.ok c) (r'.settle l name (.ok c))
  | asked {l a : LoaderRef} {name n : String} {r r₁ r₂ r₃ : Realm}
      {resume : ClassRef → Load ClassRef} {trail : List (LoaderRef × String)}
      {result result' : Except LoadError ClassRef} (hbegins : r.Begins l name)
      (hturn : turn l name (r.enter l name) = (.ok (.asks a n resume), r₁))
      (hask : Comes a n r₁ trail result r₂)
      (hrest : conclude resume result r₂ = (result', r₃)) :
      Comes l name r ((l, name) :: trail) result' (r₃.settle l name result')

variable {r r' r₀ : Realm} {l : LoaderRef} {name : String} {work : Instrumentation}
variable {trail trail' : List (LoaderRef × String)} {result result' : Except LoadError ClassRef}

/-- **One way to go.** The induction follows the first of the two ways, and the second can do
nothing else. -/
theorem Comes.unique {r'' : Realm} (h : Comes l name r trail result r')
    (h' : Comes l name r trail' result' r'') : trail' = trail ∧ result' = result ∧ r'' = r' := by
  induction h generalizing trail' result' r'' with
  | remembered h =>
    cases h' with
    | remembered h' =>
      cases h.symm.trans h'
      exact ⟨rfl, rfl, rfl⟩
    | circular hfree => cases h.symm.trans hfree
    | stuck hbegins | root hbegins | asked hbegins => cases h.symm.trans hbegins.free
  | circular hfree h =>
    cases h' with
    | remembered h' => cases hfree.symm.trans h'
    | circular => exact ⟨rfl, rfl, rfl⟩
    | stuck hbegins | root hbegins | asked hbegins => exact absurd h hbegins.new
  | stuck hbegins hturn =>
    cases h' with
    | remembered h' => cases hbegins.free.symm.trans h'
    | circular _ h' => exact absurd h' hbegins.new
    | stuck _ hturn' =>
      cases hturn.symm.trans hturn'
      exact ⟨rfl, rfl, rfl⟩
    | root _ hturn' | asked _ hturn' => cases hturn.symm.trans hturn'
  | root hbegins hturn =>
    cases h' with
    | remembered h' => cases hbegins.free.symm.trans h'
    | circular _ h' => exact absurd h' hbegins.new
    | root _ hturn' =>
      cases hturn.symm.trans hturn'
      exact ⟨rfl, rfl, rfl⟩
    | stuck _ hturn' | asked _ hturn' => cases hturn.symm.trans hturn'
  | asked hbegins hturn hask hrest ih =>
    cases h' with
    | remembered h' => cases hbegins.free.symm.trans h'
    | circular _ h' => exact absurd h' hbegins.new
    | stuck _ hturn' | root _ hturn' => cases hturn.symm.trans hturn'
    | asked _ hturn' hask' hrest' =>
      cases hturn.symm.trans hturn'
      obtain ⟨rfl, rfl, rfl⟩ := ih hask'
      cases hrest.symm.trans hrest'
      exact ⟨rfl, rfl, rfl⟩

/-! ### Bounded loads -/

theorem memoized_of_begins (h : r.Begins l name) {define : Load ClassRef}
    (hdefine : define (r.enter l name) = (result, r')) :
    memoized l name define r = (result, r'.settle l name result) := by
  rw [memoized_apply, h.free]
  dsimp only
  rw [if_neg (by simpa using h.new), hdefine]
  cases result <;> rfl

/-- A load takes its turn, if the one that it asks for does. -/
theorem exists_comes_memoized {load : LoaderRef → String → Load ClassRef} {bound : Nat}
    (hask : ∀ {a : LoaderRef} {n : String} {resume : ClassRef → Load ClassRef} {r₁ : Realm},
      r.Begins l name → turn l name (r.enter l name) = (.ok (.asks a n resume), r₁) →
        ∃ trail, trail.length ≤ bound ∧ Comes a n r₁ trail (load a n r₁).1 (load a n r₁).2)
    {x : Except LoadError ClassRef × Realm}
    (hx : memoized l name (turn l name >>= Turn.proceed load) r = x) :
    ∃ trail, trail.length ≤ bound + 1 ∧ Comes l name r trail x.1 x.2 := by
  subst hx
  have hone : [(l, name)].length ≤ bound + 1 := Nat.succ_le_succ (Nat.zero_le bound)
  cases hfree : r.loaded? l name with
  | some c =>
    rw [memoized_apply, hfree]
    exact ⟨_, hone, .remembered hfree⟩
  | none =>
    by_cases hnew : name ∈ (r.loader l).loading
    · rw [memoized_apply, hfree]
      dsimp only
      rw [if_pos (by simpa using hnew)]
      exact ⟨_, hone, .circular hfree hnew⟩
    have hbegins : r.Begins l name := ⟨hfree, hnew⟩
    have hdefine := bind_apply (r := r.enter l name) (turn l name) (Turn.proceed load)
    rcases hturn : turn l name (r.enter l name) with ⟨e | c | ⟨a, n, resume⟩, r₁⟩ <;>
      rw [hturn] at hdefine
    · rw [memoized_of_begins hbegins hdefine]
      exact ⟨_, hone, .stuck hbegins hturn⟩
    · rw [memoized_of_begins hbegins hdefine]
      exact ⟨_, hone, .root hbegins hturn⟩
    · obtain ⟨trail, hlength, hcomes⟩ := hask hbegins hturn
      have hrest : Turn.proceed load (.asks a n resume) r₁ =
          conclude resume (load a n r₁).1 (load a n r₁).2 := by
        rw [Turn.proceed, bind_apply]
        rcases load a n r₁ with ⟨e | s, r₂⟩ <;> rfl
      rw [memoized_of_begins hbegins (hdefine.trans hrest)]
      exact ⟨(l, name) :: trail, Nat.succ_le_succ hlength, .asked hbegins hturn hcomes rfl⟩

section Bounds

variable {r₁ : Realm} {file : ClassFile} {depth bound : Nat} {outcome : Except LoadError Turn}

/-- A loader that begins with a class that can be read has a level less to go. -/
theorem room_of_keeps (hquiet : r₀.Undisturbed) (hl : r₀.HasLoader l) (hr : r₀.Follows r)
    (hbegins : r.Begins l name) (hroom : r₀.Room (depth + 1) (r.loader l).loading)
    (hfile : (r.enter l name).classFile name = .ok file)
    (h : (r.enter l name).Keeps r₁) : r₀.Room depth (r₁.loader l).loading := by
  have hreadable : r₀.Readable name :=
    ⟨file, (hr.classFile_of_undisturbed hquiet name).symm.trans hfile⟩
  rw [h.loading l, Realm.loading_enter_self (hr.hasLoader.2 hl)]
  exact hroom.cons hreadable hbegins.new

theorem follows_of_turns (hquiet : r₀.Undisturbed) (hr : r₀.Follows r)
    (h : Turns (r.enter l name) l name outcome r₁) : r₀.Follows r₁ :=
  h.follows hquiet (hr.modifyLoader (fun _ => rfl) fun _ => rfl)

theorem exists_comes_bootstrap (hquiet : r₀.Undisturbed) (hl : r₀.HasLoader l)
    (hkind : (r₀.loader l).kind = .bootstrap) (name : String) (hr : r₀.Follows r)
    (hroom : r₀.Room depth (r.loader l).loading) :
    ∃ trail, trail.length ≤ depth ∧
      Comes l name r trail (bootstrap l depth name r).1 (bootstrap l depth name r).2 := by
  induction depth generalizing name r with
  | zero => exact absurd rfl hroom.ne_zero
  | succ depth ih =>
    have hkind' : (r.loader l).kind = .bootstrap := (hr.kinds l).trans hkind
    refine exists_comes_memoized (fun hbegins hturn => ?_) (bootstrap_succ hkind' depth).symm
    have hturns := turn_turns (r.enter l name) l name
    rw [hturn] at hturns
    have hfollows := follows_of_turns hquiet hr hturns
    have hkeeps := hturns.keeps
    cases hturns with
    | delegates hwork => cases hkind.symm.trans ((hr.kind_enter l name l).symm.trans hwork)
    | asks _ hfile => exact ih _ hfollows (room_of_keeps hquiet hl hr hbegins hroom hfile hkeeps)

/-- The parent is asked at most once, and then for as much as it can go. -/
theorem exists_comes_instrumenting (hquiet : r₀.Undisturbed)
    (hkind : (r₀.loader l).kind = .instrumenting work) (hne : l ≠ work.parent)
    {parent : String → Load ClassRef} (hparent : ∀ n r, r₀.Follows r →
      (r.loader work.parent).loading = [] → ∃ trail, trail.length ≤ bound ∧
        Comes work.parent n r trail (parent n r).1 (parent n r).2)
    (name : String) (hr : r₀.Follows r) (hidle : (r.loader work.parent).loading = [])
    (hroom : r₀.Room depth (r.loader l).loading) :
    ∃ trail, trail.length ≤ depth + bound ∧
      Comes l name r trail (instrumenting l work parent depth name r).1
        (instrumenting l work parent depth name r).2 := by
  induction depth generalizing name r with
  | zero => exact absurd rfl hroom.ne_zero
  | succ depth ih =>
    have hkind' : (r.loader l).kind = .instrumenting work := (hr.kinds l).trans hkind
    rw [Nat.add_right_comm]
    refine exists_comes_memoized (fun {a n resume r₁} hbegins hturn => ?_)
      (instrumenting_succ hkind' hne parent depth).symm
    have hturns := turn_turns (r.enter l name) l name
    rw [hturn] at hturns
    have hfollows := follows_of_turns hquiet hr hturns
    have hkeeps := hturns.keeps
    have hidle' : (r₁.loader work.parent).loading = [] := by
      rw [hkeeps.loading, Realm.loading_enter_of_ne hne, hidle]
    cases hturns with
    | delegates hwork =>
      cases hkind.symm.trans ((hr.kind_enter l name l).symm.trans hwork)
      obtain ⟨trail, hlength, hcomes⟩ := hparent name _ hfollows hidle'
      rw [either, if_neg hne.symm]
      exact ⟨trail, Nat.le_trans hlength (Nat.le_add_left ..), hcomes⟩
    | asks _ hfile =>
      rw [either, if_pos rfl]
      exact ih _ hfollows hidle'
        (room_of_keeps hquiet (.of_kind hkind) hr hbegins hroom hfile hkeeps)

/-- **Bounded loads.** When no other load is going on, the bounded load goes the way of the one
without a bound. For each of the two loaders that can be concerned, it makes at most one request
more than there are classes to be read. -/
theorem exists_comes_load (hrest : r.AtRest) (hquiet : r.Undisturbed) (hl : r.HasLoader l)
    (name : String) :
    ∃ trail, trail.length ≤ 2 * (r.resources.bound r.files + 1) ∧
      Comes l name r trail (load l name r).1 (load l name r).2 := by
  have hroom : ∀ a, r.Room (r.resources.bound r.files + 1) (r.loader a).loading := fun a =>
    hrest.idle a ▸ r.room_of_bound
  rw [load_apply, Nat.two_mul]
  cases hkind : (r.loader l).kind with
  | bootstrap =>
    obtain ⟨trail, hlength, hcomes⟩ :=
      exists_comes_bootstrap hquiet hl hkind name (.refl r) (hroom l)
    exact ⟨trail, Nat.le_trans hlength (Nat.le_add_left ..), hcomes⟩
  | instrumenting work =>
    obtain ⟨hhas, hbootstrap⟩ := hrest.parents l work hkind
    have hne : l ≠ work.parent := by
      rintro rfl
      cases hkind.symm.trans hbootstrap
    exact exists_comes_instrumenting hquiet hkind hne
      (fun n r' hr' hidle => exists_comes_bootstrap hquiet hhas hbootstrap n hr'
        (hidle ▸ r.room_of_bound)) name (.refl r) (hrest.idle _) (hroom l)

end Bounds

/-! ### What loads leave alone -/

/-- A way to go on that always comes to a class, and does nothing but add classes. -/
structure Completes (resume : ClassRef → Load ClassRef) : Prop where
  succeeds : ∀ s r, ∃ c, (resume s r).1 = .ok c
  adds : ∀ s (r : Realm), ∃ classes, r.classes.Extends classes ∧
    (resume s r).2 = { r with classes := classes }

/-- What has been asked for goes straight into a definition, and that does not fail. -/
theorem Turns.completes {a : LoaderRef} {n : String} {resume : ClassRef → Load ClassRef}
    (h : Turns r l name (.ok (.asks a n resume)) r') : Completes resume := by
  cases h with
  | delegates => exact ⟨fun s _ => ⟨s, rfl⟩, fun _ r => ⟨r.classes, .refl _, rfl⟩⟩
  | @asks _ used _ definer _ _ _ _ hverify =>
    have hdefine : ∀ s r, ∃ k, define definer (some s) used r =
        (.ok (r.classes.add k).1, { r with classes := (r.classes.add k).2 }) := fun s r => by
      obtain ⟨k, hk⟩ := LoadedClass.exists_define_of_verify hverify definer
        (some (s, r.classes.get s))
      exact ⟨k, by rw [define_apply, Option.map_some, hk]⟩
    refine ⟨fun s r => ?_, fun s r => ?_⟩ <;> obtain ⟨k, hk⟩ := hdefine s r <;> rw [hk]
    · exact ⟨_, rfl⟩
    · exact ⟨_, ClassTable.extends_add k, rfl⟩

section Conclude

variable {resume : ClassRef → Load ClassRef} {r₁ : Realm} {e : LoadError}

theorem Completes.of_conclude (hresume : Completes resume)
    (h : conclude resume result r = (result', r₁)) :
    ∃ classes, r.classes.Extends classes ∧ r₁ = { r with classes := classes } := by
  cases result with
  | error e =>
    cases h
    exact ⟨r.classes, .refl _, rfl⟩
  | ok s =>
    have hs := hresume.adds s r
    rwa [show resume s r = (result', r₁) from h] at hs

theorem Completes.keeps_of_conclude (hresume : Completes resume)
    (h : conclude resume result r = (result', r₁)) : r.Keeps r₁ := by
  obtain ⟨classes, hgrows, rfl⟩ := hresume.of_conclude h
  exact keeps_extend hgrows

/-- What is concluded fails where what was asked for has failed, and then nothing is done. -/
theorem Completes.conclude_error (hresume : Completes resume)
    (h : conclude resume result r = (.error e, r₁)) : result = .error e ∧ r₁ = r := by
  cases result with
  | error e' =>
    cases h
    exact ⟨rfl, rfl⟩
  | ok s =>
    obtain ⟨c, hc⟩ := hresume.succeeds s r
    rw [show resume s r = (.error e, r₁) from h] at hc
    cases hc

end Conclude

theorem settle_keeps (h : (r.enter l name).Keeps r') (hbegins : r.Begins l name) :
    r.Keeps (r'.settle l name result) := by
  cases result with
  | error e => exact h.leave
  | ok c => exact h.leave.remember hbegins.free hbegins.new

theorem turns_of_turn {outcome : Except LoadError Turn} (h : turn l name r = (outcome, r')) :
    Turns r l name outcome r' := by
  have hturns := turn_turns r l name
  rwa [h] at hturns

/-- **Marks.** When a load is over, the loaders are in the middle of what they were in the middle of
before, and remember what they remembered. -/
theorem Comes.keeps (h : Comes l name r trail result r') : r.Keeps r' := by
  induction h with
  | remembered | circular => exact .refl _
  | stuck hbegins hturn | root hbegins hturn =>
    exact settle_keeps (turns_of_turn hturn).keeps hbegins
  | asked hbegins hturn _ hrest ih =>
    have hturns := turns_of_turn hturn
    exact settle_keeps ((hturns.keeps.trans ih).trans
      (hturns.completes.keeps_of_conclude hrest)) hbegins

theorem follows_settle (hr : r₀.Follows r) : r₀.Follows (r.settle l name result) := by
  have hleave : r₀.Follows (r.leave l name) := hr.modifyLoader (fun _ => rfl) fun _ => rfl
  cases result with
  | error e => exact hleave
  | ok c => exact hleave.modifyLoader (fun _ => rfl) fun _ => rfl

/-- **History.** What a load leaves behind follows on what it found. -/
theorem Comes.follows (h : Comes l name r trail result r') (hquiet : r₀.Undisturbed)
    (hr : r₀.Follows r) : r₀.Follows r' := by
  induction h with
  | remembered | circular => exact hr
  | stuck _ hturn | root _ hturn =>
    exact follows_settle (follows_of_turns hquiet hr (turns_of_turn hturn))
  | asked _ hturn _ hrest ih =>
    have hturns := turns_of_turn hturn
    obtain ⟨classes, -, rfl⟩ := hturns.completes.of_conclude hrest
    obtain ⟨hresources, hsize, hkinds, hhistory⟩ := ih (follows_of_turns hquiet hr hturns)
    exact follows_settle ⟨hresources, hsize, hkinds, hhistory⟩

theorem loaded?_of_turn {outcome : Except LoadError Turn}
    (h : turn l name (r.enter l name) = (outcome, r')) (a : LoaderRef) (n : String) :
    r'.loaded? a n = r.loaded? a n := by
  have henter : r.Same (r.enter l name) := Realm.same_enter
  exact ((turns_of_turn h).loaded? a n).trans (henter.loaded? a n)

theorem loaded?_settle_error {e : LoadError} (a : LoaderRef) (n : String) :
    (r.settle l name (.error e)).loaded? a n = r.loaded? a n := by
  have hleave : r.Same (r.leave l name) := Realm.same_leave
  exact hleave.loaded? a n

/-- **Failures.** A load that fails leaves nothing behind in what loaders remember. -/
theorem Comes.loaded?_of_error {e : LoadError} (h : Comes l name r trail (.error e) r')
    (a : LoaderRef) (n : String) : r'.loaded? a n = r.loaded? a n := by
  generalize hresult : Except.error e = result at h
  induction h with
  | remembered => cases hresult
  | circular => rfl
  | root => cases hresult
  | stuck _ hturn => exact (loaded?_settle_error a n).trans (loaded?_of_turn hturn a n)
  | asked hbegins hturn hask hrest ih =>
    subst hresult
    obtain ⟨hresult, rfl⟩ := (turns_of_turn hturn).completes.conclude_error hrest
    exact (loaded?_settle_error a n).trans ((ih hresult.symm).trans (loaded?_of_turn hturn a n))

end Load

/-! ### Trails that come back -/

namespace Realm

/-- Loads may be going on: what is being loaded is not remembered yet, and parents are loaders. -/
structure Engaged (r : Realm) : Prop where
  free : ∀ a n, n ∈ (r.loader a).loading → r.loaded? a n = none
  parents : ∀ a work, (r.loader a).kind = .instrumenting work → r.HasLoader work.parent

/-- Requests for different classes, of which none is being loaded. -/
structure Straight (r : Realm) (trail : List (LoaderRef × String)) : Prop where
  nodup : trail.Nodup
  idle : ∀ x ∈ trail, x.2 ∉ (r.loader x.1).loading

variable {r r' : Realm} {l : LoaderRef} {name : String} {trail : List (LoaderRef × String)}

theorem AtRest.engaged (h : r.AtRest) : r.Engaged where
  free a _ hmem := absurd (h.idle a ▸ hmem) List.not_mem_nil
  parents a work hkind := (h.parents a work hkind).1

theorem AtRest.straight_iff (h : r.AtRest) : r.Straight trail ↔ trail.Nodup :=
  ⟨fun hs => hs.nodup, fun hnodup => ⟨hnodup, fun x _ hmem =>
    absurd (h.idle x.1 ▸ hmem) List.not_mem_nil⟩⟩

theorem Engaged.keeps (h : r.Engaged) (hr : r.Keeps r') : r'.Engaged where
  free a n hmem := by
    rw [hr.loading] at hmem
    exact hr.unloaded a n hmem (h.free a n hmem)
  parents a work hkind := hr.hasLoader.2 (h.parents a work ((hr.kind a).symm.trans hkind))

theorem mem_loading_enter (hl : r.HasLoader l) (a : LoaderRef) (n : String) :
    n ∈ ((r.enter l name).loader a).loading ↔ (a, n) = (l, name) ∨ n ∈ (r.loader a).loading := by
  by_cases ha : l = a
  · subst ha
    rw [loading_enter_self hl, List.mem_cons, Prod.mk.injEq]
    simp only [true_and]
  · rw [loading_enter_of_ne ha, Prod.mk.injEq]
    simp only [Ne.symm ha, false_and, false_or]

theorem Engaged.enter (h : r.Engaged) (hl : r.HasLoader l) (hbegins : r.Begins l name) :
    (r.enter l name).Engaged := by
  have henter : r.Same (r.enter l name) := same_enter
  refine ⟨fun a n hmem => ?_, fun a work hkind => ?_⟩
  · rw [henter.loaded?]
    rcases (mem_loading_enter hl a n).1 hmem with heq | hmem
    · cases heq
      exact hbegins.free
    · exact h.free a n hmem
  · exact henter.hasLoader.2 (h.parents a work ((henter.kind a).symm.trans hkind))

/-- The request that a loader has begun with counts among those that it is in the middle of. -/
theorem straight_cons_iff (hl : r.HasLoader l) (hbegins : r.Begins l name)
    (hr : (r.enter l name).Keeps r') : r'.Straight trail ↔ r.Straight ((l, name) :: trail) := by
  have hmem : ∀ x : LoaderRef × String,
      x.2 ∈ (r'.loader x.1).loading ↔ x = (l, name) ∨ x.2 ∈ (r.loader x.1).loading := fun x => by
    rw [hr.loading, mem_loading_enter hl]
  constructor
  · rintro ⟨hnodup, hidle⟩
    refine ⟨List.nodup_cons.2 ⟨fun hx => hidle _ hx ((hmem _).2 (.inl rfl)), hnodup⟩, ?_⟩
    rw [List.forall_mem_cons]
    exact ⟨hbegins.new, fun x hx hx' => hidle x hx ((hmem x).2 (.inr hx'))⟩
  · rintro ⟨hnodup, hidle⟩
    rw [List.nodup_cons] at hnodup
    rw [List.forall_mem_cons] at hidle
    refine ⟨hnodup.2, fun x hx hx' => ?_⟩
    rcases (hmem x).1 hx' with rfl | hx'
    · exact hnodup.1 hx
    · exact hidle.2 x hx hx'

end Realm

namespace Load

variable {r r' : Realm} {l : LoaderRef} {name : String} {trail : List (LoaderRef × String)}
variable {result : Except LoadError ClassRef}

theorem hasLoader_of_turn {a : LoaderRef} {n : String} {resume : ClassRef → Load ClassRef}
    (hr : r.Engaged) (hl : r.HasLoader l) (h : turn l name r = (.ok (.asks a n resume), r')) :
    r'.HasLoader a := by
  have hturns := turns_of_turn h
  rw [hturns.keeps.hasLoader]
  cases hturns with
  | delegates hkind => exact hr.parents l _ hkind
  | asks => exact hl

/-- Whoever is told of a circular hierarchy. -/
def Circular (result : Except LoadError ClassRef) : Prop :=
  ∃ n, result = .error (.link (.circular n))

/-- **Circular hierarchies.** A load is told of one if its trail comes back to a request of its own
or to one that was going on before, and only then. The induction follows the load; a request that it
begins with is one that is going on for the rest of the trail. -/
theorem Comes.circular_iff (h : Comes l name r trail result r') (hr : r.Engaged)
    (hl : r.HasLoader l) : Circular result ↔ ¬ r.Straight trail := by
  have hone : ∀ {l name} {r : Realm}, name ∉ (r.loader l).loading → r.Straight [(l, name)] :=
    fun hnew => ⟨List.pairwise_singleton _ _, List.forall_mem_singleton.2 hnew⟩
  induction h with
  | @remembered l name r c h =>
    have hnew : name ∉ (r.loader l).loading :=
      fun hmem => nomatch h.symm.trans (hr.free l name hmem)
    exact iff_of_false nofun (not_not_intro (hone hnew))
  | circular hfree h =>
    exact iff_of_true ⟨_, rfl⟩ fun hs => hs.idle _ List.mem_cons_self h
  | stuck hbegins hturn =>
    refine iff_of_false ?_ (not_not_intro (hone hbegins.new))
    rintro ⟨n, hn⟩
    cases turns_of_turn hturn with
    | fails he => exact he n (Except.error.inj hn)
  | root hbegins => exact iff_of_false nofun (not_not_intro (hone hbegins.new))
  | @asked l a name n r r₁ r₂ r₃ resume trail result result' hbegins hturn _ hrest ih =>
    have hturns := turns_of_turn hturn
    have henter := hr.enter hl hbegins
    have hl' : (r.enter l name).HasLoader l := Realm.same_enter.hasLoader.2 hl
    have hsame : Circular result' ↔ Circular result := by
      constructor
      · rintro ⟨n, rfl⟩
        exact ⟨n, (hturns.completes.conclude_error hrest).1⟩
      · rintro ⟨n, rfl⟩
        cases hrest
        exact ⟨n, rfl⟩
    have hask := ih (henter.keeps hturns.keeps) (hasLoader_of_turn henter hl' hturn)
    exact (hsame.trans hask).trans
      (not_congr (Realm.straight_cons_iff hl hbegins hturns.keeps))

/-- Nothing on the trail of a load that fails was remembered. -/
theorem Comes.free_of_error {e : LoadError} (h : Comes l name r trail (.error e) r') :
    ∀ x ∈ trail, r.loaded? x.1 x.2 = none := by
  generalize hresult : Except.error e = result at h
  induction h with
  | remembered | root => cases hresult
  | circular hfree => exact List.forall_mem_singleton.2 hfree
  | stuck hbegins => exact List.forall_mem_singleton.2 hbegins.free
  | asked hbegins hturn hask hrest ih =>
    subst hresult
    refine List.forall_mem_cons.2 ⟨hbegins.free, fun x hx => ?_⟩
    rw [← loaded?_of_turn hturn]
    exact ih ((turns_of_turn hturn).completes.conclude_error hrest).1.symm x hx

end Load

end Interpose
