import Interpose.Proofs.DefaultConstructors
import Interpose.Proofs.LoadOrder
/-!
# Loads by turns

Whatever the loader, a definition asks for one other class at most: the parent is asked for the
class itself where it is not acquired, otherwise the loader for the superclass, if there is one. So
a definition is a *turn*, which reads and perhaps instruments a class file, and what is left to do
when the class that was asked for is there. Nothing in a turn depends on how classes are loaded.

A turn changes caches and counters, and for a root it adds a class. It leaves alone what loaders
remember and what they are in the middle of.

## Main definitions

* `Load.Turn`, `Load.turn`: the turn that a definition makes
* `Load.Turn.proceed`: what is left to do after it
* `Load.Turns`: what a turn can come to

## Main results

* `Load.bootstrap_succ`, `Load.instrumenting_succ`: the two loaders make turns
* `Load.turn_turns`: what a turn comes to
* `Load.Turns.keeps`, `Load.Turns.loaded?`, `Load.Turns.follows`: what it leaves alone
-/

namespace Interpose

namespace Load

variable {r r₀ : Realm} {l : LoaderRef} {name : String} {work : Instrumentation}

/-! ### Turns -/

/-- How a definition goes on: the class is there, or another one is asked for and goes into it. -/
inductive Turn
  | done (c : ClassRef)
  | asks (l : LoaderRef) (name : String) (resume : ClassRef → Load ClassRef)

/-- The rest of a definition, with a way to load classes. -/
def Turn.proceed (load : LoaderRef → String → Load ClassRef) : Turn → Load ClassRef
  | .done c => pure c
  | .asks l name resume => load l name >>= resume

/-- Defines a root; the superclass of another class is asked for. -/
def link (definer : Definer) (file : ClassFile) : Load Turn :=
  match file.superName with
  | none => define definer none file >>= fun c => pure (.done c)
  | some name => pure (.asks definer.loader name fun s => define definer (some s) file)

/-- The form in which a class that has been acquired is defined. -/
def prepare (l : LoaderRef) (work : Instrumentation) (name : String) (file : ClassFile) :
    Load ClassFile :=
  if work.policy.instruments file then instrument l work.cache name file else pure file

/-- A definition up to where another class is asked for. -/
def turn (l : LoaderRef) (name : String) : Load Turn := do
  match ((← get).loader l).kind with
  | .bootstrap =>
    let file ← readClassFile name
    link { loader := l } file
  | .instrumenting work =>
    if !work.policy.acquires name then pure (.asks work.parent name pure)
    else
      let file ← readClassFile name
      let used ← prepare l work name file
      link ⟨l, false, work.policy.instruments file, some work.handler⟩ used

theorem link_proceed (load : LoaderRef → String → Load ClassRef) (definer : Definer)
    (file : ClassFile) :
    (link definer file >>= Turn.proceed load) =
      superclass (load definer.loader) file >>= fun s => define definer s file := by
  rw [link, superclass]
  cases file.superName with
  | none => simp [Turn.proceed]
  | some name => simp [Turn.proceed]

theorem turn_bootstrap (h : (r.loader l).kind = .bootstrap) :
    turn l name r = (readClassFile name >>= link { loader := l }) r := by
  rw [turn, get_bind_apply, h]

theorem turn_of_not_acquires (h : (r.loader l).kind = .instrumenting work)
    (ha : work.policy.acquires name = false) :
    turn l name r = (.ok (.asks work.parent name pure), r) := by
  rw [turn, get_bind_apply, h]
  simp [ha]
  rfl

theorem turn_of_acquires (h : (r.loader l).kind = .instrumenting work)
    (ha : work.policy.acquires name = true) :
    turn l name r = (readClassFile name >>= fun file => prepare l work name file >>=
      link ⟨l, false, work.policy.instruments file, some work.handler⟩) r := by
  rw [turn, get_bind_apply, h]
  simp [ha]

/-! ### The two loaders -/

/-- What a loader does for a name is settled by what it does once it has begun. -/
theorem memoized_congr {x y : Load ClassRef} (h : x (r.enter l name) = y (r.enter l name)) :
    memoized l name x r = memoized l name y r := by
  rw [memoized_apply, memoized_apply, h]

theorem bind_congr_apply {α β : Type} {x y : Load α} {f : α → Load β} (h : x r = y r) :
    (x >>= f) r = (y >>= f) r := by
  rw [bind_apply, bind_apply, h]

theorem bootstrap_succ (h : (r.loader l).kind = .bootstrap) (depth : Nat) :
    bootstrap l (depth + 1) name r =
      memoized l name (turn l name >>= Turn.proceed fun a => bootstrap a depth) r := by
  have henter : r.Same (r.enter l name) := Realm.same_enter
  refine memoized_congr (Eq.symm ?_)
  rw [bind_congr_apply (turn_bootstrap ((henter.kind l).trans h)), bind_assoc]
  simp only [link_proceed]

/-- Two ways to load: a loader's own, and another one for all else. -/
def either (l : LoaderRef) (own other : String → Load ClassRef) (a : LoaderRef) :
    String → Load ClassRef :=
  if a = l then own else other

theorem instrumenting_succ (h : (r.loader l).kind = .instrumenting work) (hne : l ≠ work.parent)
    (parent : String → Load ClassRef) (depth : Nat) :
    instrumenting l work parent (depth + 1) name r =
      memoized l name (turn l name >>=
        Turn.proceed (either l (instrumenting l work parent depth) parent)) r := by
  have henter : r.Same (r.enter l name) := Realm.same_enter
  have hkind := (henter.kind l).trans h
  refine memoized_congr (Eq.symm ?_)
  cases ha : work.policy.acquires name with
  | false =>
    rw [bind_apply, turn_of_not_acquires hkind ha]
    simp [Turn.proceed, either, hne.symm]
  | true =>
    rw [bind_congr_apply (turn_of_acquires hkind ha)]
    simp only [bind_assoc, link_proceed, either, prepare, if_true, Bool.not_true,
      Bool.false_eq_true, if_false]
    refine congrFun (congrArg (readClassFile name >>= ·) (funext fun file => ?_)) _
    cases work.policy.instruments file <;> rfl

end Load

/-! ### What a turn does -/

namespace Realm

variable {r₀ r r' : Realm} {l a : LoaderRef} {name n : String} {file used : ClassFile}

/-- A loader defines the classes of a name itself. Bootstrap loaders always do. -/
def Defines (r : Realm) (l : LoaderRef) (name : String) : Prop :=
  ∀ work, (r.loader l).kind = .instrumenting work → work.policy.acquires name = true

/-- The form of a class file that a loader defines: as it is stored, as the cache holds it, or fresh
from the transformer. -/
inductive Uses (r : Realm) (l : LoaderRef) (name : String) (file : ClassFile) : ClassFile → Prop
  | stored : Uses r l name file file
  | cached {work : Instrumentation} {used : ClassFile}
      (hkind : (r.loader l).kind = .instrumenting work)
      (hfind : work.cache.find? r.storage name = some used) : Uses r l name file used
  | fresh {used : ClassFile} (ht : file.transform = .ok used) : Uses r l name file used

/-- The realm after a class has been made ready to be defined: a class that was in the cache is
counted, and one that was not has been transformed. -/
inductive Readied (r : Realm) (l : LoaderRef) (name : String) : Realm → Prop
  | same : Readied r l name r
  | hit : Readied r l name (r.noteHit l)
  | run {work : Instrumentation} {file transformed : ClassFile}
      (hkind : (r.loader l).kind = .instrumenting work) (hfile : r.classFile name = .ok file)
      (hwanted : work.policy.instruments file) (ht : file.transform = .ok transformed)
      (habsent : work.cache.find? r.storage name = none) :
      Readied r l name (r.noteRun l work.cache name transformed)

theorem Readied.same_loaders (h : r.Readied l name r') : r.Same r' := by
  cases h with
  | same => exact ⟨rfl, rfl, fun _ => rfl, fun _ _ => rfl⟩
  | hit => exact same_noteHit
  | run => exact same_noteRun

theorem Readied.keeps (h : r.Readied l name r') : r.Keeps r' := by
  cases h with
  | same => exact .refl r
  | hit => exact keeps_noteHit
  | run => exact keeps_noteRun

theorem Readied.follows (h : r.Readied l name r') (hquiet : r₀.Undisturbed) (hr : r₀.Follows r) :
    r₀.Follows r' := by
  cases h with
  | same => exact hr
  | hit => exact hr.noteHit l
  | run hkind hfile hwanted ht habsent =>
    exact hr.noteRun ((hr.kinds l).symm.trans hkind)
      ((hr.classFile_of_undisturbed hquiet name).symm.trans hfile) hwanted ht habsent

end Realm

namespace Load

/-- What a turn can come to. A class that asks for another one does so for the superclass of the
form that is defined, or it is left to the parent as it is. Nobody is told here of a circular
hierarchy. -/
inductive Turns (r : Realm) (l : LoaderRef) (name : String) : Except LoadError Turn → Realm → Prop
  | fails {e : LoadError} {r' : Realm} (he : ∀ n, e ≠ .link (.circular n))
      (hr : r.Readied l name r') : Turns r l name (.error e) r'
  | delegates {work : Instrumentation} (hkind : (r.loader l).kind = .instrumenting work)
      (ha : work.policy.acquires name = false) :
      Turns r l name (.ok (.asks work.parent name pure)) r
  | asks {file used : ClassFile} {n : String} {definer : Definer} {r' : Realm}
      (hdefines : r.Defines l name) (hfile : r.classFile name = .ok file)
      (hused : r.Uses l name file used) (hverify : used.verify = .ok ())
      (hn : used.superName = some n) (hr : r.Readied l name r') :
      Turns r l name (.ok (.asks l n fun s => define definer (some s) used)) r'
  | done {file used : ClassFile} {c : ClassRef} {r' : Realm} {classes : ClassTable}
      (hdefines : r.Defines l name) (hfile : r.classFile name = .ok file)
      (hused : r.Uses l name file used) (hn : used.superName = none)
      (hr : r.Readied l name r') (hgrows : r'.classes.Extends classes) :
      Turns r l name (.ok (.done c)) { r' with classes := classes }

section Turns

variable {r r' : Realm} {l : LoaderRef} {name : String} {work : Instrumentation}
variable {file used : ClassFile} {definer : Definer}

theorem ofRead_ne_circular {found : Except ReadFault (Option Bytes)} {e : LoadError}
    (h : ClassFile.ofRead name found = .error e) (n : String) : e ≠ .link (.circular n) := by
  rintro rfl
  unfold ClassFile.ofRead at h
  split at h
  · cases h
  · cases h
  split at h
  · cases h
  split at h
  · cases h
  split at h <;> cases h

theorem verify_of_classFile (h : r.classFile name = .ok file) : file.verify = .ok () := by
  obtain ⟨_, _, _, _, hverify⟩ := Realm.exists_bytes_of_classFile h
  exact hverify

/-- What there is to say of the outcome of making a class ready. -/
def Prepared (r : Realm) (l : LoaderRef) (name : String) (file : ClassFile) :
    Except LoadError ClassFile → Prop
  | .error e => ∀ n, e ≠ .link (.circular n)
  | .ok used => r.Uses l name file used ∧ used.verify = .ok ()

theorem prepared_checkedAs (h : r.Uses l name file used) :
    Prepared r l name file (used.checkedAs name) := by
  unfold ClassFile.checkedAs
  split
  · exact fun n heq => by cases heq
  · exact ⟨h, ‹_›⟩

/-- What comes of making a class ready. -/
theorem exists_prepared (hkind : (r.loader l).kind = .instrumenting work)
    (hfile : r.classFile name = .ok file) :
    ∃ outcome r', prepare l work name file r = (outcome, r') ∧ r.Readied l name r' ∧
      Prepared r l name file outcome := by
  unfold prepare
  split
  case isFalse => exact ⟨.ok file, r, rfl, .same, .stored, verify_of_classFile hfile⟩
  case isTrue hwanted =>
    cases hfind : work.cache.find? r.storage name with
    | some transformed =>
      exact ⟨_, _, instrument_of_find? hfind, .hit, prepared_checkedAs (.cached hkind hfind)⟩
    | none =>
      have hinstrument : instrument l work.cache name file r = _ :=
        instrument_of_not_find? hfind
      cases ht : file.transform with
      | error e =>
        rw [ht] at hinstrument
        exact ⟨_, _, hinstrument, .same, fun n heq => by cases heq⟩
      | ok transformed =>
        rw [ht] at hinstrument
        exact ⟨_, _, hinstrument, .run hkind hfile hwanted ht hfind, prepared_checkedAs (.fresh ht)⟩

/-- What comes of a class that is ready. -/
theorem link_turns (hdefines : r.Defines l name) (hfile : r.classFile name = .ok file)
    (hused : r.Uses l name file used) (hverify : used.verify = .ok ())
    (hr : r.Readied l name r') (hl : definer.loader = l) :
    Turns r l name (link definer used r').1 (link definer used r').2 := by
  subst hl
  unfold link
  cases hn : used.superName with
  | some n => exact .asks hdefines hfile hused hverify hn hr
  | none =>
    obtain ⟨k, hk⟩ := LoadedClass.exists_define_of_verify hverify definer none
    dsimp only
    rw [bind_apply, define_apply, Option.map_none, hk]
    exact .done hdefines hfile hused hn hr (ClassTable.extends_add k)

/-- **Turns.** -/
theorem turn_turns (r : Realm) (l : LoaderRef) (name : String) :
    Turns r l name (turn l name r).1 (turn l name r).2 := by
  cases hkind : (r.loader l).kind with
  | bootstrap =>
    rw [turn_bootstrap hkind, bind_apply, readClassFile_apply]
    cases hfile : r.classFile name with
    | error e => exact .fails (ofRead_ne_circular hfile) .same
    | ok file =>
      exact link_turns (fun _ hwork => nomatch hkind.symm.trans hwork) hfile .stored
        (verify_of_classFile hfile) .same rfl
  | instrumenting work =>
    cases ha : work.policy.acquires name with
    | false =>
      rw [turn_of_not_acquires hkind ha]
      exact .delegates hkind ha
    | true =>
      have hdefines : r.Defines l name := fun work' hwork => by
        cases hkind.symm.trans hwork
        exact ha
      rw [turn_of_acquires hkind ha, bind_apply, readClassFile_apply]
      cases hfile : r.classFile name with
      | error e => exact .fails (ofRead_ne_circular hfile) .same
      | ok file =>
        dsimp only
        obtain ⟨outcome, r', hprepare, hr, hprepared⟩ := exists_prepared hkind hfile
        rw [bind_apply, hprepare]
        cases outcome with
        | error e => exact .fails hprepared hr
        | ok used => exact link_turns hdefines hfile hprepared.1 hprepared.2 hr rfl

/-! ### What a turn leaves alone -/

variable {r₀ : Realm} {outcome : Except LoadError Turn}

theorem keeps_extend {classes : ClassTable} (h : r.classes.Extends classes) :
    r.Keeps { r with classes := classes } :=
  ⟨h, rfl, fun _ => rfl, fun _ => rfl, fun _ _ _ hc => hc, fun _ _ _ hc => hc⟩

theorem Turns.keeps (h : Turns r l name outcome r') : r.Keeps r' := by
  cases h with
  | fails _ hr => exact hr.keeps
  | delegates => exact .refl r
  | asks _ _ _ _ _ hr => exact hr.keeps
  | done _ _ _ _ hr hgrows => exact hr.keeps.trans (keeps_extend hgrows)

/-- No loader remembers more, or less. -/
theorem Turns.loaded? (h : Turns r l name outcome r') (a : LoaderRef) (n : String) :
    r'.loaded? a n = r.loaded? a n := by
  cases h with
  | fails _ hr => exact hr.same_loaders.loaded? a n
  | delegates => rfl
  | asks _ _ _ _ _ hr => exact hr.same_loaders.loaded? a n
  | done _ _ _ _ hr _ => exact hr.same_loaders.loaded? a n

theorem Turns.follows (h : Turns r l name outcome r') (hquiet : r₀.Undisturbed)
    (hr₀ : r₀.Follows r) : r₀.Follows r' := by
  cases h with
  | fails _ hr => exact hr.follows hquiet hr₀
  | delegates => exact hr₀
  | asks _ _ _ _ _ hr => exact hr.follows hquiet hr₀
  | done _ _ _ _ hr _ =>
    obtain ⟨hresources, hsize, hkinds, hhistory⟩ := hr.follows hquiet hr₀
    exact ⟨hresources, hsize, hkinds, hhistory⟩

end Turns

end Load

end Interpose
