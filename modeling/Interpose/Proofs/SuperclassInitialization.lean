import Interpose.Proofs.Audits
import Interpose.Proofs.Lineages
import Mathlib.Data.List.TakeWhile
/-!
# Which superclasses have been initialized

A class is initialized behind its superclasses, from the class upward: the walk up the lineage begins
the initialization of each class, the next superclass follows, and the initializers run on the way
back. The walk stops at the first class whose initialization has been begun before, and takes it on
trust. If it comes back without a failure, every class that it has begun is initialized.

A class on which the walk stops says nothing of the classes above it. An initializer that uses a
subclass while it runs finds the subclass below a class in the middle of its initialization, which
does no harm to the subclass. If the initializer then fails, its class is back at the beginning, and
the subclass stays initialized.

## Main results

* `Run.initializeLineage_covers`: what has been begun by a walk is initialized behind it
* `initialized_of_initializeClass`: the superclasses of a class
* `exists_uninitialized_superclass`: a subclass that outlives the initialization of its superclass
-/

namespace Interpose

/-! ### Walks up a lineage -/

namespace Run

variable {execute execute' : Execute} {m m' : Machine}

/-- Without a failure, a class that has not been begun is marked, its body succeeds, and it is marked
again. -/
theorem initializeLineage_eq_ok {c : ClassRef} {supers : List ClassRef}
    (hc : (m.cls c).state = .uninitialized)
    (h : initializeLineage execute (c :: supers) m = some (.ok (), m')) :
    ∃ n, initializeBody execute c supers (m.begin c) = some (.ok (), n) ∧
      m' = n.finish c (.ok ()) := by
  rw [initializeLineage_apply supers hc] at h
  cases hbody : initializeBody execute c supers (m.begin c) with
  | none =>
    rw [hbody] at h
    cases h
  | some p =>
    obtain ⟨result, n⟩ := p
    rw [hbody] at h
    cases h
    exact ⟨n, rfl, rfl⟩

/-- **Walks.** All the classes that are walked by before one that has been begun are initialized in
the end. The induction is on the lineage: what the superclasses come to stays so while the
initializer of the class itself runs, and the class is not one of them. -/
theorem initializeLineage_covers (he : ∀ c i args, Orderly (execute c i args) (execute' c i args))
    {walked rest : List ClassRef} (hm : m.Within) (hhas : ∀ a ∈ walked ++ rest, m.classes.Has a)
    (hnodup : (walked ++ rest).Nodup) (hwalked : ∀ a ∈ walked, (m.cls a).state = .uninitialized)
    (h : initializeLineage execute (walked ++ rest) m = some (.ok (), m')) :
    ∀ a ∈ walked, (m'.cls a).state = .initialized := by
  induction walked generalizing m m' with
  | nil => exact nofun
  | cons c walked ih =>
    rw [List.cons_append] at hhas hnodup h
    rw [List.forall_mem_cons] at hhas hwalked
    obtain ⟨hself, hnodup⟩ := List.nodup_cons.1 hnodup
    have hne : ∀ a ∈ walked, c ≠ a := fun a ha hca =>
      hself (hca ▸ List.mem_append_left rest ha)
    obtain ⟨n, hbody, rfl⟩ := initializeLineage_eq_ok hwalked.1 h
    obtain ⟨⟨⟩, k, hsupers, hinit⟩ := bind_eq_ok hbody
    have hbegin : (m.begin c).Within := hm
    have horderly : Orderly (initializeLineage execute (walked ++ rest))
        (initializeLineage execute' (walked ++ rest)) := inferInstance
    have horderly' : Orderly (runInitializer execute c) (runInitializer execute' c) := inferInstance
    have hsupers' : (m.begin c).Balanced k := horderly.balanced hbegin hsupers
    have hinit' : k.Balanced n := horderly'.balanced (hsupers'.within hbegin) hinit
    have hmark : ((m.begin c).cls c).state = .initializing := Machine.state_setState_self hhas.1
    have hmark' : (n.cls c).state = .initializing :=
      ((hsupers'.trans hinit').initializing_iff c).2 hmark
    have hn : n.classes.Has c := by
      refine ClassTable.has_of_get_ne fun hdefault => ?_
      rw [Machine.cls, hdefault] at hmark'
      cases hmark'
    have hcovers : ∀ a ∈ walked, (k.cls a).state = .initialized := by
      refine ih hbegin (fun a ha => Machine.has_setState.2 (hhas.2 a ha)) hnodup (fun a ha => ?_)
        hsupers
      exact (Machine.state_setState_of_ne (hne a ha)).trans (hwalked.2 a ha)
    rw [List.forall_mem_cons]
    refine ⟨Machine.state_setState_self hn, fun a ha => ?_⟩
    rw [Machine.finish, Machine.state_setState_of_ne (hne a ha)]
    exact hinit'.initialized (hcovers a ha)

end Run

/-- The initialization of a class has not been begun. -/
def Machine.isUninitialized (m : Machine) (a : ClassRef) : Bool := (m.cls a).state = .uninitialized

/-- The classes that a walk from a class upward begins: those before the first one that has been
begun. -/
def Machine.walked (m : Machine) (c : ClassRef) : List ClassRef :=
  (m.classes.lineage c).takeWhile m.isUninitialized

section Walked

variable {handlers : Handlers} {fuel : Nat} {m m' : Machine} {a c : ClassRef}

theorem Machine.mem_walked_self (h : (m.cls c).state = .uninitialized) : c ∈ m.walked c := by
  have hself : m.isUninitialized c = true := decide_eq_true h
  rw [walked, ClassTable.lineage, List.takeWhile_cons_of_pos hself]
  exact List.mem_cons_self

theorem Machine.initialized_of_mem_walked (hsound : m.realm.Sound) (hwithin : m.Within)
    (hc : m.classes.Has c)
    (h : Run.initializeClass (executeWith handlers fuel) c m = some (.ok (), m'))
    (ha : a ∈ m.walked c) : (m'.cls a).state = .initialized := by
  have hhas : ∀ a ∈ m.classes.lineage c, m.classes.Has a := fun a ha =>
    (hsound.founded.slotCount_le hc a ha).1
  have hnodup : (m.classes.lineage c).Nodup := hsound.founded.nodup_lineage hc
  have hlineage : Run.initializeLineage (executeWith handlers fuel) (m.classes.lineage c) m =
      some (.ok (), m') := h
  have hsplit : m.walked c ++ (m.classes.lineage c).dropWhile m.isUninitialized =
      m.classes.lineage c := List.takeWhile_append_dropWhile
  rw [← hsplit] at hhas hnodup hlineage
  have hbegins : ∀ b ∈ m.walked c, (m.cls b).state = .uninitialized := fun b hb =>
    of_decide_eq_true (List.mem_takeWhile_imp (p := m.isUninitialized) hb)
  exact Run.initializeLineage_covers (audited_orderly handlers fuel) hwithin hhas hnodup hbegins
    hlineage a ha

/-- A class that a walk does not get to is above one on which it stops. -/
theorem Machine.exists_initialized_of_not_mem_walked (hsound : m.realm.Sound)
    (hnone : ∀ a, (m.cls a).state ≠ .initializing) (hc : m.classes.Has c)
    (ha : a ∈ m.classes.lineage c) (hmem : a ∉ m.walked c) :
    ∃ k ∈ m.classes.lineage c, (m.cls k).state = .initialized ∧ a ∈ m.classes.lineage k := by
  obtain ⟨k, hk, hbegun, hak⟩ := hsound.founded.exists_of_not_mem_takeWhile _ hc a ha hmem
  refine ⟨k, hk, ?_, hak⟩
  cases hstate : (m.cls k).state with
  | uninitialized => exact absurd hstate (of_decide_eq_false hbegun)
  | initializing => exact absurd hstate (hnone k)
  | initialized => rfl

end Walked

/-- **Superclasses.** On a machine with no class in the middle of its initialization, let a class be
initialized without a failure. Then the class is initialized, and so is each of its superclasses,
unless it is above one of them, or above the class itself, that was initialized before. If the
superclasses of what was initialized before were so too, those of the class are. -/
theorem initialized_of_initializeClass {handlers : Handlers} {fuel : Nat} {m m' : Machine}
    {c : ClassRef} (hsound : m.realm.Sound) (hwithin : m.Within)
    (hnone : ∀ a, (m.cls a).state ≠ .initializing) (hc : m.classes.Has c)
    (h : Run.initializeClass (executeWith handlers fuel) c m = some (.ok (), m')) :
    (m'.cls c).state = .initialized ∧
    (∀ a ∈ m.classes.lineage c, (m'.cls a).state = .initialized ∨
      ∃ k ∈ m.classes.lineage c, (m.cls k).state = .initialized ∧ a ∈ (m.cls k).ancestors) ∧
    ((∀ k, (m.cls k).state = .initialized →
        ∀ a ∈ m.classes.lineage k, (m.cls a).state = .initialized) →
      ∀ a ∈ m.classes.lineage c, (m'.cls a).state = .initialized) := by
  have horderly : Run.Orderly (Run.initializeClass (executeWith handlers fuel) c)
      (Run.initializeClass (audited handlers fuel) c) := inferInstance
  have hbalanced : m.Balanced m' := horderly.balanced hwithin h
  have hwalked : ∀ a ∈ m.walked c, (m'.cls a).state = .initialized := fun a ha =>
    Machine.initialized_of_mem_walked hsound hwithin hc h ha
  have hstop : ∀ a ∈ m.classes.lineage c, (m'.cls a).state = .initialized ∨
      ∃ k ∈ m.classes.lineage c, (m.cls k).state = .initialized ∧ a ∈ m.classes.lineage k := by
    intro a ha
    by_cases hmem : a ∈ m.walked c
    · exact .inl (hwalked a hmem)
    · exact .inr (Machine.exists_initialized_of_not_mem_walked hsound hnone hc ha hmem)
  refine ⟨?_, fun a ha => ?_, fun hcovered a ha => ?_⟩
  · cases hstate : (m.cls c).state with
    | uninitialized => exact hwalked c (Machine.mem_walked_self hstate)
    | initializing => exact absurd hstate (hnone c)
    | initialized => exact hbalanced.initialized hstate
  · rcases hstop a ha with hdone | ⟨k, hk, hstate, hak⟩
    · exact .inl hdone
    rcases List.mem_cons.1 hak with rfl | hak
    · exact .inl (hbalanced.initialized hstate)
    · exact .inr ⟨k, hk, hstate, hak⟩
  · rcases hstop a ha with hdone | ⟨k, hk, hstate, hak⟩
    · exact hdone
    · exact hbalanced.initialized (hcovered k hstate a hak)

/-! ### A class and a subclass -/

/-- A class file that declares nothing. -/
def scionFile (superName : String) : ClassFile := { name := "t.Scion", superName := some superName }

/-- The class of that file, below a class that stands first. -/
def scion (k : LoadedClass) : LoadedClass where
  name := "t.Scion"
  loader := ⟨0⟩
  orphan := false
  ancestors := ⟨0⟩ :: k.ancestors
  constants := {}
  annotations := []
  methods := []
  fieldSlots := []
  fieldDefaults := k.fieldDefaults
  staticSlots := []
  statics := #[]
  state := .uninitialized
  instrumented := false
  handler? := none

/-- A machine that has loaded a class and that subclass. -/
def scionMachine (k : LoadedClass) : Machine where
  realm := {
    classes := ⟨#[k, scion k]⟩
    loaders := #[{ kind := .bootstrap, classes := [("t.Scion", ⟨1⟩), (k.name, ⟨0⟩)] }]
    resources := {} }
  entry := ⟨0⟩

section ScionMachine

variable {k : LoadedClass} {file : ClassFile}

theorem scionMachine_sound (hverify : file.verify = .ok ())
    (hk : LoadedClass.define { loader := ⟨0⟩ } none file = .ok k) : (scionMachine k).Sound := by
  have hnone : ∀ s, (none : Option ClassRef) = some s → ({} : ClassTable).Has s := nofun
  have hsome : ∀ s, some (⟨0⟩ : ClassRef) = some s → (⟨#[k]⟩ : ClassTable).Has s := by
    rintro _ ⟨⟩
    exact Nat.zero_lt_one
  have hscion : LoadedClass.define { loader := ⟨0⟩ } (some (⟨0⟩, k)) (scionFile k.name) =
      .ok (scion k) := rfl
  have hverify' : (scionFile k.name).verify = .ok () := rfl
  have hfounded : (⟨#[k]⟩ : ClassTable).Founded :=
    ClassTable.founded_empty.add hnone hverify hk
  have hfounded' : (⟨#[k, scion k]⟩ : ClassTable).Founded := hfounded.add hsome hverify' hscion
  refine ⟨Realm.sound_of_single rfl hfounded' ?_, nofun⟩
  rintro p hp
  rcases List.mem_cons.1 hp with rfl | hp
  · exact Nat.one_lt_two
  · obtain rfl := List.mem_singleton.1 hp
    exact Nat.zero_lt_two

theorem state_scionMachine (hk : k.state = .uninitialized) (a : ClassRef) :
    ((scionMachine k).cls a).state = .uninitialized := by
  obtain ⟨_ | _ | n⟩ := a
  · exact hk
  · rfl
  · have hnone : ¬ (scionMachine k).classes.Has ⟨n + 2⟩ := Nat.not_lt_of_le (Nat.le_add_left 2 n)
    rw [Machine.cls, ClassTable.get_of_not_has hnone]
    rfl

theorem scionMachine_atRest (hk : k.state = .uninitialized) : (scionMachine k).AtRest :=
  ⟨rfl, fun a => by rw [state_scionMachine hk]; exact nofun⟩

end ScionMachine

/-- A class without an initializer, and its subclass: the initialization of the latter covers both. -/
theorem initialized_scion :
    ∃ m', Run.initializeClass (executeWith (fun _ => default) 1) ⟨1⟩ (scionMachine seven) =
      some (.ok (), m') ∧ (m'.cls ⟨0⟩).state = .initialized ∧ (m'.cls ⟨1⟩).state = .initialized := by
  have hverify : sevenFile.verify = .ok () := by decide +kernel
  have hsound : (scionMachine seven).Sound := scionMachine_sound hverify (by decide +kernel)
  have hrun : ∃ m', Run.initializeClass (executeWith (fun _ => default) 1) ⟨1⟩ (scionMachine seven) =
      some (.ok (), m') := ⟨_, rfl⟩
  obtain ⟨m', hm'⟩ := hrun
  have hrest := scionMachine_atRest (k := seven) rfl
  obtain ⟨hscion, -, hall⟩ := initialized_of_initializeClass hsound.realm hrest.within hrest.state
    Nat.one_lt_two hm'
  refine ⟨m', hm', hall (fun k hk => ?_) ⟨0⟩ (List.mem_cons_of_mem _ List.mem_cons_self), hscion⟩
  rw [state_scionMachine rfl] at hk
  cases hk

/-! ### A subclass that outlives the initialization of its superclass -/

/-- A class file whose initializer creates an object of the subclass and fails. -/
def rashFile : ClassFile where
  name := "t.Rash"
  constants := { classes := ["t.Scion"] }
  methods :=
    [⟨"<clinit>", "()V", Modifier.static.bit, [], 0, [0xB0, 0, 0, 0, 0, 0x01, 0x04, 0xE0]⟩]

/-- The class of that file. -/
def rash : LoadedClass where
  name := "t.Rash"
  loader := ⟨0⟩
  orphan := false
  ancestors := []
  constants := { classes := ["t.Scion"] }
  annotations := []
  methods := [⟨"<clinit>", "()V", ⟨[], .void⟩, Modifier.static.bit, 0,
    #[.new 0, .simple .pop, .simple .constNull, .simple .raise]⟩]
  fieldSlots := []
  fieldDefaults := #[]
  staticSlots := []
  statics := #[]
  state := .uninitialized
  instrumented := false
  handler? := none

/-- The initialization of the class fails, and leaves the subclass initialized. -/
theorem run_initializeClass_rash :
    ∃ m', (Request.initializeClass ⟨0⟩).run (executeWith (fun _ => default) 5) (scionMachine rash) =
      some (.error (.thrown .null), m') ∧ m'.classes.lineage ⟨1⟩ = [⟨1⟩, ⟨0⟩] ∧
      (m'.cls ⟨0⟩).state = .uninitialized ∧ (m'.cls ⟨1⟩).state = .initialized :=
  ⟨_, rfl, rfl, rfl, rfl⟩

/-- **Not all superclasses.** After that, to initialize the subclass is to do nothing, on a machine
that started with no class initialized and has none in the middle of its initialization. -/
theorem exists_uninitialized_superclass :
    ¬ ∀ (handlers : Handlers) (fuel : Nat) (start m m' : Machine) (c : ClassRef), start.Sound →
      start.AtRest → (∀ a, (start.cls a).state = .uninitialized) → start.Reaches handlers m →
      (∀ a, (m.cls a).state ≠ .initializing) → m.classes.Has c →
      Run.initializeClass (executeWith handlers fuel) c m = some (.ok (), m') →
      ∀ a ∈ m.classes.lineage c, (m'.cls a).state = .initialized := by
  intro hall
  obtain ⟨m, hrun, hlineage, hrash, hscion⟩ := run_initializeClass_rash
  have hverify : rashFile.verify = .ok () := by decide +kernel
  have hsound : (scionMachine rash).Sound := scionMachine_sound hverify (by decide +kernel)
  have hrest := scionMachine_atRest (k := rash) rfl
  have hreaches : (scionMachine rash).Reaches (fun _ => default) m := .request (.refl _) hrun
  have hhas : m.classes.Has ⟨1⟩ := ClassTable.has_of_get_ne fun hdefault => by
    rw [Machine.cls, hdefault] at hscion
    cases hscion
  have hnothing : Run.initializeClass (executeWith (fun _ => default) 5) ⟨1⟩ m = some (.ok (), m) :=
    Frame.initializeClass_of_begun (by rw [hscion]; rintro ⟨⟩)
  have hinitialized := hall _ 5 (scionMachine rash) m m ⟨1⟩ hsound hrest (state_scionMachine rfl)
    hreaches ((hreaches.balanced hrest.within).atRest hrest).state hhas hnothing ⟨0⟩
    (by rw [hlineage]; exact List.mem_cons_of_mem _ List.mem_cons_self)
  rw [hrash] at hinitialized
  cases hinitialized

end Interpose
