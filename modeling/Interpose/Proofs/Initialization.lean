import Interpose.Proofs.Balance
/-!
# Initialization is balanced

The initialization of a class marks it, lets the superclasses and the initializer run, and marks it
again as their outcome demands. What runs in between is balanced, so it leaves the first mark in
place, and with the second one the class has gone all the way to the end or is back at the beginning.
That is a balanced outcome, whatever the initializer does to other classes.

The same argument says that an initializer completes for no class that has been initialized. A
variant of initialization has no outcome if that happens; it has the outcomes that initialization has.

All requests are balanced, then, and so are plans and instructions, as far as the execution of methods
is.

## Main definitions

* `Machine.begin`, `Machine.finish`: a class is marked
* `Run.initializeClassOnce`: initialization that fails to come to an outcome where it completes for
  a class that has been initialized

## Main results

* `Run.initializeLineage_apply`: what initialization does to the machine
* `Run.initializeClass_orderly`: initialization is balanced
* `Run.initializeClassOnce_eq`: initialization completes once
-/

namespace Interpose

/-- How far a class is, after its initialization has come to an outcome. -/
def InitState.after : Except VmError Unit → InitState
  | .ok _ => .initialized
  | .error _ => .uninitialized

theorem InitState.after_ne (result : Except VmError Unit) : after result ≠ .initializing := by
  cases result <;> exact nofun

namespace Machine

variable (m : Machine) (c a : ClassRef)

/-- The initialization of a class has begun. -/
def begin : Machine := m.updateClasses (·.setState c .initializing)

/-- The initialization of a class has come to an outcome. -/
def finish (result : Except VmError Unit) : Machine :=
  m.updateClasses (·.setState c (.after result))

variable {m c a}

theorem state_setState_of_ne {s : InitState} (h : c ≠ a) :
    ((m.updateClasses (·.setState c s)).cls a).state = (m.cls a).state :=
  congrArg LoadedClass.state (ClassTable.get_modify_of_ne _ h)

theorem state_setState_self {s : InitState} (hc : m.classes.Has c) :
    ((m.updateClasses (·.setState c s)).cls c).state = s :=
  congrArg LoadedClass.state (ClassTable.get_modify_self _ hc)

theorem has_setState {s : InitState} :
    (m.updateClasses (·.setState c s)).classes.Has a ↔ m.classes.Has a := by
  rw [ClassTable.Has, classes, updateClasses, ClassTable.setState, ClassTable.size_modify]
  rfl

/-- An outcome is the beginning or the end. -/
theorem state_finish_ne (result : Except VmError Unit) :
    ((m.finish c result).cls c).state ≠ .initializing := by
  by_cases hc : m.classes.Has c
  · rw [finish, state_setState_self hc]
    exact InitState.after_ne result
  · have hnone : ¬ (m.finish c result).classes.Has c := mt has_setState.1 hc
    rw [cls, ClassTable.get_of_not_has hnone]
    rintro ⟨⟩

/-- What is balanced between the two marks is balanced with them. -/
theorem Balanced.of_begin {m' : Machine} {result : Except VmError Unit}
    (hc : (m.cls c).state = .uninitialized) (h : (m.begin c).Balanced m') :
    m.Balanced (m'.finish c result) := by
  refine ⟨h.depth, h.maxDepth, fun a => ?_⟩
  by_cases ha : c = a
  · subst ha
    rw [hc]
    exact .of_uninitialized (state_finish_ne result)
  · have hstate := h.state a
    rw [begin, state_setState_of_ne ha] at hstate
    rwa [finish, state_setState_of_ne ha]

end Machine

namespace Run

variable {α : Type} {execute execute' : Execute}

/-! ### One class after the other -/

/-- What happens between the two marks. -/
def initializeBody (execute : Execute) (c : ClassRef) (supers : List ClassRef) : Run Unit := do
  initializeLineage execute supers
  runInitializer execute c

/-- Initialization, if it has been begun before. -/
theorem initializeLineage_of_begun {m : Machine} {c : ClassRef} (supers : List ClassRef)
    (hc : (m.cls c).state ≠ .uninitialized) :
    initializeLineage execute (c :: supers) m = some (.ok (), m) := by
  rw [initializeLineage, get_bind_apply]
  cases hstate : (m.cls c).state with
  | uninitialized => exact absurd hstate hc
  | initializing => rfl
  | initialized => rfl

/-- Initialization from the beginning. -/
theorem initializeLineage_apply {m : Machine} {c : ClassRef} (supers : List ClassRef)
    (hc : (m.cls c).state = .uninitialized) :
    initializeLineage execute (c :: supers) m =
      match initializeBody execute c supers (m.begin c) with
      | none => none
      | some (result, m') => some (result, m'.finish c result) := by
  have happ : initializeLineage execute (c :: supers) m =
      (attempt (initializeBody execute c supers) >>= fun result => do
        modify fun m => m.finish c result
        resume result : Run Unit) (m.begin c) := by
    rw [initializeLineage, get_bind_apply, hc]
    refine congrArg (fun f => (attempt (initializeBody execute c supers) >>= f) (m.begin c)) ?_
    funext result
    cases result <;> rfl
  rw [happ, bind_apply, attempt]
  cases initializeBody execute c supers (m.begin c) with
  | none => rfl
  | some p =>
    obtain ⟨result, m'⟩ := p
    cases result <;> rfl

section Orderly

variable [he : ∀ c i args, Orderly (execute c i args) (execute' c i args)]

/-- The induction is on the lineage; what is marked in between comes out of `Balanced.of_begin`. -/
instance initializeLineage_orderly (lineage : List ClassRef) :
    Orderly (initializeLineage execute lineage) (initializeLineage execute' lineage) := by
  induction lineage with
  | nil => exact .pure ()
  | cons c supers ih =>
    refine ⟨fun m hm => ?_⟩
    by_cases hc : (m.cls c).state = .uninitialized
    · rw [initializeLineage_apply supers hc, initializeLineage_apply supers hc]
      have hbody : Orderly (initializeBody execute c supers) (initializeBody execute' c supers) := by
        unfold initializeBody
        infer_instance
      obtain ⟨r, m', hy, hb, hx⟩ := hbody.outcome (m.begin c) hm
      refine ⟨r, m'.finish c r, by rw [hy], hb.of_begin hc, fun o ho => ?_⟩
      obtain hp | hp := Orderly.none_or_some hx
      all_goals
        rw [hp] at ho
        cases ho
      rfl
    · rw [initializeLineage_of_begun supers hc, initializeLineage_of_begun supers hc]
      exact ⟨_, m, rfl, .refl m, fun o ho => (Option.some.inj ho).symm⟩

instance initializeClass_orderly (c : ClassRef) :
    Orderly (initializeClass execute c) (initializeClass execute' c) := by
  unfold initializeClass
  infer_instance

end Orderly

/-! ### Once -/

/-- Initialization without an outcome where the body comes to one for a class that has been
initialized by then. -/
def initializeLineageOnce (execute : Execute) : List ClassRef → Run Unit
  | [] => pure ()
  | c :: supers => do
    match ((← get).cls c).state with
    | .initializing | .initialized => pure ()
    | .uninitialized =>
      modify (·.begin c)
      let result ← attempt do
        initializeLineageOnce execute supers
        runInitializer execute c
      if ((← get).cls c).state = .initialized then outOfFuel
      modify (·.finish c result)
      resume result

/-- Initializes a class, behind its superclasses, each class once at most. -/
def initializeClassOnce (execute : Execute) (c : ClassRef) : Run Unit := do
  initializeLineageOnce execute ((← get).classes.lineage c)

theorem initializeLineageOnce_apply {m : Machine} {c : ClassRef} (supers : List ClassRef)
    (hc : (m.cls c).state = .uninitialized) :
    initializeLineageOnce execute (c :: supers) m =
      match (initializeLineageOnce execute supers >>= fun _ => runInitializer execute c)
          (m.begin c) with
      | none => none
      | some (result, m') =>
        if (m'.cls c).state = .initialized then none else some (result, m'.finish c result) := by
  have happ : initializeLineageOnce execute (c :: supers) m =
      (attempt (initializeLineageOnce execute supers >>= fun _ => runInitializer execute c) >>=
        fun result => do
          if ((← get).cls c).state = .initialized then outOfFuel
          modify (·.finish c result)
          resume result : Run Unit) (m.begin c) := by
    rw [initializeLineageOnce, get_bind_apply, hc]
    rfl
  rw [happ, bind_apply, attempt]
  cases (initializeLineageOnce execute supers >>= fun _ => runInitializer execute c)
    (m.begin c) with
  | none => rfl
  | some p =>
    obtain ⟨result, m'⟩ := p
    dsimp only
    rw [get_bind_apply]
    split
    · rfl
    · cases result <;> rfl

/-- What runs between the marks leaves the first one in place, so the class has not been initialized
when the second one is due. -/
theorem initializeLineageOnce_eq (he : ∀ c i args, Orderly (execute c i args) (execute' c i args))
    {lineage : List ClassRef} {m : Machine} (hm : m.Within)
    (hlineage : ∀ c ∈ lineage, m.classes.Has c) :
    initializeLineageOnce execute lineage m = initializeLineage execute lineage m := by
  induction lineage generalizing m with
  | nil => rfl
  | cons c supers ih =>
    rw [List.forall_mem_cons] at hlineage
    cases hc : (m.cls c).state with
    | initializing | initialized =>
      rw [initializeLineage_of_begun supers (by rw [hc]; rintro ⟨⟩), initializeLineageOnce,
        get_bind_apply, hc]
      rfl
    | uninitialized =>
      have hsupers := ih (m := m.begin c) hm fun a ha =>
        Machine.has_setState.2 (hlineage.2 a ha)
      rw [initializeLineageOnce_apply supers hc, initializeLineage_apply supers hc, bind_apply,
        hsupers, ← bind_apply, ← initializeBody]
      cases hbody : initializeBody execute c supers (m.begin c) with
      | none => rfl
      | some p =>
        obtain ⟨result, m'⟩ := p
        have horderly : Orderly (initializeBody execute c supers)
            (initializeBody execute' c supers) := by
          unfold initializeBody
          infer_instance
        have hmark : ((m.begin c).cls c).state = .initializing :=
          Machine.state_setState_self hlineage.1
        have hbalanced : (m.begin c).Balanced m' := horderly.balanced (m := m.begin c) hm hbody
        have hstate := (hbalanced.initializing_iff c).2 hmark
        dsimp only
        rw [hstate, if_neg (by rintro ⟨⟩)]

/-- **Once.** Initialization never completes for a class that has been initialized. -/
theorem initializeClassOnce_eq (he : ∀ c i args, Orderly (execute c i args) (execute' c i args))
    {m : Machine} (hm : m.Within) {c : ClassRef}
    (hlineage : ∀ a ∈ m.classes.lineage c, m.classes.Has a) :
    initializeClassOnce execute c m = initializeClass execute c m :=
  initializeLineageOnce_eq he hm hlineage

end Run

end Interpose
