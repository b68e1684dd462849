import Interpose.Machine.Execute
import Interpose.Proofs.Machines
/-!
# Simulations

Two computations of the machine run side by side, from machines that are related to machines that
are related, and with the same outcome. What the relation is, is a parameter: equality of machines
gives that more fuel changes no outcome, equality up to the call depth gives that no instruction
looks at it, and equality together with an invariant gives that the invariant is kept.

Related machines differ in their call depth at most. That is all the difference the development
needs, and it means that a simulation has to be told about one thing only: the changes that
computations make to a machine, `Machine.Change`.

## Main definitions

* `Simulation`: a relation that changes preserve, and the failures that may occur
* `Simulation.Sim`: one computation follows another
* `Simulation.since`: the same simulation, of machines that have the classes of a given one

What follows what is proved for every computation of the interpreter, in this module for the
primitive ones.
-/

namespace Interpose

/-! ### Failures that verification excludes -/

/-- A failure of the code itself: the operand stack runs empty, control leaves the body, or an
operand of an instruction names nothing. -/
def VmError.isCodeFault : VmError → Bool
  | .stackUnderflow => true
  | .type (.pastEnd _ _) => true
  | .type (.localRange _) => true
  | .type (.badConstant _ _) => true
  | .type (.badDescriptor _) => true
  | .type (.badTag _) => true
  | _ => false

/-! ### Computations of the machine, applied -/

namespace Run

variable {α β : Type} (m : Machine)

theorem get_apply : (get : Run Machine) m = some (.ok m, m) := rfl

theorem get_bind_apply (f : Machine → Run α) : (get >>= f) m = f m m := rfl

/-- What comes behind a computation runs on the machine that it leaves, unless it failed. -/
theorem bind_apply (x : Run α) (f : α → Run β) :
    (x >>= f) m =
      match x m with
      | none => none
      | some (.ok a, n) => f a n
      | some (.error e, n) => some (.error e, n) := by
  show (x m >>= fun p => ExceptT.bindCont f p.1 p.2) = _
  cases x m with
  | none => rfl
  | some p =>
    obtain ⟨r, n⟩ := p
    cases r <;> rfl

end Run

/-! ### Simulations of computations -/

/-- A relation between machines that changes preserve, with the failures that may occur, whether
computations may end without an outcome, and whether the second may have one then all the same. A
strict simulation is one of machines whose realms are sound. -/
structure Simulation where
  rel : Machine → Machine → Prop
  allows : VmError → Prop
  mayGiveUp : Prop
  mayOutlast : Prop
  strict : Prop
  eq_atDepth : ∀ {m n}, rel m n → n = m.atDepth n.depth
  sound : strict → ∀ {m n}, rel m n → m.realm.Sound
  change : ∀ {m n m'}, rel m n → m.Change strict m' → rel m' (m'.atDepth n.depth)
  enter : ∀ {m n}, rel m n → rel (m.atDepth (m.depth + 1)) (n.atDepth (n.depth + 1))
  leave : ∀ {m n}, rel m n → rel (m.atDepth (m.depth - 1)) (n.atDepth (n.depth - 1))
  allows_of : ∀ {e : VmError}, e.isCodeFault = false → allows e

namespace Simulation

variable (S : Simulation) {α β γ δ : Type}

/-- The outcomes of two computations from a machine: the same, on related machines that have evolved
from it. They may be missing where the simulation permits it. -/
def Outcome (start : Machine) (Q : α → β → Prop) :
    Option (Except VmError α × Machine) → Option (Except VmError β × Machine) → Prop
  | none, none => S.mayGiveUp
  | none, some _ => S.mayGiveUp ∧ S.mayOutlast
  | some (.ok a, m), some (.ok b, n) => Q a b ∧ S.rel m n ∧ start.Evolves m
  | some (.error e, m), some (.error e', n) => e' = e ∧ S.allows e ∧ S.rel m n ∧ start.Evolves m
  | _, _ => False

/-- Whatever the first computation comes to, the second comes to as well. -/
def Sim (Q : α → β → Prop) (x : Run α) (y : Run β) : Prop :=
  ∀ m n, S.rel m n → S.Outcome m Q (x m) (y n)

variable {S}

/-- An outcome that is missing on the first side may be anything on the second, if outlasting is
permitted. -/
theorem outcome_none {start : Machine} {Q : α → β → Prop}
    {r : Option (Except VmError β × Machine)} (h : S.mayGiveUp) (h' : S.mayOutlast) :
    S.Outcome start Q none r := by
  cases r with
  | none => exact h
  | some _ => exact ⟨h, h'⟩

/-- An outcome may be seen from an earlier machine. -/
theorem Outcome.trans {start start' : Machine} {Q : α → β → Prop}
    {r : Option (Except VmError α × Machine)} {r' : Option (Except VmError β × Machine)}
    (h : S.Outcome start Q r r') (hs : start'.Evolves start) : S.Outcome start' Q r r' := by
  rcases r with _ | ⟨_ | a, m⟩ <;> rcases r' with _ | ⟨_ | b, n⟩ <;>
    first | exact h | exact h.elim | skip
  · obtain ⟨he, ha, hr, hm⟩ := h
    exact ⟨he, ha, hr, hs.trans hm⟩
  · obtain ⟨hq, hr, hm⟩ := h
    exact ⟨hq, hr, hs.trans hm⟩

theorem Outcome.mono {start : Machine} {Q Q' : α → β → Prop} (hQ : ∀ a b, Q a b → Q' a b)
    {r : Option (Except VmError α × Machine)} {r' : Option (Except VmError β × Machine)}
    (h : S.Outcome start Q r r') : S.Outcome start Q' r r' := by
  rcases r with _ | ⟨_ | a, m⟩ <;> rcases r' with _ | ⟨_ | b, n⟩ <;>
    first | exact h | exact h.elim | skip
  exact ⟨hQ a b h.1, h.2⟩

theorem Sim.mono {Q Q' : α → β → Prop} {x : Run α} {y : Run β} (h : S.Sim Q x y)
    (hQ : ∀ a b, Q a b → Q' a b) : S.Sim Q' x y :=
  fun m n hr => (h m n hr).mono hQ

theorem Sim.pure {Q : α → β → Prop} {a : α} {b : β} (h : Q a b) : S.Sim Q (pure a) (pure b) :=
  fun m _ hr => ⟨h, hr, .refl m⟩

theorem Sim.bind {Q : α → β → Prop} {Q' : γ → δ → Prop} {x : Run α} {y : Run β}
    {f : α → Run γ} {g : β → Run δ} (hx : S.Sim Q x y)
    (hf : ∀ a b, Q a b → S.Sim Q' (f a) (g b)) : S.Sim Q' (x >>= f) (y >>= g) := by
  intro m n hr
  have h := hx m n hr
  rw [Run.bind_apply, Run.bind_apply]
  rcases hxm : x m with _ | ⟨e | a, m'⟩ <;> rcases hyn : y n with _ | ⟨e' | b, n'⟩ <;>
    rw [hxm, hyn] at h <;> first | exact h | exact h.elim | skip
  · exact outcome_none h.1 h.2
  · exact (hf a b h.1 m' n' h.2.1).trans h.2.2

/-- What comes behind two computations with the same result. -/
theorem Sim.seq {Q : γ → δ → Prop} {x y : Run α} {f : α → Run γ} {g : α → Run δ}
    (hx : S.Sim Eq x y) (hf : ∀ a, S.Sim Q (f a) (g a)) : S.Sim Q (x >>= f) (y >>= g) := by
  refine hx.bind ?_
  rintro a _ rfl
  exact hf a

theorem Sim.ite {c : Prop} [Decidable c] {Q : α → β → Prop} {x x' : Run α} {y y' : Run β}
    (h : c → S.Sim Q x y) (h' : ¬c → S.Sim Q x' y') :
    S.Sim Q (if c then x else x') (if c then y else y') := by
  by_cases hc : c
  · rw [if_pos hc, if_pos hc]; exact h hc
  · rw [if_neg hc, if_neg hc]; exact h' hc

/-- It is enough to look at one machine at two depths. -/
theorem Sim.intro {Q : α → β → Prop} {x : Run α} {y : Run β}
    (h : ∀ m d, S.rel m (m.atDepth d) → S.Outcome m Q (x m) (y (m.atDepth d))) : S.Sim Q x y := by
  intro m n hr
  have hn := S.eq_atDepth hr
  rw [hn] at hr ⊢
  exact h m _ hr

/-- Reading the machine: the second machine is the first at another depth. -/
theorem Sim.look : S.Sim (fun m n => ∃ d, n = m.atDepth d) get get :=
  fun m n hr => ⟨⟨n.depth, S.eq_atDepth hr⟩, hr, .refl m⟩

/-- What a computation does with the machine that it reads. -/
theorem Sim.look_bind {Q : α → β → Prop} {f : Machine → Run α} {g : Machine → Run β}
    (h : ∀ m d, S.Sim Q (f m) (g (m.atDepth d))) : S.Sim Q (get >>= f) (get >>= g) := by
  refine Sim.look.bind ?_
  rintro m _ ⟨d, rfl⟩
  exact h m d

theorem Sim.fail {Q : α → β → Prop} {e : VmError} (h : S.allows e) :
    S.Sim Q (Run.fail e) (Run.fail e) :=
  fun m _ hr => ⟨rfl, h, hr, .refl m⟩

/-- A failure that is no fault of the code is always allowed. -/
theorem Sim.failure {Q : α → β → Prop} {e : VmError} (h : e.isCodeFault = false) :
    S.Sim Q (Run.fail e) (Run.fail e) :=
  Sim.fail (S.allows_of h)

/-- The outcome of one change. -/
theorem outcome_change {m m' : Machine} {d : Nat} {a : α} (hr : S.rel m (m.atDepth d))
    (hc : m.Change S.strict m') :
    S.Outcome m Eq (some (.ok a, m')) (some (.ok a, m'.atDepth d)) :=
  ⟨rfl, S.change hr hc, hc.evolves⟩

/-- A computation that makes one change. -/
theorem Sim.modify {f : Machine → Machine} (hf : ∀ m : Machine, m.Change S.strict (f m))
    (hd : ∀ m d, f (m.atDepth d) = (f m).atDepth d) :
    S.Sim Eq (modify f : Run Unit) (modify f) := by
  refine Sim.intro fun m d hr => ?_
  show S.Outcome m Eq (some (.ok (), f m)) (some (.ok (), f (m.atDepth d)))
  rw [hd]
  exact outcome_change hr (hf m)

/-! ### Machines that have the classes of a given one -/

/-- The simulation of those machines that have the classes of a given one. -/
def since (S : Simulation) (start : Machine) : Simulation where
  rel m n := S.rel m n ∧ start.Extends m
  allows := S.allows
  mayGiveUp := S.mayGiveUp
  mayOutlast := S.mayOutlast
  strict := S.strict
  eq_atDepth h := S.eq_atDepth h.1
  sound hs _ _ h := S.sound hs h.1
  change h hc := ⟨S.change h.1 hc, h.2.trans hc.extends⟩
  enter h := ⟨S.enter h.1, h.2⟩
  leave h := ⟨S.leave h.1, h.2⟩
  allows_of := S.allows_of

theorem Outcome.since {start first : Machine} {Q : α → β → Prop}
    {r : Option (Except VmError α × Machine)} {r' : Option (Except VmError β × Machine)}
    (h : S.Outcome start Q r r') (hs : first.Extends start) :
    (S.since first).Outcome start Q r r' := by
  rcases r with _ | ⟨_ | a, m⟩ <;> rcases r' with _ | ⟨_ | b, n⟩ <;>
    first | exact h | exact h.elim | skip
  · obtain ⟨he, ha, hr, hm⟩ := h
    exact ⟨he, ha, ⟨hr, hs.trans hm.classes⟩, hm⟩
  · obtain ⟨hq, hr, hm⟩ := h
    exact ⟨hq, ⟨hr, hs.trans hm.classes⟩, hm⟩

theorem Outcome.of_since {start first : Machine} {Q : α → β → Prop}
    {r : Option (Except VmError α × Machine)} {r' : Option (Except VmError β × Machine)}
    (h : (S.since first).Outcome start Q r r') : S.Outcome start Q r r' := by
  rcases r with _ | ⟨_ | a, m⟩ <;> rcases r' with _ | ⟨_ | b, n⟩ <;>
    first | exact h | exact h.elim | skip
  · obtain ⟨he, ha, hr, hm⟩ := h
    exact ⟨he, ha, hr.1, hm⟩
  · obtain ⟨hq, hr, hm⟩ := h
    exact ⟨hq, hr.1, hm⟩

/-- Classes are never lost, so what is simulated at all is simulated among such machines. -/
theorem Sim.since {Q : α → β → Prop} {x : Run α} {y : Run β} (h : S.Sim Q x y)
    (start : Machine) : (S.since start).Sim Q x y :=
  fun m n hr => (h m n hr.1).since hr.2

/-- What comes behind a computation that leaves the machine in a certain state. -/
theorem Sim.bind_since {Q : α → β → Prop} {Q' : γ → δ → Prop} {P : α → Machine → Prop}
    {x : Run α} {y : Run β} {f : α → Run γ} {g : β → Run δ} (hx : S.Sim Q x y)
    (hP : ∀ m n a m', S.rel m n → x m = some (.ok a, m') → P a m')
    (hf : ∀ a b start, Q a b → P a start → (S.since start).Sim Q' (f a) (g b)) :
    S.Sim Q' (x >>= f) (y >>= g) := by
  intro m n hr
  have h := hx m n hr
  rw [Run.bind_apply, Run.bind_apply]
  rcases hxm : x m with _ | ⟨e | a, m'⟩ <;> rcases hyn : y n with _ | ⟨e' | b, n'⟩ <;>
    rw [hxm, hyn] at h <;> first | exact h | exact h.elim | skip
  · exact outcome_none h.1 h.2
  · have hrest := hf a b m' h.1 (hP m n a m' hr hxm) m' n' ⟨h.2.1, .refl m'⟩
    exact hrest.of_since.trans h.2.2

/-! ### Handing an outcome over -/

/-- A failure, if it is one, is one that may occur. -/
def Admits (S : Simulation) (r : Except VmError α) : Prop :=
  ∀ e, r = .error e → S.allows e

theorem admits_ok {a : α} : S.Admits (.ok a) :=
  fun _ h => nomatch h

theorem admits_error {e : VmError} (h : S.allows e) : S.Admits (.error e : Except VmError α) := by
  rintro _ ⟨⟩
  exact h

/-- What the first computation comes to, the second comes to. -/
theorem Outcome.exists_eq {start m : Machine} {r : Except VmError α}
    {o : Option (Except VmError α × Machine)} (h : S.Outcome start Eq (some (r, m)) o) :
    ∃ n, o = some (r, n) ∧ S.rel m n ∧ start.Evolves m ∧ S.Admits r := by
  rcases r with e | a <;> rcases o with _ | ⟨e' | b, n⟩ <;> first | exact h.elim | skip
  · obtain ⟨rfl, he, hr, hm⟩ := h
    exact ⟨n, rfl, hr, hm, admits_error he⟩
  · obtain ⟨rfl, hr, hm⟩ := h
    exact ⟨n, rfl, hr, hm, admits_ok⟩

/-- What the second computation comes to, the first comes to, if the second may not outlast it. -/
theorem Outcome.exists_left {start n : Machine} {r : Except VmError α}
    {o : Option (Except VmError α × Machine)} (hlast : ¬S.mayOutlast)
    (h : S.Outcome start Eq o (some (r, n))) : ∃ m, o = some (r, m) ∧ S.rel m n := by
  rcases o with _ | ⟨e' | b, m⟩ <;> rcases r with e | a <;> first | exact h.elim | skip
  · exact absurd h.2 hlast
  · exact absurd h.2 hlast
  · obtain ⟨rfl, -, hr, -⟩ := h
    exact ⟨m, rfl, hr⟩
  · obtain ⟨rfl, hr, -⟩ := h
    exact ⟨m, rfl, hr⟩

theorem Sim.attempt {x y : Run α} (h : S.Sim Eq x y) :
    S.Sim (fun r r' => r = r' ∧ S.Admits r) (Run.attempt x) (Run.attempt y) := by
  intro m n hr
  have ho := h m n hr
  unfold Run.attempt
  rcases hxm : x m with _ | ⟨e | a, m'⟩ <;> rcases hyn : y n with _ | ⟨e' | b, n'⟩ <;>
    rw [hxm, hyn] at ho <;> first | exact ho | exact ho.elim | skip
  · obtain ⟨rfl, he, hr'⟩ := ho
    exact ⟨⟨rfl, admits_error he⟩, hr'⟩
  · obtain ⟨rfl, hr'⟩ := ho
    exact ⟨⟨rfl, admits_ok⟩, hr'⟩

theorem Sim.resume {r : Except VmError α} (h : S.Admits r) :
    S.Sim Eq (Run.resume r) (Run.resume r) := by
  cases r with
  | ok a => exact Sim.pure rfl
  | error e => exact Sim.fail (h e rfl)

/-! ### Values -/

theorem expect_sim {expected : String} {v : Value} {a : Option α} :
    S.Sim Eq (Run.expect expected v a) (Run.expect expected v a) := by
  cases a with
  | some a => exact Sim.pure rfl
  | none =>
    refine Sim.look_bind fun m d => ?_
    exact Sim.failure rfl

theorem asObject_sim {v : Value} : S.Sim Eq (Run.asObject v) (Run.asObject v) := by
  cases v with
  | object o => exact Sim.pure rfl
  | null => exact Sim.failure rfl
  | bool | int | long | double | text | array | cls =>
    unfold Run.asObject
    exact expect_sim

theorem asArray_sim {v : Value} : S.Sim Eq (Run.asArray v) (Run.asArray v) := by
  cases v with
  | array a => exact Sim.pure rfl
  | null => exact Sim.failure rfl
  | bool | int | long | double | text | object | cls =>
    unfold Run.asArray
    exact expect_sim

theorem asClass_sim {v : Value} : S.Sim Eq (Run.asClass v) (Run.asClass v) := by
  cases v with
  | cls c => exact Sim.pure rfl
  | null => exact Sim.failure rfl
  | bool | int | long | double | text | object | array =>
    unfold Run.asClass
    exact expect_sim

theorem display_sim {v : Value} : S.Sim Eq (Run.display v) (Run.display v) :=
  Sim.look_bind fun _ _ => Sim.pure rfl

/-! ### The heap -/

/-- In a strict simulation, only classes of the table are instantiated. -/
theorem allocate_sim {c : ClassRef} (h : S.strict → ∀ m n, S.rel m n → m.classes.Has c) :
    S.Sim Eq (Run.allocate c) (Run.allocate c) := by
  refine Sim.intro fun m d hr => ?_
  exact outcome_change hr (.object m c fun hs => h hs m _ hr)

theorem allocateArray_sim {items : Array Value} :
    S.Sim Eq (Run.allocateArray items) (Run.allocateArray items) :=
  Sim.intro fun m _ hr => outcome_change hr (.array m items)

theorem getSlot_sim {o : ObjectRef} {slot : Nat} :
    S.Sim Eq (Run.getSlot o slot) (Run.getSlot o slot) := by
  refine Sim.look_bind fun m d => ?_
  simp only [Machine.heap_atDepth, Machine.cls_atDepth, Machine.classOf_atDepth]
  cases m.heap.slot? o slot with
  | some v => exact Sim.pure rfl
  | none => exact Sim.failure rfl

theorem setSlot_sim {o : ObjectRef} {slot : Nat} {v : Value} :
    S.Sim Eq (Run.setSlot o slot v) (Run.setSlot o slot v) := by
  refine Sim.intro fun m d hr => ?_
  unfold Run.setSlot
  rw [Run.bind_apply, Run.bind_apply, Run.get_apply, Run.get_apply]
  simp only [Machine.heap_atDepth, Machine.cls_atDepth, Machine.classOf_atDepth]
  cases m.heap.slot? o slot with
  | some _ => exact outcome_change hr (.slot m o slot v)
  | none => exact ⟨rfl, S.allows_of rfl, hr, .refl m⟩

theorem outOfBounds_sim {Q : α → β → Prop} {a : ArrayRef} {i : Int32} :
    S.Sim Q (Run.outOfBounds a i) (Run.outOfBounds a i) :=
  Sim.look_bind fun _ _ => Sim.failure rfl

theorem getElement_sim {a : ArrayRef} {i : Int32} :
    S.Sim Eq (Run.getElement a i) (Run.getElement a i) := by
  refine Sim.look_bind fun m d => ?_
  rw [Machine.heap_atDepth]
  cases m.heap.element? a i with
  | some v => exact Sim.pure rfl
  | none => exact outOfBounds_sim

theorem setElement_sim {a : ArrayRef} {i : Int32} {v : Value} :
    S.Sim Eq (Run.setElement a i v) (Run.setElement a i v) := by
  refine Sim.intro fun m d hr => ?_
  unfold Run.setElement
  rw [Run.bind_apply, Run.bind_apply, Run.get_apply, Run.get_apply]
  simp only [Machine.heap_atDepth]
  cases m.heap.position? a i with
  | some p => exact outcome_change hr (.element m a p v)
  | none => exact ⟨rfl, S.allows_of rfl, hr, .refl m⟩

/-! ### Classes -/

theorem loadThrough_sim {l : LoaderRef} {name : String} :
    S.Sim Eq (Run.loadThrough l name) (Run.loadThrough l name) := by
  refine Sim.intro fun m d hr => ?_
  have hchange : m.Change S.strict _ := .load m l name
  have hc := S.change hr hchange
  have he := hchange.evolves
  unfold Run.loadThrough
  rw [Machine.realm_atDepth]
  rcases hl : Load.load l name m.realm with ⟨e | c, r⟩ <;> rw [hl] at hc he
  · exact ⟨rfl, S.allows_of rfl, hc, he⟩
  · exact ⟨rfl, hc, he⟩

/-- A class that has been loaded into a sound realm is a class of its table. -/
theorem has_of_loadThrough {l : LoaderRef} {name : String} {m m' : Machine} {c : ClassRef}
    (hm : m.realm.Sound) (h : Run.loadThrough l name m = some (.ok c, m')) :
    m'.classes.Has c := by
  obtain ⟨-, -, hresult⟩ := Load.load_safe True l name m.realm fun _ => hm
  unfold Run.loadThrough at h
  rcases hl : Load.load l name m.realm with ⟨e | a, r⟩ <;> rw [hl] at h hresult
  · cases h
  · cases h
    exact hresult trivial c rfl

theorem loadClass_sim {name : String} : S.Sim Eq (Run.loadClass name) (Run.loadClass name) :=
  Sim.look_bind fun _ _ => loadThrough_sim

theorem resolveClass_sim {c : ClassRef} {name : String} :
    S.Sim Eq (Run.resolveClass c name) (Run.resolveClass c name) := by
  refine Sim.look_bind fun m d => ?_
  simp only [Machine.cls_atDepth, Machine.realm_atDepth, Machine.entry_atDepth]
  refine Sim.ite (fun _ => Sim.pure rfl) fun _ => ?_
  exact Sim.ite (fun _ => loadThrough_sim) fun _ => loadThrough_sim

/-- A class of the table resolves names to classes of the table. -/
theorem has_of_resolveClass {current : ClassRef} {name : String} {m m' : Machine} {c : ClassRef}
    (hm : m.realm.Sound) (hcurrent : m.classes.Has current)
    (h : Run.resolveClass current name m = some (.ok c, m')) : m'.classes.Has c := by
  have happ : Run.resolveClass current name m =
      (if (m.cls current).name = name then pure current
      else if m.realm.hasLiveLoader current then Run.loadThrough (m.cls current).loader name
      else Run.loadThrough m.entry name : Run ClassRef) m := rfl
  rw [happ] at h
  split at h
  · cases h
    exact hcurrent
  split at h
  · exact has_of_loadThrough hm h
  · exact has_of_loadThrough hm h

theorem note_sim {e : Event} : S.Sim Eq (Run.note e) (Run.note e) :=
  Sim.modify (fun m => .event m e) fun _ _ => rfl

end Simulation

end Interpose
