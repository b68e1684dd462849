import Interpose.Proofs.InsetSteps
/-!
# Closed machines

All arrays that a closed machine refers to are there: those in fields, elements and defaults, and those
in what is noted. This is a matter of course where references are what they refer to. Here they are
numbers, and a machine that is not closed might hold the number of an array that is yet to be made.

No run leads out of closed machines. That needs no further look at what a run does. An inset that lies
ahead of all arrays that there are in the end is never set in, so all it could do is to move references
to arrays that are not there. On a closed machine it has nothing to move. The run is carried over, to
itself thus, and so the inset leaves what the run comes to as it is, too: there is nothing to move
either.

## Main definitions

* `Value.Within`, `Machine.Closed`
* `Handler.IgnoresNumbers`: numbers of arrays mean nothing to a handler

## Main results

* `Machine.Closed.machine_eq`: behind all arrays, an inset adds its own and changes nothing else
* `Machine.Closed.of_execute`: what an execution leaves is closed
-/

namespace Interpose

/-! ### Closed machines -/

/-- A value that is an array only if it is one of the first so many. -/
def Value.Within (n : Nat) : Value → Prop
  | .array a => a.index < n
  | _ => True

instance (n : Nat) : DecidablePred (Value.Within n)
  | .array a => inferInstanceAs (Decidable (a.index < n))
  | .null | .bool _ | .int _ | .long _ | .double _ | .text _ | .object _ | .cls _ => .isTrue trivial

/-- A call whose values are such. -/
structure CallRecord.Within (n : Nat) (call : CallRecord) : Prop where
  receiver : call.receiver.Within n
  args : ∀ v ∈ call.args, v.Within n

/-- An event that notes no others. -/
def Event.Within (n : Nat) : Event → Prop
  | .called call | .substituted _ call => call.Within n
  | .initializing _ | .substitutedInit _ _ => True

/-- A machine that holds no others. -/
structure Machine.HoldsWithin (n : Nat) (m : Machine) : Prop where
  objects : ∀ x ∈ m.heap.objects, ∀ v ∈ x.slots, v.Within n
  arrays : ∀ x ∈ m.heap.arrays, ∀ v ∈ x, v.Within n
  defaults : ∀ k ∈ m.classes.classes, ∀ v ∈ k.fieldDefaults, v.Within n
  statics : ∀ k ∈ m.classes.classes, ∀ v ∈ k.statics, v.Within n
  journal : ∀ e ∈ m.journal, e.Within n

/-- All arrays that are referred to anywhere on a machine are there. -/
def Machine.Closed (m : Machine) : Prop := m.HoldsWithin m.heap.arrays.size

section Mono

variable {n n' : Nat} (hn : n ≤ n')

include hn

theorem Value.Within.mono {v : Value} (h : v.Within n) : v.Within n' := by
  cases v with
  | array a => exact Nat.lt_of_lt_of_le h hn
  | _ => trivial

theorem CallRecord.Within.mono {call : CallRecord} (h : call.Within n) : call.Within n' :=
  ⟨h.receiver.mono hn, fun v hv => (h.args v hv).mono hn⟩

theorem Event.Within.mono {e : Event} (h : e.Within n) : e.Within n' := by
  cases e with
  | called | substituted => exact CallRecord.Within.mono hn h
  | _ => trivial

theorem Machine.HoldsWithin.mono {m : Machine} (h : m.HoldsWithin n) : m.HoldsWithin n' where
  objects x hx v hv := (h.objects x hx v hv).mono hn
  arrays x hx v hv := (h.arrays x hx v hv).mono hn
  defaults k hk v hv := (h.defaults k hk v hv).mono hn
  statics k hk v hv := (h.statics k hk v hv).mono hn
  journal e he := (h.journal e he).mono hn

end Mono

namespace Inset

theorem map_eq_self_iff {α : Type} {f : α → α} {xs : Array α} :
    xs.map f = xs ↔ ∀ x ∈ xs, f x = x := by
  conv => lhs; rhs; rw [← Array.map_id xs]
  exact Array.map_inj_left

variable {s : Inset}

/-- Arrays before the inset are not moved. -/
theorem value_of_within {v : Value} (h : v.Within s.first) : s.value v = v := by
  cases v with
  | array a => exact congrArg Value.array (if_pos h)
  | _ => rfl

theorem list_of_within {vs : List Value} (h : ∀ v ∈ vs, v.Within s.first) : vs.map s.value = vs := by
  rw [List.map_congr_left fun v hv => value_of_within (h v hv), List.map_id']

variable (hs : s.items ≠ #[])

include hs

/-- An inset that is not empty leaves just those values as they are that are no arrays behind it. -/
theorem value_eq_iff {v : Value} : s.value v = v ↔ v.Within s.first := by
  refine ⟨fun h => ?_, value_of_within⟩
  cases v with
  | array a =>
    refine Decidable.byContradiction fun hbehind : ¬a.index < s.first => ?_
    have hindex : a.index + s.items.size = a.index := by
      rw [value, array, if_neg hbehind] at h
      exact congrArg ArrayRef.index (Value.array.inj h)
    exact hs (Array.eq_empty_of_size_eq_zero (Nat.add_eq_left.1 hindex))
  | _ => trivial

theorem list_eq_iff {vs : List Value} : vs.map s.value = vs ↔ ∀ v ∈ vs, v.Within s.first := by
  conv => lhs; rhs; rw [← List.map_id vs]
  rw [List.map_inj_left]
  exact forall₂_congr fun v _ => value_eq_iff hs

theorem array_eq_iff {vs : Array Value} : vs.map s.value = vs ↔ ∀ v ∈ vs, v.Within s.first := by
  rw [map_eq_self_iff]
  exact forall₂_congr fun v _ => value_eq_iff hs

theorem object_eq_iff {x : Instance} : s.object x = x ↔ ∀ v ∈ x.slots, v.Within s.first := by
  rw [← array_eq_iff hs]
  exact ⟨congrArg Instance.slots, congrArg (Instance.mk x.cls)⟩

theorem cls_eq_iff {k : LoadedClass} : s.cls k = k ↔
    (∀ v ∈ k.fieldDefaults, v.Within s.first) ∧ ∀ v ∈ k.statics, v.Within s.first := by
  rw [← array_eq_iff hs, ← array_eq_iff hs]
  refine ⟨fun h => ⟨congrArg LoadedClass.fieldDefaults h, congrArg LoadedClass.statics h⟩,
    fun ⟨hd, hst⟩ => ?_⟩
  rw [cls, hd, hst]

theorem call_eq_iff {call : CallRecord} : s.call call = call ↔ call.Within s.first := by
  refine ⟨fun h => ⟨(value_eq_iff hs).1 (congrArg CallRecord.receiver h),
    (list_eq_iff hs).1 (congrArg CallRecord.args h)⟩, fun h => ?_⟩
  rw [Inset.call, (value_eq_iff hs).2 h.receiver, (list_eq_iff hs).2 h.args]

theorem event_eq_iff {e : Event} : s.event e = e ↔ e.Within s.first := by
  cases e with
  | called call => exact Event.called.injEq .. ▸ call_eq_iff hs
  | substituted shadow call =>
    rw [event, Event.substituted.injEq, and_iff_right rfl]
    exact call_eq_iff hs
  | initializing | substitutedInit => exact iff_of_true rfl trivial

/-- The tables of a machine are as they were if no references move. -/
theorem tables_eq_iff {m : Machine} :
    (m.classes.classes.map s.cls = m.classes.classes ∧ m.heap.objects.map s.object = m.heap.objects ∧
      m.heap.arrays.map (·.map s.value) = m.heap.arrays ∧ m.journal.map s.event = m.journal) ↔
      m.HoldsWithin s.first := by
  simp only [map_eq_self_iff, cls_eq_iff hs, object_eq_iff hs, array_eq_iff hs, event_eq_iff hs]
  exact ⟨fun ⟨hc, ho, ha, hj⟩ => ⟨ho, ha, fun k hk => (hc k hk).1, fun k hk => (hc k hk).2, hj⟩,
    fun h => ⟨fun k hk => ⟨h.defaults k hk, h.statics k hk⟩, h.objects, h.arrays, h.journal⟩⟩

/-- An inset that is not set in yet leaves a machine as it is if no references move. -/
theorem machine_eq_iff {m : Machine} (h : ¬s.Placed m.heap.arrays.size) :
    s.machine m = m ↔ m.HoldsWithin s.first := by
  rw [← tables_eq_iff hs]
  have harrays : s.arrays m.heap.arrays = m.heap.arrays.map (·.map s.value) := if_neg h
  refine ⟨fun hm => ⟨congrArg (·.classes.classes) hm, congrArg (·.heap.objects) hm,
    harrays.symm.trans (congrArg (·.heap.arrays) hm), congrArg (·.journal) hm⟩, ?_⟩
  rintro ⟨hc, ho, ha, hj⟩
  have hc' : m.realm.classes.classes.map s.cls = m.realm.classes.classes := hc
  rw [machine, realm, table, hc', heap, harrays, ho, ha, hj]

end Inset

/-- **Closed machines.** Behind all arrays of a closed machine, an inset adds its own and leaves
everything else as it is. -/
theorem Machine.Closed.machine_eq {m : Machine} (h : m.Closed) {items : Array (Array Value)}
    (hitems : items ≠ #[]) :
    Inset.machine { first := m.heap.arrays.size, items := items } m =
      { m with heap := { m.heap with arrays := m.heap.arrays ++ items } } := by
  let s : Inset := { first := m.heap.arrays.size, items := items }
  obtain ⟨hc, ho, ha, hj⟩ := (Inset.tables_eq_iff (s := s) hitems).2 h
  have hc' : m.realm.classes.classes.map s.cls = m.realm.classes.classes := hc
  have hplaced : s.Placed m.heap.arrays.size := Nat.le_refl _
  have harrays : s.arrays m.heap.arrays = m.heap.arrays ++ items := by
    rw [Inset.arrays, if_pos hplaced, ha, Array.extract_size,
      Array.extract_empty_of_size_le_start (Nat.le_refl _), Array.append_empty]
  show s.machine m = _
  rw [Inset.machine, Inset.realm, Inset.table, hc', Inset.heap, ho, harrays, hj]

/-! ### Executions -/

/-- A handler to which numbers of arrays mean nothing, and which refers to none but the first so
many. -/
def Handler.IgnoresNumbers (n : Nat) (h : Handler) : Prop :=
  ∀ s : Inset, n ≤ s.first → s.CarriesHandler h

/-- An outcome whose value is such, be it answered or thrown. -/
def AnswersWithin (n : Nat) : Except VmError Value → Prop
  | .ok v | .error (.thrown v) => v.Within n
  | .error _ => True

theorem Inset.result_eq_iff {s : Inset} (hs : s.items ≠ #[]) {r : Except VmError Value} :
    s.result s.value r = r ↔ AnswersWithin s.first r := by
  cases r with
  | ok v =>
    rw [result, Except.ok.injEq]
    exact value_eq_iff hs
  | error e =>
    cases e with
    | thrown v =>
      rw [result, error, Except.error.injEq, VmError.thrown.injEq]
      exact value_eq_iff hs
    | _ => exact iff_of_true rfl trivial

namespace Machine.Closed

variable {m m' : Machine} {r : Except VmError Value}

/-- A computation that all insets carry over, unless they are set in among the arrays that are there
already, leads from closed machines to closed machines. -/
theorem of_carries {x : Run Value} (h : m.Closed)
    (hx : ∀ s : Inset, m.heap.arrays.size ≤ s.first → s.Carries s.value x x)
    (hr : x m = some (r, m')) : m'.Closed ∧ AnswersWithin m'.heap.arrays.size r := by
  -- Even at the end there are too few arrays for this inset.
  let s : Inset := { first := m'.heap.arrays.size, items := #[#[]], ahead := true }
  have hs : s.items ≠ #[] := Array.size_pos_iff.1 Nat.zero_lt_one
  have hgrows : m.heap.arrays.size ≤ m'.heap.arrays.size :=
    (hx ⟨m.heap.arrays.size, #[], false⟩ (Nat.le_refl _)).grows m r m' hr
  have hplaced' : ¬s.Placed m'.heap.arrays.size := Nat.not_succ_le_self _
  have hplaced : ¬s.Placed m.heap.arrays.size := fun hm => hplaced' (Nat.le_trans hm hgrows)
  have hm : s.machine m = m := (Inset.machine_eq_iff hs hplaced).2 (h.mono hgrows)
  have hrun := (hx s hgrows).run m r m' hr fun hm' => absurd hm' hplaced'
  rw [hm, hr] at hrun
  obtain ⟨hresult, hmachine⟩ := Prod.mk.inj (Option.some.inj hrun)
  exact ⟨(Inset.machine_eq_iff hs hplaced').1 hmachine.symm, (Inset.result_eq_iff hs).1 hresult.symm⟩

/-- **Executions.** Methods that are handed nothing else leave a closed machine, and answer with what
is there. -/
theorem of_execute (h : m.Closed) {handlers : Handlers}
    (hhandlers : ∀ ref, (handlers ref).IgnoresNumbers m.heap.arrays.size) {args : List Value}
    (hargs : ∀ v ∈ args, v.Within m.heap.arrays.size) {fuel : Nat} {c : ClassRef} {i : Nat}
    (hr : executeWith handlers fuel c i args m = some (r, m')) :
    m'.Closed ∧ AnswersWithin m'.heap.arrays.size r := by
  refine h.of_carries (fun s hs => ?_) hr
  have := Inset.executeWith_carries (fun ref => hhandlers ref s hs) fuel
  have hsame : s.Takes (List.map s.value) args args :=
    ⟨(Inset.list_of_within fun v hv => (hargs v hv).mono hs).symm⟩
  infer_instance

end Machine.Closed

end Interpose
