import Interpose.Instrument.Constructor
import Interpose.Proofs.Stubs
/-!
# Stubs can be assembled

Assembling fails for one reason only, a jump to a label that was never marked. A label that has been
allocated and is marked later on stands somewhere in the end, so a program whose labels are allocated
first assembles if each label that it jumps to is marked. Stubs are such programs, and so splitting a
constructor fails no later than at the cut.

## Main definitions

* `Draft.Places`: a label that stands somewhere or is still to be marked

## Main results

* `Item.exists_assemble`: programs that mark what they jump to
* `StubTarget.exists_assemble`
-/

namespace Interpose

/-- A list is gone through if every element has a result. -/
theorem Results.exists_mapM_eq_ok {ε α β : Type} {f : α → Except ε β} {l : List α}
    (h : ∀ a ∈ l, ∃ b, f a = .ok b) : ∃ bs, l.mapM f = .ok bs := by
  induction l with
  | nil => exact ⟨[], rfl⟩
  | cons a l ih =>
    obtain ⟨b, hb⟩ := h a List.mem_cons_self
    obtain ⟨bs, hbs⟩ := ih fun a' ha' => h a' (List.mem_cons_of_mem a ha')
    rw [List.mapM_cons, hb, hbs]
    exact ⟨b :: bs, rfl⟩

/-! ### Labels -/

namespace Draft

variable {d : Draft} {directives : List Directive} {label : Nat}

/-- A label stands somewhere, or it has been allocated and is to be marked. -/
def Places (d : Draft) (directives : List Directive) (label : Nat) : Prop :=
  (d.place? label).isSome ∨ label < d.labels.size ∧ .mark label ∈ directives

theorem Places.step {x : Directive} (h : d.Places (x :: directives) label) :
    (d.step x).Places directives label := by
  cases x with
  | newLabel =>
    have hpush : (d.step .newLabel).place? label =
        (if label = d.labels.size then some none else d.labels[label]?).join :=
      congrArg Option.join Array.getElem?_push
    refine h.imp (fun h => ?_) fun h => ⟨?_, ?_⟩
    · rw [hpush, if_neg]
      · exact h
      · rintro rfl
        rw [place?, Array.getElem?_eq_none (Nat.le_refl _)] at h
        exact nomatch h
    · rw [show (d.step .newLabel).labels.size = d.labels.size + 1 from Array.size_push _]
      exact Nat.lt_succ_of_lt h.1
    · exact (List.mem_cons.1 h.2).resolve_left Directive.noConfusion
  | emit i =>
    exact h.imp id fun h => ⟨h.1, (List.mem_cons.1 h.2).resolve_left Directive.noConfusion⟩
  | mark l =>
    have hset : (d.step (.mark l)).place? label =
        (if l = label then if l < d.labels.size then some (some d.emitted.size) else none
          else d.labels[label]?).join :=
      congrArg Option.join Array.getElem?_setIfInBounds
    by_cases hl : l = label
    · subst hl
      have hlt : l < d.labels.size := by
        refine h.elim (fun h => ?_) And.left
        refine Nat.lt_of_not_le fun hle => ?_
        rw [place?, Array.getElem?_eq_none hle] at h
        exact nomatch h
      rw [Places, hset, if_pos rfl, if_pos hlt]
      exact .inl rfl
    · refine h.imp (fun h => ?_) fun h => ⟨?_, ?_⟩
      · rw [hset, if_neg hl]
        exact h
      · rw [show (d.step (.mark l)).labels.size = d.labels.size from Array.size_setIfInBounds]
        exact h.1
      · refine (List.mem_cons.1 h.2).resolve_left fun heq => hl ?_
        cases heq
        rfl

/-- When all directives have been followed, the label stands somewhere. -/
theorem Places.isSome_place?_run (h : d.Places directives label) :
    ((d.run directives).place? label).isSome := by
  induction directives generalizing d with
  | nil => exact h.elim id fun h => nomatch h.2
  | cons x rest ih =>
    rw [run_cons]
    exact ih h.step

theorem size_labels_run : (d.run directives).labels.size =
    d.labels.size + directives.count .newLabel := by
  induction directives generalizing d with
  | nil => rfl
  | cons x rest ih =>
    rw [run_cons, ih]
    cases x <;> simp [step, Nat.add_assoc, Nat.add_comm 1]

/-- A draft is finished if the labels of its jumps stand somewhere. -/
theorem exists_finish (h : ∀ i ∈ d.emitted.toList, ∀ label, i.target? = some label →
    (d.place? label).isSome) : ∃ code, d.finish = .ok code := by
  refine Results.exists_mapM_eq_ok fun i hi => ?_
  cases ht : i.target? with
  | none => exact ⟨i, by rw [link, ht]⟩
  | some label =>
    obtain ⟨n, hn⟩ := Option.isSome_iff_exists.1 (h i hi label ht)
    exact ⟨i.mapTarget fun _ => n, by simp only [link, ht, hn]⟩

end Draft

/-! ### Programs -/

namespace Item

variable {pool : Pool} {items before after : List Item} {label : Nat}

theorem resolveAll_append : (resolveAll pool (before ++ after)).1 =
    (resolveAll pool before).1 ++ (resolveAll (resolveAll pool before).2 after).1 := by
  induction before generalizing pool with
  | nil => rfl
  | cons item rest ih => exact congrArg (_ :: ·) ih

theorem mark_mem_resolveAll (h : label ∈ marks items) : .mark label ∈ (resolveAll pool items).1 := by
  induction items generalizing pool with
  | nil => exact nomatch h
  | cons item rest ih =>
    cases item with
    | plain d =>
      cases d with
      | mark l =>
        rcases List.mem_cons.1 h with rfl | h
        · exact List.mem_cons_self
        · exact List.mem_cons_of_mem _ (ih h)
      | _ => exact List.mem_cons_of_mem _ (ih h)
    | _ => exact List.mem_cons_of_mem _ (ih h)

theorem count_newLabel_resolveAll :
    (resolveAll pool items).1.count .newLabel = items.count newLabel := by
  induction items generalizing pool with
  | nil => rfl
  | cons item rest ih =>
    have hhead : (resolveAll pool (item :: rest)).1 =
        (item.resolve pool).1 :: (resolveAll (item.resolve pool).2 rest).1 := rfl
    rw [hhead, List.count_cons, List.count_cons, ih]
    rcases item with (_ | _ | _) | _ | _ | _ | _ | _ | _ <;> rfl

/-- The jumps of a program are written as such. -/
theorem emit_mem_of_emissions {i : Instruction} (ht : i.target? = some label)
    (h : i ∈ Draft.emissions (resolveAll pool items).1) : emit i ∈ items := by
  induction items generalizing pool with
  | nil => exact nomatch h
  | cons item rest ih =>
    cases item with
    | plain d =>
      cases d with
      | emit j =>
        rcases List.mem_cons.1 h with rfl | h
        · exact List.mem_cons_self
        · exact List.mem_cons_of_mem _ (ih h)
      | _ => exact List.mem_cons_of_mem _ (ih h)
    | _ =>
      rcases List.mem_cons.1 h with rfl | h
      · exact nomatch ht
      · exact List.mem_cons_of_mem _ (ih h)

/-- **Assembling.** A program whose labels are allocated first assembles if each label that it jumps
to is marked. -/
theorem exists_assemble (pool : Pool)
    (h : ∀ i, emit i ∈ before ++ after → ∀ label, i.target? = some label →
      label < before.count newLabel ∧ label ∈ marks after) :
    ∃ code pool', assemble pool (before ++ after) = .ok (code, pool') := by
  obtain ⟨code, hcode⟩ : ∃ code, (Draft.run {} (resolveAll pool (before ++ after)).1).finish =
      .ok code := by
    refine Draft.exists_finish fun i hi label ht => ?_
    rw [Draft.emitted_run] at hi
    obtain ⟨hlt, hmark⟩ := h i (emit_mem_of_emissions ht hi) label ht
    rw [resolveAll_append, Draft.run, List.foldl_append]
    refine Draft.Places.isSome_place?_run (.inr ⟨?_, mark_mem_resolveAll hmark⟩)
    rw [← Draft.run, Draft.size_labels_run, count_newLabel_resolveAll]
    exact Nat.lt_add_left _ hlt
  refine ⟨code, (resolveAll pool (before ++ after)).2, ?_⟩
  show (Draft.finish _).map _ = _
  rw [hcode]
  rfl

end Item

/-! ### Stubs -/

namespace StubTarget

open Item (marks emit newLabel)

variable (t : StubTarget)

/-- What pushes an array jumps only where an element does. -/
theorem jump_mem_of_pushArray {elements : List Item} {c : Condition} {label : Nat}
    (h : emit (.jump c label) ∈ pushArray elements) : emit (.jump c label) ∈ elements := by
  rcases List.mem_cons.1 h with h | h
  · cases h
  rcases List.mem_cons.1 h with h | h
  · cases h
  obtain ⟨⟨element, i⟩, hmem, h⟩ := List.mem_flatMap.1 h
  simp only [storeElement, List.mem_cons, List.not_mem_nil, or_false] at h
  rcases h with h | h | rfl | h
  · cases h
  · cases h
  · exact List.fst_mem_of_mem_zipIdx hmem
  · cases h

theorem jump_ne_receiverOrNull {c : Condition} {label : Nat} :
    emit (.jump c label) ≠ t.receiverOrNull := by
  unfold receiverOrNull
  split <;> rintro ⟨⟩

theorem jump_not_mem_pushArguments {c : Condition} {label : Nat} :
    emit (.jump c label) ∉ t.pushArguments := by
  simp [pushArguments, emit, Item.loadLocal]

/-- What asks the handler is straight. -/
theorem jump_not_mem_handlerBlock {c : Condition} {label : Nat} :
    emit (.jump c label) ∉ t.handlerBlock := by
  have hreceiver : emit (.jump c label) ≠ t.receiverOrNull := t.jump_ne_receiverOrNull
  have hnames := mt (@jump_mem_of_pushArray (t.signature.paramNames.map .constString) c label)
    (by simp [emit])
  have hvalues := mt (@jump_mem_of_pushArray t.pushArguments c label) t.jump_not_mem_pushArguments
  have hanswer : emit (.jump c label) ∉ answerBlock t.signature := by
    unfold answerBlock
    repeat' split
    all_goals simp [emit, Item.simple]
  rw [handlerBlock_eq]
  simp only [emit] at hreceiver hnames hvalues hanswer ⊢
  simp [hreceiver, hnames, hvalues, hanswer, Item.mark, Item.simple]

/-- A stub jumps to its own three labels. -/
theorem mem_marks_of_jump {c : Condition} {label : Nat}
    (h : emit (.jump c label) ∈ t.directPart ++ t.handlerBlock) :
    label < 3 ∧ label ∈ marks (t.directPart ++ t.handlerBlock) := by
  have hreceiver : emit (.jump c label) ≠ t.receiverOrNull := t.jump_ne_receiverOrNull
  have hreturn : emit (.jump c label) ≠ returnItem t.signature := by
    unfold returnItem
    split <;> rintro ⟨⟩
  have harguments : emit (.jump c label) ∉ t.pushArguments := t.jump_not_mem_pushArguments
  have hmark : handlerLabel ∈ marks t.handlerBlock := List.mem_cons_self
  have hdirect : directLabel ∈ marks t.directBlock := by
    rw [directBlock_eq]
    exact List.mem_cons_self
  replace h := (List.mem_append.1 h).resolve_right t.jump_not_mem_handlerBlock
  rw [directPart] at h ⊢
  split at h
  · cases h
  rw [if_neg ‹_›, Item.marks_append, Item.marks_append, Item.marks_append, Item.marks_append]
  simp only [List.mem_append] at h ⊢
  rcases h with h | h | h | h
  · -- The marker is looked for on an instance only, and there the clearing block stands.
    cases hs : t.isStatic with
    | true => simp [markerBlock, hs] at h
    | false =>
      have hlabel : label = clearLabel := by
        simp [markerBlock, hs, emit, Item.loadLocal, Item.jump] at h
        exact h.2
      subst hlabel
      exact ⟨by decide, .inl (.inr (.inr (.inr (by simp [clearBlock, hs, marks, Item.mark]))))⟩
  · have hlabel : label = handlerLabel := by
      simp only [emit] at hreceiver h
      simp [decisionBlock, hreceiver, Item.simple, Item.jump] at h
      exact h.2
    exact hlabel ▸ ⟨by decide, .inr hmark⟩
  · rw [directBlock_eq] at h
    simp only [emit] at hreturn harguments h
    simp [hreturn, harguments, pushReceiver, Item.mark, Item.loadLocal] at h
  · have hlabel : label = directLabel := by
      unfold clearBlock at h
      split at h
      · cases h
      · simp [emit, Item.mark, Item.loadLocal, Item.simple, Item.jump] at h
        exact h.2
    exact hlabel ▸ ⟨by decide, .inl (.inr (.inr (.inl hdirect)))⟩

/-- A stub assembles behind whatever it is to stand behind. -/
theorem exists_assemble (pool : Pool) {opening : List Instruction}
    (hstraight : ∀ i ∈ opening, i.target? = none) :
    ∃ code pool', Item.assemble pool (opening.map emit ++ t.items) = .ok (code, pool') := by
  rw [items_eq, ← List.append_assoc]
  refine Item.exists_assemble pool fun i hi label ht => ?_
  rw [List.append_assoc, List.mem_append, List.mem_append] at hi
  rcases hi with hi | hi | hi
  · obtain ⟨j, hj, hij⟩ := List.mem_map.1 hi
    cases hij
    exact nomatch (hstraight i hj).symm.trans ht
  · exact absurd hi (by simp [emit, newLabel])
  · obtain ⟨c, rfl⟩ : ∃ c, i = .jump c label := by
      cases i <;> cases ht
      exact ⟨_, rfl⟩
    obtain ⟨hlt, hmark⟩ := t.mem_marks_of_jump hi
    refine ⟨Nat.lt_of_lt_of_le hlt ?_, hmark⟩
    rw [List.count_append]
    exact Nat.le_add_left 3 _

end StubTarget

end Interpose
