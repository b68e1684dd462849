import Interpose.Proofs.AssembledStubs
import Interpose.Proofs.WellFormedCode
import Mathlib.Data.List.Forall2
import Mathlib.Data.List.Induction
/-!
# Labels

What a draft comes to is said here of the directives alone, without the label table that is kept while
they are followed. A label is *bound* if it is marked when it has been allocated, and it stands where
it is marked last, which is told by how many instructions were emitted before that. Jumps play no part
in this: they are looked at when the draft is finished, so it does not matter on which side of a jump
its label is marked.

A mark of a label that has not been allocated yet is lost, even if the label is allocated later on.
Labels that are marked as they were handed out are never so early; for them to be bound is to be
marked at all, as `bound_iff_mem` says.

The induction goes along the directives from the front, by adding one at the end: what the last
directive does to a label is all there is to know about it.

## Main definitions

* `Draft.Bound`: labels that are marked in time
* `Draft.LastMark`: the last mark of a label, and what stands before and behind it
* `Draft.Linked`: an emitted instruction, and what it becomes

## Main results

* `Draft.place?_step`: what one directive does to a label
* `Draft.place?_run_iff`: where a label stands in the end
* `Draft.link_eq_ok_iff`, `Draft.link_eq_error_iff`: what becomes of an instruction
* `Draft.finish_resolves`: what a draft comes to, and that it survives being written
-/

namespace Interpose

namespace Results

variable {ε α β : Type} {f : α → Except ε β}

theorem mapM_eq_ok_iff {l : List α} {bs : List β} :
    l.mapM f = .ok bs ↔ List.Forall₂ (fun a b => f a = .ok b) l bs := by
  constructor
  · intro h
    obtain ⟨hlen, hget⟩ := mapM_eq_ok h
    refine List.forall₂_iff_get.2 ⟨hlen.symm, fun i hi hi' => ?_⟩
    obtain ⟨b, hb, hf⟩ := hget i _ (List.getElem?_eq_getElem hi)
    rw [List.getElem?_eq_getElem hi', Option.some.injEq] at hb
    simpa [hb] using hf
  · intro h
    induction h with
    | nil => rfl
    | cons ha _ ih =>
      rw [List.mapM_cons, ha, ih]
      rfl

theorem exists_mapM_eq_ok_iff {l : List α} :
    (∃ bs, l.mapM f = .ok bs) ↔ ∀ a ∈ l, ∃ b, f a = .ok b := by
  constructor
  · rintro ⟨bs, h⟩ a ha
    obtain ⟨p, hp⟩ := List.getElem?_of_mem ha
    obtain ⟨b, -, hb⟩ := (mapM_eq_ok h).2 p a hp
    exact ⟨b, hb⟩
  · exact exists_mapM_eq_ok

/-- The first element without a result decides. -/
theorem mapM_eq_error_of_split {before after : List α} {a : α} {e : ε}
    (hbefore : ∀ b ∈ before, ∃ c, f b = .ok c) (ha : f a = .error e) :
    (before ++ a :: after).mapM f = .error e := by
  induction before with
  | nil =>
    rw [List.nil_append, List.mapM_cons, ha]
    rfl
  | cons b before ih =>
    obtain ⟨c, hc⟩ := hbefore b List.mem_cons_self
    have hrest := ih fun b' hb' => hbefore b' (List.mem_cons_of_mem b hb')
    rw [List.cons_append, List.mapM_cons, hc, hrest]
    rfl

end Results

/-- Where lists are related element by element, each element has one that it is related to. -/
theorem exists_of_forall₂ {α β : Type} {R : α → β → Prop} {l : List α} {l' : List β}
    (h : List.Forall₂ R l l') {b : β} (hb : b ∈ l') : ∃ a ∈ l, R a b := by
  obtain ⟨p, hp, rfl⟩ := List.getElem_of_mem hb
  have hp' : p < l.length := h.length_eq ▸ hp
  exact ⟨l[p], List.getElem_mem hp', h.get hp' hp⟩

namespace Draft

/-- A label is marked when it has been allocated. The labels that have been allocated are as many as
the directives that allocate, and are numbered from nothing. -/
def Bound (directives : List Directive) (label : Nat) : Prop :=
  ∃ before after, directives = before ++ .mark label :: after ∧ label < before.count .newLabel

/-- The last mark of a label, between what stands before it and what stands behind. -/
structure LastMark (directives : List Directive) (label : Nat) (before after : List Directive) :
    Prop where
  split : directives = before ++ .mark label :: after
  last : .mark label ∉ after

/-- What becomes of an emitted instruction. The label of a jump becomes the number of instructions
before its last mark, and any other instruction stays as it is. -/
inductive Linked (directives : List Directive) : Instruction → Instruction → Prop
  | jump {c : Condition} {label : Nat} {before after : List Directive}
    (hbound : Bound directives label) (hlast : LastMark directives label before after) :
    Linked directives (.jump c label) (.jump c (emissions before).length)
  | straight {i : Instruction} (h : i.target? = none) : Linked directives i i

variable {d : Draft} {directives before after : List Directive} {x : Directive}
variable {label n : Nat}

/-! ### Directives at the end -/

theorem emissions_append : emissions (before ++ after) = emissions before ++ emissions after :=
  List.filterMap_append

theorem run_concat (d : Draft) (directives : List Directive) (x : Directive) :
    d.run (directives ++ [x]) = (d.run directives).step x := by
  simp [run]

/-- **One directive.** A mark moves its label, if it has been allocated, and nothing else moves it. -/
theorem place?_step (d : Draft) (x : Directive) (label : Nat) : (d.step x).place? label =
    if x = .mark label ∧ label < d.labels.size then some d.emitted.size else d.place? label := by
  cases x with
  | newLabel =>
    by_cases hl : label = d.labels.size <;> simp [step, place?, Array.getElem?_push, hl]
  | emit i => simp [step, place?]
  | mark l =>
    by_cases hl : l = label
    · by_cases hlt : label < d.labels.size <;> simp [step, place?, hl, hlt]
    · simp [step, place?, hl]

theorem Bound.lt (h : Bound directives label) : label < directives.count .newLabel := by
  obtain ⟨before, after, rfl, hlt⟩ := h
  rw [List.count_append]
  omega

theorem Bound.mem (h : Bound directives label) : .mark label ∈ directives := by
  obtain ⟨before, after, rfl, -⟩ := h
  simp

/-- A list that is split and has one more at the end is split in the last place, or before it. -/
theorem concat_eq_append_cons {α : Type} {l l₁ l₂ : List α} {a b : α}
    (h : l ++ [a] = l₁ ++ b :: l₂) :
    l = l₁ ∧ a = b ∧ l₂ = [] ∨ ∃ l₃, l₂ = l₃ ++ [a] ∧ l = l₁ ++ b :: l₃ := by
  induction l₂ using List.reverseRecOn with
  | nil =>
    obtain ⟨hl, hab⟩ := List.append_inj' h rfl
    exact .inl ⟨hl, by simpa using hab, rfl⟩
  | append_singleton l₃ c =>
    rw [← List.cons_append, ← List.append_assoc] at h
    obtain ⟨hl, hac⟩ := List.append_inj' h rfl
    exact .inr ⟨l₃, by simpa using hac.symm, hl⟩

theorem bound_concat : Bound (directives ++ [x]) label ↔
    Bound directives label ∨ x = .mark label ∧ label < directives.count .newLabel := by
  constructor
  · rintro ⟨before, after, hsplit, hlt⟩
    rcases concat_eq_append_cons hsplit with ⟨rfl, rfl, -⟩ | ⟨after', -, rfl⟩
    · exact .inr ⟨rfl, hlt⟩
    · exact .inl ⟨before, after', rfl, hlt⟩
  · rintro (⟨before, after, rfl, hlt⟩ | ⟨rfl, hlt⟩)
    · exact ⟨before, after ++ [x], by simp, hlt⟩
    · exact ⟨directives, [], rfl, hlt⟩

theorem lastMark_concat_self :
    LastMark (directives ++ [.mark label]) label before after ↔ before = directives ∧ after = [] := by
  constructor
  · rintro ⟨hsplit, hlast⟩
    rcases concat_eq_append_cons hsplit with ⟨rfl, -, rfl⟩ | ⟨after', rfl, -⟩
    · exact ⟨rfl, rfl⟩
    · exact absurd (by simp) hlast
  · rintro ⟨rfl, rfl⟩
    exact ⟨rfl, List.not_mem_nil⟩

theorem lastMark_concat_of_ne (hx : x ≠ .mark label) :
    LastMark (directives ++ [x]) label before after ↔
      ∃ after', after = after' ++ [x] ∧ LastMark directives label before after' := by
  constructor
  · rintro ⟨hsplit, hlast⟩
    rcases concat_eq_append_cons hsplit with ⟨-, rfl, -⟩ | ⟨after', rfl, hsplit'⟩
    · exact absurd rfl hx
    · exact ⟨after', rfl, hsplit', fun hmem => hlast (List.mem_append_left _ hmem)⟩
  · rintro ⟨after', rfl, rfl, hlast⟩
    exact ⟨by simp, by simpa [hx.symm] using hlast⟩

/-! ### Where labels stand -/

/-- **Where a label stands.** In the end a label stands where it was marked last, if it is bound, and
nowhere else. The induction is on the directives, from the front. -/
theorem place?_run_iff : (run {} directives).place? label = some n ↔ Bound directives label ∧
    ∃ before after, LastMark directives label before after ∧ (emissions before).length = n := by
  induction directives using List.reverseRecOn with
  | nil =>
    refine iff_of_false (by simp [run, place?]) ?_
    rintro ⟨hbound, -⟩
    exact absurd hbound.lt (by simp)
  | append_singleton directives x ih =>
    have hsize : (run {} directives).labels.size = directives.count .newLabel := by
      simp [size_labels_run]
    have hemitted : (run {} directives).emitted.size = (emissions directives).length := by
      rw [← Array.length_toList, emitted_run]
      rfl
    rw [run_concat, place?_step, hsize, hemitted, bound_concat]
    by_cases hx : x = .mark label
    · subst hx
      by_cases hlt : label < directives.count .newLabel
      · simp [lastMark_concat_self, hlt]
      · have hnot : ¬Bound directives label := fun hbound => hlt hbound.lt
        simp [ih, hlt, hnot]
    · simp only [hx, false_and, if_false, or_false, ih, lastMark_concat_of_ne hx]
      refine and_congr_right fun _ => ⟨?_, ?_⟩
      · rintro ⟨before, after, hlast, hn⟩
        exact ⟨before, after ++ [x], ⟨after, rfl, hlast⟩, hn⟩
      · rintro ⟨before, -, ⟨after, -, hlast⟩, hn⟩
        exact ⟨before, after, hlast, hn⟩

/-- What is marked is marked somewhere for the last time. -/
theorem exists_lastMark (h : .mark label ∈ directives) :
    ∃ before after, LastMark directives label before after := by
  induction directives using List.reverseRecOn with
  | nil => exact absurd h List.not_mem_nil
  | append_singleton directives x ih =>
    by_cases hx : x = .mark label
    · subst hx
      exact ⟨directives, [], lastMark_concat_self.2 ⟨rfl, rfl⟩⟩
    · obtain ⟨before, after, hlast⟩ := ih (by simpa [Ne.symm hx] using h)
      exact ⟨before, after ++ [x], (lastMark_concat_of_ne hx).2 ⟨after, rfl, hlast⟩⟩

theorem isSome_place?_run_iff :
    ((run {} directives).place? label).isSome ↔ Bound directives label := by
  simp only [Option.isSome_iff_exists, place?_run_iff]
  constructor
  · rintro ⟨n, hbound, -⟩
    exact hbound
  · intro hbound
    obtain ⟨before, after, hlast⟩ := exists_lastMark hbound.mem
    exact ⟨_, hbound, before, after, hlast, rfl⟩

/-- If no label is marked before it has been allocated, those that are marked are bound. -/
theorem bound_iff_mem (h : ∀ before label after, directives = before ++ .mark label :: after →
    label < before.count .newLabel) :
    Bound directives label ↔ label < directives.count .newLabel ∧ .mark label ∈ directives := by
  constructor
  · exact fun hbound => ⟨hbound.lt, hbound.mem⟩
  · rintro ⟨-, hmem⟩
    obtain ⟨before, after, hsplit⟩ := List.append_of_mem hmem
    exact ⟨before, after, hsplit, h before label after hsplit⟩

/-! ### What becomes of instructions -/

theorem link_jump (d : Draft) (c : Condition) (label : Nat) : d.link (.jump c label) =
    match d.place? label with
    | none => .error (.unboundLabel label)
    | some n => .ok (.jump c n) := rfl

theorem link_of_target? {i : Instruction} (h : i.target? = none) : d.link i = .ok i := by
  rw [link, h]

theorem link_eq_ok_iff {i j : Instruction} :
    (run {} directives).link i = .ok j ↔ Linked directives i j := by
  constructor
  · intro h
    cases i with
    | jump c label =>
      rw [link_jump] at h
      cases hp : (run {} directives).place? label with
      | none => simp [hp] at h
      | some n =>
        obtain ⟨hbound, before, after, hlast, rfl⟩ := place?_run_iff.1 hp
        rw [hp] at h
        cases h
        exact .jump hbound hlast
    | _ =>
      cases h
      exact .straight rfl
  · intro h
    cases h with
    | jump hbound hlast => rw [link_jump, place?_run_iff.2 ⟨hbound, _, _, hlast, rfl⟩]
    | straight h => exact link_of_target? h

theorem link_eq_error_iff {i : Instruction} {e : BuildError} : (run {} directives).link i = .error e ↔
    ∃ c label, i = .jump c label ∧ ¬Bound directives label ∧ e = .unboundLabel label := by
  constructor
  · intro h
    cases i with
    | jump c label =>
      rw [link_jump] at h
      cases hp : (run {} directives).place? label with
      | none =>
        rw [hp] at h
        cases h
        refine ⟨c, label, rfl, ?_, rfl⟩
        rw [← isSome_place?_run_iff, hp]
        simp
      | some n => simp [hp] at h
    | _ => exact nomatch h
  · rintro ⟨c, label, rfl, hbound, rfl⟩
    rw [← isSome_place?_run_iff, Option.not_isSome_iff_eq_none] at hbound
    rw [link_jump, hbound]

theorem exists_link_iff {i : Instruction} : (∃ j, (run {} directives).link i = .ok j) ↔
    ∀ c label, i = .jump c label → Bound directives label := by
  cases hi : (run {} directives).link i with
  | ok j =>
    refine iff_of_true ⟨j, rfl⟩ ?_
    rintro c label rfl
    cases link_eq_ok_iff.1 hi with
    | jump hbound => exact hbound
    | straight h => exact nomatch h
  | error e =>
    obtain ⟨c, label, rfl, hbound, -⟩ := link_eq_error_iff.1 hi
    exact iff_of_false nofun fun h => hbound (h c label rfl)

/-! ### What a draft comes to -/

theorem finish_run (directives : List Directive) :
    (run {} directives).finish = (emissions directives).mapM (run {} directives).link := by
  rw [finish, emitted_run]
  rfl

/-- A draft comes to the instructions that were emitted, in their order, each with its label
replaced. -/
theorem finish_eq_ok_iff {code : List Instruction} : (run {} directives).finish = .ok code ↔
    List.Forall₂ (Linked directives) (emissions directives) code := by
  simp only [finish_run, Results.mapM_eq_ok_iff, link_eq_ok_iff]

/-- A draft comes to nothing if a jump goes to a label that is not bound, and the first that does is
reported. -/
theorem finish_eq_error_iff {e : BuildError} : (run {} directives).finish = .error e ↔
    ∃ before c label after, emissions directives = before ++ .jump c label :: after ∧
      (∀ c' label', .jump c' label' ∈ before → Bound directives label') ∧
      ¬Bound directives label ∧ e = .unboundLabel label := by
  rw [finish_run]
  constructor
  · intro h
    obtain ⟨before, i, after, hsplit, hi, hbefore⟩ := Results.mapM_eq_error h
    obtain ⟨c, label, rfl, hbound, rfl⟩ := link_eq_error_iff.1 hi
    exact ⟨before, c, label, after, hsplit,
      fun c' label' hmem => exists_link_iff.1 (hbefore _ hmem) c' label' rfl, hbound, rfl⟩
  · rintro ⟨before, c, label, after, hsplit, hbefore, hbound, rfl⟩
    rw [hsplit]
    refine Results.mapM_eq_error_of_split (fun i hi => exists_link_iff.2 ?_)
      (link_eq_error_iff.2 ⟨c, label, rfl, hbound, rfl⟩)
    rintro c' label' rfl
    exact hbefore c' label' hi

/-- A jump to a label that is marked first and allocated then. -/
def markedEarly : List Directive := [.mark 0, .newLabel, .emit (.jump .always 0)]

/-- A mark that comes before its label has been allocated is lost: every jump goes to a label that is
allocated and marked at some point, and still the label is reported. -/
theorem early_mark_lost :
    (∀ c label, .jump c label ∈ emissions markedEarly →
      label < markedEarly.count .newLabel ∧ .mark label ∈ markedEarly) ∧
    (run {} markedEarly).finish = .error (.unboundLabel 0) := by
  refine ⟨fun c label hmem => ?_, by decide⟩
  have hemissions : emissions markedEarly = [.jump .always 0] := rfl
  rw [hemissions] at hmem
  cases List.mem_singleton.1 hmem
  exact ⟨by decide, by decide⟩

theorem exists_finish_iff : (∃ code, (run {} directives).finish = .ok code) ↔
    ∀ c label, .jump c label ∈ emissions directives → Bound directives label := by
  simp only [finish_run, Results.exists_mapM_eq_ok_iff, exists_link_iff]
  constructor
  · intro h c label hmem
    exact h _ hmem c label rfl
  · rintro h i hmem c label rfl
    exact h c label hmem

/-! ### As bytes -/

/-- A last mark with an instruction behind it is a place of the program. -/
theorem LastMark.length_lt (h : LastMark directives label before after)
    (hafter : emissions after ≠ []) :
    (emissions before).length < (emissions directives).length := by
  have hsplit : emissions directives = emissions before ++ emissions after := by
    rw [h.split, emissions_append]
    rfl
  have hpos : 0 < (emissions after).length := List.length_pos_iff.2 hafter
  rw [hsplit, List.length_append]
  omega

/-- What a draft comes to is well formed, if no label that is jumped to stands at the end. -/
theorem wellFormed_of_finish {code : List Instruction} (h : (run {} directives).finish = .ok code)
    (hlast : ∀ c label before after, .jump c label ∈ emissions directives →
      LastMark directives label before after → emissions after ≠ [])
    (htags : ∀ tag, .unbox tag ∈ emissions directives → (TypeDesc.ofTag? tag).isSome) :
    Code.WellFormed code := by
  have hlinked := finish_eq_ok_iff.1 h
  constructor
  · intro c n hmem
    obtain ⟨i, hi, hin⟩ := exists_of_forall₂ hlinked hmem
    cases hin with
    | jump hbound hmark =>
      rw [← hlinked.length_eq]
      exact hmark.length_lt (hlast c _ _ _ hi hmark)
    | straight h => exact nomatch h
  · intro tag hmem
    obtain ⟨i, hi, hin⟩ := exists_of_forall₂ hlinked hmem
    cases hin with
    | straight h => exact htags tag hi

/-- **Labels.** A draft comes to a program exactly if every jump that was emitted goes to a label that
is bound. The program is then what was emitted, in order, with the label of each jump replaced by the
number of instructions before its last mark; otherwise the first jump to a label that is not bound is
reported. To be bound is to be allocated and marked, where no label is marked before it has been
allocated. If an instruction follows the last mark of every label that is used and the tags are those
of primitive types, a program that a displacement can span is read from the bytes that are written of
it. -/
theorem finish_resolves (directives : List Directive) :
    ((∃ code, (run {} directives).finish = .ok code) ↔
      ∀ c label, .jump c label ∈ emissions directives → Bound directives label) ∧
    (∀ code, (run {} directives).finish = .ok code ↔
      List.Forall₂ (Linked directives) (emissions directives) code) ∧
    (∀ e, (run {} directives).finish = .error e ↔
      ∃ before c label after, emissions directives = before ++ .jump c label :: after ∧
        (∀ c' label', .jump c' label' ∈ before → Bound directives label') ∧
        ¬Bound directives label ∧ e = .unboundLabel label) ∧
    ((∀ before label after, directives = before ++ .mark label :: after →
        label < before.count .newLabel) →
      ∀ label, Bound directives label ↔
        label < directives.count .newLabel ∧ .mark label ∈ directives) ∧
    ∀ code, (run {} directives).finish = .ok code →
      (∀ c label before after, .jump c label ∈ emissions directives →
        LastMark directives label before after → emissions after ≠ []) →
      (∀ tag, .unbox tag ∈ emissions directives → (TypeDesc.ofTag? tag).isSome) →
      (Code.encode code).length < 0x80000000 → Code.decode (Code.encode code) = .ok code := by
  refine ⟨exists_finish_iff, fun code => finish_eq_ok_iff, fun e => finish_eq_error_iff,
    fun h label => bound_iff_mem h, fun code h hlast htags hsize => ?_⟩
  exact (Code.decode_eq_ok_iff hsize).2 ⟨wellFormed_of_finish h hlast htags, rfl⟩

/-- A loop whose start is marked twice, and a jump forward. -/
def loop : List Directive :=
  [.newLabel, .newLabel, .mark 0, .emit (.jump .ifTrue 1), .mark 0, .emit (.loadLocal 0),
    .emit (.jump .always 0), .mark 1, .emit (.unbox 2), .emit (.simple .ret)]

theorem loop_resolves : ∃ code, (run {} loop).finish = .ok code ∧
    code = [.jump .ifTrue 3, .loadLocal 0, .jump .always 1, .unbox 2, .simple .ret] ∧
    Code.decode (Code.encode code) = .ok code := by
  refine ⟨_, by decide, rfl, ?_⟩
  obtain ⟨-, -, -, -, hdecode⟩ := finish_resolves loop
  refine hdecode _ (by decide) (fun c label before after _ hlast => ?_) (fun tag hmem => ?_)
    (by decide)
  · have hend : loop = loop.dropLast ++ [.emit (.simple .ret)] := rfl
    have hret : Directive.emit (.simple .ret) ≠ .mark label := nofun
    rw [hend, lastMark_concat_of_ne hret] at hlast
    obtain ⟨after', rfl, -⟩ := hlast
    rw [emissions_append]
    simp [emissions]
  · obtain rfl : tag = 2 := by simpa [loop, emissions] using hmem
    decide

end Draft

end Interpose
