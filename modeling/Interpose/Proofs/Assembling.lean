import Interpose.Assembler
import Interpose.Proofs.Codec
import Interpose.Proofs.Pools
/-!
# Assembled programs

An assembled program holds the instructions of its items in their order. The operands denote what
the items name, and a jump leads to where its label is marked.

This is said by going along the items and counting the instructions before each, so what is said of
items that were put together is said of the parts.

## Main definitions

* `Item.span`: how many instructions items come to
* `Item.Laid`: the items stand in a program, from a place on

## Main results

* `Item.laid_of_assemble`
* `Code.writable_of_near`: programs that can be written
-/

namespace Interpose

/-! ### Drafts -/

namespace Draft

/-- The instructions that directives emit. -/
def emissions (directives : List Directive) : List Instruction :=
  directives.filterMap fun
    | .emit i => some i
    | _ => none

/-- The place of the last mark of a label, counted from a place. -/
def markedAt? (label : Nat) (place : Nat) : List Directive → Option Nat
  | [] => none
  | .newLabel :: rest => markedAt? label place rest
  | .mark l :: rest =>
    match markedAt? label place rest with
    | some n => some n
    | none => if l = label then some place else none
  | .emit _ :: rest => markedAt? label (place + 1) rest

theorem run_cons (d : Draft) (x : Directive) (rest : List Directive) :
    d.run (x :: rest) = (d.step x).run rest := rfl

theorem emitted_run (d : Draft) (directives : List Directive) :
    (d.run directives).emitted.toList = d.emitted.toList ++ emissions directives := by
  induction directives generalizing d with
  | nil => exact (List.append_nil _).symm
  | cons x rest ih =>
    rw [run_cons, ih]
    cases x with
    | newLabel => rfl
    | mark label => rfl
    | emit i =>
      show (d.emitted.push i).toList ++ _ = d.emitted.toList ++ (i :: emissions rest)
      rw [Array.toList_push, List.append_assoc]
      rfl

/-- Where a label stands in the end: where it is marked last, or where it stood before. The label
table only grows, and what is marked without being there is lost. -/
theorem place?_run {d : Draft} {directives : List Directive} {label n : Nat}
    (h : (d.run directives).place? label = some n) :
    markedAt? label d.emitted.size directives = some n ∨
      markedAt? label d.emitted.size directives = none ∧ d.place? label = some n := by
  induction directives generalizing d with
  | nil => exact .inr ⟨rfl, h⟩
  | cons x rest ih =>
    rw [run_cons] at h
    cases x with
    | newLabel =>
      refine (ih h).imp id fun ⟨hrest, hd⟩ => ⟨hrest, ?_⟩
      have hpush : ((d.labels.push none)[label]?).join = some n := hd
      rw [Array.getElem?_push] at hpush
      split at hpush
      · exact nomatch hpush
      · exact hpush
    | emit i =>
      have hrest := ih h
      rw [show (d.step (.emit i)).emitted.size = d.emitted.size + 1 from Array.size_push _] at hrest
      exact hrest
    | mark l =>
      rcases ih h with hrest | ⟨hrest, hd⟩
      · refine .inl ?_
        show (match markedAt? label d.emitted.size rest with
          | some n => some n
          | none => if l = label then some d.emitted.size else none) = some n
        rw [show markedAt? label d.emitted.size rest = some n from hrest]
      · have hrest' : markedAt? label d.emitted.size rest = none := hrest
        have hset : ((d.labels.setIfInBounds l (some d.emitted.size))[label]?).join = some n := hd
        rw [Array.getElem?_setIfInBounds] at hset
        have hmark : markedAt? label d.emitted.size (.mark l :: rest) =
            if l = label then some d.emitted.size else none := by
          rw [markedAt?, hrest']
        rw [hmark]
        by_cases hl : l = label
        · rw [if_pos hl] at hset ⊢
          split at hset
          · exact .inl hset
          · exact nomatch hset
        · rw [if_neg hl] at hset ⊢
          exact .inr ⟨rfl, hset⟩

/-- A program that has been finished holds what was emitted, and its jumps lead to the last marks of
their labels. -/
theorem finish_run_eq_ok {directives : List Directive} {code : List Instruction}
    (h : (run {} directives).finish = .ok code) {place : Nat → Nat}
    (hplace : ∀ label n, markedAt? label 0 directives = some n → place label = n) :
    code = (emissions directives).map (·.mapTarget place) := by
  have hlink : ∀ i j, (run {} directives).link i = .ok j → j = i.mapTarget place := by
    intro i j hij
    unfold link at hij
    cases i with
    | jump c label =>
      dsimp only [InstructionOf.target?] at hij
      split at hij
      · cases hij
      · rename_i n hn
        cases hij
        rcases place?_run hn with hn | ⟨-, hn⟩
        · rw [InstructionOf.mapTarget, InstructionOf.mapTarget, hplace label n hn]
        · exact nomatch (hn : (none : Option Nat) = some n)
    | _ => cases hij; rfl
  have hemitted : (run {} directives).emitted.toList = emissions directives := emitted_run {} _
  obtain ⟨hlen, hget⟩ := Results.mapM_eq_ok (h : (run {} directives).emitted.toList.mapM _ = _)
  rw [hemitted] at hlen hget
  refine List.ext_getElem? fun p => ?_
  rw [List.getElem?_map]
  cases hp : (emissions directives)[p]? with
  | none =>
    rw [List.getElem?_eq_none_iff] at hp
    exact List.getElem?_eq_none (hlen ▸ hp)
  | some i =>
    obtain ⟨j, hj, hij⟩ := hget p i hp
    rw [hj, hlink i j hij]
    rfl

end Draft

/-! ### Items -/

namespace Item

/-- How many instructions an item comes to. -/
def size : Item → Nat
  | plain (.emit _) => 1
  | plain _ => 0
  | _ => 1

/-- How many instructions items come to. -/
def span : List Item → Nat
  | [] => 0
  | item :: rest => item.size + span rest

/-- The labels that items mark. -/
def marks (items : List Item) : List Nat :=
  items.filterMap fun
    | plain (.mark label) => some label
    | _ => none

/-- What stands for an item at a place of a program. -/
def Stands (pool : Pool) (place : Nat → Nat) (code : List Instruction) (p : Nat) : Item → Prop
  | plain .newLabel => True
  | plain (.mark label) => place label = p
  | plain (.emit i) => code[p]? = some (i.mapTarget place)
  | constString s => ∃ i, pool.string? i = some s ∧ code[p]? = some (.constString i)
  | constClass name => ∃ i, pool.class? i = some name ∧ code[p]? = some (.constClass i)
  | new name => ∃ i, pool.class? i = some name ∧ code[p]? = some (.new i)
  | instanceOf name => ∃ i, pool.class? i = some name ∧ code[p]? = some (.instanceOf i)
  | field access owner name =>
    ∃ i, pool.field? i = some ⟨owner, name⟩ ∧ code[p]? = some (.field access i)
  | invoke kind owner name descriptor =>
    ∃ i, pool.method? i = some ⟨owner, name, descriptor⟩ ∧ code[p]? = some (.invoke kind i)

/-- Items stand in a program one after the other, from a place on. -/
def Laid (pool : Pool) (place : Nat → Nat) (code : List Instruction) (p : Nat) : List Item → Prop
  | [] => True
  | item :: rest => item.Stands pool place code p ∧ Laid pool place code (p + item.size) rest

section Laid

variable {pool pool' : Pool} {place : Nat → Nat} {code : List Instruction} {p : Nat}
variable {items rest : List Item}

@[simp] theorem span_nil : span [] = 0 := rfl

@[simp] theorem span_cons (item : Item) : span (item :: rest) = item.size + span rest := rfl

@[simp] theorem span_append : span (items ++ rest) = span items + span rest := by
  induction items with
  | nil => exact (Nat.zero_add _).symm
  | cons item items ih => rw [List.cons_append, span_cons, span_cons, ih, Nat.add_assoc]

@[simp] theorem marks_append : marks (items ++ rest) = marks items ++ marks rest :=
  List.filterMap_append

/-- Items that were put together stand side by side. -/
theorem laid_append :
    Laid pool place code p (items ++ rest) ↔
      Laid pool place code p items ∧ Laid pool place code (p + span items) rest := by
  induction items generalizing p with
  | nil => exact ⟨fun h => ⟨trivial, h⟩, fun h => h.2⟩
  | cons item items ih =>
    rw [List.cons_append, Laid, ih, Laid, span_cons, Nat.add_assoc, and_assoc]

theorem Stands.of_extends (hp : pool.Extends pool') {item : Item}
    (h : item.Stands pool place code p) : item.Stands pool' place code p := by
  cases item with
  | plain d => cases d <;> exact h
  | constString s =>
    obtain ⟨i, hi, hcode⟩ := h
    exact ⟨i, hp.string? hi, hcode⟩
  | constClass name | new name | instanceOf name =>
    obtain ⟨i, hi, hcode⟩ := h
    exact ⟨i, hp.class? hi, hcode⟩
  | field access owner name =>
    obtain ⟨i, hi, hcode⟩ := h
    exact ⟨i, hp.field? hi, hcode⟩
  | invoke kind owner name descriptor =>
    obtain ⟨i, hi, hcode⟩ := h
    exact ⟨i, hp.method? hi, hcode⟩

/-- Items go on standing in a program while its pool grows. -/
theorem Laid.of_extends (hp : pool.Extends pool') (h : Laid pool place code p items) :
    Laid pool' place code p items := by
  induction items generalizing p with
  | nil => trivial
  | cons item rest ih => exact ⟨h.1.of_extends hp, ih h.2⟩

theorem extends_resolve (item : Item) : pool.Extends (item.resolve pool).2 := by
  cases item with
  | plain d => exact .refl pool
  | constString s => exact pool.extends_addString s
  | constClass name => exact pool.extends_addClass name
  | new name => exact pool.extends_addClass name
  | instanceOf name => exact pool.extends_addClass name
  | field access owner name => exact pool.extends_addField owner name
  | invoke kind owner name descriptor => exact pool.extends_addMethod owner name descriptor

theorem extends_resolveAll (items : List Item) : pool.Extends (resolveAll pool items).2 := by
  induction items generalizing pool with
  | nil => exact .refl pool
  | cons item rest ih => exact (extends_resolve item).trans ih

theorem markedAt?_eq_none {label : Nat} (h : label ∉ marks items) :
    Draft.markedAt? label p (resolveAll pool items).1 = none := by
  induction items generalizing pool p with
  | nil => rfl
  | cons item rest ih =>
    cases item with
    | plain d =>
      cases d with
      | newLabel => exact ih h
      | emit i => exact ih h
      | mark l =>
        have hne : l ≠ label := fun hl => h (hl ▸ List.mem_cons_self)
        have hrest : label ∉ marks rest := fun hl => h (List.mem_cons_of_mem l hl)
        show (match Draft.markedAt? label p (resolveAll pool rest).1 with
          | some n => some n
          | none => if l = label then some p else none) = none
        rw [ih hrest, if_neg hne]
    | _ => exact ih h

/-- An item that comes to an instruction is one instruction long, and marks no label. -/
theorem size_of_resolve {item : Item} {i : Instruction} (h : (item.resolve pool).1 = .emit i) :
    item.size = 1 ∧ marks (item :: rest) = marks rest := by
  cases item with
  | plain d =>
    obtain rfl : d = .emit i := h
    exact ⟨rfl, rfl⟩
  | _ => exact ⟨rfl, rfl⟩

/-- An item that comes to an instruction stands wherever that instruction does. -/
theorem stands_of_resolve {item : Item} {i : Instruction} (h : (item.resolve pool).1 = .emit i)
    (hfits : (item.resolve pool).2.Fits) (hcode : code[p]? = some (i.mapTarget place)) :
    item.Stands (item.resolve pool).2 place code p := by
  cases item with
  | plain d =>
    obtain rfl : d = .emit i := h
    exact hcode
  | constString s =>
    cases h
    exact ⟨_, Pool.string?_addString hfits, hcode⟩
  | constClass name | new name | instanceOf name =>
    cases h
    exact ⟨_, Pool.class?_addClass hfits, hcode⟩
  | field access owner name =>
    cases h
    exact ⟨_, Pool.field?_addField hfits, hcode⟩
  | invoke kind owner name descriptor =>
    cases h
    exact ⟨_, Pool.method?_addMethod hfits, hcode⟩

/-- What comes to no instruction is a directive as it stands. -/
theorem eq_plain_of_resolve {item : Item} {d : Directive} (h : (item.resolve pool).1 = d)
    (hd : ∀ i, d ≠ .emit i) : item = .plain d := by
  cases item with
  | plain d' => exact congrArg plain h
  | _ => exact absurd h.symm (hd _)

/-- The items of a program in its place behind others. The induction is on the items: each adds its
instruction to what stands before. -/
theorem laid_of_resolveAll {before : List Instruction} (hfits : (resolveAll pool items).2.Fits)
    (hmarks : (marks items).Nodup)
    (hplace : ∀ label n,
      Draft.markedAt? label before.length (resolveAll pool items).1 = some n → place label = n) :
    Laid (resolveAll pool items).2 place
      (before ++ (Draft.emissions (resolveAll pool items).1).map (·.mapTarget place))
      before.length items := by
  induction items generalizing pool before with
  | nil => trivial
  | cons item rest ih =>
    cases hd : (item.resolve pool).1 with
    | newLabel =>
      obtain rfl := eq_plain_of_resolve hd nofun
      exact ⟨trivial, ih hfits hmarks hplace⟩
    | mark l =>
      obtain rfl := eq_plain_of_resolve hd nofun
      obtain ⟨hl, hrest⟩ : l ∉ marks rest ∧ (marks rest).Nodup := List.nodup_cons.1 hmarks
      have hmark : ∀ label, Draft.markedAt? label before.length
          (resolveAll pool (.plain (.mark l) :: rest)).1 =
          match Draft.markedAt? label before.length (resolveAll pool rest).1 with
          | some n => some n
          | none => if l = label then some before.length else none := fun _ => rfl
      refine ⟨hplace l before.length ?_, ih hfits hrest fun label n hn => hplace label n ?_⟩
      · rw [hmark, markedAt?_eq_none hl]
        exact if_pos rfl
      · rw [hmark, hn]
    | emit i =>
      obtain ⟨hsize, hm⟩ : item.size = 1 ∧ marks (item :: rest) = marks rest := size_of_resolve hd
      have hgrows : (item.resolve pool).2.Extends (resolveAll (item.resolve pool).2 rest).2 :=
        extends_resolveAll rest
      have hds : (resolveAll pool (item :: rest)).1 =
          .emit i :: (resolveAll (item.resolve pool).2 rest).1 := by rw [← hd]; rfl
      have hlen : (before ++ [i.mapTarget place]).length = before.length + 1 := List.length_append
      rw [hds] at hplace ⊢
      have htail : Laid (resolveAll (item.resolve pool).2 rest).2 place
          (before ++ [i.mapTarget place] ++
            (Draft.emissions (resolveAll (item.resolve pool).2 rest).1).map (·.mapTarget place))
          (before ++ [i.mapTarget place]).length rest :=
        ih hfits (hm ▸ hmarks) (by rw [hlen]; exact hplace)
      rw [hlen, List.append_assoc] at htail
      refine ⟨(stands_of_resolve hd (hfits.of_extends hgrows) ?_).of_extends hgrows, ?_⟩
      · rw [List.getElem?_append_right (Nat.le_refl _), Nat.sub_self]
        rfl
      · rw [hsize]
        exact htail

theorem length_emissions (items : List Item) :
    (Draft.emissions (resolveAll pool items).1).length = span items := by
  induction items generalizing pool with
  | nil => rfl
  | cons item rest ih =>
    have hrest : (Draft.emissions (resolveAll (item.resolve pool).2 rest).1).length = span rest := ih
    rw [span_cons, Nat.add_comm, ← hrest]
    cases item with
    | plain d => cases d <;> rfl
    | _ => rfl

/-- **Assembling.** The items stand in the program that they are assembled to, which is no longer
than they are. -/
theorem laid_of_assemble (h : assemble pool items = .ok (code, pool')) (hfits : pool'.Fits)
    (hmarks : (marks items).Nodup) :
    ∃ place, Laid pool' place code 0 items ∧ code.length = span items := by
  obtain ⟨code', hfinish, heq⟩ := Results.map_eq_ok
    (h : ((Draft.run {} (resolveAll pool items).1).finish.map
      fun code => (code, (resolveAll pool items).2)) = .ok (code, pool'))
  cases heq
  obtain ⟨place, hplace⟩ : ∃ place : Nat → Nat, ∀ label n,
      Draft.markedAt? label 0 (resolveAll pool items).1 = some n → place label = n :=
    ⟨fun label => (Draft.markedAt? label 0 (resolveAll pool items).1).getD 0,
      fun label n hn => congrArg (Option.getD · 0) hn⟩
  have hcode := Draft.finish_run_eq_ok hfinish hplace
  refine ⟨place, ?_, ?_⟩
  · have hlaid : Laid (resolveAll pool items).2 place
        ([] ++ (Draft.emissions (resolveAll pool items).1).map (·.mapTarget place)) 0 items :=
      laid_of_resolveAll hfits hmarks hplace
    rw [hcode]
    exact hlaid
  · rw [hcode, List.length_map, length_emissions]

/-- The pool of an assembled program is the one that it was assembled with, and more. -/
theorem extends_of_assemble (h : assemble pool items = .ok (code, pool')) :
    pool.Extends pool' := by
  obtain ⟨code', -, heq⟩ := Results.map_eq_ok
    (h : ((Draft.run {} (resolveAll pool items).1).finish.map
      fun code => (code, (resolveAll pool items).2)) = .ok (code, pool'))
  cases heq
  exact extends_resolveAll items

theorem mem_emissions_of_jump {c : Condition} {label : Nat} (h : jump c label ∈ items) :
    .jump c label ∈ Draft.emissions (resolveAll pool items).1 := by
  induction items generalizing pool with
  | nil => exact nomatch h
  | cons item rest ih =>
    have hrest : jump c label ∈ rest →
        .jump c label ∈ Draft.emissions (resolveAll (item.resolve pool).2 rest).1 := fun h => ih h
    rcases List.mem_cons.1 h with rfl | hmem
    · exact List.mem_cons_self
    · cases item with
      | plain d => cases d <;> first | exact List.mem_cons_of_mem _ (hrest hmem) | exact hrest hmem
      | _ => exact List.mem_cons_of_mem _ (hrest hmem)

/-- No jump of an assembled program goes to a label that is not marked. -/
theorem mem_marks_of_assemble (h : assemble pool items = .ok (code, pool')) {c : Condition}
    {label : Nat} (hjump : jump c label ∈ items) : label ∈ marks items := by
  obtain ⟨code', hfinish, -⟩ := Results.map_eq_ok
    (h : ((Draft.run {} (resolveAll pool items).1).finish.map
      fun code => (code, (resolveAll pool items).2)) = .ok (code, pool'))
  have hemitted : (Draft.run {} (resolveAll pool items).1).emitted.toList =
      Draft.emissions (resolveAll pool items).1 := Draft.emitted_run {} _
  have hmem : .jump c label ∈ Draft.emissions (resolveAll pool items).1 :=
    mem_emissions_of_jump hjump
  obtain ⟨q, hq, hget⟩ := List.getElem_of_mem hmem
  obtain ⟨-, hlinks⟩ := Results.mapM_eq_ok
    (hfinish : (Draft.run {} (resolveAll pool items).1).emitted.toList.mapM _ = _)
  rw [hemitted] at hlinks
  obtain ⟨j, -, hlink⟩ := hlinks q (.jump c label) (hget ▸ List.getElem?_eq_getElem hq)
  refine Decidable.byContradiction fun hmark => ?_
  have hnone : (Draft.run {} (resolveAll pool items).1).place? label = none := by
    cases hp : (Draft.run {} (resolveAll pool items).1).place? label with
    | none => rfl
    | some n =>
      rcases Draft.place?_run hp with hn | ⟨-, hn⟩
      · exact nomatch hn.symm.trans (markedAt?_eq_none hmark)
      · exact nomatch (hn : (none : Option Nat) = some n)
  unfold Draft.link at hlink
  dsimp only [InstructionOf.target?] at hlink
  rw [hnone] at hlink
  exact nomatch hlink

/-- A label stands between the first and the last of the items that mark it. -/
theorem place_of_laid {label : Nat} (h : Laid pool place code p items) (hl : label ∈ marks items) :
    p ≤ place label ∧ place label ≤ p + span items := by
  induction items generalizing p with
  | nil => exact nomatch hl
  | cons item rest ih =>
    rw [span_cons]
    have hrest : label ∈ marks rest → p ≤ place label ∧ place label ≤ p + (item.size + span rest) :=
      fun hmem => by
        have := ih h.2 hmem
        omega
    cases item with
    | plain d =>
      cases d with
      | mark l =>
        rcases List.mem_cons.1 hl with rfl | hl
        · rw [show place label = p from h.1]
          exact ⟨Nat.le_refl p, Nat.le_add_right p _⟩
        · exact hrest hl
      | newLabel => exact hrest hl
      | emit i => exact hrest hl
    | _ => exact hrest hl

/-- Instructions that jump nowhere stand in a program as they are. -/
theorem getElem?_of_laid_emit {instructions : List Instruction} {q : Nat}
    (h : Laid pool place code p (instructions.map emit))
    (hstraight : ∀ i ∈ instructions, i.target? = none) (hq : q < instructions.length) :
    code[p + q]? = instructions[q]? := by
  induction instructions generalizing p q with
  | nil => exact absurd hq (Nat.not_lt_zero q)
  | cons i rest ih =>
    cases q with
    | zero =>
      have hi : i.mapTarget place = i := by
        have hnone : i.target? = none := hstraight i List.mem_cons_self
        cases i with
        | jump c label => exact nomatch hnone
        | _ => rfl
      rw [Nat.add_zero, show code[p]? = some (i.mapTarget place) from h.1, hi]
      rfl
    | succ q =>
      have hrest := ih h.2 (fun j hj => hstraight j (List.mem_cons_of_mem i hj))
        (Nat.lt_of_succ_lt_succ hq)
      rw [show p + (q + 1) = p + 1 + q by omega]
      exact hrest

/-- Every instruction of a program stands there for an item. -/
theorem exists_stands_of_laid {q : Nat} (h : Laid pool place code p items) (hle : p ≤ q)
    (hlt : q < p + span items) : ∃ item ∈ items, item.size = 1 ∧ item.Stands pool place code q := by
  induction items generalizing p with
  | nil => exact absurd hlt (Nat.not_lt_of_le hle)
  | cons item rest ih =>
    rw [span_cons] at hlt
    by_cases hq : p + item.size ≤ q
    · obtain ⟨item', hmem, hitem'⟩ := ih h.2 hq (by omega)
      exact ⟨item', List.mem_cons_of_mem item hmem, hitem'⟩
    · have hsize : item.size ≤ 1 := by
        cases item with
        | plain d => cases d <;> simp [size]
        | _ => exact Nat.le_refl 1
      obtain rfl : q = p := by omega
      exact ⟨item, List.mem_cons_self, by omega, h.1⟩

/-- Every item stands somewhere in the program. -/
theorem exists_stands_of_mem {item : Item} (h : Laid pool place code p items) (hmem : item ∈ items) :
    ∃ q, item.Stands pool place code q := by
  induction items generalizing p with
  | nil => exact nomatch hmem
  | cons first rest ih =>
    rcases List.mem_cons.1 hmem with rfl | hmem
    · exact ⟨p, h.1⟩
    · exact ih h.2 hmem

/-- A jump of a program is one of the items, and leads to where its label stands. -/
theorem exists_jump_of_laid {q target : Nat} {c : Condition} (h : Laid pool place code p items)
    (hle : p ≤ q) (hlt : q < p + span items) (hq : code[q]? = some (.jump c target)) :
    ∃ label, jump c label ∈ items ∧ place label = target := by
  obtain ⟨item, hmem, hsize, hstands⟩ := exists_stands_of_laid h hle hlt
  cases item with
  | plain d =>
    cases d with
    | newLabel => exact nomatch hsize
    | mark label => exact nomatch hsize
    | emit i =>
      have hi : i.mapTarget place = .jump c target := Option.some.inj (hstands.symm.trans hq)
      cases i with
      | jump c' label =>
        cases hi
        exact ⟨label, hmem, rfl⟩
      | _ => exact nomatch hi
  | _ =>
    obtain ⟨i, -, hget⟩ := hstands
    exact nomatch hget.symm.trans hq

/-- The tags of a program are those of its items. -/
theorem mem_unbox_of_laid {q : Nat} {tag : UInt8} (h : Laid pool place code p items) (hle : p ≤ q)
    (hlt : q < p + span items) (hq : code[q]? = some (.unbox tag)) :
    emit (.unbox tag) ∈ items := by
  obtain ⟨item, hmem, hsize, hstands⟩ := exists_stands_of_laid h hle hlt
  cases item with
  | plain d =>
    cases d with
    | newLabel => exact nomatch hsize
    | mark label => exact nomatch hsize
    | emit i =>
      have hi : i.mapTarget place = .unbox tag := Option.some.inj (hstands.symm.trans hq)
      cases i with
      | unbox tag' =>
        cases hi
        exact hmem
      | _ => exact nomatch hi
  | _ =>
    obtain ⟨i, -, hget⟩ := hstands
    exact nomatch hget.symm.trans hq

end Laid

end Item

/-! ### Programs whose jumps are short -/

namespace Code

theorem size_le {T : Type} (i : InstructionOf T) : i.size ≤ 9 := by
  have hop : i.opcode.operandSize ≤ 8 := by
    cases i <;> simp [InstructionOf.opcode, Opcode.operandSize]
  exact Nat.add_le_add_left hop 1

theorem le_of_getElem?_offsets {T : Type} {start : Nat} {code : List (InstructionOf T)}
    {p offset : Nat} (h : (offsets start code)[p]? = some offset) : offset ≤ start + 9 * p := by
  induction code generalizing start p with
  | nil => exact nomatch h
  | cons i rest ih =>
    cases p with
    | zero =>
      cases h
      exact Nat.le_refl _
    | succ p =>
      have hrest : offset ≤ start + i.size + 9 * p := ih h
      have hsize := size_le i
      omega

/-- Instructions that are so many apart are so many bytes apart at most. -/
theorem offset_le {T : Type} {start : Nat} {code : List (InstructionOf T)} {p q a b : Nat}
    (hp : (offsets start code)[p]? = some a) (hq : (offsets start code)[q]? = some b) :
    a ≤ b + 9 * (p - q) := by
  induction code generalizing start p q with
  | nil => exact nomatch hp
  | cons i rest ih =>
    cases q with
    | zero =>
      cases hq
      exact le_of_getElem?_offsets hp
    | succ q =>
      have hb : start + i.size ≤ b := le_of_mem_offsets (List.mem_of_getElem? hq)
      cases p with
      | zero =>
        cases hp
        omega
      | succ p =>
        rw [Nat.succ_sub_succ]
        exact ih hp hq

/-- A program can be written if its jumps lead to instructions that are near. -/
theorem writable_of_near {code : List Instruction} {reach : Nat} (hreach : 9 * reach + 5 < 0x80000000)
    (hjump : ∀ (p : Nat) (c : Condition) label, code[p]? = some (.jump c label) →
      label < code.length ∧ label ≤ p + reach ∧ p ≤ label + reach)
    (htag : ∀ tag, .unbox tag ∈ code → (TypeDesc.ofTag? tag).isSome) : Writable code := by
  intro p start i hp hi
  cases i with
  | jump c label =>
    obtain ⟨hlt, hle, hle'⟩ := hjump p c label hi
    have hlt' : label < (offsets 0 code).length := by rwa [length_offsets]
    have hlabel := List.getElem?_eq_getElem hlt'
    have hahead := offset_le hlabel hp
    have hback := offset_le hp hlabel
    refine ⟨_, hlabel, ?_, ?_⟩ <;> omega
  | unbox tag => exact htag tag (List.mem_of_getElem? hi)
  | _ => trivial

end Code

end Interpose
