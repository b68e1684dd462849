import Interpose.Instruction.Basic
/-!
# What pools keep

A pool only grows, at the end of its tables. So an index that denotes an entry goes on denoting it,
and an index that has just been handed out denotes what it was asked for. The latter takes a table
that the indices reach to the end of: they have thirty-two bits.

## Main definitions

* `Pool.Extends`, `Pool.Fits`

## Main results

* `Pool.string?_addString` and its like: what was added is found
* `Pool.Extends.stackEffect?`: instructions keep their meaning
-/

namespace Interpose

namespace Pool

variable {p p' p'' : Pool}

/-- The tables of the second pool begin with those of the first. -/
structure Extends (p p' : Pool) : Prop where
  strings : p.strings <+: p'.strings
  classes : p.classes <+: p'.classes
  fields : p.fields <+: p'.fields
  methods : p.methods <+: p'.methods

theorem Extends.refl (p : Pool) : p.Extends p :=
  ⟨List.prefix_refl _, List.prefix_refl _, List.prefix_refl _, List.prefix_refl _⟩

theorem Extends.trans (h : p.Extends p') (h' : p'.Extends p'') : p.Extends p'' :=
  ⟨h.strings.trans h'.strings, h.classes.trans h'.classes, h.fields.trans h'.fields,
    h.methods.trans h'.methods⟩

/-- Every entry of the pool has an index of its own. -/
structure Fits (p : Pool) : Prop where
  strings : p.strings.length ≤ UInt32.size
  classes : p.classes.length ≤ UInt32.size
  fields : p.fields.length ≤ UInt32.size
  methods : p.methods.length ≤ UInt32.size

instance : DecidablePred Fits := fun _ =>
  decidable_of_iff (_ ∧ _ ∧ _ ∧ _) ⟨fun ⟨strings, classes, fields, methods⟩ =>
    ⟨strings, classes, fields, methods⟩, fun ⟨strings, classes, fields, methods⟩ =>
    ⟨strings, classes, fields, methods⟩⟩

theorem Fits.of_extends (h : p'.Fits) (he : p.Extends p') : p.Fits :=
  ⟨Nat.le_trans he.strings.length_le h.strings, Nat.le_trans he.classes.length_le h.classes,
    Nat.le_trans he.fields.length_le h.fields, Nat.le_trans he.methods.length_le h.methods⟩

/-! ### Interning -/

section Intern

variable {α : Type} {l l' : List α} {a : α}

theorem getElem?_of_prefix {i : Nat} (h : l <+: l') (hi : l[i]? = some a) : l'[i]? = some a := by
  obtain ⟨rest, rfl⟩ := h
  rw [List.getElem?_append_left (List.getElem?_eq_some_iff.1 hi).1, hi]

theorem prefix_intern [BEq α] (l : List α) (a : α) : l <+: (intern l a).2 := by
  unfold intern
  split
  · exact List.prefix_refl l
  · exact List.prefix_append l [a]

/-- The index that is handed out denotes the value, if it can denote it at all. -/
theorem getElem?_intern [BEq α] [LawfulBEq α] (h : (intern l a).2.length ≤ UInt32.size) :
    (intern l a).2[(intern l a).1.toNat]? = some a := by
  unfold intern at h ⊢
  split at h
  · rename_i i hi
    rw [List.idxOf?_eq_some_iff] at hi
    obtain ⟨hlt, hget, -⟩ := hi
    have hi32 : i < UInt32.size := Nat.lt_of_lt_of_le hlt h
    show l[(UInt32.ofNat i).toNat]? = some a
    rw [UInt32.toNat_ofNat', Nat.mod_eq_of_lt hi32, List.getElem?_eq_getElem hlt, hget]
  · rw [List.length_append, List.length_singleton] at h
    have hl32 : l.length < UInt32.size := h
    show (l ++ [a])[(UInt32.ofNat l.length).toNat]? = some a
    rw [UInt32.toNat_ofNat', Nat.mod_eq_of_lt hl32, List.getElem?_concat_length]

end Intern

/-! ### Adding -/

section Adding

variable (p)

theorem extends_addString (s : String) : p.Extends (p.addString s).2 :=
  ⟨prefix_intern _ _, List.prefix_refl _, List.prefix_refl _, List.prefix_refl _⟩

theorem extends_addClass (name : String) : p.Extends (p.addClass name).2 :=
  ⟨List.prefix_refl _, prefix_intern _ _, List.prefix_refl _, List.prefix_refl _⟩

theorem extends_addField (owner name : String) : p.Extends (p.addField owner name).2 :=
  ⟨List.prefix_refl _, List.prefix_refl _, prefix_intern _ _, List.prefix_refl _⟩

theorem extends_addMethod (owner name descriptor : String) :
    p.Extends (p.addMethod owner name descriptor).2 :=
  ⟨List.prefix_refl _, List.prefix_refl _, List.prefix_refl _, prefix_intern _ _⟩

variable {p}

theorem string?_addString {s : String} (h : (p.addString s).2.Fits) :
    (p.addString s).2.string? (p.addString s).1 = some s :=
  getElem?_intern h.strings

theorem class?_addClass {name : String} (h : (p.addClass name).2.Fits) :
    (p.addClass name).2.class? (p.addClass name).1 = some name :=
  getElem?_intern h.classes

theorem field?_addField {owner name : String} (h : (p.addField owner name).2.Fits) :
    (p.addField owner name).2.field? (p.addField owner name).1 = some ⟨owner, name⟩ :=
  getElem?_intern h.fields

theorem method?_addMethod {owner name descriptor : String}
    (h : (p.addMethod owner name descriptor).2.Fits) :
    (p.addMethod owner name descriptor).2.method? (p.addMethod owner name descriptor).1 =
      some ⟨owner, name, descriptor⟩ :=
  getElem?_intern h.methods

end Adding

/-! ### Looking up -/

section Lookup

variable {i : UInt32}

theorem Extends.string? (h : p.Extends p') {s : String} (hs : p.string? i = some s) :
    p'.string? i = some s :=
  getElem?_of_prefix h.strings hs

theorem Extends.class? (h : p.Extends p') {name : String} (hn : p.class? i = some name) :
    p'.class? i = some name :=
  getElem?_of_prefix h.classes hn

theorem Extends.field? (h : p.Extends p') {f : FieldRef} (hf : p.field? i = some f) :
    p'.field? i = some f :=
  getElem?_of_prefix h.fields hf

theorem Extends.method? (h : p.Extends p') {m : MethodRef} (hm : p.method? i = some m) :
    p'.method? i = some m :=
  getElem?_of_prefix h.methods hm

/-- An instruction that has an effect keeps it. -/
theorem Extends.stackEffect? (h : p.Extends p') {j : Instruction} {effect : StackEffect}
    (hj : j.stackEffect? p = some effect) : j.stackEffect? p' = some effect := by
  cases j with
  | invoke kind index =>
    simp only [Instruction.stackEffect?] at hj ⊢
    cases hm : p.method? index with
    | none =>
      rw [hm] at hj
      exact nomatch hj
    | some ref =>
      rw [hm] at hj
      rw [h.method? hm]
      exact hj
  | jump c target => cases c <;> exact hj
  | field access index => cases access <;> exact hj
  | _ => exact hj

end Lookup

end Pool

end Interpose
