import Interpose.Proofs.Heaps
import Interpose.Proofs.Tables
import Mathlib.Data.List.Forall2
/-!
# Layouts of instance fields

Classes that are defined one below the other number their instance fields together: the layout of a
hierarchy lists the declared instance fields, those of the root first, and the slot of a field is its
place in that list. Static fields are not in it. A class that declares a name twice has two places
for it and goes by the later one.

A name that several classes declare has a place for each of them, and from a class it means the field
of the nearest one. So a field is a pair of a class and a name, and what is written to a field is what
is read through any class from which the name means that field, and through no other.

## Main definitions

* `ClassTable.Chain`: classes defined one below the other
* `ClassTable.layoutOf`: the layout of a chain
* `ClassTable.fieldOwner?`: the class whose field a name means

## Main results

* `ClassTable.Chain.declaredField?_eq`: the slot of a field is its place in the layout
* `ClassTable.Chain.fields_of_hierarchy`: what this says about objects
-/

namespace Interpose

/-! ### Finding members -/

section LastIndex

variable {α β : Type} {p : α → Bool} {l : List α} {i : Nat}

theorem exists_of_lastIndex? (h : lastIndex? p l = some i) : ∃ a, l[i]? = some a ∧ p a = true := by
  induction l generalizing i with
  | nil => exact nomatch h
  | cons b l ih =>
    rw [lastIndex?] at h
    cases hl : lastIndex? p l with
    | some j =>
      rw [hl] at h
      cases h
      exact ih hl
    | none =>
      rw [hl] at h
      dsimp only at h
      split at h
      · cases h
        exact ⟨b, rfl, ‹_›⟩
      · exact nomatch h

theorem lastIndex?_append (p : α → Bool) (l r : List α) :
    lastIndex? p (l ++ r) = ((lastIndex? p r).map (l.length + ·)).or (lastIndex? p l) := by
  induction l with
  | nil => simp [lastIndex?]
  | cons a l ih =>
    rw [List.cons_append, lastIndex?, ih, lastIndex?]
    cases lastIndex? p r with
    | none => rfl
    | some i => simp [Nat.add_right_comm]

theorem lastIndex?_map (p : β → Bool) (f : α → β) (l : List α) :
    lastIndex? p (l.map f) = lastIndex? (fun a => p (f a)) l := by
  induction l with
  | nil => rfl
  | cons a l ih => rw [List.map_cons, lastIndex?, lastIndex?, ih]

theorem lastIndex?_eq_none : lastIndex? p l = none ↔ ∀ a ∈ l, p a = false := by
  induction l with
  | nil => simp [lastIndex?]
  | cons a l ih =>
    rw [lastIndex?, List.forall_mem_cons, ← ih]
    cases lastIndex? p l <;> cases hp : p a <;> simp

/-- An element behind which none passes the test is the last one that does, if it passes. -/
theorem lastIndex?_eq_some {a : α} (hi : l[i]? = some a) (ha : p a = true)
    (hu : ∀ (j : Nat) b, l[j]? = some b → p b = true → j ≤ i) : lastIndex? p l = some i := by
  induction l generalizing i with
  | nil => exact nomatch hi
  | cons b l ih =>
    cases i with
    | succ i =>
      have hrest : lastIndex? p l = some i := ih hi fun j x hj hx =>
        Nat.le_of_succ_le_succ (hu (j + 1) x hj hx)
      rw [lastIndex?, hrest]
    | zero =>
      cases hi
      have hrest : lastIndex? p l = none := by
        cases hl : lastIndex? p l with
        | none => rfl
        | some j =>
          obtain ⟨x, hx, hpx⟩ := exists_of_lastIndex? hl
          exact absurd (hu (j + 1) x hx hpx) (Nat.not_succ_le_zero j)
      rw [lastIndex?, hrest]
      exact if_pos ha

/-- Behind the last element that passes the test none does. -/
theorem le_of_lastIndex? (h : lastIndex? p l = some i) {j : Nat} {b : α} (hj : l[j]? = some b)
    (hb : p b = true) : j ≤ i := by
  induction l generalizing i j with
  | nil => exact nomatch h
  | cons a l ih =>
    rw [lastIndex?] at h
    cases hl : lastIndex? p l with
    | some i' =>
      rw [hl] at h
      cases h
      cases j with
      | zero => exact Nat.zero_le _
      | succ j => exact Nat.succ_le_succ (ih hl hj)
    | none =>
      cases j with
      | zero => exact Nat.zero_le _
      | succ j =>
        have hnone := lastIndex?_eq_none.1 hl b (List.mem_of_getElem? hj)
        rw [hb] at hnone
        cases hnone

end LastIndex

/-! ### Layouts of one class -/

/-- The fields that take slots in objects, in declaration order. -/
def ClassFile.instanceFields (file : ClassFile) : List FieldDef :=
  file.fields.filter fun f => !f.isStatic

theorem ClassFile.mem_instanceFields {file : ClassFile} {f : FieldDef} :
    f ∈ file.instanceFields ↔ f ∈ file.fields ∧ f.isStatic = false := by
  simp [instanceFields]

/-- The value is the zero of the type that the field is declared with. -/
def FieldDef.StartsAt (f : FieldDef) (v : Value) : Prop :=
  ∃ t, TypeDesc.parse f.descriptor = .ok t ∧ v = .zeroFor t

namespace Layout

variable {owner : String} {layout layout' : Layout} {fields : List FieldDef}

/-- The new slots of a layout come behind those that it has, one for each instance field, and hold
the zeros of their types. -/
theorem fieldDefaults_addAll (h : addAll owner layout fields = .ok layout') :
    ∃ zeros, List.Forall₂ FieldDef.StartsAt (fields.filter fun f => !f.isStatic) zeros ∧
      layout'.fieldDefaults.toList = layout.fieldDefaults.toList ++ zeros := by
  induction fields generalizing layout with
  | nil =>
    cases h
    exact ⟨[], .nil, (List.append_nil _).symm⟩
  | cons f rest ih =>
    obtain ⟨t, ht, h⟩ := addAll_cons h
    obtain ⟨zeros, hzeros, heq⟩ := ih h
    cases hf : f.isStatic with
    | true =>
      refine ⟨zeros, ?_, ?_⟩
      · simpa [hf] using hzeros
      · simpa [add, hf] using heq
    | false =>
      refine ⟨.zeroFor t :: zeros, ?_, ?_⟩
      · simpa [hf] using ⟨⟨t, ht, rfl⟩, hzeros⟩
      · simpa [add, hf] using heq

/-- The slot of a name is the place of the last instance field of that name, counted from the first
new slot, or what it was. -/
theorem lookup_addAll (h : addAll owner layout fields = .ok layout') (name : String) :
    layout'.fieldSlots.lookup name =
      ((lastIndex? (fun f => f.name == name) (fields.filter fun f => !f.isStatic)).map
        (layout.fieldDefaults.size + ·)).or (layout.fieldSlots.lookup name) := by
  induction fields generalizing layout with
  | nil =>
    cases h
    rfl
  | cons f rest ih =>
    obtain ⟨t, -, h⟩ := addAll_cons h
    rw [ih h]
    cases hf : f.isStatic with
    | true => simp [add, hf]
    | false =>
      simp only [hf, Bool.not_false, List.filter_cons_of_pos, lastIndex?, add, Bool.false_eq_true,
        if_false, Array.size_push, List.lookup_cons]
      cases lastIndex? (fun f => f.name == name) (rest.filter fun f => !f.isStatic) with
      | some i => simp [Nat.add_assoc, Nat.add_comm 1]
      | none =>
        rw [BEq.comm (a := f.name)]
        cases name == f.name <;> rfl

end Layout

/-! ### Layouts of hierarchies -/

namespace ClassTable

variable {t : ClassTable} {c : ClassRef} {file : ClassFile} {chain rest : List (ClassRef × ClassFile)}

/-- Classes that were defined one below the other, the nearest first, with the class files they were
defined from. Execution may have written their static fields since. -/
inductive Chain (t : ClassTable) : List (ClassRef × ClassFile) → Prop
  | nil : Chain t []
  | cons {c : ClassRef} {file : ClassFile} {rest : List (ClassRef × ClassFile)} {definer : Definer}
      {k : LoadedClass} (above : Chain t rest)
      (define : LoadedClass.define definer (rest.head?.map fun s => (s.1, t.get s.1)) file = .ok k)
      (fixed : (t.get c).fixed = k.fixed) : Chain t ((c, file) :: rest)

/-- The instance fields of a chain in the order of their slots, each with the class that declares
it. -/
def layoutOf : List (ClassRef × ClassFile) → List (ClassRef × FieldDef)
  | [] => []
  | (c, file) :: rest => layoutOf rest ++ file.instanceFields.map fun f => (c, f)

/-- What the slots of the nearest class of a chain hold in the beginning. -/
def defaultsOf (t : ClassTable) (chain : List (ClassRef × ClassFile)) : Array Value :=
  LoadedClass.inheritedSlots (chain.head?.map fun s => (s.1, t.get s.1))

theorem mem_layoutOf {p : ClassRef × FieldDef} :
    p ∈ layoutOf chain ↔ ∃ s ∈ chain, s.1 = p.1 ∧ p.2 ∈ s.2.instanceFields := by
  induction chain with
  | nil => simp [layoutOf]
  | cons s rest ih =>
    obtain ⟨c, file⟩ := s
    obtain ⟨a, f⟩ := p
    simp [layoutOf, ih, and_comm, or_comm]

namespace Chain

theorem of_suffix {upper : List (ClassRef × ClassFile)} (h : t.Chain chain)
    (hs : upper <:+ chain) : t.Chain upper := by
  induction h with
  | nil => exact List.suffix_nil.1 hs ▸ .nil
  | cons above define fixed ih =>
    rcases List.suffix_cons_iff.1 hs with rfl | hs
    · exact .cons above define fixed
    · exact ih hs

theorem ancestors_eq (h : t.Chain ((c, file) :: rest)) :
    (t.get c).ancestors = rest.map Prod.fst := by
  induction rest generalizing c file with
  | nil =>
    cases h with
    | cons above define fixed =>
      obtain ⟨methods, layout, -, -, rfl⟩ := LoadedClass.define_eq_ok define
      exact LoadedClass.ancestors_eq_of_fixed fixed
  | cons s rest ih =>
    cases h with
    | cons above define fixed =>
      obtain ⟨methods, layout, -, -, rfl⟩ := LoadedClass.define_eq_ok define
      rw [LoadedClass.ancestors_eq_of_fixed fixed, List.map_cons, ← ih above]
      rfl

/-- The lineage of a class of the chain is the chain from there on. -/
theorem lineage_eq (h : t.Chain ((c, file) :: rest)) :
    t.lineage c = c :: rest.map Prod.fst := by
  rw [lineage, h.ancestors_eq]

/-- No class comes twice: a class has fewer superclasses than each class below it. -/
theorem nodup (h : t.Chain chain) : (chain.map Prod.fst).Nodup := by
  induction h with
  | nil => exact List.nodup_nil
  | @cons c file rest definer k above define fixed ih =>
    refine List.nodup_cons.2 ⟨fun hmem => ?_, ih⟩
    obtain ⟨⟨c', file'⟩, hs, rfl⟩ := List.mem_map.1 hmem
    obtain ⟨front, upper, rfl⟩ := List.append_of_mem hs
    have hlower := (Chain.cons above define fixed).ancestors_eq
    have hupper := (above.of_suffix (List.suffix_append front _)).ancestors_eq
    have hlength := congrArg List.length (hlower.symm.trans hupper)
    simp at hlength
    omega

/-- A class has the slots of its superclass, and behind them one for each of its own fields. -/
theorem exists_defaults_append (h : t.Chain ((c, file) :: rest)) :
    ∃ zeros, List.Forall₂ FieldDef.StartsAt file.instanceFields zeros ∧
      (t.get c).fieldDefaults.toList = (t.defaultsOf rest).toList ++ zeros := by
  cases h with
  | cons above define fixed =>
    obtain ⟨methods, layout, -, hlayout, rfl⟩ := LoadedClass.define_eq_ok define
    obtain ⟨zeros, hzeros, heq⟩ := Layout.fieldDefaults_addAll hlayout
    rw [LoadedClass.fieldDefaults_eq_of_fixed fixed]
    exact ⟨zeros, hzeros, heq⟩

/-- **Slots.** The slots are those of the layout, and hold the zeros of their types. -/
theorem forall₂_defaults (h : t.Chain chain) :
    List.Forall₂ (fun p v => p.2.StartsAt v) (layoutOf chain) (t.defaultsOf chain).toList := by
  induction h with
  | nil => exact .nil
  | @cons c file rest definer k above define fixed ih =>
    obtain ⟨zeros, hzeros, heq⟩ := (Chain.cons above define fixed).exists_defaults_append
    show List.Forall₂ _ _ (t.get c).fieldDefaults.toList
    rw [heq, layoutOf]
    exact List.rel_append ih (List.forall₂_map_left_iff.2 hzeros)

theorem size_defaults (h : t.Chain chain) :
    (t.defaultsOf chain).size = (layoutOf chain).length := by
  rw [← Array.length_toList, h.forall₂_defaults.length_eq]

/-- The own fields of a class come behind those of its superclasses. -/
theorem declaredField?_head (h : t.Chain ((c, file) :: rest)) (name : String) :
    (t.get c).declaredField? name =
      (lastIndex? (fun f => f.name == name) file.instanceFields).map
        ((layoutOf rest).length + ·) := by
  cases h with
  | cons above define fixed =>
    obtain ⟨methods, layout, -, hlayout, rfl⟩ := LoadedClass.define_eq_ok define
    rw [LoadedClass.declaredField?, LoadedClass.fieldSlots_eq_of_fixed fixed, ← above.size_defaults,
      Layout.lookup_addAll hlayout, List.lookup_nil, Option.or_none]
    rfl

/-- **Places.** The slot of a field is its last place in the layout. -/
theorem declaredField?_eq (h : t.Chain chain) {s : ClassRef × ClassFile} (hs : s ∈ chain)
    (name : String) :
    (t.get s.1).declaredField? name =
      lastIndex? (fun p => p.1 == s.1 && p.2.name == name) (layoutOf chain) := by
  have hnodup := h.nodup
  induction h with
  | nil => cases hs
  | @cons c file rest definer k above define fixed ih =>
    rw [List.map_cons, List.nodup_cons] at hnodup
    rw [layoutOf, lastIndex?_append, lastIndex?_map]
    rcases List.mem_cons.1 hs with rfl | hs
    · have habove : lastIndex? (fun p => p.1 == c && p.2.name == name) (layoutOf rest) = none := by
        refine lastIndex?_eq_none.2 fun p hp => ?_
        obtain ⟨s', hs', heq, -⟩ := mem_layoutOf.1 hp
        have hne : p.1 ≠ c := fun h => hnodup.1 (List.mem_map.2 ⟨s', hs', heq.trans h⟩)
        simp [hne]
      rw [habove, Option.or_none, (Chain.cons above define fixed).declaredField?_head]
      simp
    · have hne : c ≠ s.1 := fun h => hnodup.1 (List.mem_map.2 ⟨s, hs, h.symm⟩)
      have hown : lastIndex? (fun f => c == s.1 && f.name == name) file.instanceFields = none :=
        lastIndex?_eq_none.2 fun f _ => by simp [hne]
      rw [hown, ih hs hnodup.2]
      rfl

/-- A place in the layout that a name finds belongs to a field of that name. -/
theorem exists_of_declaredField? (h : t.Chain chain) {s : ClassRef × ClassFile} (hs : s ∈ chain)
    {name : String} {i : Nat} (hi : (t.get s.1).declaredField? name = some i) :
    ∃ f, (layoutOf chain)[i]? = some (s.1, f) ∧ f.name = name := by
  rw [h.declaredField?_eq hs] at hi
  obtain ⟨⟨a, f⟩, hp, htest⟩ := exists_of_lastIndex? hi
  rw [Bool.and_eq_true, beq_iff_eq, beq_iff_eq] at htest
  obtain ⟨rfl, hname⟩ := htest
  exact ⟨f, hp, hname⟩

theorem isSome_declaredField? (h : t.Chain ((c, file) :: rest)) (name : String) :
    ((t.get c).declaredField? name).isSome ↔
      ∃ f ∈ file.fields, f.isStatic = false ∧ f.name = name := by
  rw [h.declaredField?_head, Option.isSome_map, Option.isSome_iff_ne_none, ne_eq,
    lastIndex?_eq_none]
  simp [ClassFile.mem_instanceFields]

theorem declaredField?_lt (h : t.Chain chain) {s : ClassRef × ClassFile} (hs : s ∈ chain)
    {name : String} {i : Nat} (hi : (t.get s.1).declaredField? name = some i) :
    i < (t.defaultsOf chain).size := by
  obtain ⟨f, hf, -⟩ := h.exists_of_declaredField? hs hi
  rw [h.size_defaults]
  exact (List.getElem?_eq_some_iff.1 hf).1

/-- No two fields have one slot. -/
theorem declaredField?_inj (h : t.Chain chain) {s s' : ClassRef × ClassFile} (hs : s ∈ chain)
    (hs' : s' ∈ chain) {name name' : String} {i : Nat}
    (hi : (t.get s.1).declaredField? name = some i)
    (hi' : (t.get s'.1).declaredField? name' = some i) : s.1 = s'.1 ∧ name = name' := by
  obtain ⟨f, hf, rfl⟩ := h.exists_of_declaredField? hs hi
  obtain ⟨f', hf', rfl⟩ := h.exists_of_declaredField? hs' hi'
  obtain ⟨hclass, rfl⟩ := Prod.mk.inj (Option.some.inj (hf.symm.trans hf'))
  exact ⟨hclass, rfl⟩

/-- Superclasses of a class of the chain are classes of the chain. -/
theorem exists_of_mem_lineage (h : t.Chain chain) {s : ClassRef × ClassFile} (hs : s ∈ chain)
    {a : ClassRef} (ha : a ∈ t.lineage s.1) : ∃ s' ∈ chain, s'.1 = a := by
  obtain ⟨front, upper, rfl⟩ := List.append_of_mem hs
  rw [(h.of_suffix (List.suffix_append front _)).lineage_eq] at ha
  have ha : a ∈ (s :: upper).map Prod.fst := ha
  obtain ⟨s', hs', heq⟩ := List.mem_map.1 ha
  exact ⟨s', List.mem_append_right front hs', heq⟩

end Chain

/-! ### What a name means -/

/-- The class whose instance field a name means from a class: the nearest one that declares it. -/
def fieldOwner? (t : ClassTable) (c : ClassRef) (name : String) : Option ClassRef :=
  (t.lineage c).find? fun k => ((t.get k).declaredField? name).isSome

/-- A name that means a field means the one that its owner declares. -/
theorem exists_of_resolveField? {name : String} {i : Nat} (h : t.resolveField? c name = some i) :
    ∃ a ∈ t.lineage c, t.fieldOwner? c name = some a ∧ (t.get a).declaredField? name = some i := by
  rw [resolveField?] at h
  rw [fieldOwner?]
  generalize t.lineage c = l at h ⊢
  induction l with
  | nil => exact nomatch h
  | cons a l ih =>
    rw [List.findSome?_cons] at h
    cases ha : (t.get a).declaredField? name with
    | some j =>
      rw [ha] at h
      cases h
      exact ⟨a, List.mem_cons_self, by rw [List.find?_cons_of_pos (by simp [ha])], ha⟩
    | none =>
      rw [ha] at h
      obtain ⟨b, hb, hfind, hslot⟩ := ih h
      exact ⟨b, List.mem_cons_of_mem a hb, by rw [List.find?_cons_of_neg (by simp [ha]), hfind], hslot⟩

namespace Chain

/-- A name means the same field from a class as from its superclass, unless the class declares it. -/
theorem resolveField?_of_none {s : ClassRef × ClassFile}
    (h : t.Chain ((c, file) :: s :: rest)) {name : String}
    (hnone : (t.get c).declaredField? name = none) :
    t.resolveField? c name = t.resolveField? s.1 name := by
  have habove : t.Chain (s :: rest) := h.of_suffix (List.suffix_cons _ _)
  rw [resolveField?, h.lineage_eq, List.findSome?_cons, hnone, resolveField?, habove.lineage_eq,
    List.map_cons]

/-- **Reading a field that was written, and reading another.** -/
theorem slot?_setSlot (h : t.Chain chain) {s s' : ClassRef × ClassFile} (hs : s ∈ chain)
    (hs' : s' ∈ chain) {heap : Heap} {o : ObjectRef} {name name' : String} {i j : Nat} (v : Value)
    (hsize : (heap.object o).slots.size = (t.defaultsOf chain).size)
    (hi : t.resolveField? s.1 name = some i) (hj : t.resolveField? s'.1 name' = some j) :
    (heap.setSlot o i v).slot? o j =
      if t.fieldOwner? s.1 name = t.fieldOwner? s'.1 name' ∧ name = name' then some v
      else heap.slot? o j := by
  obtain ⟨a, ha, howner, hslot⟩ := exists_of_resolveField? hi
  obtain ⟨b, hb, howner', hslot'⟩ := exists_of_resolveField? hj
  obtain ⟨a, hachain, rfl⟩ := h.exists_of_mem_lineage hs ha
  obtain ⟨b, hbchain, rfl⟩ := h.exists_of_mem_lineage hs' hb
  rw [howner, howner']
  by_cases hsame : some a.1 = some b.1 ∧ name = name'
  · obtain ⟨heq, rfl⟩ := hsame
    rw [Option.some.inj heq] at hslot
    obtain rfl : i = j := Option.some.inj (hslot.symm.trans hslot')
    have hlt : i < (heap.object o).slots.size := hsize ▸ h.declaredField?_lt hbchain hslot'
    rw [if_pos ⟨heq, rfl⟩]
    exact Heap.slot?_setSlot (Array.getElem?_eq_getElem hlt)
  · have hne : i ≠ j := by
      rintro rfl
      obtain ⟨heq, hname⟩ := h.declaredField?_inj hachain hbchain hslot hslot'
      exact hsame ⟨congrArg some heq, hname⟩
    rw [if_neg hsame]
    exact Heap.slot?_setSlot_of_ne v fun heq => hne (congrArg Prod.snd heq).symm

/-- **Fields of a hierarchy.** A class keeps the slots of its superclass. The declared instance
fields of the chain have slots of their own, all of them slots of the nearest class, and its objects
begin with the zeros of their types. What is written to a field of such an object is what is read
through every class from which a name means that field, and nothing else reads differently. -/
theorem fields_have_own_slots (h : t.Chain ((c, file) :: rest)) :
    (∀ s ∈ rest.head?, (t.get s.1).fieldDefaults.toList <+: (t.get c).fieldDefaults.toList ∧
      ∀ name, (t.get c).declaredField? name = none →
        t.resolveField? c name = t.resolveField? s.1 name) ∧
    (∀ s ∈ (c, file) :: rest, ∀ name, ((t.get s.1).declaredField? name).isSome ↔
      ∃ f ∈ s.2.fields, f.isStatic = false ∧ f.name = name) ∧
    (∀ s ∈ (c, file) :: rest, ∀ name i, (t.get s.1).declaredField? name = some i →
      i < (t.get c).slotCount ∧
      ∀ s' ∈ (c, file) :: rest, ∀ name', (t.get s'.1).declaredField? name' = some i →
        s.1 = s'.1 ∧ name = name') ∧
    ((t.newInstance c).slots.size = (t.get c).slotCount ∧
      List.Forall₂ (fun p v => p.2.StartsAt v) (layoutOf ((c, file) :: rest))
        (t.newInstance c).slots.toList ∧
      ∀ s ∈ (c, file) :: rest, ∀ name i, (t.get s.1).declaredField? name = some i →
        ∃ f, (layoutOf ((c, file) :: rest))[i]? = some (s.1, f) ∧ f.name = name) ∧
    ∀ (heap : Heap) (o : ObjectRef), (heap.object o).slots.size = (t.get c).slotCount →
      (∀ i v, ((heap.setSlot o i v).object o).slots.size = (t.get c).slotCount) ∧
      ∀ s ∈ (c, file) :: rest, ∀ s' ∈ (c, file) :: rest, ∀ name name' i j v,
        t.resolveField? s.1 name = some i → t.resolveField? s'.1 name' = some j →
          (heap.setSlot o i v).slot? o j =
            if t.fieldOwner? s.1 name = t.fieldOwner? s'.1 name' ∧ name = name' then some v
            else heap.slot? o j := by
  refine ⟨?_, ?_, ?_, ⟨rfl, h.forall₂_defaults, ?_⟩, ?_⟩
  · intro s hs
    cases rest with
    | nil => cases hs
    | cons s rest =>
      cases hs
      obtain ⟨zeros, -, heq⟩ := h.exists_defaults_append
      refine ⟨?_, fun name hnone => h.resolveField?_of_none hnone⟩
      rw [heq]
      exact List.prefix_append _ _
  · intro s hs name
    obtain ⟨front, upper, hsplit⟩ := List.append_of_mem hs
    exact (h.of_suffix (hsplit ▸ List.suffix_append front (s :: upper))).isSome_declaredField? name
  · intro s hs name i hi
    exact ⟨h.declaredField?_lt hs hi, fun s' hs' name' hi' => h.declaredField?_inj hs hs' hi hi'⟩
  · intro s hs name i hi
    exact h.exists_of_declaredField? hs hi
  · intro heap o hsize
    refine ⟨fun i v => ?_, ?_⟩
    · rw [Heap.size_slots_setSlot, hsize]
    · intro s hs s' hs' name name' i j v hi hj
      exact h.slot?_setSlot hs hs' v hsize hi hj

end Chain

/-! ### A name on two levels -/

/-- A class with a field, and a static field of the same type. -/
def shapeFile : ClassFile where
  name := "t.Shape"
  fields := [⟨"count", "I", Modifier.static.bit⟩, ⟨"x", "I", 0⟩]

/-- A subclass of it, with another field of that name. -/
def squareFile : ClassFile where
  name := "t.Square"
  superName := some "t.Shape"
  fields := [⟨"side", "J", 0⟩, ⟨"x", "Z", 0⟩]

/-- The classes of the files. -/
def shapes : ClassTable where
  classes := #[
    { name := "t.Shape"
      loader := ⟨0⟩
      orphan := false
      ancestors := []
      constants := {}
      annotations := []
      methods := []
      fieldSlots := [("x", 0)]
      fieldDefaults := #[.int 0]
      staticSlots := [("count", 0)]
      statics := #[.int 0]
      state := .uninitialized
      instrumented := false
      handler? := none },
    { name := "t.Square"
      loader := ⟨0⟩
      orphan := false
      ancestors := [⟨0⟩]
      constants := {}
      annotations := []
      methods := []
      fieldSlots := [("x", 2), ("side", 1)]
      fieldDefaults := #[.int 0, .long 0, .bool false]
      staticSlots := []
      statics := #[]
      state := .uninitialized
      instrumented := false
      handler? := none }]

theorem shapes_chain : shapes.Chain [(⟨1⟩, squareFile), (⟨0⟩, shapeFile)] := by
  have hshape : LoadedClass.define { loader := ⟨0⟩ } none shapeFile = .ok (shapes.get ⟨0⟩) := by
    decide +kernel
  have hsquare : LoadedClass.define { loader := ⟨0⟩ } (some (⟨0⟩, shapes.get ⟨0⟩)) squareFile =
      .ok (shapes.get ⟨1⟩) := by decide +kernel
  exact .cons (.cons .nil hshape rfl) hsquare rfl

/-- The two fields of one name are apart. -/
theorem fields_have_own_slots_shapes :
    shapes.Chain [(⟨1⟩, squareFile), (⟨0⟩, shapeFile)] ∧
      ∀ (heap : Heap) (o : ObjectRef) v, (heap.object o).slots.size = 3 →
        (heap.setSlot o 0 v).slot? o 2 = heap.slot? o 2 ∧
          (heap.setSlot o 2 v).slot? o 2 = some v := by
  obtain ⟨-, -, -, -, haccess⟩ := shapes_chain.fields_have_own_slots
  refine ⟨shapes_chain, fun heap o v hsize => ?_⟩
  have hread := (haccess heap o hsize).2
  have hshape : (⟨0⟩, shapeFile) ∈ [((⟨1⟩ : ClassRef), squareFile), (⟨0⟩, shapeFile)] := by simp
  have hsquare : (⟨1⟩, squareFile) ∈ [((⟨1⟩ : ClassRef), squareFile), (⟨0⟩, shapeFile)] := by simp
  exact ⟨hread _ hshape _ hsquare "x" "x" 0 2 v rfl rfl,
    hread _ hsquare _ hsquare "x" "x" 2 2 v rfl rfl⟩

end ClassTable

end Interpose
