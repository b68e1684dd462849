import Interpose.Proofs.Layouts
import Mathlib.Data.List.Nodup
/-!
# Lineages

In a founded table each class is the root of its hierarchy or stands right behind an earlier class,
its superclass, and its lineage goes on as the lineage of that class. What holds of roots and passes
from a superclass to its subclasses holds of every class, then.

Own slots are numbered behind the inherited ones. So within a lineage a slot number belongs to one
field, of one class, and this field is all that the number can mean in an object.

## Main definitions

* `Layout.NumbersFrom`: own slots come behind the inherited ones
* `ClassTable.Below`: a class and its superclass

## Main results

* `ClassTable.Founded.lineage_induction`: from superclasses to subclasses
* `ClassTable.Founded.nodup_lineage`: no class is its own superclass
* `ClassTable.Founded.head?_ancestors`: the way from class to superclass
* `ClassTable.Founded.field_unique`: no two fields of a lineage have one slot
-/

namespace Interpose

/-! ### Own slots -/

namespace Layout

/-- Own slots have distinct numbers, from a number on, and are there. -/
structure NumbersFrom (n : Nat) (slots : List (String × Nat)) (size : Nat) : Prop where
  le : n ≤ size
  bounds : ∀ p ∈ slots, n ≤ p.2 ∧ p.2 < size
  nodup : (slots.map Prod.snd).Nodup

variable {n : Nat} {layout layout' : Layout} {owner : String} {fields : List FieldDef}

theorem NumbersFrom.add (h : NumbersFrom n layout.fieldSlots layout.fieldDefaults.size)
    (name : String) (isStatic : Bool) (t : TypeDesc) :
    NumbersFrom n (layout.add name isStatic t).fieldSlots
      (layout.add name isStatic t).fieldDefaults.size := by
  unfold Layout.add
  split
  · exact h
  have hnew : layout.fieldDefaults.size ∉ layout.fieldSlots.map Prod.snd := by
    intro hmem
    obtain ⟨p, hp, heq⟩ := List.mem_map.1 hmem
    exact Nat.lt_irrefl _ (heq ▸ (h.bounds p hp).2)
  refine ⟨?_, ?_, List.nodup_cons.2 ⟨hnew, h.nodup⟩⟩
  · rw [Array.size_push]
    exact Nat.le_succ_of_le h.le
  · rw [Array.size_push, List.forall_mem_cons]
    exact ⟨⟨h.le, Nat.lt_succ_self _⟩, fun p hp =>
      ⟨(h.bounds p hp).1, Nat.lt_succ_of_lt (h.bounds p hp).2⟩⟩

theorem NumbersFrom.addAll (h : NumbersFrom n layout.fieldSlots layout.fieldDefaults.size)
    (ha : Layout.addAll owner layout fields = .ok layout') :
    NumbersFrom n layout'.fieldSlots layout'.fieldDefaults.size := by
  induction fields generalizing layout with
  | nil =>
    cases ha
    exact h
  | cons f rest ih =>
    obtain ⟨t, -, ha⟩ := addAll_cons ha
    exact ih (h.add ..) ha

theorem NumbersFrom.unique {slots : List (String × Nat)} {size : Nat} (h : NumbersFrom n slots size)
    {p q : String × Nat} (hp : p ∈ slots) (hq : q ∈ slots) (hpq : p.2 = q.2) : p = q :=
  List.inj_on_of_nodup_map h.nodup hp hq hpq

end Layout

namespace ClassTable

variable {t : ClassTable} {c : ClassRef}

/-! ### From superclasses to subclasses -/

/-- A class stands right behind another one, an earlier one, and numbers its slots behind those that
it inherits. -/
structure Below (t : ClassTable) (c s : ClassRef) : Prop where
  has : t.Has s
  before : s.index < c.index
  lineage_eq : t.lineage c = c :: t.lineage s
  numbers : Layout.NumbersFrom (t.get s).slotCount (t.get c).fieldSlots (t.get c).slotCount

/-- A class is the root of its hierarchy, or it has a superclass. -/
theorem Founded.lineage_cases (h : t.Founded) (hc : t.Has c) :
    (t.lineage c = [c] ∧ Layout.NumbersFrom 0 (t.get c).fieldSlots (t.get c).slotCount) ∨
      ∃ s, t.Below c s := by
  obtain ⟨definer, superclass?, file, -, hbefore, k, hk, hfix⟩ := h c hc
  obtain ⟨methods, layout, -, hlayout, rfl⟩ := LoadedClass.define_eq_ok hk
  let inherited := LoadedClass.inheritedSlots (superclass?.map fun s => (s, t.get s))
  let start : Layout := { fieldDefaults := inherited }
  have hstart : Layout.NumbersFrom inherited.size start.fieldSlots start.fieldDefaults.size :=
    ⟨Nat.le_refl _, nofun, List.nodup_nil⟩
  have hnumbers := hstart.addAll hlayout
  have hlineage : t.lineage c =
      c :: LoadedClass.ancestorsBelow (superclass?.map fun s => (s, t.get s)) :=
    congrArg (c :: ·) (LoadedClass.ancestors_eq_of_fixed hfix)
  have hslots : (t.get c).fieldSlots = layout.fieldSlots :=
    LoadedClass.fieldSlots_eq_of_fixed hfix
  have hcount : (t.get c).slotCount = layout.fieldDefaults.size :=
    LoadedClass.slotCount_eq_of_fixed hfix
  rw [← hslots, ← hcount] at hnumbers
  cases superclass? with
  | none => exact .inl ⟨hlineage, hnumbers⟩
  | some s =>
    have hs : s.index < c.index := hbefore s rfl
    exact .inr ⟨s, Nat.lt_trans hs hc, hs, hlineage, hnumbers⟩

/-- **Lineages.** What holds of the roots, and of each class below one of which it holds. The
induction is on the position of the class. -/
theorem Founded.lineage_induction (h : t.Founded) {P : (c : ClassRef) → t.Has c → Prop}
    (root : ∀ c hc, t.lineage c = [c] →
      Layout.NumbersFrom 0 (t.get c).fieldSlots (t.get c).slotCount → P c hc)
    (below : ∀ c s hc (hs : t.Below c s), P s hs.has → P c hc) (c : ClassRef) (hc : t.Has c) :
    P c hc := by
  obtain ⟨n, hn⟩ : ∃ n, c.index = n := ⟨_, rfl⟩
  induction n using Nat.strongRecOn generalizing c with
  | ind n ih =>
    rcases h.lineage_cases hc with ⟨hroot, hnumbers⟩ | ⟨s, hs⟩
    · exact root c hc hroot hnumbers
    · exact below c s hc hs (ih s.index (hn ▸ hs.before) s hs.has rfl)

/-- Superclasses stand before their subclasses. -/
theorem Founded.index_le_of_mem (h : t.Founded) (hc : t.Has c) :
    ∀ a ∈ t.lineage c, a.index ≤ c.index := by
  induction c, hc using h.lineage_induction with
  | root c hc hroot hnumbers =>
    rw [hroot]
    exact List.forall_mem_singleton.2 (Nat.le_refl _)
  | below c s hc hs ih =>
    rw [hs.lineage_eq, List.forall_mem_cons]
    exact ⟨Nat.le_refl _, fun a ha => Nat.le_trans (ih a ha) (Nat.le_of_lt hs.before)⟩

/-- No class is its own superclass. -/
theorem Founded.nodup_lineage (h : t.Founded) (hc : t.Has c) : (t.lineage c).Nodup := by
  induction c, hc using h.lineage_induction with
  | root c hc hroot hnumbers =>
    rw [hroot]
    exact List.nodup_singleton c
  | below c s hc hs ih =>
    rw [hs.lineage_eq]
    refine List.nodup_cons.2 ⟨fun hmem => ?_, ih⟩
    exact Nat.not_lt_of_le (h.index_le_of_mem hs.has c hmem) hs.before

/-- Going from class to superclass leads up the lineage, and ends where that does. -/
theorem Founded.head?_ancestors (h : t.Founded) (hc : t.Has c) :
    ∀ i a, (t.lineage c)[i]? = some a → (t.get a).ancestors.head? = (t.lineage c)[i + 1]? := by
  induction c, hc using h.lineage_induction with
  | root c hc hroot hnumbers =>
    intro i a ha
    have hnone : (t.get c).ancestors = [] := (List.cons.inj hroot).2
    rw [hroot] at ha ⊢
    obtain rfl : a = c := List.mem_singleton.1 (List.mem_of_getElem? ha)
    rw [hnone, List.head?_nil, List.getElem?_cons_succ, List.getElem?_nil]
  | below c s hc hs ih =>
    intro i a ha
    have hancestors : (t.get c).ancestors = t.lineage s := (List.cons.inj hs.lineage_eq).2
    rw [hs.lineage_eq] at ha ⊢
    cases i with
    | zero =>
      cases ha
      rw [hancestors, List.getElem?_cons_succ, List.head?_eq_getElem?]
    | succ i => exact ih i a ha

/-- The superclasses of a superclass. -/
theorem Founded.mem_lineage_trans (h : t.Founded) (hc : t.Has c) :
    ∀ a ∈ t.lineage c, ∀ b ∈ t.lineage a, b ∈ t.lineage c := by
  induction c, hc using h.lineage_induction with
  | root c hc hroot hnumbers =>
    intro a ha b hb
    rw [hroot, List.mem_singleton] at ha
    rwa [← ha]
  | below c s hc hs ih =>
    intro a ha b hb
    rw [hs.lineage_eq] at ha
    rcases List.mem_cons.1 ha with rfl | ha
    · exact hb
    · rw [hs.lineage_eq]
      exact List.mem_cons_of_mem c (ih a ha b hb)

/-- A superclass that a walk up the lineage does not get to stands above the class at which the walk
stops. -/
theorem Founded.exists_of_not_mem_takeWhile (h : t.Founded) (p : ClassRef → Bool) (hc : t.Has c) :
    ∀ a ∈ t.lineage c, a ∉ (t.lineage c).takeWhile p →
      ∃ k ∈ t.lineage c, p k = false ∧ a ∈ t.lineage k := by
  induction c, hc using h.lineage_induction with
  | root c hc hroot hnumbers =>
    intro a ha hstop
    cases hp : p c with
    | false => exact ⟨c, List.mem_cons_self, hp, ha⟩
    | true =>
      rw [hroot, List.takeWhile_cons_of_pos hp] at hstop
      rw [hroot] at ha
      exact absurd ha hstop
  | below c s hc hs ih =>
    intro a ha hstop
    cases hp : p c with
    | false => exact ⟨c, List.mem_cons_self, hp, ha⟩
    | true =>
      rw [hs.lineage_eq, List.takeWhile_cons_of_pos hp, List.mem_cons, not_or] at hstop
      rw [hs.lineage_eq, List.mem_cons] at ha
      obtain ⟨k, hk, hpk, hak⟩ := ih a (ha.resolve_left hstop.1) hstop.2
      refine ⟨k, ?_, hpk, hak⟩
      rw [hs.lineage_eq]
      exact List.mem_cons_of_mem c hk

/-! ### Slots of a lineage -/

/-- The slots of a class are among those of its instances. -/
theorem Founded.slot_lt (h : t.Founded) (hc : t.Has c) {p : String × Nat}
    (hp : p ∈ (t.get c).fieldSlots) : p.2 < (t.get c).slotCount := by
  rcases h.lineage_cases hc with ⟨-, hnumbers⟩ | ⟨s, hs⟩
  · exact (hnumbers.bounds p hp).2
  · exact (hs.numbers.bounds p hp).2

/-- **Slots.** Within a lineage, a slot number belongs to one field of one class: own slots have
distinct numbers, and they are numbered behind the inherited ones. -/
theorem Founded.field_unique (h : t.Founded) (hc : t.Has c) :
    ∀ a ∈ t.lineage c, ∀ b ∈ t.lineage c, ∀ p ∈ (t.get a).fieldSlots, ∀ q ∈ (t.get b).fieldSlots,
      p.2 = q.2 → a = b ∧ p = q := by
  induction c, hc using h.lineage_induction with
  | root c hc hroot hnumbers =>
    rw [hroot]
    intro a ha b hb p hp q hq hpq
    obtain rfl := List.mem_singleton.1 ha
    obtain rfl := List.mem_singleton.1 hb
    exact ⟨rfl, hnumbers.unique hp hq hpq⟩
  | below c s hc hs ih =>
    have hbehind : ∀ b ∈ t.lineage s, ∀ p ∈ (t.get c).fieldSlots, ∀ q ∈ (t.get b).fieldSlots,
        q.2 < p.2 := by
      intro b hb p hp q hq
      obtain ⟨hhas, hcount⟩ := h.slotCount_le hs.has b hb
      have hq : q.2 < (t.get b).slotCount := h.slot_lt hhas hq
      have hp : (t.get s).slotCount ≤ p.2 := (hs.numbers.bounds p hp).1
      omega
    rw [hs.lineage_eq]
    intro a ha b hb p hp q hq hpq
    rcases List.mem_cons.1 ha with rfl | ha' <;> rcases List.mem_cons.1 hb with rfl | hb'
    · exact ⟨rfl, hs.numbers.unique hp hq hpq⟩
    · exact absurd hpq (Nat.ne_of_gt (hbehind b hb' p hp q hq))
    · exact absurd hpq (Nat.ne_of_lt (hbehind a ha' q hq p hp))
    · exact ih a ha' b hb' p hp q hq hpq

end ClassTable

end Interpose
