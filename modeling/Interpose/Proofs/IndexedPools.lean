import Interpose.Proofs.AcceptedFiles
import Interpose.Proofs.Pools
import Mathlib.Data.List.Nodup
/-!
# Pools with an index

A pool is looked through from the start whenever something is added to it. To spare the search, a pool
can carry an index beside each table, which leads from a value to the number under which it is known.
Such a pool has eight parts to keep in step, and two ways of filling them: adding a value that is not
there yet, and reading, where values come as they are and may come twice.

One fact carries everything. The index of a value is the number of its first place in the table, and
values without an index are not in the table: `IndexedTable.InStep`. It holds of empty tables, adding
keeps it, and so does reading, because there a value that has an index keeps the one it has. So the
index is a function of the table, and a pool with an index does what `Pool` does.

Nothing here bounds the number of entries. Numbers have thirty-two bits and wrap round, in the table
as in the index; the bound is a hypothesis where a number has to denote a place.

## Main definitions

* `Pool.Kind`: the four tables and what they hold
* `IndexedTable`, `IndexedPool`: tables and pools with an index
* `IndexedPool.Reached`: what can come of an empty pool or of reading one
* `IndexedPool.FirstAt`: the first place of a value

## Main results

* `IndexedTable.InStep.add`, `IndexedTable.InStep.append`: the index stays in step
* `IndexedPool.read_eq`: reading
* `IndexedPool.Reached.add_eq`: what is added to a pool with an index, and to one without
* `IndexedPool.Reached.add_interns`: what adding does, and what it leaves alone
-/

namespace Interpose

deriving instance Hashable for FieldRef, MethodRef

/-! ### The four tables -/

/-- The tables of a pool. -/
inductive Pool.Kind
  | strings
  | classes
  | fields
  | methods
  deriving DecidableEq

namespace Pool

/-- What a table holds. -/
abbrev Kind.Value : Kind → Type
  | strings => String
  | classes => String
  | fields => FieldRef
  | methods => MethodRef

instance : (k : Kind) → DecidableEq k.Value
  | .strings => inferInstanceAs (DecidableEq String)
  | .classes => inferInstanceAs (DecidableEq String)
  | .fields => inferInstanceAs (DecidableEq FieldRef)
  | .methods => inferInstanceAs (DecidableEq MethodRef)

instance : (k : Kind) → Hashable k.Value
  | .strings => inferInstanceAs (Hashable String)
  | .classes => inferInstanceAs (Hashable String)
  | .fields => inferInstanceAs (Hashable FieldRef)
  | .methods => inferInstanceAs (Hashable MethodRef)

/-- How a value is read. -/
def Kind.read : (k : Kind) → Reader k.Value
  | strings => Reader.text
  | classes => Reader.text
  | fields => do
    let owner ← Reader.text
    let name ← Reader.text
    return FieldRef.mk owner name
  | methods => do
    let owner ← Reader.text
    let name ← Reader.text
    let descriptor ← Reader.text
    return MethodRef.mk owner name descriptor

/-- The entries of a table. -/
def entries (p : Pool) : (k : Kind) → List k.Value
  | .strings => p.strings
  | .classes => p.classes
  | .fields => p.fields
  | .methods => p.methods

/-- Adds a value to its table. -/
def add (p : Pool) : (k : Kind) → k.Value → UInt32 × Pool
  | .strings, s => p.addString s
  | .classes, name => p.addClass name
  | .fields, f => p.addField f.owner f.name
  | .methods, m => p.addMethod m.owner m.name m.descriptor

/-- The entry with a number. -/
def value? (p : Pool) : (k : Kind) → UInt32 → Option k.Value
  | .strings, i => p.string? i
  | .classes, i => p.class? i
  | .fields, i => p.field? i
  | .methods, i => p.method? i

theorem value?_eq (p : Pool) (k : Kind) (i : UInt32) : p.value? k i = (p.entries k)[i.toNat]? := by
  cases k <;> rfl

theorem read_eq_tables : Pool.read = do
    let strings ← Reader.table (Kind.read .strings)
    let classes ← Reader.table (Kind.read .classes)
    let fields ← Reader.table (Kind.read .fields)
    let methods ← Reader.table (Kind.read .methods)
    return Pool.mk strings classes fields methods := rfl

theorem fst_add (p : Pool) (k : Kind) (v : k.Value) :
    (p.add k v).1 = (intern (p.entries k) v).1 := by
  cases k <;> rfl

theorem entries_add_self (p : Pool) (k : Kind) (v : k.Value) :
    (p.add k v).2.entries k = (intern (p.entries k) v).2 := by
  cases k <;> rfl

theorem entries_add_of_ne (p : Pool) {k k' : Kind} (h : k' ≠ k) (v : k.Value) :
    (p.add k v).2.entries k' = p.entries k' := by
  cases k <;> cases k' <;> first | rfl | exact absurd rfl h

/-! ### First places -/

section First

variable {α : Type} {l l' : List α} {a : α}

theorem idxOf?_concat [BEq α] (l : List α) (a x : α) : (l ++ [a]).idxOf? x =
    (l.idxOf? x).or (if a == x then some l.length else none) := by
  by_cases h : a == x <;> simp [List.idxOf?, List.findIdx?_append, List.findIdx?_cons, h]

/-- The number that is handed out is that of the first place of the value. -/
theorem idxOf?_intern [BEq α] [LawfulBEq α] (h : l.length < UInt32.size) (a : α) :
    (intern l a).2.idxOf? a = some (intern l a).1.toNat := by
  unfold intern
  cases hi : l.idxOf? a with
  | some i =>
    have hlt : i < UInt32.size := Nat.lt_trans (List.idxOf?_eq_some_iff.1 hi).1 h
    simp [hi, Nat.mod_eq_of_lt hlt]
  | none => simp [idxOf?_concat, hi, Nat.mod_eq_of_lt h]

/-- The first place of a value stays where it is while the table grows. -/
theorem idxOf?_of_prefix [BEq α] {n : Nat} (hl : l <+: l') (h : l.idxOf? a = some n) :
    l'.idxOf? a = some n := by
  obtain ⟨rest, rfl⟩ := hl
  have hfind : l.findIdx? (· == a) = some n := h
  simp [List.idxOf?, List.findIdx?_append, hfind]

end First

end Pool

/-! ### Tables -/

/-- A table with an index beside it. -/
structure IndexedTable (α : Type) [BEq α] [Hashable α] where
  entries : List α := []
  index : Std.HashMap α UInt32 := {}

namespace IndexedTable

variable {α : Type} [BEq α] [Hashable α]

/-- Adds a value, unless it has an index, and answers the number under which it is known. -/
def add (t : IndexedTable α) (a : α) : UInt32 × IndexedTable α :=
  match t.index[a]? with
  | some i => (i, t)
  | none =>
    let i := UInt32.ofNat t.entries.length
    (i, ⟨t.entries ++ [a], t.index.insert a i⟩)

/-- Puts a value behind the others, whether it is new or not. A value that has an index keeps it. -/
def append (t : IndexedTable α) (a : α) : IndexedTable α :=
  ⟨t.entries ++ [a], t.index.insertIfNew a (UInt32.ofNat t.entries.length)⟩

/-- The table that holds the given values in their places. -/
def ofEntries (as : List α) : IndexedTable α := as.foldl append {}

/-- Reads so many values and puts each behind the others. -/
def fill (read : Reader α) : Nat → IndexedTable α → Reader (IndexedTable α)
  | 0, t => return t
  | count + 1, t => do
    let a ← read
    fill read count (t.append a)

/-- Reads a table. -/
def read (read : Reader α) : Reader (IndexedTable α) := do
  let count ← Reader.u32
  fill read count.toNat {}

/-- The index of a value is the number of its first place. -/
structure InStep (t : IndexedTable α) : Prop where
  index? : ∀ a, t.index[a]? = (t.entries.idxOf? a).map UInt32.ofNat

/-! ### Reading tables -/

theorem fill_eq (read : Reader α) (count : Nat) (t : IndexedTable α) :
    fill read count t = do return (← Reader.replicate read count).foldl append t := by
  induction count generalizing t with
  | zero => rfl
  | succ count ih => simp [fill, Reader.replicate, ih]

/-- Reading a table with an index is reading the table and then filling one. -/
theorem read_eq (read : Reader α) :
    IndexedTable.read read = do return ofEntries (← Reader.table read) := by
  simp [IndexedTable.read, Reader.table, fill_eq, ofEntries]

theorem entries_ofEntries (as : List α) : (ofEntries as).entries = as := by
  have hfold : ∀ t : IndexedTable α, (as.foldl append t).entries = t.entries ++ as := by
    induction as with
    | nil => simp
    | cons a as ih =>
      intro t
      simp [ih, append]
  exact hfold {}

/-! ### The index -/

theorem inStep_empty : ({} : IndexedTable α).InStep :=
  ⟨fun a => by simp⟩

/-- A value that is put behind the others becomes known under the last number, unless it is known
already. -/
theorem InStep.concat {t : IndexedTable α} {a : α} (h : t.InStep) {index : Std.HashMap α UInt32}
    (hindex : ∀ x, index[x]? = (t.index[x]?).or
      (if a == x then some (UInt32.ofNat t.entries.length) else none)) :
    InStep ⟨t.entries ++ [a], index⟩ := by
  constructor
  intro x
  show index[x]? = ((t.entries ++ [a]).idxOf? x).map UInt32.ofNat
  rw [hindex, h.index?, Pool.idxOf?_concat]
  by_cases hax : a == x <;> cases t.entries.idxOf? x <;> simp [hax]

/-- Adding does to the entries what adding without an index does, and answers the same. -/
theorem InStep.add_eq_intern {t : IndexedTable α} (h : t.InStep) (a : α) :
    (t.add a).1 = (Pool.intern t.entries a).1 ∧
    (t.add a).2.entries = (Pool.intern t.entries a).2 := by
  have hindex := h.index? a
  unfold IndexedTable.add Pool.intern
  cases hi : t.entries.idxOf? a with
  | some i =>
    rw [hi, Option.map_some] at hindex
    rw [hindex]
    exact ⟨rfl, rfl⟩
  | none =>
    rw [hi, Option.map_none] at hindex
    rw [hindex]
    exact ⟨rfl, rfl⟩

/-- What is in the table is not added again. -/
theorem InStep.add_of_idxOf? {t : IndexedTable α} (h : t.InStep) {a : α} {n : Nat}
    (ha : t.entries.idxOf? a = some n) :
    t.add a = (UInt32.ofNat n, t) := by
  have hindex : t.index[a]? = some (UInt32.ofNat n) := by rw [h.index?, ha, Option.map_some]
  rw [IndexedTable.add, hindex]

section Lawful

variable [LawfulBEq α] {t : IndexedTable α}

theorem InStep.append (h : t.InStep) (a : α) : (t.append a).InStep := by
  refine h.concat fun x => ?_
  rw [Std.HashMap.getElem?_insertIfNew]
  by_cases hax : a == x
  · obtain rfl := eq_of_beq hax
    by_cases ha : a ∈ t.index <;> simp [ha]
  · simp [hax]

theorem InStep.add (h : t.InStep) (a : α) : (t.add a).2.InStep := by
  unfold IndexedTable.add
  cases hi : t.index[a]? with
  | some i => exact h
  | none =>
    refine h.concat fun x => ?_
    rw [Std.HashMap.getElem?_insert]
    by_cases hax : a == x
    · obtain rfl := eq_of_beq hax
      simp [hi]
    · simp [hax]

theorem inStep_ofEntries (as : List α) : (ofEntries as).InStep := by
  have hfold : ∀ t : IndexedTable α, t.InStep → (as.foldl IndexedTable.append t).InStep := by
    induction as with
    | nil => exact fun t h => h
    | cons a as ih => exact fun t h => ih _ (h.append a)
  exact hfold {} inStep_empty

end Lawful

end IndexedTable

/-! ### Pools -/

/-- A pool with an index beside each table. -/
structure IndexedPool where
  table : (k : Pool.Kind) → IndexedTable k.Value := fun _ => {}

namespace IndexedPool

open Pool (Kind)

/-- The pool without its indexes. -/
def tables (p : IndexedPool) : Pool :=
  ⟨(p.table .strings).entries, (p.table .classes).entries, (p.table .fields).entries,
    (p.table .methods).entries⟩

/-- Pools are compared by their tables; the indexes are left out. -/
instance : BEq IndexedPool := ⟨fun p q => p.tables == q.tables⟩

/-- Adds a value to its table. -/
def add (p : IndexedPool) (k : Kind) (v : k.Value) : UInt32 × IndexedPool :=
  let (i, t) := (p.table k).add v
  (i, ⟨Function.update p.table k t⟩)

/-- Adds values in order. -/
def addAll (p : IndexedPool) (vs : List (Σ k : Kind, k.Value)) : IndexedPool :=
  vs.foldl (fun p v => (p.add v.1 v.2).2) p

/-- The entry with a number. -/
def value? (p : IndexedPool) (k : Kind) (i : UInt32) : Option k.Value := (p.table k).entries[i.toNat]?

/-- The pool of four tables. -/
def ofTables (strings classes : IndexedTable String) (fields : IndexedTable FieldRef)
    (methods : IndexedTable MethodRef) : IndexedPool where
  table
    | .strings => strings
    | .classes => classes
    | .fields => fields
    | .methods => methods

/-- Reads a pool. -/
def read : Reader IndexedPool := do
  let strings ← IndexedTable.read (Kind.read .strings)
  let classes ← IndexedTable.read (Kind.read .classes)
  let fields ← IndexedTable.read (Kind.read .fields)
  let methods ← IndexedTable.read (Kind.read .methods)
  return ofTables strings classes fields methods

/-- A pool with the entries of another, each put behind the others. -/
def ofPool (p : Pool) : IndexedPool := ⟨fun k => IndexedTable.ofEntries (p.entries k)⟩

/-- What can come of an empty pool, or of reading one, by adding values. -/
inductive Reached : IndexedPool → Prop
  | new : Reached {}
  | read {p : IndexedPool} {c c' : Cursor} (h : IndexedPool.read.run c = (.ok p, c')) : Reached p
  | add {p : IndexedPool} (h : Reached p) (k : Kind) (v : k.Value) : Reached (p.add k v).2

variable {p : IndexedPool}

theorem entries_tables (p : IndexedPool) (k : Kind) : p.tables.entries k = (p.table k).entries := by
  cases k <;> rfl

theorem tables_ofPool (p : Pool) : (ofPool p).tables = p := by
  simp [tables, ofPool, IndexedTable.entries_ofEntries, Pool.entries]

theorem ext_tables {p q : Pool} (h : ∀ k, p.entries k = q.entries k) : p = q := by
  obtain ⟨strings, classes, fields, methods⟩ := p
  obtain ⟨strings', classes', fields', methods'⟩ := q
  obtain rfl : strings = strings' := h .strings
  obtain rfl : classes = classes' := h .classes
  obtain rfl : fields = fields' := h .fields
  obtain rfl : methods = methods' := h .methods
  rfl

/-- **Reading** a pool with an index is reading the pool and then filling one. -/
theorem read_eq : IndexedPool.read = do return ofPool (← Pool.read) := by
  have hof : ∀ strings classes fields methods,
      ofTables (.ofEntries strings) (.ofEntries classes) (.ofEntries fields) (.ofEntries methods) =
        ofPool ⟨strings, classes, fields, methods⟩ := by
    intro strings classes fields methods
    rw [ofTables, ofPool]
    congr 1
    funext k
    cases k <;> rfl
  rw [Pool.read_eq_tables]
  simp only [IndexedPool.read, IndexedTable.read_eq, bind_assoc, pure_bind, ← hof]

theorem inStep_ofPool (p : Pool) (k : Kind) : ((ofPool p).table k).InStep :=
  IndexedTable.inStep_ofEntries _

/-- What is read has the entries that a pool without indexes is read with. -/
theorem eq_ofPool_of_read {c c' : Cursor} (h : IndexedPool.read.run c = (.ok p, c')) :
    ∃ q, Pool.read.run c = (.ok q, c') ∧ p = ofPool q := by
  rw [read_eq] at h
  obtain ⟨q, c₁, hq, hp⟩ := Reader.run_bind_eq_ok h
  cases hp
  exact ⟨q, hq, rfl⟩

/-- What was written of a pool is read with every value in its place. -/
theorem reads_encode {q : Pool} (h : q.Storable) :
    Reader.Reads IndexedPool.read q.encode (ofPool q) := by
  rw [read_eq]
  exact (Pool.reads_encode h).map

theorem reached_ofPool {q : Pool} (h : q.Storable) : (ofPool q).Reached :=
  .read (reads_encode h 0 [])

theorem table_add_self (p : IndexedPool) (k : Kind) (v : k.Value) :
    (p.add k v).2.table k = ((p.table k).add v).2 :=
  Function.update_self ..

theorem table_add_of_ne (p : IndexedPool) {k k' : Kind} (h : k' ≠ k) (v : k.Value) :
    (p.add k v).2.table k' = p.table k' :=
  Function.update_of_ne h ..

/-- **Indexes stay in step.** Whatever a pool has been through, the index of a value is the number of
its first place. -/
theorem Reached.inStep (h : p.Reached) (k : Kind) : (p.table k).InStep := by
  induction h with
  | new => exact IndexedTable.inStep_empty
  | read h =>
    obtain ⟨q, -, rfl⟩ := eq_ofPool_of_read h
    exact inStep_ofPool q k
  | @add p h k' v ih =>
    by_cases hk : k = k'
    · subst hk
      rw [table_add_self]
      exact ih.add v
    · rw [table_add_of_ne p hk]
      exact ih

/-- **Adding** to a pool with an index answers what adding to the tables answers, and does it to the
tables. -/
theorem Reached.add_eq (h : p.Reached) (k : Kind) (v : k.Value) :
    (p.add k v).1 = (p.tables.add k v).1 ∧ (p.add k v).2.tables = (p.tables.add k v).2 := by
  obtain ⟨hnumber, hentries⟩ := (h.inStep k).add_eq_intern v
  constructor
  · rw [Pool.fst_add, entries_tables]
    exact hnumber
  · refine ext_tables fun k' => ?_
    rw [entries_tables]
    by_cases hk : k' = k
    · subst hk
      rw [table_add_self, hentries, Pool.entries_add_self, entries_tables]
    · rw [table_add_of_ne p hk, Pool.entries_add_of_ne _ hk, entries_tables]

/-! ### Numbers that have been handed out -/

/-- A number is that of the first place of a value. -/
structure FirstAt (p : IndexedPool) (k : Kind) (v : k.Value) (i : UInt32) : Prop where
  found : p.value? k i = some v
  first : ∀ j < i, p.value? k j ≠ some v

theorem firstAt_of_idxOf? {k : Kind} {v : k.Value} {i : UInt32}
    (h : (p.table k).entries.idxOf? v = some i.toNat) : p.FirstAt k v i := by
  obtain ⟨hlt, hget, hfirst⟩ := List.idxOf?_eq_some_iff.1 h
  constructor
  · rw [value?, List.getElem?_eq_getElem hlt, hget]
  · intro j hj heq
    obtain ⟨hlt', hget'⟩ := List.getElem?_eq_some_iff.1 heq
    exact hfirst j.toNat (UInt32.lt_iff_toNat_lt.1 hj) hget'

theorem Reached.addAll (h : p.Reached) (vs : List (Σ k : Kind, k.Value)) : (p.addAll vs).Reached := by
  induction vs generalizing p with
  | nil => exact h
  | cons v vs ih => exact ih (h.add v.1 v.2)

/-- Adding leaves what is in a table where it is. -/
theorem Reached.prefix_add (h : p.Reached) (k : Kind) (v : k.Value) (k' : Kind) :
    (p.table k').entries <+: ((p.add k v).2.table k').entries := by
  by_cases hk : k' = k
  · subst hk
    rw [table_add_self, ((h.inStep k').add_eq_intern v).2]
    exact Pool.prefix_intern _ v
  · simp [table_add_of_ne p hk]

/-- The induction is on the values; each is added to a pool that has been reached. -/
theorem Reached.prefix_addAll (h : p.Reached) (vs : List (Σ k : Kind, k.Value)) (k : Kind) :
    (p.table k).entries <+: ((p.addAll vs).table k).entries := by
  induction vs generalizing p with
  | nil => exact List.prefix_refl _
  | cons v vs ih => exact (h.prefix_add v.1 v.2 k).trans (ih (h.add v.1 v.2))

/-- The number that is answered is that of the first place of the value, then and ever after. -/
theorem Reached.idxOf?_addAll (h : p.Reached) {k : Kind}
    (hfew : (p.table k).entries.length < UInt32.size) (v : k.Value)
    (vs : List (Σ k : Kind, k.Value)) :
    (((p.add k v).2.addAll vs).table k).entries.idxOf? v = some (p.add k v).1.toNat := by
  obtain ⟨hnumber, hentries⟩ := (h.inStep k).add_eq_intern v
  refine Pool.idxOf?_of_prefix ((h.add k v).prefix_addAll vs k) ?_
  rw [table_add_self, hentries, Pool.idxOf?_intern hfew]
  exact congrArg (fun i : UInt32 => some i.toNat) hnumber.symm

/-- A value that is in its table is known there, and nothing changes. -/
theorem Reached.add_of_idxOf? (h : p.Reached) {k : Kind} {v : k.Value} {n : Nat}
    (hv : (p.table k).entries.idxOf? v = some n) : p.add k v = (UInt32.ofNat n, p) := by
  rw [IndexedPool.add, (h.inStep k).add_of_idxOf? hv]
  simp

theorem Reached.entries_add_of_not_mem (h : p.Reached) {k : Kind} {v : k.Value}
    (hv : v ∉ (p.table k).entries) :
    ((p.add k v).2.table k).entries = (p.table k).entries ++ [v] := by
  rw [table_add_self, ((h.inStep k).add_eq_intern v).2, Pool.intern, List.idxOf?_eq_none_iff.2 hv]

/-- **Interning.** In a pool with less than 2³² entries in each table, the number that adding answers
is that of the first place of the value, and is so in every pool that comes of it. A value that is
there already leaves the whole pool as it is, any other comes last in its table, and the other tables
keep their entries and their indexes. Every number goes on denoting what it denotes, and adding a value
again answers its number again. Adding to the tables alone comes to the same. -/
theorem Reached.add_interns (h : p.Reached)
    (hfew : ∀ k, (p.table k).entries.length < UInt32.size) (k : Kind) (v : k.Value) :
    (∀ vs, ((p.add k v).2.addAll vs).FirstAt k v (p.add k v).1) ∧
    (v ∈ (p.table k).entries → (p.add k v).2 = p) ∧
    (v ∉ (p.table k).entries →
      ((p.add k v).2.table k).entries = (p.table k).entries ++ [v]) ∧
    (∀ k', k' ≠ k → (p.add k v).2.table k' = p.table k') ∧
    (∀ vs k' i e, p.value? k' i = some e → (p.addAll vs).value? k' i = some e) ∧
    (∀ vs, ((p.add k v).2.addAll vs).add k v = ((p.add k v).1, (p.add k v).2.addAll vs)) ∧
    (p.add k v).1 = (p.tables.add k v).1 ∧ (p.add k v).2.tables = (p.tables.add k v).2 := by
  have hfirst := h.idxOf?_addAll (hfew k) v
  refine ⟨fun vs => firstAt_of_idxOf? (hfirst vs), fun hv => ?_, h.entries_add_of_not_mem,
    fun k' hk => table_add_of_ne p hk v, fun vs k' i e he => ?_, fun vs => ?_, h.add_eq k v⟩
  · obtain ⟨n, hn⟩ := Option.isSome_iff_exists.1 (List.isSome_idxOf?.2 hv)
    rw [h.add_of_idxOf? hn]
  · exact Pool.getElem?_of_prefix (h.prefix_addAll vs k') he
  · rw [((h.add k v).addAll vs).add_of_idxOf? (hfirst vs), UInt32.ofNat_toNat]

/-- A pool that was read with a text in it twice. -/
def twice : IndexedPool := ofPool { strings := ["a", "b", "a"] }

theorem twice_reached : twice.Reached := by
  refine reached_ofPool ⟨by decide +kernel, ?_, ?_, ?_⟩ <;> exact ⟨by decide, by simp⟩

/-- The text is known under its first number, and as a class it is new. -/
theorem twice_interns :
    twice.Reached ∧ (∀ k, (twice.table k).entries.length < UInt32.size) ∧
    (twice.add .strings "a").2 = twice ∧ twice.FirstAt .strings "a" (twice.add .strings "a").1 ∧
    ((twice.add .classes "a").2.table .classes).entries = ["a"] ∧
    (twice.add .classes "a").2.value? .strings 2 = some "a" := by
  have hfew : ∀ k, (twice.table k).entries.length < UInt32.size := by
    intro k
    rw [← entries_tables, twice, tables_ofPool]
    cases k <;> decide
  have hstrings := twice_reached.add_interns hfew .strings "a"
  have hclasses := twice_reached.add_interns hfew .classes "a"
  have hmem : "a" ∈ (twice.table .strings).entries := by
    rw [← entries_tables, twice, tables_ofPool]
    decide
  have hnot : "a" ∉ (twice.table .classes).entries := by
    rw [← entries_tables, twice, tables_ofPool]
    decide
  refine ⟨twice_reached, hfew, hstrings.2.1 hmem, ?_, ?_, ?_⟩
  · have hfirst := hstrings.1 []
    rwa [hstrings.2.1 hmem] at hfirst
  · rw [hclasses.2.2.1 hnot, ← entries_tables, twice, tables_ofPool]
    rfl
  · refine hclasses.2.2.2.2.1 [⟨.classes, "a"⟩] .strings 2 "a" ?_
    rw [value?, ← entries_tables, twice, tables_ofPool]
    rfl

end IndexedPool

end Interpose
