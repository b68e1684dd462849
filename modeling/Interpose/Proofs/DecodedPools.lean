import Interpose.Proofs.IndexedPools
/-!
# Pools that were written and read again

Two pools with an index are equal when their tables are. Nothing is said of the indexes, and a pool
that was read has built its own; so it has to be shown that equal pools behave alike.

They do, because a pool that has been reached is in step. Whatever it is asked, it answers what its
tables alone answer, and afterwards it is in step again: this is `Reached.perform_eq`, and
`Reached.answers_eq` repeats it. The answers are thus a function of the tables, and what is read back
has the tables that were written.

## Main definitions

* `Pool.Operation`, `Pool.Answer`: what a pool is asked, and what it says
* `Pool.answers`, `IndexedPool.answers`: the answers to one operation after another

## Main results

* `IndexedPool.Reached.perform_eq`: one operation
* `IndexedPool.Reached.answers_eq`: many of them
* `IndexedPool.Reached.read_again`: a pool that was written and read, and equal pools
-/

namespace Interpose

namespace Pool

/-- What a pool can be asked. -/
inductive Operation
  | add (k : Kind) (v : k.Value)
  | look (k : Kind) (i : UInt32)
  | count (k : Kind)
  | encode

/-- What a pool answers. -/
inductive Answer
  | number (i : UInt32)
  | entry (k : Kind) (v : Option k.Value)
  | count (n : Nat)
  | bytes (bs : Bytes)

/-- The answer to one operation, and the pool after it. -/
def perform (p : Pool) : Operation → Answer × Pool
  | .add k v => (.number (p.add k v).1, (p.add k v).2)
  | .look k i => (.entry k (p.value? k i), p)
  | .count k => (.count (p.entries k).length, p)
  | .encode => (.bytes p.encode, p)

/-- The answers to operations that come one after another. -/
def answers (p : Pool) : List Operation → List Answer
  | [] => []
  | o :: os => (p.perform o).1 :: (p.perform o).2.answers os

end Pool

namespace IndexedPool

open Pool (Kind Operation Answer)

/-- The tables in order, each behind its count. -/
def encode (p : IndexedPool) : Bytes := p.tables.encode

/-- The answer to one operation, and the pool after it. -/
def perform (p : IndexedPool) : Operation → Answer × IndexedPool
  | .add k v => (.number (p.add k v).1, (p.add k v).2)
  | .look k i => (.entry k (p.value? k i), p)
  | .count k => (.count (p.table k).entries.length, p)
  | .encode => (.bytes p.encode, p)

/-- The answers to operations that come one after another. -/
def answers (p : IndexedPool) : List Operation → List Answer
  | [] => []
  | o :: os => (p.perform o).1 :: (p.perform o).2.answers os

variable {p q : IndexedPool}

theorem beq_iff : (p == q) = true ↔ p.tables = q.tables := by
  show (p.tables == q.tables) = true ↔ _
  simp

theorem value?_tables (p : IndexedPool) (k : Kind) (i : UInt32) :
    p.tables.value? k i = p.value? k i := by
  rw [Pool.value?_eq, entries_tables, value?]

theorem Reached.perform (h : p.Reached) (o : Operation) : (p.perform o).2.Reached := by
  cases o with
  | add k v => exact h.add k v
  | look k i => exact h
  | count k => exact h
  | encode => exact h

/-- **One operation.** A pool that has been reached answers what its tables answer, and its tables
become what they become. -/
theorem Reached.perform_eq (h : p.Reached) (o : Operation) :
    (p.perform o).1 = (p.tables.perform o).1 ∧
    (p.perform o).2.tables = (p.tables.perform o).2 := by
  cases o with
  | add k v =>
    obtain ⟨hnumber, htables⟩ := h.add_eq k v
    exact ⟨congrArg Answer.number hnumber, htables⟩
  | look k i => exact ⟨congrArg (Answer.entry k) (value?_tables p k i).symm, rfl⟩
  | count k =>
    refine ⟨?_, rfl⟩
    simp only [IndexedPool.perform, Pool.perform, entries_tables]
  | encode => exact ⟨rfl, rfl⟩

/-- **Many operations.** The induction is on the operations; each finds a pool that has been
reached. -/
theorem Reached.answers_eq (h : p.Reached) (os : List Operation) :
    p.answers os = p.tables.answers os := by
  induction os generalizing p with
  | nil => rfl
  | cons o os ih =>
    obtain ⟨hanswer, htables⟩ := h.perform_eq o
    rw [answers, Pool.answers, hanswer, ih (h.perform o), htables]

/-- Pools with equal tables answer alike, whatever their indexes came from. -/
theorem Reached.answers_congr (hp : p.Reached) (hq : q.Reached) (h : p.tables = q.tables)
    (os : List Operation) : p.answers os = q.answers os := by
  rw [hp.answers_eq, hq.answers_eq, h]

/-- **Written and read again.** What was written of a pool, with anything behind it, is read as a pool
that is equal to it and answers whatever it is asked as the pool itself does; what stands behind is
left. All that have been reached and are equal answer alike, and so do the tables alone. -/
theorem Reached.read_again (h : p.Reached) :
    (p.tables.Storable → ∀ start t, ∃ q : IndexedPool,
      IndexedPool.read.run ⟨start, p.encode ++ t⟩ = (.ok q, ⟨start + p.encode.length, t⟩) ∧
      (q == p) = true ∧ q.Reached ∧ ∀ os, q.answers os = p.answers os) ∧
    (∀ q : IndexedPool, q.Reached → (p == q) = true → ∀ os, p.answers os = q.answers os) ∧
    ∀ os, p.answers os = p.tables.answers os := by
  refine ⟨fun hp start t => ?_, fun q hq hpq => h.answers_congr hq (beq_iff.1 hpq), h.answers_eq⟩
  have htables : (ofPool p.tables).tables = p.tables := tables_ofPool p.tables
  have hq : (ofPool p.tables).Reached := reached_ofPool hp
  exact ⟨ofPool p.tables, reads_encode hp start t, beq_iff.2 htables, hq,
    hq.answers_congr h htables⟩

/-- What was read of the pool with a text in it twice, with a byte behind it, keeps both places, knows
the text under the first, and puts a new one behind them. -/
theorem twice_read_again : twice.Reached ∧ twice.tables.Storable ∧
    ∃ q : IndexedPool, IndexedPool.read.run ⟨0, twice.encode ++ [7]⟩ =
      (.ok q, ⟨twice.encode.length, [7]⟩) ∧ (q == twice) = true ∧
      q.answers [.add .strings "a", .look .strings 2, .add .strings "c", .count .strings] =
        [.number 0, .entry .strings (some "a"), .number 3, .count 4] := by
  have hstorable : twice.tables.Storable := by
    rw [twice, tables_ofPool]
    refine ⟨by decide +kernel, ?_, ?_, ?_⟩ <;> exact ⟨by decide, by simp⟩
  obtain ⟨hread, hequals, halone⟩ := twice_reached.read_again
  obtain ⟨q, hq, hqp, hreached, -⟩ := hread hstorable 0 [7]
  have hpq : (twice == q) = true := beq_iff.2 (beq_iff.1 hqp).symm
  refine ⟨twice_reached, hstorable, q, by simpa using hq, hqp, ?_⟩
  rw [← hequals q hreached hpq, halone, twice, tables_ofPool]
  rfl

end IndexedPool

end Interpose
