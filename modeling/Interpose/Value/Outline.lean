import Interpose.Class.Table
import Interpose.Heap
/-!
# Values written down

A value as a finite tree, for those who write values down. Objects and arrays have identity but no
text of their own, so they are numbered, each of the two kinds from one, in the order in which they
are first met. The numbers last: what has been met before shows its number again. A value written
down on its own starts afresh.

An object shows its class and nothing of its content. An array shows its items, unless it is met
among its own items, where it only shows its number. An array is numbered before its items are.
-/

namespace Interpose

/-- A value as a finite tree. -/
inductive Outline
  /-- A value without identity. -/
  | plain (v : Value)
  | cls (name : String)
  | object (number : Nat) (cls : String)
  | array (number : Nat) (items : List Outline)
  /-- An array among its own items. -/
  | again (number : Nat)
  deriving Inhabited

/-- What has been met, in order. -/
structure Numbering where
  objects : List ObjectRef := []
  arrays : List ArrayRef := []
  deriving DecidableEq, Repr, Inhabited

namespace Numbering

/-- The number of `a`, and what has been met after that. -/
def number {α : Type} [BEq α] (met : List α) (a : α) : Nat × List α :=
  match met.idxOf? a with
  | some i => (i + 1, met)
  | none => (met.length + 1, met ++ [a])

variable (t : ClassTable) (h : Heap)

/-- The outline of a value inside some arrays. Every level of nesting is an array that is not among
them, so as many levels as there are arrays are enough. -/
def outlineInside : Nat → List ArrayRef → Value → StateM Numbering Outline
  | _, _, .cls c => return .cls (t.get c).name
  | _, _, .object o => modifyGet fun n =>
    let (k, met) := number n.objects o
    (.object k (t.get (h.object o).cls).name, { n with objects := met })
  | levels, inside, .array a => do
    let k ← modifyGet fun n =>
      let (k, met) := number n.arrays a
      (k, { n with arrays := met })
    match levels with
    | 0 => return .again k
    | levels + 1 =>
      if inside.contains a then return .again k
      else return .array k (← (h.elements a).toList.mapM (outlineInside levels (a :: inside)))
  | _, _, v => return .plain v

/-- The outline of a value. -/
def outline (v : Value) : StateM Numbering Outline := outlineInside t h (h.arrays.size + 1) [] v

end Numbering

/-- The outline of a value on its own: numbered from one, whatever has been met elsewhere, and
leaving no trace there. -/
def Value.outline (t : ClassTable) (h : Heap) (v : Value) : Outline :=
  (Id.run ((Numbering.outline t h v).run {})).1

end Interpose
