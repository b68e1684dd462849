import Interpose.Bytes.Datum
/-!
# The pool of symbolic operands

Every symbolic operand of an instruction is an index into one of four tables of a pool: strings,
classes, field references and method references. `intern` looks a value up before it appends it, so
an index once handed out keeps its meaning and equal values share their first index.

A pool is nothing but its tables. There is no index beside them to keep in step, so two pools with
equal tables are equal and behave alike for ever; a pool that was read from bytes may hold equal
entries twice, and `intern` then answers the first.
-/

namespace Interpose

/-- A field by owner and name. -/
structure FieldRef where
  owner : String
  name : String
  deriving DecidableEq, Repr, Inhabited

/-- A method by owner, name and descriptor. -/
structure MethodRef where
  owner : String
  name : String
  descriptor : String
  deriving DecidableEq, Repr, Inhabited

/-- The symbolic operands of a class file. -/
structure Pool where
  strings : List String := []
  classes : List String := []
  fields : List FieldRef := []
  methods : List MethodRef := []
  deriving DecidableEq, Repr, Inhabited

namespace Pool

/-- The index of the first entry equal to `a`, which is appended if there is none, and the table
after that. -/
def intern {α : Type} [BEq α] (entries : List α) (a : α) : UInt32 × List α :=
  match entries.idxOf? a with
  | some i => (UInt32.ofNat i, entries)
  | none => (UInt32.ofNat entries.length, entries ++ [a])

/-! ## Adding -/

def addString (p : Pool) (s : String) : UInt32 × Pool :=
  let (i, strings) := intern p.strings s
  (i, { p with strings := strings })

def addClass (p : Pool) (name : String) : UInt32 × Pool :=
  let (i, classes) := intern p.classes name
  (i, { p with classes := classes })

def addField (p : Pool) (owner name : String) : UInt32 × Pool :=
  let (i, fields) := intern p.fields ⟨owner, name⟩
  (i, { p with fields := fields })

def addMethod (p : Pool) (owner name descriptor : String) : UInt32 × Pool :=
  let (i, methods) := intern p.methods ⟨owner, name, descriptor⟩
  (i, { p with methods := methods })

/-! ## Looking up -/

def string? (p : Pool) (i : UInt32) : Option String := p.strings[i.toNat]?

def class? (p : Pool) (i : UInt32) : Option String := p.classes[i.toNat]?

def field? (p : Pool) (i : UInt32) : Option FieldRef := p.fields[i.toNat]?

def method? (p : Pool) (i : UInt32) : Option MethodRef := p.methods[i.toNat]?

/-! ## As bytes -/

/-- The four tables in order, each behind its count. -/
def encode (p : Pool) : Bytes :=
  Wire.table Wire.text p.strings
    ++ Wire.table Wire.text p.classes
    ++ Wire.table (fun f => Wire.text f.owner ++ Wire.text f.name) p.fields
    ++ Wire.table (fun m => Wire.text m.owner ++ Wire.text m.name ++ Wire.text m.descriptor)
      p.methods

/-- Reads a pool. Entries keep their places, equal ones included. -/
def read : Reader Pool := do
  let strings ← Reader.table Reader.text
  let classes ← Reader.table Reader.text
  let fields ← Reader.table do
    let owner ← Reader.text
    let name ← Reader.text
    return FieldRef.mk owner name
  let methods ← Reader.table do
    let owner ← Reader.text
    let name ← Reader.text
    let descriptor ← Reader.text
    return MethodRef.mk owner name descriptor
  return ⟨strings, classes, fields, methods⟩

end Pool

end Interpose
