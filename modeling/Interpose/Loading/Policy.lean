import Interpose.ClassFile.Basic
/-!
# Acquisition policy

Two decisions: whether the instrumenting loader defines a class itself, which depends on the name
alone, and whether it instruments a class that it defines. Whoever sets a loader up supplies them;
loading asks for the answers and for nothing else.

The ordinary policy decides by lists. An empty prefix fits every name. As an acquired prefix it
therefore changes nothing, as a reserved one it leaves every class to the parent.
-/

namespace Interpose

/-- The decisions about classes. -/
structure AcquisitionPolicy where
  /-- Whether the instrumenting loader defines a class itself. -/
  acquires : String → Bool
  /-- Whether an acquired class is instrumented. -/
  instruments : ClassFile → Bool
  deriving Inhabited

/-- The annotation that asks for instrumentation. -/
def instrumentMark : String := "umbra.Instrument"

/-- The annotation that forbids it. -/
def doNotInstrumentMark : String := "umbra.DoNotInstrument"

/-- What the ordinary policy decides by. -/
structure Policy where
  /-- Prefixes of classes that are never acquired. -/
  reserved : List String := ["umbra."]
  /-- Further prefixes that are left to the parent. -/
  delegated : List String := []
  /-- Prefixes to acquire; none means all that is not excluded. -/
  acquired : List String := []
  /-- Prefixes of classes that are instrumented without being marked. -/
  instrumented : List String := []
  /-- Classes that are never instrumented. -/
  valueTypes : List String := []
  deriving DecidableEq, Repr, Inhabited

namespace Policy

/-- Whether a name starts with one of some prefixes. -/
def startsWithAny (prefixes : List String) (name : String) : Bool :=
  prefixes.any fun p => p.toList.isPrefixOf name.toList

variable (p : Policy)

/-- The lists of a policy under their names. -/
def lists : List (String × List String) :=
  [("reserved_prefixes", p.reserved),
    ("delegated_prefixes", p.delegated),
    ("acquired_prefixes", p.acquired),
    ("instrumented_prefixes", p.instrumented),
    ("value_types", p.valueTypes)]

/-- The policy whose lists a function finds, given the name of a list and what it is by default. -/
def ofLists {m : Type → Type} [Monad m] (find : String → List String → m (List String)) :
    m Policy := do
  let d : Policy := {}
  return {
    reserved := ← find "reserved_prefixes" d.reserved
    delegated := ← find "delegated_prefixes" d.delegated
    acquired := ← find "acquired_prefixes" d.acquired
    instrumented := ← find "instrumented_prefixes" d.instrumented
    valueTypes := ← find "value_types" d.valueTypes }

/-- Whether the instrumenting loader defines a class itself. -/
def acquires (name : String) : Bool :=
  !startsWithAny p.reserved name && !startsWithAny p.delegated name &&
    (p.acquired.isEmpty || startsWithAny p.acquired name)

/-- Whether an acquired class is instrumented. -/
def instruments (c : ClassFile) : Bool :=
  !c.isAnnotated doNotInstrumentMark && !p.valueTypes.contains c.name &&
    (c.isAnnotated instrumentMark || startsWithAny p.instrumented c.name)

/-- The decisions that the lists lead to. -/
def decisions : AcquisitionPolicy := ⟨p.acquires, p.instruments⟩

end Policy

end Interpose
