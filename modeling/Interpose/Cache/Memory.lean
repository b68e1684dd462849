import Interpose.Bytes.LittleEndian
/-!
# Cache entries in memory

A store holds class bytes by class name and format version. Main statement: a read answers the last
write under the same name and version, and other writes do not matter.
-/

namespace Interpose

/-- The format version that caches are opened at unless another is asked for. -/
def cacheVersion : UInt32 := 2

/-- Stored classes, by name and version. -/
structure MemoryStore where
  entries : List ((String × UInt32) × Bytes) := []
  deriving DecidableEq, Repr, Inhabited

namespace MemoryStore

variable (s : MemoryStore)

/-- The bytes stored under a name and version. -/
def get? (name : String) (version : UInt32) : Option Bytes := s.entries.lookup (name, version)

/-- Stores bytes under a name and version, in place of what was there. -/
def insert (name : String) (version : UInt32) (bytes : Bytes) : MemoryStore :=
  ⟨((name, version), bytes) :: s.entries.filter fun e => e.1 != (name, version)⟩

/-- Entries of all versions. -/
def size : Nat := s.entries.length

@[simp] theorem get?_insert_self (name : String) (version : UInt32) (bytes : Bytes) :
    (s.insert name version bytes).get? name version = some bytes := by
  simp [get?, insert]

theorem lookup_filter_ne {α β : Type} [BEq α] [LawfulBEq α] {a b : α} (h : a ≠ b)
    (l : List (α × β)) : (l.filter fun e => e.1 != b).lookup a = l.lookup a := by
  induction l with
  | nil => rfl
  | cons e l ih =>
    obtain ⟨c, v⟩ := e
    by_cases hb : c = b
    · have : (a == b) = false := by simp [h]
      simp [List.filter, hb, List.lookup_cons, ih, this]
    · have : (c != b) = true := by simp [hb]
      simp only [List.filter, this, List.lookup_cons]
      cases a == c <;> simp [ih]

theorem get?_insert_of_ne {name name' : String} {version version' : UInt32} (bytes : Bytes)
    (h : (name', version') ≠ (name, version)) :
    (s.insert name version bytes).get? name' version' = s.get? name' version' := by
  have hb : ((name', version') == (name, version)) = false := by simpa using h
  simp only [get?, insert, List.lookup_cons, hb]
  exact lookup_filter_ne h s.entries

end MemoryStore

end Interpose
