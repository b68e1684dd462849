import Interpose.Descriptor.Basic
/-!
# Reading descriptors

`TypeDesc.scan` reads one type off the front of a text and returns what follows; `TypeDesc.parse`
and `MethodDesc.parse` ask that nothing does. The scanner recurses on the text itself. A fault
carries the suffix at which it was found, and its place is worked out from that suffix only when
the error is built.

Places count bytes, and an unexpected character is reported by its first byte read as a
character of its own: for a letter outside ASCII that is not the letter.
-/

namespace Interpose

/-- Why a text is no descriptor. -/
inductive DescriptorError
  /-- A byte that starts no type, or a class name that is empty. -/
  | unexpected (descriptor : String) (found : Char) (position : Nat)
  /-- The text ends inside a type. -/
  | truncated (descriptor : String)
  /-- Text follows a complete descriptor. -/
  | trailing (descriptor : String)
  /-- `void` stands where a value type is required. -/
  | misplacedVoid (descriptor : String)
  deriving DecidableEq, Repr

namespace DescriptorError

/-- The report of a descriptor error. -/
def message : DescriptorError → String
  | unexpected descriptor found position =>
    s!"Unexpected '{found}' at position {position} in descriptor '{descriptor}'"
  | truncated descriptor => s!"Truncated descriptor '{descriptor}'"
  | trailing descriptor => s!"Trailing characters in descriptor '{descriptor}'"
  | misplacedVoid descriptor =>
    s!"'void' is not a valid parameter or array element type in '{descriptor}'"

end DescriptorError

namespace Descriptor

/-- A fault of the text, before its place is known. -/
inductive Fault
  | truncated
  | trailing
  | misplacedVoid
  /-- What is left of the text from the offending character on. -/
  | unexpected (suffix : List Char)
  deriving DecidableEq, Repr

/-- The number of bytes of a text. -/
def byteCount (cs : List Char) : Nat := cs.foldl (fun n c => n + c.utf8Size) 0

/-- The first byte of the text as a character of its own. -/
def leadByte (cs : List Char) : Char :=
  match cs.flatMap String.utf8EncodeChar with
  | [] => ' '
  | b :: _ => Char.ofNat b.toNat

/-- The error that a fault in a descriptor amounts to. -/
def Fault.toError (descriptor : String) : Fault → DescriptorError
  | truncated => .truncated descriptor
  | trailing => .trailing descriptor
  | misplacedVoid => .misplacedVoid descriptor
  | unexpected suffix =>
    .unexpected descriptor (leadByte suffix)
      (byteCount descriptor.toList - byteCount suffix)

/-- Splits a class name from the semicolon that ends it. -/
def scanName : List Char → Option (List Char × List Char)
  | [] => none
  | ';' :: rest => some ([], rest)
  | c :: rest => (scanName rest).map fun (name, rest) => (c :: name, rest)

end Descriptor

open Descriptor

namespace TypeDesc

/-- Reads one type, `void` included, and returns the text behind it. -/
def scan : List Char → Except Fault (TypeDesc × List Char)
  | [] => .error .truncated
  | 'V' :: rest => .ok (void, rest)
  | 'Z' :: rest => .ok (bool, rest)
  | 'I' :: rest => .ok (int, rest)
  | 'J' :: rest => .ok (long, rest)
  | 'D' :: rest => .ok (double, rest)
  | 'T' :: rest => .ok (text, rest)
  | 'X' :: rest => .ok (any, rest)
  | 'L' :: rest =>
    match scanName rest with
    | none => .error .truncated
    | some ([], _) => .error (.unexpected rest)
    | some (name, rest) => .ok (object (String.ofList name), rest)
  | '[' :: rest =>
    match scan rest with
    | .error fault => .error fault
    | .ok (element, rest) =>
      if element.isVoid then .error .misplacedVoid else .ok (array element, rest)
  | c :: rest => .error (.unexpected (c :: rest))

/-- Reads a whole text as one type. -/
def parse (descriptor : String) : Except DescriptorError TypeDesc :=
  match scan descriptor.toList with
  | .error fault => .error (fault.toError descriptor)
  | .ok (t, []) => .ok t
  | .ok (_, _ :: _) => .error (.trailing descriptor)

theorem length_scanName {cs name rest : List Char} (h : scanName cs = some (name, rest)) :
    rest.length < cs.length := by
  induction cs generalizing name with
  | nil => simp [scanName] at h
  | cons c cs ih =>
    by_cases hc : c = ';'
    · subst hc
      simp only [scanName, Option.some.injEq, Prod.mk.injEq] at h
      simp [← h.2]
    · rw [scanName] at h
      · obtain ⟨⟨n, r⟩, hn, hr⟩ := Option.map_eq_some_iff.1 h
        cases hr
        have := ih hn
        simp only [List.length_cons]
        omega
      · exact hc

/-- A type takes at least one character. -/
theorem length_scan {cs rest : List Char} {t : TypeDesc} (h : scan cs = .ok (t, rest)) :
    rest.length < cs.length := by
  fun_induction scan cs generalizing t rest with
  | case1 => cases h
  | case2 | case3 | case4 | case5 | case6 | case7 | case8 => cases h; simp
  | case9 | case10 => cases h
  | case11 r name r' hn hs =>
    cases h
    have := length_scanName hs
    simp only [List.length_cons]
    omega
  | case12 => cases h
  | case13 => cases h
  | case14 r e r' hs hv ih =>
    cases h
    have := ih hs
    simp only [List.length_cons]
    omega
  | case15 => cases h

end TypeDesc

namespace MethodDesc

/-- Reads parameter types up to the closing parenthesis and returns the text behind it. -/
def scanParams (cs : List Char) : Except Fault (List TypeDesc × List Char) :=
  match cs with
  | [] => .error .truncated
  | ')' :: rest => .ok ([], rest)
  | c :: cs =>
    match _h : TypeDesc.scan (c :: cs) with
    | .error fault => .error fault
    | .ok (t, rest) =>
      if t.isVoid then .error .misplacedVoid
      else
        match scanParams rest with
        | .error fault => .error fault
        | .ok (ts, rest) => .ok (t :: ts, rest)
termination_by cs.length
decreasing_by exact TypeDesc.length_scan _h

/-- Reads a whole signature; faults have no place yet. -/
def scan : List Char → Except Fault MethodDesc
  | [] => .error .truncated
  | '(' :: rest =>
    match scanParams rest with
    | .error fault => .error fault
    | .ok (params, rest) =>
      match TypeDesc.scan rest with
      | .error fault => .error fault
      | .ok (ret, []) => .ok ⟨params, ret⟩
      | .ok (_, _ :: _) => .error .trailing
  | c :: rest => .error (.unexpected (c :: rest))

/-- Reads a whole text as a signature. -/
def parse (descriptor : String) : Except DescriptorError MethodDesc :=
  match scan descriptor.toList with
  | .error fault => .error (fault.toError descriptor)
  | .ok m => .ok m

end MethodDesc

end Interpose
