import Interpose.Proofs.DescriptorGrammar
/-!
# Names of types

Every text is the name of the type that it stands for. A type need not be what its name stands for,
as a class may be called like something else: like a word of the language, or with brackets at its end.
Nothing else can go wrong. Brackets at the end of a name are taken off one pair at a time, so what
matters is the class under all array brackets, and the induction is on these.

Descriptors carry such class names as readily as any other; all they ask of one is that it is not empty
and holds no semicolon.

## Main definitions

* `TypeDesc.innermost`: the type under all array brackets
* `TypeDesc.IsTaken`: names that a class cannot be told by
* `TypeDesc.IsMisnamed`

## Main results

* `TypeDesc.name_ofName`: from names to types and back
* `TypeDesc.ofName_name_iff`: from types to names and back
* `TypeDesc.names_stand_for_types`
-/

namespace Interpose

namespace TypeDesc

/-- The type under all array brackets. -/
def innermost : TypeDesc → TypeDesc
  | array element => element.innermost
  | t => t

/-- Names that stand for something other than the class of that name: the words of the language, and
whatever ends in brackets. -/
def IsTaken (name : String) : Prop :=
  name ∈ ["void", "boolean", "int", "long", "double", "string", "any"] ∨
    ∃ element, name = element ++ "[]"

/-- Under its brackets, the type is a class whose name stands for something else. -/
def IsMisnamed (t : TypeDesc) : Prop := ∃ name, t.innermost = object name ∧ IsTaken name

/-! ### From names to types -/

theorem name_ofBaseName (s : String) : (ofBaseName s).name = s := by
  unfold ofBaseName
  split <;> rfl

/-- Taking a pair of brackets off a name and putting one on the type. -/
theorem name_ofReversedName (cs : List Char) :
    (ofReversedName cs).name = String.ofList cs.reverse := by
  fun_induction ofReversedName cs with
  | case1 rest ih =>
    rw [name, ih, List.reverse_cons, List.reverse_cons, List.append_assoc, String.ofList_append]
    rfl
  | case2 rest => exact name_ofBaseName _

theorem name_ofName (s : String) : (ofName s).name = s := by
  rw [ofName, name_ofReversedName, List.reverse_reverse, String.ofList_toList]

theorem ofName_append (s : String) : ofName (s ++ "[]") = array (ofName s) := by
  rw [ofName, String.toList_append, List.reverse_append]
  rfl

/-- Where there are no brackets, there are none to be taken off. -/
theorem ofName_of_not_append {s : String} (h : ∀ element, s ≠ element ++ "[]") :
    ofName s = ofBaseName s := by
  rw [ofName]
  generalize hcs : s.toList.reverse = cs
  have hs : s = String.ofList cs.reverse := by
    rw [← hcs, List.reverse_reverse, String.ofList_toList]
  unfold ofReversedName
  split
  · rename_i rest
    refine absurd ?_ (h (String.ofList rest.reverse))
    rw [hs, List.reverse_cons, List.reverse_cons, List.append_assoc, String.ofList_append]
    rfl
  · rw [hs]

/-! ### From types to names -/

/-- A class is told by its name exactly if the name stands for nothing else. -/
theorem ofName_eq_object_iff {name : String} : ofName name = object name ↔ ¬IsTaken name := by
  constructor
  · rintro h (hword | ⟨element, rfl⟩)
    · have hwords : ∀ word ∈ ["void", "boolean", "int", "long", "double", "string", "any"],
          ofName word ≠ object word := by decide
      exact hwords name hword h
    · rw [ofName_append] at h
      cases h
  · intro h
    rw [ofName_of_not_append fun element heq => h (.inr ⟨element, heq⟩)]
    unfold ofBaseName
    split
    case h_8 => rfl
    all_goals exact absurd (.inl (by simp)) h

/-- **Types and their names.** A type is what its name stands for, unless it is misnamed. The induction
is on the array brackets. -/
theorem ofName_name_iff (t : TypeDesc) : ofName t.name = t ↔ ¬t.IsMisnamed := by
  induction t with
  | void | bool | int | long | double | text | any =>
    exact ⟨fun _ => by simp [IsMisnamed, innermost], fun _ => by decide⟩
  | object name =>
    rw [TypeDesc.name, ofName_eq_object_iff]
    simp [IsMisnamed, innermost]
  | array element ih =>
    rw [TypeDesc.name, ofName_append, array.injEq, ih]
    rfl

/-- Types that are not misnamed are told apart by their names. -/
theorem eq_of_name_eq {t t' : TypeDesc} (ht : ¬t.IsMisnamed) (ht' : ¬t'.IsMisnamed)
    (h : t.name = t'.name) : t = t' := by
  rw [← (ofName_name_iff t).2 ht, h, (ofName_name_iff t').2 ht']

/-! ### Class names in descriptors -/

/-- A descriptor carries any class name that is not empty and holds no semicolon. -/
theorem parse_object {name : String} (hne : name ≠ "") (hclosed : ';' ∉ name.toList) :
    parse ("L" ++ name ++ ";") = .ok (object name) := by
  refine parse_eq_ok_iff.2 ⟨.inr (.object hne hclosed), ?_⟩
  rw [descriptor, ← String.toList_inj, String.toList_ofList, String.toList_append,
    String.toList_append]
  rfl

/-- **Names.** Every text is the name of the type that it stands for. A type, of those that descriptors
denote as of any others, is what its name stands for exactly if the class under all its brackets, where
there is one, is not called by a word of the language or with brackets at the end; and types of this
kind have the same name only if they are the same. Descriptors do carry class names of the other kind,
all but those that are empty or hold a semicolon. -/
theorem names_stand_for_types :
    (∀ s, (ofName s).name = s) ∧
    (∀ t, ofName t.name = t ↔ ¬t.IsMisnamed) ∧
    (∀ t t' : TypeDesc, ¬t.IsMisnamed → ¬t'.IsMisnamed → t.name = t'.name → t = t') ∧
    ∀ name, name ≠ "" → ';' ∉ name.toList → parse ("L" ++ name ++ ";") = .ok (object name) :=
  ⟨name_ofName, ofName_name_iff, fun _ _ => eq_of_name_eq, fun _ => parse_object⟩

/-- Arrays of a class and of ints, and a class that is called like an array of ints. -/
theorem int_brackets_misnamed :
    ¬(array (object "a.B")).IsMisnamed ∧ ¬(array int).IsMisnamed ∧
    parse "Lint[];" = .ok (object "int[]") ∧ (object "int[]").IsMisnamed ∧
    ofName (object "int[]").name ≠ object "int[]" ∧
    ((array (object "a.B")).name = (array int).name → array (object "a.B") = array int) := by
  obtain ⟨-, hiff, hinj, hparse⟩ := names_stand_for_types
  have hclass : ¬(array (object "a.B")).IsMisnamed := (hiff _).1 (by decide)
  have hints : ¬(array int).IsMisnamed := (hiff _).1 (by decide)
  have hmisnamed : (object "int[]").IsMisnamed := ⟨"int[]", rfl, .inr ⟨"int", by decide⟩⟩
  exact ⟨hclass, hints, hparse "int[]" (by decide) (by decide), hmisnamed,
    fun h => (hiff _).1 h hmisnamed, hinj _ _ hclass hints⟩

end TypeDesc

end Interpose
