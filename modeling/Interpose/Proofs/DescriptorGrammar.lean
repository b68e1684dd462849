import Interpose.Proofs.DescriptorBytes
/-!
# The grammar of descriptors

A text is read as a type exactly if the type is well formed, or `void`, and is written as that text;
signatures likewise. Reading what was written needs no look beyond the type itself: each begins with
a letter of its own, and a class name ends at the first semicolon because it holds none. So whatever
follows a type, parentheses and brackets included, is left as it is, and the statement about one type
is an induction on it. The other direction, that what is read was written so, is in
`Interpose.Proofs.Descriptors`.

## Main results

* `TypeDesc.scan_chars_append`, `MethodDesc.scanParams_append`: reading what was written
* `TypeDesc.parse_eq_ok_iff`, `MethodDesc.parse_eq_ok_iff`: what is accepted
* `Descriptor.parse_accepts_the_grammar`: all of it, by characters and by bytes
-/

namespace Interpose

open Descriptor

/-- A name that holds no semicolon ends at the first one behind it. -/
theorem Descriptor.scanName_append {name : List Char} (h : ';' ∉ name) (rest : List Char) :
    scanName (name ++ ';' :: rest) = some (name, rest) := by
  induction name with
  | nil => rfl
  | cons c name ih =>
    have hc : c ≠ ';' := fun heq => h (heq ▸ List.mem_cons_self)
    have hname : ';' ∉ name := fun hmem => h (List.mem_cons_of_mem c hmem)
    rw [List.cons_append, scanName]
    · rw [ih hname]
      rfl
    · exact hc

namespace TypeDesc

variable {t : TypeDesc}

theorem WellFormed.isVoid_eq_false (h : t.WellFormed) : t.isVoid = false := by
  cases h <;> rfl

/-- Reading what was written of a type leaves what follows. The induction is on the type. -/
theorem WellFormed.scan_chars_append (h : t.WellFormed) (rest : List Char) :
    scan (t.chars ++ rest) = .ok (t, rest) := by
  induction h with
  | bool | int | long | double | text | any => simp [chars, scan]
  | @object name nonempty closed =>
    have hname : scanName (name.toList ++ [';'] ++ rest) = some (name.toList, rest) := by
      rw [List.append_assoc]
      exact scanName_append closed rest
    obtain ⟨c, cs, hcs⟩ : ∃ c cs, name.toList = c :: cs := by
      refine List.exists_cons_of_ne_nil fun hnil => nonempty ?_
      rw [← String.ofList_toList (s := name), hnil]
    rw [chars, List.cons_append, scan, hname, hcs]
    simp [← hcs]
  | @array element helement ih =>
    rw [chars, List.cons_append, scan, ih]
    simp [helement.isVoid_eq_false]

theorem scan_chars_append (h : t = void ∨ t.WellFormed) (rest : List Char) :
    scan (t.chars ++ rest) = .ok (t, rest) := by
  rcases h with rfl | h
  · simp [chars, scan]
  · exact h.scan_chars_append rest

/-- **Types.** A text is read as a type exactly if it is the descriptor of the type and the type is
one that a descriptor can denote. -/
theorem parse_eq_ok_iff {s : String} :
    parse s = .ok t ↔ (t = void ∨ t.WellFormed) ∧ t.descriptor = s := by
  constructor
  · intro h
    unfold parse at h
    split at h
    · cases h
    · rename_i hscan
      cases h
      refine ⟨wellFormed_of_scan hscan, ?_⟩
      rw [descriptor, ← String.ofList_toList (s := s), eq_chars_of_scan hscan, List.append_nil]
    · cases h
  · rintro ⟨ht, rfl⟩
    have hscan := scan_chars_append ht []
    rw [List.append_nil] at hscan
    rw [parse, descriptor, String.toList_ofList, hscan]

end TypeDesc

namespace MethodDesc

variable {d : MethodDesc} {ts : List TypeDesc}

/-- Parameters that are read are value types. -/
theorem wellFormed_of_scanParams {cs rest : List Char} (h : scanParams cs = .ok (ts, rest)) :
    ∀ t ∈ ts, t.WellFormed := by
  fun_induction scanParams cs generalizing ts rest with
  | case1 | case3 | case4 | case5 => cases h
  | case2 =>
    cases h
    simp
  | case6 c cs hc t r hs hv ts' r' hp ih =>
    cases h
    have ht : t.WellFormed := by
      refine (TypeDesc.wellFormed_of_scan hs).resolve_left fun hvoid => hv ?_
      simp [hvoid]
    simpa using ⟨ht, ih hp⟩

/-- Reading what was written of parameters stops at the parenthesis. No type begins with one, or it
would not be read. -/
theorem scanParams_append (h : ∀ t ∈ ts, t.WellFormed) (rest : List Char) :
    scanParams (ts.flatMap TypeDesc.chars ++ ')' :: rest) = .ok (ts, rest) := by
  induction ts with
  | nil => simp [scanParams]
  | cons t ts ih =>
    have ht := h t List.mem_cons_self
    have hts := ih fun t' ht' => h t' (List.mem_cons_of_mem t ht')
    have hscan := ht.scan_chars_append (ts.flatMap TypeDesc.chars ++ ')' :: rest)
    rw [List.flatMap_cons, List.append_assoc]
    generalize htail : ts.flatMap TypeDesc.chars ++ ')' :: rest = tail at hscan hts ⊢
    cases hcs : t.chars ++ tail with
    | nil => simp [hcs, TypeDesc.scan] at hscan
    | cons c cs =>
      rw [hcs] at hscan
      have hc : c ≠ ')' := by
        rintro rfl
        simp [TypeDesc.scan] at hscan
      rw [scanParams]
      · split
        · rename_i hfault
          cases hscan.symm.trans hfault
        · rename_i hok
          cases hscan.symm.trans hok
          rw [if_neg (by simp [ht.isVoid_eq_false]), hts]
      · exact hc

/-- **Signatures.** -/
theorem parse_eq_ok_iff {s : String} : parse s = .ok d ↔ d.WellFormed ∧ d.descriptor = s := by
  constructor
  · intro h
    have hscan := scan_of_parse h
    refine ⟨⟨?_, (eq_of_scan hscan).2⟩, (eq_descriptor_of_parse h).symm⟩
    unfold scan at hscan
    split at hscan
    · cases hscan
    · split at hscan
      · cases hscan
      · rename_i hparams
        split at hscan
        · cases hscan
        · cases hscan
          exact wellFormed_of_scanParams hparams
        · cases hscan
    · cases hscan
  · rintro ⟨hd, rfl⟩
    have hret := TypeDesc.scan_chars_append hd.ret []
    rw [List.append_nil] at hret
    have hparams := scanParams_append hd.params d.ret.chars
    rw [parse, descriptor, String.toList_ofList, chars, scan, hparams]
    simp only [hret]

example : parse "(L)é[V;)V" = .ok ⟨[.object ")é[V"], .void⟩ := by cbv

end MethodDesc

/-- **The grammar.** A text is read as a type exactly if the type is `void` or well formed and is
written as the text, and as a signature exactly if its parameters are well formed, its return type is
`void` or well formed, and it is written as the text. Reading by bytes answers the same, errors and
their places included; so it never looks behind the end of the text and never cuts inside a
character, and as each type takes bytes off those that are left, it comes to an end. -/
theorem Descriptor.parse_accepts_the_grammar (s : String) :
    (∀ t, TypeDesc.parse s = .ok t ↔ (t = .void ∨ t.WellFormed) ∧ t.descriptor = s) ∧
    (∀ d, MethodDesc.parse s = .ok d ↔ d.WellFormed ∧ d.descriptor = s) ∧
    readWhole s = (TypeDesc.parse s).mapError .fault ∧
    readSignature s = (MethodDesc.parse s).mapError .fault ∧
    ∀ p t q, readType s p = .ok (t, q) → p < q ∧ q ≤ (Wire.utf8 s).length :=
  ⟨fun _ => TypeDesc.parse_eq_ok_iff, fun _ => MethodDesc.parse_eq_ok_iff, readWhole_eq s,
    readSignature_eq s, fun _ _ _ => ahead_of_readType⟩

end Interpose
