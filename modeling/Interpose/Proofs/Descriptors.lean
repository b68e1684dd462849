import Interpose.Descriptor.Parser
import Interpose.Machine.Step
/-!
# What a parsed descriptor says

A descriptor that is read prints back as it was, and what it denotes is well formed. From this the
interpreter's shortcut is justified: it decides whether a call leaves a result by looking at the
last two characters of the descriptor, and these are `)V` exactly if the parsed return type is
`void`.

## Main results

* `TypeDesc.eq_chars_of_scan`, `MethodDesc.eq_descriptor_of_parse`: printing undoes reading
* `Act.endsInVoid_eq`: the shortcut
-/

namespace Interpose

namespace Descriptor

theorem eq_of_scanName {cs name rest : List Char} (h : scanName cs = some (name, rest)) :
    cs = name ++ ';' :: rest ∧ ';' ∉ name := by
  fun_induction scanName cs generalizing name rest with
  | case1 => cases h
  | case2 r =>
    cases h
    exact ⟨rfl, by simp⟩
  | case3 c r hc ih =>
    obtain ⟨⟨n, r'⟩, hn, he⟩ := Option.map_eq_some_iff.1 h
    cases he
    obtain ⟨rfl, hclosed⟩ := ih hn
    refine ⟨rfl, ?_⟩
    rw [List.mem_cons, not_or]
    exact ⟨fun hc' => hc hc'.symm, hclosed⟩

end Descriptor

open Descriptor

namespace TypeDesc

/-- Reading takes exactly the type's descriptor off the text. -/
theorem eq_chars_of_scan {cs rest : List Char} {t : TypeDesc} (h : scan cs = .ok (t, rest)) :
    cs = t.chars ++ rest := by
  fun_induction scan cs generalizing t rest with
  | case1 => cases h
  | case2 | case3 | case4 | case5 | case6 | case7 | case8 => cases h; rfl
  | case9 | case10 => cases h
  | case11 r name r' hn hs =>
    cases h
    obtain ⟨rfl, -⟩ := eq_of_scanName hs
    simp [chars]
  | case12 => cases h
  | case13 => cases h
  | case14 r e r' hs hv ih =>
    cases h
    rw [ih hs]
    rfl
  | case15 => cases h

/-- What is read is well formed, or `void`. -/
theorem wellFormed_of_scan {cs rest : List Char} {t : TypeDesc} (h : scan cs = .ok (t, rest)) :
    t = void ∨ t.WellFormed := by
  fun_induction scan cs generalizing t rest with
  | case1 => cases h
  | case2 => cases h; exact .inl rfl
  | case3 => cases h; exact .inr .bool
  | case4 => cases h; exact .inr .int
  | case5 => cases h; exact .inr .long
  | case6 => cases h; exact .inr .double
  | case7 => cases h; exact .inr .text
  | case8 => cases h; exact .inr .any
  | case9 | case10 => cases h
  | case11 r name r' hn hs =>
    cases h
    obtain ⟨-, hclosed⟩ := eq_of_scanName hs
    refine .inr (.object ?_ ?_)
    · intro he
      have hnil := congrArg String.toList he
      simp at hnil
      exact hn hnil
    · simpa using hclosed
  | case12 => cases h
  | case13 => cases h
  | case14 r e r' hs hv ih =>
    cases h
    obtain rfl | he := ih hs
    · exact absurd rfl hv
    · exact .inr (.array he)
  | case15 => cases h

/-- The last character of a descriptor is `V` only for `void`. -/
theorem WellFormed.last_chars {t : TypeDesc} (h : t.WellFormed) :
    ∃ cs c, t.chars = cs ++ [c] ∧ c ≠ 'V' := by
  induction h with
  | bool => exact ⟨[], 'Z', rfl, by decide⟩
  | int => exact ⟨[], 'I', rfl, by decide⟩
  | long => exact ⟨[], 'J', rfl, by decide⟩
  | double => exact ⟨[], 'D', rfl, by decide⟩
  | text => exact ⟨[], 'T', rfl, by decide⟩
  | any => exact ⟨[], 'X', rfl, by decide⟩
  | @object name _ _ => exact ⟨'L' :: name.toList, ';', rfl, by decide⟩
  | array _ ih =>
    obtain ⟨cs, c, hcs, hc⟩ := ih
    exact ⟨'[' :: cs, c, by rw [chars, hcs]; rfl, hc⟩

end TypeDesc

namespace MethodDesc

theorem eq_chars_of_scanParams {cs rest : List Char} {ts : List TypeDesc}
    (h : scanParams cs = .ok (ts, rest)) : cs = ts.flatMap TypeDesc.chars ++ ')' :: rest := by
  fun_induction scanParams cs generalizing ts rest with
  | case1 => cases h
  | case2 => cases h; rfl
  | case3 => cases h
  | case4 => cases h
  | case5 => cases h
  | case6 c cs hc t r hs hv ts' r' hp ih =>
    cases h
    rw [TypeDesc.eq_chars_of_scan hs, ih hp, List.flatMap_cons, List.append_assoc]

theorem eq_of_scan {cs : List Char} {d : MethodDesc} (h : scan cs = .ok d) :
    cs = d.chars ∧ (d.ret = .void ∨ d.ret.WellFormed) := by
  unfold scan at h
  split at h
  · cases h
  · split at h
    · cases h
    · rename_i params rest hp
      split at h
      · cases h
      · rename_i ret hr
        cases h
        refine ⟨?_, TypeDesc.wellFormed_of_scan hr⟩
        rw [eq_chars_of_scanParams hp, TypeDesc.eq_chars_of_scan hr, List.append_nil]
        rfl
      · cases h
  · cases h

theorem scan_of_parse {s : String} {d : MethodDesc} (h : parse s = .ok d) :
    scan s.toList = .ok d := by
  unfold parse at h
  split at h
  · cases h
  · cases h
    assumption

/-- Printing undoes reading. -/
theorem eq_descriptor_of_parse {s : String} {d : MethodDesc} (h : parse s = .ok d) :
    s = d.descriptor := by
  rw [descriptor, ← (eq_of_scan (scan_of_parse h)).1, String.ofList_toList]

end MethodDesc

/-- The last two characters of a descriptor tell whether there is a result. -/
theorem Act.endsInVoid_eq {s : String} {d : MethodDesc} (h : MethodDesc.parse s = .ok d) :
    Act.endsInVoid s = d.ret.isVoid := by
  obtain ⟨hcs, hret⟩ := MethodDesc.eq_of_scan (MethodDesc.scan_of_parse h)
  unfold Act.endsInVoid
  rw [hcs]
  obtain ⟨params, ret⟩ := d
  rcases hret with rfl | hret
  · simp [MethodDesc.chars, TypeDesc.chars, TypeDesc.isVoid]
  · obtain ⟨cs, c, hlast, hc⟩ := hret.last_chars
    have hv : ret.isVoid = false := by
      cases hret <;> rfl
    rw [hv]
    simp only [MethodDesc.chars, hlast]
    simp [hc]

end Interpose
