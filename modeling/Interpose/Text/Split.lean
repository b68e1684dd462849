/-!
# Splitting at a character

A text is a sequence of segments with a separator between them; there is always one segment more
than separators, and no segment holds the separator.
-/

namespace Interpose.Text

/-- The segments between separators. -/
def split (sep : Char) : List Char → List (List Char)
  | [] => [[]]
  | c :: rest =>
    if c = sep then [] :: split sep rest
    else
      match split sep rest with
      | [] => [[c]]
      | segment :: segments => (c :: segment) :: segments

theorem split_ne_nil (sep : Char) (cs : List Char) : split sep cs ≠ [] := by
  cases cs with
  | nil => simp [split]
  | cons c rest =>
    unfold split
    split
    · simp
    · split <;> simp

theorem not_mem_of_mem_split {sep : Char} {cs segment : List Char} (h : segment ∈ split sep cs) :
    sep ∉ segment := by
  induction cs generalizing segment with
  | nil => simp [split] at h; simp [h]
  | cons c rest ih =>
    unfold split at h
    split at h
    · rcases List.mem_cons.1 h with h | h
      · simp [h]
      · exact ih h
    · next hc =>
      cases hs : split sep rest with
      | nil => exact absurd hs (split_ne_nil sep rest)
      | cons s ss =>
        rw [hs] at h ih
        rcases List.mem_cons.1 h with h | h
        · subst h
          have := ih (List.mem_cons_self ..)
          simp only [List.mem_cons, not_or]
          exact ⟨fun e => hc e.symm, this⟩
        · exact ih (List.mem_cons_of_mem _ h)

end Interpose.Text
