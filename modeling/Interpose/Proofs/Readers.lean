import Interpose.Proofs.Fields
/-!
# What readers take

`Reader.Reads` says that a value is read off the bytes that were written of it. This is the other
half. A reader that answers has taken bytes off what lay ahead, and these are bytes of its answer: the
ones that are written of it, or one of several spellings, which is what the relation of a reader to
its bytes is for. Nothing else ahead had a part in it, so the same bytes give the same answer wherever
they stand; and if some of them are missing, the reader says that it ran out of bytes and nothing
else.

Both facts pass from the fields of a layout to the layout. Truncated input is therefore never judged
by hand, however a layout nests its counts, tables and texts.

## Main definitions

* `Reader.RunsOut`: all that can be said of a part of some bytes is that more is missing
* `Reader.Takes`: what a reader takes

## Main results

* `Reader.Takes.bind`: one field after the other
* `Reader.takes_blob`, `Reader.takes_text`, `Reader.takes_table`
-/

namespace Interpose

namespace Reader

variable {α β : Type}

/-- On a part of the given bytes, unless it is all of them, a reader runs out of bytes. -/
def RunsOut (read : Reader α) (bytes : Bytes) : Prop :=
  ∀ position part, part <+: bytes → part ≠ bytes →
    ∃ offset c, read.run ⟨position, part⟩ = (.error (.unexpectedEnd offset), c)

/-- Whenever a reader answers, it has taken bytes that are related to its answer. It answers the same
whatever is ahead of them, and runs out of bytes if some of them are missing. -/
def Takes (read : Reader α) (R : α → Bytes → Prop) : Prop :=
  ∀ position ahead a c, read.run ⟨position, ahead⟩ = (.ok a, c) →
    ∃ bytes, ahead = bytes ++ c.rest ∧ R a bytes ∧ Reads read bytes a ∧ RunsOut read bytes

/-! ### Combining readers -/

theorem run_bind_of_error {x : Reader α} {f : α → Reader β} {e : DecodeError} {c c' : Cursor}
    (h : x.run c = (.error e, c')) : (x >>= f).run c = (.error e, c') := by
  have hbind : (x >>= f).run c = ExceptT.bindCont f (x.run c).1 (x.run c).2 := rfl
  rw [hbind, h]
  rfl

/-- A reader followed by another answers if both do. -/
theorem run_bind_eq_ok {x : Reader α} {f : α → Reader β} {b : β} {c c' : Cursor}
    (h : (x >>= f).run c = (.ok b, c')) :
    ∃ a c₁, x.run c = (.ok a, c₁) ∧ (f a).run c₁ = (.ok b, c') := by
  rcases hx : x.run c with ⟨e | a, c₁⟩
  · rw [run_bind_of_error hx] at h
    cases h
  · rw [run_bind_of_ok hx] at h
    exact ⟨a, c₁, rfl, h⟩

theorem Takes.mono {read : Reader α} {R S : α → Bytes → Prop} (h : Takes read R)
    (hRS : ∀ a bytes, R a bytes → S a bytes) : Takes read S := by
  intro position ahead a c hrun
  obtain ⟨bytes, hahead, hR, hreads, hout⟩ := h position ahead a c hrun
  exact ⟨bytes, hahead, hRS a bytes hR, hreads, hout⟩

theorem takes_pure {R : α → Bytes → Prop} {a : α} (h : R a []) : Takes (pure a) R := by
  intro position ahead b c hrun
  cases hrun
  refine ⟨[], rfl, h, reads_pure a, fun position part hpart hne => ?_⟩
  exact absurd (List.prefix_nil.1 hpart) hne

/-- A part of two runs of bytes ends in the first, or has the first and a part of the second. -/
theorem part_append {part bytes bytes' : Bytes} (h : part <+: bytes ++ bytes') :
    part <+: bytes ∧ part.length < bytes.length ∨ ∃ part', part = bytes ++ part' ∧ part' <+: bytes' := by
  by_cases hlt : part.length < bytes.length
  · exact .inl ⟨List.prefix_of_prefix_length_le h (List.prefix_append _ _) (Nat.le_of_lt hlt), hlt⟩
  · obtain ⟨part', rfl⟩ :=
      List.prefix_of_prefix_length_le (List.prefix_append bytes bytes') h (Nat.le_of_not_lt hlt)
    exact .inr ⟨part', rfl, (List.prefix_append_right_inj bytes).1 h⟩

theorem RunsOut.bind {x : Reader α} {f : α → Reader β} {bytes bytes' : Bytes} {a : α}
    (hreads : Reads x bytes a) (hx : RunsOut x bytes) (hf : RunsOut (f a) bytes') :
    RunsOut (x >>= f) (bytes ++ bytes') := by
  intro position part hpart hne
  rcases part_append hpart with ⟨hpart, hlt⟩ | ⟨part', rfl, hpart'⟩
  · have hne' : part ≠ bytes := fun h => Nat.lt_irrefl _ (h ▸ hlt)
    obtain ⟨offset, c, hrun⟩ := hx position part hpart hne'
    exact ⟨offset, c, run_bind_of_error hrun⟩
  · have hne' : part' ≠ bytes' := fun h => hne (h ▸ rfl)
    obtain ⟨offset, c, hrun⟩ := hf (position + bytes.length) part' hpart' hne'
    exact ⟨offset, c, by rw [run_bind_of_ok (hreads position part'), hrun]⟩

/-- **One field after the other.** What is taken is taken off by the first and then by the second. -/
theorem Takes.bind {x : Reader α} {f : α → Reader β} {R : α → Bytes → Prop} {S : β → Bytes → Prop}
    (hx : Takes x R)
    (hf : ∀ a bytes, R a bytes → Takes (f a) fun b bytes' => S b (bytes ++ bytes')) :
    Takes (x >>= f) S := by
  intro position ahead b c hrun
  obtain ⟨a, c₁, hfirst, hsecond⟩ := run_bind_eq_ok hrun
  obtain ⟨bytes, hahead, hR, hreads, hout⟩ := hx position ahead a c₁ hfirst
  obtain ⟨bytes', hrest, hS, hreads', hout'⟩ := hf a bytes hR c₁.position c₁.rest b c hsecond
  refine ⟨bytes ++ bytes', ?_, hS, hreads.bind hreads', hout.bind hreads hout'⟩
  rw [hahead, hrest, List.append_assoc]

/-! ### Numbers -/

theorem run_take (n position : Nat) (ahead : Bytes) : (take n).run ⟨position, ahead⟩ =
    if (ahead.take n).length = n then (.ok (ahead.take n), ⟨position + n, ahead.drop n⟩)
    else (.error (.unexpectedEnd position), ⟨position, ahead⟩) := by
  unfold take
  show (if _ then _ else _ : Reader Bytes).run _ = _
  dsimp only
  split <;> rfl

/-- Where too few bytes are ahead, none of them is taken. -/
theorem run_take_of_lt {n : Nat} {ahead : Bytes} (h : ahead.length < n) (position : Nat) :
    (take n).run ⟨position, ahead⟩ = (.error (.unexpectedEnd position), ⟨position, ahead⟩) := by
  have hshort : (ahead.take n).length ≠ n := by
    rw [List.length_take]
    omega
  rw [run_take, if_neg hshort]

theorem takes_take (n : Nat) : Takes (take n) fun bytes' bytes => bytes' = bytes ∧ bytes.length = n := by
  intro position ahead a c h
  rw [run_take] at h
  split at h
  · rename_i hlength
    cases h
    refine ⟨ahead.take n, (List.take_append_drop n ahead).symm, ⟨rfl, hlength⟩, reads_take hlength,
      fun position part hpart hne => ?_⟩
    have hlt : part.length < n := by
      rw [← hlength]
      exact Nat.lt_of_le_of_ne hpart.length_le fun h => hne (hpart.eq_of_length h)
    exact ⟨position, _, run_take_of_lt hlt position⟩
  · cases h

theorem takes_number (width : Nat) : Takes (number width) fun n bytes =>
    n < Nat.pow 256 width ∧ bytes = LittleEndian.encode width n := by
  refine (takes_take width).bind ?_
  rintro _ bytes ⟨rfl, rfl⟩
  refine takes_pure ⟨LittleEndian.decode_lt _, ?_⟩
  rw [LittleEndian.encode_decode, List.append_nil]

theorem takes_u8 : Takes u8 fun v bytes => bytes = Wire.u8 v := by
  refine (takes_number 1).bind ?_
  rintro n _ ⟨hn, rfl⟩
  refine takes_pure ?_
  rw [List.append_nil, Wire.u8, UInt8.toNat_ofNat', Nat.mod_eq_of_lt hn]

theorem takes_u16 : Takes u16 fun v bytes => bytes = Wire.u16 v := by
  refine (takes_number 2).bind ?_
  rintro n _ ⟨hn, rfl⟩
  refine takes_pure ?_
  rw [List.append_nil, Wire.u16, UInt16.toNat_ofNat', Nat.mod_eq_of_lt hn]

theorem takes_u32 : Takes u32 fun v bytes => bytes = Wire.u32 v := by
  refine (takes_number 4).bind ?_
  rintro n _ ⟨hn, rfl⟩
  refine takes_pure ?_
  rw [List.append_nil, Wire.u32, UInt32.toNat_ofNat', Nat.mod_eq_of_lt hn]

theorem run_u32_of_lt {ahead : Bytes} (h : ahead.length < 4) (position : Nat) :
    u32.run ⟨position, ahead⟩ = (.error (.unexpectedEnd position), ⟨position, ahead⟩) :=
  run_bind_of_error (run_bind_of_error (run_take_of_lt h position))

/-! ### Fields with a count -/

theorem takes_blob : Takes blob fun bytes' bytes =>
    bytes'.length < UInt32.size ∧ bytes = Wire.blob bytes' := by
  refine takes_u32.bind ?_
  rintro count _ rfl
  refine (takes_take count.toNat).mono ?_
  rintro _ bytes ⟨rfl, hlength⟩
  refine ⟨hlength ▸ count.toNat_lt, ?_⟩
  rw [Wire.blob, Wire.count, hlength, UInt32.ofNat_toNat]

/-- Bytes that are read as a text are those of the text. -/
theorem utf8_of_fromUTF8? {bytes : Bytes} {s : String}
    (h : String.fromUTF8? ⟨bytes.toArray⟩ = some s) : Wire.utf8 s = bytes := by
  unfold String.fromUTF8? at h
  split at h
  · cases h
    rfl
  · cases h

/-- What is read does not hang on where it stands, though the report of a text that is none does. -/
theorem takes_text : Takes text fun s bytes =>
    (Wire.utf8 s).length < UInt32.size ∧ bytes = Wire.text s := by
  have hposition : ∀ c : Cursor, Reader.position.run c = (.ok c.position, c) := fun _ => rfl
  intro position ahead s c hrun
  unfold text at hrun
  rw [run_bind_of_ok (hposition _)] at hrun
  obtain ⟨content, c₁, hblob, hrun⟩ := run_bind_eq_ok hrun
  obtain ⟨_, hahead, ⟨hlength, rfl⟩, -, hout⟩ := takes_blob position ahead content c₁ hblob
  split at hrun
  · rename_i s' hs'
    cases hrun
    obtain rfl := utf8_of_fromUTF8? hs'
    refine ⟨Wire.text s, hahead, ⟨hlength, rfl⟩, reads_text hlength,
      fun position part hpart hne => ?_⟩
    obtain ⟨offset, c', hblob'⟩ := hout position part hpart hne
    exact ⟨offset, c', by
      unfold text
      rw [run_bind_of_ok (hposition _), run_bind_of_error hblob']⟩
  · cases hrun

/-- The induction is on the count. -/
theorem takes_replicate {read : Reader α} {write : α → Bytes} {storable : α → Prop}
    (h : Takes read fun a bytes => storable a ∧ bytes = write a) (n : Nat) :
    Takes (replicate read n) fun as bytes =>
      as.length = n ∧ (∀ a ∈ as, storable a) ∧ bytes = as.flatMap write := by
  induction n with
  | zero => exact takes_pure ⟨rfl, by simp, rfl⟩
  | succ n ih =>
    refine h.bind ?_
    rintro a _ ⟨ha, rfl⟩
    refine ih.bind ?_
    rintro as _ ⟨rfl, has, rfl⟩
    refine takes_pure ⟨rfl, ?_, ?_⟩
    · simpa using ⟨ha, has⟩
    · simp

/-- A table is taken if its entries are. -/
theorem takes_table {read : Reader α} {write : α → Bytes} {storable : α → Prop}
    (h : Takes read fun a bytes => storable a ∧ bytes = write a) :
    Takes (table read) fun as bytes =>
      (as.length < UInt32.size ∧ ∀ a ∈ as, storable a) ∧ bytes = Wire.table write as := by
  refine takes_u32.bind ?_
  rintro count _ rfl
  refine (takes_replicate h count.toNat).mono ?_
  rintro as _ ⟨hlength, has, rfl⟩
  refine ⟨⟨hlength ▸ count.toNat_lt, has⟩, ?_⟩
  rw [Wire.table, Wire.count, hlength, UInt32.ofNat_toNat]

end Reader

end Interpose
