import Interpose.Bytes.Datum
/-!
# Fields there and back

A reader *reads* a value off some bytes if it takes exactly these off what lies ahead, whatever comes
behind them, and answers the value. Said this way, what is read off one field after the other is read
off all of them together, and a reader of a layout is judged by its parts.

Counts have thirty-two bits. So text, a blob or a table is read off what was written of it as long as
its length has a count of its own; the bound is a hypothesis here and no part of `Wire`.

## Main definitions

* `Reader.Reads`

## Main results

* `Reader.Reads.bind`: one field after the other
* `Reader.reads_text`, `Reader.reads_blob`, `Reader.reads_table`: fields of any length
-/

namespace Interpose

theorem Wire.u8_eq (b : UInt8) : Wire.u8 b = [b] := by
  simp [Wire.u8, LittleEndian.encode]

namespace Reader

variable {α β : Type}

/-- A reader takes exactly the given bytes off what lies ahead, and answers a value. -/
def Reads (read : Reader α) (bytes : Bytes) (a : α) : Prop :=
  ∀ position rest, read.run ⟨position, bytes ++ rest⟩ =
    (.ok a, ⟨position + bytes.length, rest⟩)

/-! ### One after the other -/

theorem run_bind_of_ok {x : Reader α} {f : α → Reader β} {a : α} {c c' : Cursor}
    (h : x.run c = (.ok a, c')) : (x >>= f).run c = (f a).run c' := by
  have hbind : (x >>= f).run c = ExceptT.bindCont f (x.run c).1 (x.run c).2 := rfl
  rw [hbind, h]
  rfl

theorem reads_pure (a : α) : Reads (pure a) [] a := fun _ _ => rfl

theorem Reads.bind {x : Reader α} {f : α → Reader β} {bytes bytes' : Bytes} {a : α} {b : β}
    (hx : Reads x bytes a) (hf : Reads (f a) bytes' b) : Reads (x >>= f) (bytes ++ bytes') b := by
  intro position rest
  rw [List.append_assoc, run_bind_of_ok (hx position (bytes' ++ rest)), hf, List.length_append,
    Nat.add_assoc]

/-- The last field of a layout. -/
theorem Reads.map {x : Reader α} {f : α → β} {bytes : Bytes} {a : α} (hx : Reads x bytes a) :
    Reads (x >>= fun a => pure (f a)) bytes (f a) := by
  have h := hx.bind (f := fun a => pure (f a)) (reads_pure (f a))
  rwa [List.append_nil] at h

/-! ### Numbers -/

theorem reads_take {n : Nat} {bytes : Bytes} (h : bytes.length = n) : Reads (take n) bytes bytes := by
  intro position rest
  subst h
  have hrun : (take bytes.length).run ⟨position, bytes ++ rest⟩ =
      if ((bytes ++ rest).take bytes.length).length = bytes.length then
        (.ok ((bytes ++ rest).take bytes.length),
          ⟨position + bytes.length, (bytes ++ rest).drop bytes.length⟩)
      else (.error (.unexpectedEnd position), ⟨position, bytes ++ rest⟩) := by
    unfold take
    show (if _ then _ else _ : Reader Bytes).run _ = _
    dsimp only
    split <;> rfl
  rw [hrun, List.take_left, List.drop_left, if_pos rfl]

theorem reads_number (width : Nat) {n : Nat} (h : n < Nat.pow 256 width) :
    Reads (number width) (LittleEndian.encode width n) n := by
  have hread := (reads_take (LittleEndian.length_encode width n)).map (f := LittleEndian.decode)
  rwa [LittleEndian.decode_encode, Nat.mod_eq_of_lt h] at hread

theorem reads_u8 (v : UInt8) : Reads u8 (Wire.u8 v) v := by
  have h := (reads_number 1 v.toNat_lt).map (f := UInt8.ofNat)
  rwa [UInt8.ofNat_toNat] at h

theorem reads_u16 (v : UInt16) : Reads u16 (Wire.u16 v) v := by
  have h := (reads_number 2 v.toNat_lt).map (f := UInt16.ofNat)
  rwa [UInt16.ofNat_toNat] at h

theorem reads_u32 (v : UInt32) : Reads u32 (Wire.u32 v) v := by
  have h := (reads_number 4 v.toNat_lt).map (f := UInt32.ofNat)
  rwa [UInt32.ofNat_toNat] at h

theorem toNat_count {n : Nat} (h : n < UInt32.size) : (UInt32.ofNat n).toNat = n := by
  rw [UInt32.toNat_ofNat', Nat.mod_eq_of_lt h]

/-! ### Fields with a count -/

theorem reads_blob {bytes : Bytes} (h : bytes.length < UInt32.size) :
    Reads blob (Wire.blob bytes) bytes :=
  (reads_u32 _).bind (reads_take (toNat_count h).symm)

/-- A text is what its bytes are read as. -/
theorem fromUTF8?_utf8 (s : String) : String.fromUTF8? ⟨(Wire.utf8 s).toArray⟩ = some s :=
  dif_pos s.isValidUTF8

theorem reads_text {s : String} (h : (Wire.utf8 s).length < UInt32.size) :
    Reads text (Wire.text s) s := by
  intro position rest
  have hposition : ∀ c : Cursor, Reader.position.run c = (.ok c.position, c) := fun _ => rfl
  have hblob := reads_blob h position rest
  rw [text, run_bind_of_ok (hposition _), Wire.text, run_bind_of_ok hblob, fromUTF8?_utf8]
  rfl

theorem reads_replicate {write : α → Bytes} {read : Reader α} {entries : List α}
    (h : ∀ a ∈ entries, Reads read (write a) a) :
    Reads (replicate read entries.length) (entries.flatMap write) entries := by
  induction entries with
  | nil => exact reads_pure []
  | cons a entries ih =>
    have hrest := ih fun b hb => h b (List.mem_cons_of_mem a hb)
    exact (h a List.mem_cons_self).bind hrest.map

/-- A table is read if its entries are. -/
theorem reads_table {write : α → Bytes} {read : Reader α} {entries : List α}
    (hlength : entries.length < UInt32.size) (h : ∀ a ∈ entries, Reads read (write a) a) :
    Reads (table read) (Wire.table write entries) entries := by
  have hentries : Reads (replicate read (UInt32.ofNat entries.length).toNat) (entries.flatMap write)
      entries := by
    rw [toNat_count hlength]
    exact reads_replicate h
  exact (reads_u32 (UInt32.ofNat entries.length)).bind hentries

end Reader

end Interpose
