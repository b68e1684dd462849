import Interpose.Proofs.Readers
/-!
# Sequences of fields

What has been written one after the other is read back one after the other, and the position behind
each read is the length that the buffer had behind the write. Neither side knows how many bytes a field
takes before it gets to it; that they agree is the statement about one field, with any bytes before and
behind, and the induction is on the fields.

Other reads need not make sense of what they find. Still they stay inside the buffer: a cursor that
stands in a buffer has the rest of the buffer ahead, and a read that answers takes off what it answers,
while a read that fails may have taken off less. So reading can go on after a failure, wherever that has
left the cursor, and nothing ever gets past the end.

## Main definitions

* `Datum.writes`, `FieldRequest.reads`: writing and reading one after the other
* `Cursor.StandsIn`: a position in a buffer
* `Reader.Advances`: what every read does to the position

## Main results

* `Reader.reads_datum`: one field
* `FieldRequest.reads_standsIn`: all reads stay inside
* `FieldRequest.fields_read_back`: with both, and what was written is what is read
-/

namespace Interpose

/-! ### Writing -/

namespace Datum

/-- A text or a blob has a count of its own length in thirty-two bits. -/
def Storable : Datum → Prop
  | text s => (Wire.utf8 s).length < UInt32.size
  | blob bytes => bytes.length < UInt32.size
  | _ => True

instance : DecidablePred Storable
  | text s => inferInstanceAs (Decidable ((Wire.utf8 s).length < UInt32.size))
  | blob bytes => inferInstanceAs (Decidable (bytes.length < UInt32.size))
  | u8 _ | u16 _ | u32 _ | i32 _ | i64 _ | f64 _ => .isTrue trivial

/-- Writes one after the other to the end of a buffer. Told are the buffer, and its length behind each
write. -/
def writes (buffer : Bytes) : List Datum → Bytes × List Nat
  | [] => (buffer, [])
  | d :: ds =>
    let (last, offsets) := writes (buffer ++ d.encode) ds
    (last, (buffer ++ d.encode).length :: offsets)

theorem fst_writes (buffer : Bytes) (ds : List Datum) :
    (writes buffer ds).1 = buffer ++ ds.flatMap encode := by
  induction ds generalizing buffer with
  | nil => exact (List.append_nil buffer).symm
  | cons d ds ih =>
    show (writes (buffer ++ d.encode) ds).1 = _
    rw [ih, List.flatMap_cons, List.append_assoc]

end Datum

/-! ### One field -/

namespace Reader

theorem reads_i32 (v : Int32) : Reads i32 (Wire.i32 v) v := by
  have h := (reads_number 4 v.toUInt32.toNat_lt).map (f := fun n => (UInt32.ofNat n).toInt32)
  rwa [UInt32.ofNat_toNat, Int32.toInt32_toUInt32] at h

theorem reads_u64 (v : UInt64) : Reads u64 (Wire.u64 v) v := by
  have h := (reads_number 8 v.toNat_lt).map (f := UInt64.ofNat)
  rwa [UInt64.ofNat_toNat] at h

theorem reads_i64 (v : Int64) : Reads i64 (Wire.i64 v) v := by
  have h := (reads_number 8 v.toUInt64.toNat_lt).map (f := fun n => (UInt64.ofNat n).toInt64)
  rwa [UInt64.ofNat_toNat, Int64.toInt64_toUInt64] at h

/-- **One field.** A value is read back by its own type, whatever comes behind. -/
theorem reads_datum {d : Datum} (h : d.Storable) : Reads (datum d.kind) d.encode d := by
  cases d with
  | u8 v => exact (reads_u8 v).map
  | u16 v => exact (reads_u16 v).map
  | u32 v => exact (reads_u32 v).map
  | i32 v => exact (reads_i32 v).map
  | i64 v => exact (reads_i64 v).map
  | f64 bits => exact (reads_u64 bits).map
  | text s => exact (reads_text h).map
  | blob bytes => exact (reads_blob h).map

end Reader

/-! ### Positions -/

namespace Cursor

/-- A cursor is not past the end of a buffer, and what is ahead of it is the rest of the buffer. -/
structure StandsIn (c : Cursor) (buffer : Bytes) : Prop where
  position_le : c.position ≤ buffer.length
  rest_eq : c.rest = buffer.drop c.position

theorem standsIn_start (buffer : Bytes) : (start buffer).StandsIn buffer :=
  ⟨Nat.zero_le _, rfl⟩

end Cursor

namespace Reader

variable {α β : Type}

/-- A reader leaves a cursor in the buffer that it stands in, and takes it no way back. -/
class Advances (read : Reader α) : Prop where
  advance : ∀ {buffer c}, c.StandsIn buffer →
    (read.run c).2.StandsIn buffer ∧ c.position ≤ (read.run c).2.position

namespace Advances

instance pure (a : α) : Advances (pure a) := ⟨fun h => ⟨h, Nat.le_refl _⟩⟩

instance throw (e : DecodeError) : Advances (throw e : Reader α) := ⟨fun h => ⟨h, Nat.le_refl _⟩⟩

instance position : Advances position := ⟨fun h => ⟨h, Nat.le_refl _⟩⟩

theorem seq {x : Reader α} {f : α → Reader β} [hx : Advances x] (hf : ∀ a, Advances (f a)) :
    Advances (x >>= f) := by
  refine ⟨fun {buffer c} h => ?_⟩
  obtain ⟨hin, hle⟩ := hx.advance h
  rcases hrun : x.run c with ⟨e | a, c₁⟩ <;> rw [hrun] at hin hle
  · rw [run_bind_of_error hrun]
    exact ⟨hin, hle⟩
  · rw [run_bind_of_ok hrun]
    obtain ⟨hin', hle'⟩ := (hf a).advance hin
    exact ⟨hin', Nat.le_trans hle hle'⟩

instance bind {x : Reader α} {f : α → Reader β} [Advances x] [hf : ∀ a, Advances (f a)] :
    Advances (x >>= f) := .seq hf

/-- Only bytes that are there are taken. -/
instance take (n : Nat) : Advances (take n) := by
  refine ⟨fun {buffer c} h => ?_⟩
  have hrun := run_take n c.position c.rest
  split at hrun
  · rename_i hlength
    rw [h.rest_eq, List.length_take, List.length_drop] at hlength
    have hle := h.position_le
    rw [hrun]
    refine ⟨⟨by dsimp only; omega, ?_⟩, Nat.le_add_right _ _⟩
    rw [h.rest_eq, List.drop_drop]
  · rw [hrun]
    exact ⟨h, Nat.le_refl _⟩

instance number (width : Nat) : Advances (number width) := .bind

instance u8 : Advances u8 := .bind

instance u16 : Advances u16 := .bind

instance u32 : Advances u32 := .bind

instance i32 : Advances i32 := .bind

instance u64 : Advances u64 := .bind

instance i64 : Advances i64 := .bind

instance blob : Advances blob := .bind

instance text : Advances text := by
  refine .seq fun start => .seq fun bytes => ?_
  split <;> infer_instance

instance datum (kind : Datum.Kind) : Advances (datum kind) := by
  cases kind <;> unfold Reader.datum <;> infer_instance

end Advances

end Reader

/-! ### One after the other -/

/-- What can be read off a buffer: a typed field, or so many bytes. -/
inductive FieldRequest
  | field (kind : Datum.Kind)
  | bytes (count : Nat)

namespace FieldRequest

def reader : FieldRequest → Reader Datum
  | field kind => Reader.datum kind
  | bytes count => return .blob (← Reader.take count)

/-- Reads one after the other, whether or not those before have failed. Told are what each answers and
the position behind it, and where the cursor is in the end. -/
def reads : List FieldRequest → Cursor → List (Except DecodeError Datum × Nat) × Cursor
  | [], c => ([], c)
  | r :: rs, c =>
    let (answer, c') := r.reader.run c
    let (answers, last) := reads rs c'
    ((answer, c'.position) :: answers, last)

instance reader_advances (r : FieldRequest) : r.reader.Advances := by
  cases r <;> unfold reader <;> infer_instance

/-- **Inside.** Whatever is read off a buffer, no position is past its end, nor before the one where
reading began. The induction is on the reads. -/
theorem reads_standsIn {buffer : Bytes} (rs : List FieldRequest) {c : Cursor}
    (h : c.StandsIn buffer) :
    (∀ told ∈ (reads rs c).1, c.position ≤ told.2 ∧ told.2 ≤ buffer.length) ∧
      (reads rs c).2.StandsIn buffer := by
  induction rs generalizing c with
  | nil => exact ⟨nofun, h⟩
  | cons r rs ih =>
    obtain ⟨hin, hle⟩ := r.reader_advances.advance h
    obtain ⟨htold, hlast⟩ := ih hin
    refine ⟨fun told hmem => ?_, hlast⟩
    rcases List.mem_cons.1 hmem with rfl | hmem
    · exact ⟨hle, hin.position_le⟩
    · exact ⟨Nat.le_trans hle (htold told hmem).1, (htold told hmem).2⟩

/-- A text of nine bytes that are not there: its count has been taken, and reading goes on behind it. -/
example : reads [.field .text, .bytes 2, .field .u8] (.start [9, 0, 0, 0, 7]) =
    ([(.error (.unexpectedEnd 4), 4), (.error (.unexpectedEnd 4), 4), (.ok (.u8 7), 5)], ⟨5, []⟩) :=
  rfl

theorem reads_cons {r : FieldRequest} {rs : List FieldRequest} {c c' : Cursor}
    {answer : Except DecodeError Datum} (h : r.reader.run c = (answer, c')) :
    reads (r :: rs) c = ((answer, c'.position) :: (reads rs c').1, (reads rs c').2) := by
  rw [reads, h]

/-- Reading back what was written behind some bytes, with others behind it. The induction is on the
fields, and what has been written moves to the bytes before. -/
theorem reads_writes {ds : List Datum} (h : ∀ d ∈ ds, d.Storable) (before after : Bytes) :
    let read := reads (ds.map fun d => field d.kind)
      ⟨before.length, ds.flatMap Datum.encode ++ after⟩
    read.1.map Prod.fst = ds.map .ok ∧ read.1.map Prod.snd = (Datum.writes before ds).2 ∧
      read.2 = ⟨(Datum.writes before ds).1.length, after⟩ := by
  induction ds generalizing before with
  | nil => exact ⟨rfl, rfl, rfl⟩
  | cons d ds ih =>
    obtain ⟨hvalues, hpositions, hlast⟩ :=
      ih (fun e he => h e (List.mem_cons_of_mem d he)) (before ++ d.encode)
    have hd : (field d.kind).reader.run
        ⟨before.length, (d :: ds).flatMap Datum.encode ++ after⟩ =
      (.ok d, ⟨(before ++ d.encode).length, ds.flatMap Datum.encode ++ after⟩) := by
      rw [List.flatMap_cons, List.append_assoc, List.length_append]
      exact Reader.reads_datum (h d List.mem_cons_self) _ _
    rw [List.map_cons, reads_cons hd]
    exact ⟨List.cons_eq_cons.2 ⟨rfl, hvalues⟩, List.cons_eq_cons.2 ⟨rfl, hpositions⟩, hlast⟩

/-- **Fields.** What was written to the end of a buffer is read back from there, in order and by its own
types, whatever has been appended since: the position behind each read is the length that the buffer
had behind the write, and the bytes appended are left. And whatever is read off any buffer, whether or
not it is there, no read goes past the end. -/
theorem fields_read_back :
    (∀ before after ds, (∀ d ∈ ds, Datum.Storable d) →
      let written := Datum.writes before ds
      let buffer := written.1 ++ after
      let read := reads (ds.map fun d => field d.kind) ⟨before.length, buffer.drop before.length⟩
      read.1.map Prod.fst = ds.map .ok ∧ read.1.map Prod.snd = written.2 ∧
        read.2 = ⟨written.1.length, after⟩) ∧
    ∀ buffer rs, let read := reads rs (.start buffer)
      (∀ position ∈ read.1.map Prod.snd, position ≤ buffer.length) ∧ read.2.StandsIn buffer := by
  refine ⟨fun before after ds h => ?_, fun buffer rs => ?_⟩
  · have hahead : ((Datum.writes before ds).1 ++ after).drop before.length =
        ds.flatMap Datum.encode ++ after := by
      rw [Datum.fst_writes, List.append_assoc, List.drop_left]
    dsimp only
    rw [hahead]
    exact reads_writes h before after
  · obtain ⟨htold, hlast⟩ := reads_standsIn rs (Cursor.standsIn_start buffer)
    refine ⟨fun position hmem => ?_, hlast⟩
    obtain ⟨told, hmem', rfl⟩ := List.mem_map.1 hmem
    exact (htold told hmem').2

/-- A number, a double that is no number, a text and an empty blob, with a byte before and a byte
behind. -/
theorem mixed_fields_read_back :
    let ds : List Datum := [.i32 (-5), .f64 0x7ff8000000000001, .text "hé", .blob []]
    let written := Datum.writes [1] ds
    let read := reads (ds.map fun d => field d.kind) ⟨1, (written.1 ++ [255]).drop 1⟩
    (∀ d ∈ ds, d.Storable) ∧ read.1.map Prod.fst = ds.map .ok ∧
      read.1.map Prod.snd = [5, 13, 20, 24] ∧ read.2 = ⟨24, [255]⟩ := by
  intro ds written read
  have hstorable : ∀ d ∈ ds, d.Storable := by decide +kernel
  have hoffsets : written.2 = [5, 13, 20, 24] := by decide +kernel
  have hlength : written.1.length = 24 := by decide +kernel
  obtain ⟨hvalues, hpositions, hlast⟩ := fields_read_back.1 [1] [255] ds hstorable
  refine ⟨hstorable, hvalues, hpositions.trans hoffsets, hlast.trans ?_⟩
  rw [hlength]

end FieldRequest

end Interpose
