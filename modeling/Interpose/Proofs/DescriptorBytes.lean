import Interpose.Bytes.Datum
import Interpose.Proofs.Descriptors
import Interpose.Proofs.Results
/-!
# Descriptors byte by byte

`TypeDesc.scan` goes along the characters of a text and cannot go astray in it. Here the same
language is read with a position in the bytes: the byte at the position says what begins there, the
end of a class name is looked for among the bytes, and the name is cut out between two positions.

Such a reader may stop for reasons that are not the text's: it may look behind the end, or cut inside
a character. Both are outcomes of their own, `Stop.outOfBounds` and `Stop.insideCharacter`, so that it
can be said that they do not arise. They do not, because the only bytes that are acted upon are those
of characters of one byte, and these occur in no other character. A semicolon that is found among the
bytes is a semicolon of the text.

What is read is compared with what is scanned in full: the type and the place behind it, or the fault
and where it is.

## Main definitions

* `Descriptor.Stop`: a fault of the text, or an access that is none
* `Descriptor.readType`, `Descriptor.readParams`, `Descriptor.readSignature`: reading by bytes

## Main results

* `Descriptor.cut_eq`: a cut between characters
* `Descriptor.readType_eq`, `Descriptor.readParams_eq`: what is read is what is scanned
* `Descriptor.readWhole_eq`, `Descriptor.readSignature_eq`: whole texts
-/

namespace Interpose

namespace Descriptor

/-! ### Bytes of a text -/

/-- The bytes of characters. -/
def bytesOf (cs : List Char) : Bytes := cs.flatMap String.utf8EncodeChar

@[simp] theorem bytesOf_nil : bytesOf [] = [] := rfl

@[simp] theorem bytesOf_cons (c : Char) (cs : List Char) :
    bytesOf (c :: cs) = String.utf8EncodeChar c ++ bytesOf cs := rfl

@[simp] theorem bytesOf_append (before after : List Char) :
    bytesOf (before ++ after) = bytesOf before ++ bytesOf after :=
  List.flatMap_append

theorem utf8_eq_bytesOf (s : String) : Wire.utf8 s = bytesOf s.toList := by
  rw [Wire.utf8, ← String.ofList_toList (s := s), String.toByteArray_ofList, String.toList_ofList]
  exact List.toList_data_toByteArray

theorem length_bytesOf (cs : List Char) : (bytesOf cs).length = byteCount cs := by
  have hfold : ∀ n, cs.foldl (fun n c => n + c.utf8Size) n = n + (bytesOf cs).length := by
    induction cs with
    | nil => simp
    | cons c cs ih =>
      intro n
      simp [ih, String.length_utf8EncodeChar, Nat.add_assoc]
  rw [byteCount, hfold, Nat.zero_add]

@[simp] theorem byteCount_append (before after : List Char) :
    byteCount (before ++ after) = byteCount before + byteCount after := by
  simp [← length_bytesOf]

@[simp] theorem byteCount_cons (c : Char) (cs : List Char) :
    byteCount (c :: cs) = c.utf8Size + byteCount cs := by
  simp [← length_bytesOf, String.length_utf8EncodeChar]

theorem utf8ByteSize_ofList (cs : List Char) : (String.ofList cs).utf8ByteSize = byteCount cs := by
  have h := congrArg List.length (utf8_eq_bytesOf (String.ofList cs))
  rw [String.toList_ofList, length_bytesOf] at h
  exact h

/-- Where the text goes on behind some of its characters, its bytes go on. -/
theorem drop_bytes {s : String} {before after : List Char} (h : s.toList = before ++ after) :
    (Wire.utf8 s).drop (byteCount before) = bytesOf after := by
  rw [utf8_eq_bytesOf, h, bytesOf_append, ← length_bytesOf, List.drop_left]

theorem length_bytes {s : String} {before after : List Char} (h : s.toList = before ++ after) :
    (Wire.utf8 s).length = byteCount before + byteCount after := by
  rw [utf8_eq_bytesOf, length_bytesOf, h, byteCount_append]

theorem byte?_eq_head? {s : String} {before after : List Char} (h : s.toList = before ++ after) :
    (Wire.utf8 s)[byteCount before]? = (bytesOf after).head? := by
  rw [← drop_bytes h, List.head?_drop]

/-! ### Characters of one byte -/

/-- A character beyond the first 128 is made of bytes beyond them. -/
theorem le_toNat_of_mem {c : Char} {b : UInt8} (hc : 128 ≤ c.toNat)
    (hb : b ∈ String.utf8EncodeChar c) : 128 ≤ b.toNat := by
  have hval : 128 ≤ c.val.toNat := hc
  unfold String.utf8EncodeChar at hb
  rw [if_neg (by omega)] at hb
  split at hb
  · simp only [List.mem_cons, List.not_mem_nil, or_false] at hb
    rcases hb with rfl | rfl <;> simp only [UInt8.toNat_ofNat'] <;> omega
  · split at hb
    · simp only [List.mem_cons, List.not_mem_nil, or_false] at hb
      rcases hb with rfl | rfl | rfl <;> simp only [UInt8.toNat_ofNat'] <;> omega
    · simp only [List.mem_cons, List.not_mem_nil, or_false] at hb
      rcases hb with rfl | rfl | rfl | rfl <;> simp only [UInt8.toNat_ofNat'] <;> omega

theorem utf8EncodeChar_of_lt {c : Char} (hc : c.toNat < 128) :
    String.utf8EncodeChar c = [UInt8.ofNat c.toNat] := by
  have hval : c.val.toNat ≤ 127 := Nat.le_of_lt_succ hc
  unfold String.utf8EncodeChar
  rw [if_pos hval]
  rfl

/-- What the first byte says of a text that has one. -/
theorem leadByte_cons (c : Char) (cs : List Char) :
    ∃ b ∈ String.utf8EncodeChar c, (bytesOf (c :: cs)).head? = some b ∧
      leadByte (c :: cs) = Char.ofNat b.toNat := by
  have hne : String.utf8EncodeChar c ≠ [] := by
    intro h
    have hlen := String.length_utf8EncodeChar c
    have hpos := c.utf8Size_pos
    simp [h] at hlen
    omega
  obtain ⟨b, bs, hbs⟩ := List.exists_cons_of_ne_nil hne
  exact ⟨b, by simp [hbs], by simp [hbs], by simp [leadByte, hbs]⟩

/-- The first byte is one of the first 128 characters only if the text begins with that one. -/
theorem leadByte_eq_iff {c d : Char} {cs : List Char} (hd : d.toNat < 128) :
    leadByte (c :: cs) = d ↔ c = d := by
  by_cases hc : c.toNat < 128
  · have hlead : leadByte (c :: cs) = c := by
      have hsmall : c.toNat < 256 := by omega
      simp [leadByte, utf8EncodeChar_of_lt hc, Nat.mod_eq_of_lt hsmall, Char.ofNat_toNat]
    rw [hlead]
  · obtain ⟨b, hmem, -, hlead⟩ := leadByte_cons c cs
    have hle := le_toNat_of_mem (Nat.le_of_not_lt hc) hmem
    have hne : leadByte (c :: cs) ≠ d := by
      rintro rfl
      have hvalid : b.toNat.isValidChar := .inl (Nat.lt_trans b.toNat_lt (by decide))
      rw [hlead, Char.ofNat, dif_pos hvalid] at hd
      exact absurd hd (Nat.not_lt_of_le hle)
    constructor
    · exact fun h => absurd h hne
    · rintro rfl
      exact absurd hd hc

/-! ### The end of a class name -/

/-- The first semicolon among the bytes is the one that ends the name. -/
theorem idxOf?_semicolon (cs : List Char) :
    (bytesOf cs).idxOf? 0x3B = (scanName cs).map fun split => byteCount split.1 := by
  fun_induction scanName cs with
  | case1 => rfl
  | case2 rest => rfl
  | case3 c rest hc ih =>
    have hnone : (String.utf8EncodeChar c).findIdx? (· == 0x3B) = none := by
      rw [List.findIdx?_eq_none_iff]
      intro b hb
      refine beq_false_of_ne fun hsemi => hc ?_
      subst hsemi
      by_cases hlt : c.toNat < 128
      · rw [utf8EncodeChar_of_lt hlt, List.mem_singleton] at hb
        have hbyte := congrArg UInt8.toNat hb
        rw [UInt8.toNat_ofNat', Nat.mod_eq_of_lt (by omega)] at hbyte
        exact Char.toNat_inj.1 hbyte.symm
      · exact absurd (le_toNat_of_mem (Nat.le_of_not_lt hlt) hb) (by decide)
    have hskip : (bytesOf (c :: rest)).idxOf? 0x3B =
        ((bytesOf rest).idxOf? 0x3B).map (· + c.utf8Size) := by
      simp [List.idxOf?, List.findIdx?_append, hnone, String.length_utf8EncodeChar]
    rw [hskip, ih, Option.map_map, Option.map_map]
    congr 1
    funext split
    simp [← length_bytesOf, String.length_utf8EncodeChar, Nat.add_comm]

/-! ### Cutting -/

/-- How reading by bytes may stop: for a fault of the text, or at an access that is none. -/
inductive Stop
  | fault (e : DescriptorError)
  /-- The bytes from a place behind the end on. -/
  | outOfBounds
  /-- A text between places that are not both between characters. -/
  | insideCharacter
  deriving DecidableEq, Repr

/-- The bytes from a place on. -/
def bytesFrom (s : String) (start : Nat) : Except Stop Bytes :=
  if start ≤ (Wire.utf8 s).length then .ok ((Wire.utf8 s).drop start) else .error .outOfBounds

/-- The text between two places. -/
def cut (s : String) (start stop : Nat) : Except Stop String :=
  match s.pos? ⟨start⟩, s.pos? ⟨stop⟩ with
  | some p, some q =>
    match s.slice? p q with
    | some part => .ok part.copy
    | none => .error .outOfBounds
  | _, _ => .error .insideCharacter

theorem pos?_of_append {s before after : String} (h : s = before ++ after) :
    ∃ p, s.pos? ⟨before.utf8ByteSize⟩ = some p ∧ p.Splits before after := by
  have hvalid : String.Pos.Raw.IsValid s ⟨before.utf8ByteSize⟩ :=
    String.Pos.Raw.isValid_iff_exists_append.2 ⟨before, after, h, rfl⟩
  refine ⟨⟨_, hvalid⟩, ?_, ⟨h, rfl⟩⟩
  have hslice : String.Pos.Raw.isValidForSlice s.toSlice ⟨before.utf8ByteSize⟩ = true := by
    simpa using hvalid
  rw [String.pos?, String.Slice.pos?, dif_pos hslice]
  rfl

/-- **Cutting between characters** gives the characters between. -/
theorem cut_eq {s : String} {before name after : List Char}
    (h : s.toList = before ++ (name ++ after)) :
    cut s (byteCount before) (byteCount before + byteCount name) = .ok (String.ofList name) := by
  have hs : s = String.ofList before ++ (String.ofList name ++ String.ofList after) := by
    rw [← String.ofList_append, ← String.ofList_append, ← h, String.ofList_toList]
  obtain ⟨p, hp, hsplit⟩ := pos?_of_append hs
  obtain ⟨q, hq, hsplit'⟩ := pos?_of_append (hs.trans String.append_assoc.symm)
  obtain ⟨hle, hcopy⟩ := String.copy_slice_eq_iff_splits.2 ⟨_, _, hsplit, hsplit'⟩
  rw [utf8ByteSize_ofList] at hp
  rw [← String.ofList_append, utf8ByteSize_ofList, byteCount_append] at hq
  simp only [cut, hp, hq, String.slice?, dif_pos hle, hcopy]

example : cut "Lé;" 1 3 = .ok "é" := by cbv

example : cut "Lé;" 1 2 = .error .insideCharacter := by decide

/-! ### Reading -/

/-- Reads a class name and the semicolon that ends it. -/
def readName (s : String) (start : Nat) : Except Stop (TypeDesc × Nat) := do
  let ahead ← bytesFrom s start
  match ahead.idxOf? 0x3B with
  | none => throw (.fault (.truncated s))
  | some 0 => throw (.fault (.unexpected s ';' start))
  | some length =>
    let name ← cut s start (start + length)
    return (.object name, start + length + 1)

/-- Reads one type, `void` included, and says where it ends. -/
def readType (s : String) (p : Nat) : Except Stop (TypeDesc × Nat) :=
  match _h : (Wire.utf8 s)[p]? with
  | none => .error (.fault (.truncated s))
  | some b =>
    match Char.ofNat b.toNat with
    | 'V' => .ok (.void, p + 1)
    | 'Z' => .ok (.bool, p + 1)
    | 'I' => .ok (.int, p + 1)
    | 'J' => .ok (.long, p + 1)
    | 'D' => .ok (.double, p + 1)
    | 'T' => .ok (.text, p + 1)
    | 'X' => .ok (.any, p + 1)
    | 'L' => readName s (p + 1)
    | '[' => do
      let (element, q) ← readType s (p + 1)
      if element.isVoid then throw (.fault (.misplacedVoid s)) else return (.array element, q)
    | c => .error (.fault (.unexpected s c p))
termination_by (Wire.utf8 s).length - p
decreasing_by
  have hlt := (List.getElem?_eq_some_iff.1 _h).1
  omega

/-- What is scanned off the end of a text, with places for what is left of it. -/
def located {α : Type} (s : String) : Except Fault (α × List Char) → Except Stop (α × Nat)
  | .error fault => .error (.fault (fault.toError s))
  | .ok (a, rest) => .ok (a, byteCount s.toList - byteCount rest)

section Reading

variable {s : String} {before cs : List Char}

/-- A character of one byte stands in the bytes as it is. -/
theorem byte?_of_lt {c : Char} (hc : c.toNat < 128) (h : s.toList = before ++ c :: cs) :
    (Wire.utf8 s)[byteCount before]? = some (UInt8.ofNat c.toNat) := by
  rw [byte?_eq_head? h, bytesOf_cons, utf8EncodeChar_of_lt hc]
  rfl

theorem toList_eq_concat_append {c : Char} (h : s.toList = before ++ c :: cs) :
    s.toList = (before ++ [c]) ++ cs := by
  rw [h, List.append_assoc]
  rfl

theorem located_ok {α : Type} (a : α) (h : s.toList = before ++ cs) :
    located s (.ok (a, cs)) = .ok (a, byteCount before) := by
  rw [located, h, byteCount_append, Nat.add_sub_cancel]

/-- A class name is what stands before the first semicolon. -/
theorem readName_eq (h : s.toList = before ++ cs) :
    readName s (byteCount before) = located s
      (match scanName cs with
      | none => .error .truncated
      | some ([], _) => .error (.unexpected cs)
      | some (name, rest) => .ok (.object (String.ofList name), rest)) := by
  have hahead : bytesFrom s (byteCount before) = .ok (bytesOf cs) := by
    rw [bytesFrom, if_pos (by simp [length_bytes h]), drop_bytes h]
  have hread : readName s (byteCount before) =
      match (bytesOf cs).idxOf? 0x3B with
      | none => .error (.fault (.truncated s))
      | some 0 => .error (.fault (.unexpected s ';' (byteCount before)))
      | some length => do
        let name ← cut s (byteCount before) (byteCount before + length)
        return (.object name, byteCount before + length + 1) := by
    rw [readName, hahead]
    rfl
  rw [hread, idxOf?_semicolon]
  cases hn : scanName cs with
  | none => rfl
  | some split =>
    obtain ⟨name, rest⟩ := split
    obtain ⟨rfl, -⟩ := eq_of_scanName hn
    cases name with
    | nil =>
      have hplace : byteCount s.toList - byteCount (';' :: rest) = byteCount before := by
        rw [h, List.nil_append, byteCount_append, Nat.add_sub_cancel]
      simp only [Option.map_some, List.nil_append, located, Fault.toError, hplace]
      rfl
    | cons c name =>
      -- The name takes some bytes, so this is not the case of an empty one.
      have hpos : byteCount (c :: name) ≠ 0 := by
        have hsize := c.utf8Size_pos
        rw [byteCount_cons]
        omega
      obtain ⟨length, hlength⟩ : ∃ length, byteCount (c :: name) = length + 1 :=
        Nat.exists_eq_succ_of_ne_zero hpos
      have hend : s.toList = (before ++ (c :: name ++ [';'])) ++ rest := by simp [h]
      have hcount : byteCount (before ++ (c :: name ++ [';'])) =
          byteCount before + byteCount (c :: name) + 1 := by
        rw [byteCount_append, byteCount_append, ← Nat.add_assoc]
        rfl
      have hcut := cut_eq h
      rw [located_ok _ hend, hcount, Option.map_some]
      dsimp only
      rw [hlength] at hcut ⊢
      show (cut s (byteCount before) (byteCount before + (length + 1)) >>= _) = _
      rw [hcut]
      rfl

theorem readType_of_class (h : s.toList = before ++ 'L' :: cs) :
    readType s (byteCount before) = readName s (byteCount (before ++ ['L'])) := by
  have hbyte := byte?_of_lt (by decide) h
  rw [byteCount_append, readType]
  split
  · rename_i hnone
    cases hbyte.symm.trans hnone
  · rename_i b hb
    cases hbyte.symm.trans hb
    rfl

theorem readType_of_array (h : s.toList = before ++ '[' :: cs) :
    readType s (byteCount before) = do
      let (element, q) ← readType s (byteCount (before ++ ['[']))
      if element.isVoid then throw (.fault (.misplacedVoid s)) else return (.array element, q) := by
  have hbyte := byte?_of_lt (by decide) h
  rw [byteCount_append, readType]
  split
  · rename_i hnone
    cases hbyte.symm.trans hnone
  · rename_i b hb
    cases hbyte.symm.trans hb
    rfl

/-- **One type.** Reading by bytes comes to what scanning comes to. The induction is on the scan. -/
theorem readType_eq (h : s.toList = before ++ cs) :
    readType s (byteCount before) = located s (TypeDesc.scan cs) := by
  fun_induction TypeDesc.scan cs generalizing before with
  | case1 =>
    rw [readType]
    split
    · rfl
    · rename_i b hb
      rw [byte?_eq_head? h] at hb
      cases hb
  | case2 | case3 | case4 | case5 | case6 | case7 | case8 =>
    have hbyte := byte?_of_lt (by decide) h
    rw [located_ok _ (toList_eq_concat_append h), byteCount_append, readType]
    split
    · rename_i hnone
      cases hbyte.symm.trans hnone
    · rename_i b hb
      cases hbyte.symm.trans hb
      rfl
  | case9 rest hn =>
    rw [readType_of_class h, readName_eq (toList_eq_concat_append h), hn]
  | case10 rest r hn =>
    rw [readType_of_class h, readName_eq (toList_eq_concat_append h), hn]
  | case11 rest name r hn hs =>
    rw [readType_of_class h, readName_eq (toList_eq_concat_append h), hs]
    cases name with
    | nil => exact absurd rfl hn
    | cons c name => rfl
  | case12 rest fault hs ih =>
    rw [readType_of_array h, ih (toList_eq_concat_append h), hs]
    rfl
  | case13 rest e r hs hv ih =>
    rw [readType_of_array h, ih (toList_eq_concat_append h), hs]
    show (if e.isVoid then _ else _ : Except Stop (TypeDesc × Nat)) = _
    rw [if_pos hv]
    rfl
  | case14 rest e r hs hv ih =>
    rw [readType_of_array h, ih (toList_eq_concat_append h), hs]
    show (if e.isVoid then _ else _ : Except Stop (TypeDesc × Nat)) = _
    rw [if_neg hv]
    rfl
  | case15 c rest =>
    obtain ⟨b, hmem, hhead, hlead⟩ := leadByte_cons c rest
    rw [readType]
    split
    · rename_i hnone
      rw [byte?_eq_head? h, hhead] at hnone
      cases hnone
    · rename_i b' hb
      rw [byte?_eq_head? h, hhead] at hb
      cases hb
      have hplace : byteCount s.toList - byteCount (c :: rest) = byteCount before := by
        rw [h, byteCount_append, Nat.add_sub_cancel]
      rw [← hlead, located, Fault.toError, hplace]
      split
      case h_10 => rfl
      -- The byte is none of the letters, since the character is not.
      all_goals
        rename_i hletter
        have hc := (leadByte_eq_iff (by decide)).1 hletter
        contradiction

theorem ahead_of_readName {start q : Nat} {t : TypeDesc} (h : readName s start = .ok (t, q)) :
    start < q ∧ q ≤ (Wire.utf8 s).length := by
  obtain ⟨ahead, hahead, h⟩ := Results.bind_eq_ok h
  unfold bytesFrom at hahead
  split at hahead
  · cases hahead
    split at h
    · cases h
    · cases h
    · rename_i length hlength
      obtain ⟨name, -, h⟩ := Results.bind_eq_ok h
      cases h
      have hlt := (List.idxOf?_eq_some_iff.1 hlength).1
      rw [List.length_drop] at hlt
      omega
  · cases hahead

/-- A type takes at least one byte, and none that is not there. So reading ends. -/
theorem ahead_of_readType {p q : Nat} {t : TypeDesc} (h : readType s p = .ok (t, q)) :
    p < q ∧ q ≤ (Wire.utf8 s).length := by
  fun_induction readType s p generalizing t q with
  | case1 | case11 => cases h
  | case2 p b hb | case3 p b hb | case4 p b hb | case5 p b hb | case6 p b hb | case7 p b hb
  | case8 p b hb =>
    cases h
    exact ⟨Nat.lt_succ_self p, (List.getElem?_eq_some_iff.1 hb).1⟩
  | case9 p b hb =>
    have hname := ahead_of_readName h
    omega
  | case10 p b hb hc ih =>
    obtain ⟨⟨element, r⟩, helement, h⟩ := Results.bind_eq_ok h
    have hahead := ih helement
    dsimp only at h
    split at h
    · cases h
    · cases h
      omega

end Reading

/-! ### Signatures -/

/-- Reads parameter types up to the closing parenthesis and says where they end. -/
def readParams (s : String) (p : Nat) : Except Stop (List TypeDesc × Nat) :=
  match (Wire.utf8 s)[p]? with
  | none => .error (.fault (.truncated s))
  | some b =>
    if b = 0x29 then .ok ([], p + 1)
    else
      match _h : readType s p with
      | .error e => .error e
      | .ok (t, q) =>
        if t.isVoid then .error (.fault (.misplacedVoid s))
        else do
          let (ts, q) ← readParams s q
          return (t :: ts, q)
termination_by (Wire.utf8 s).length - p
decreasing_by
  have hahead := ahead_of_readType _h
  omega

/-- Reads a whole text as one type. -/
def readWhole (s : String) : Except Stop TypeDesc := do
  let (t, p) ← readType s 0
  if p = (Wire.utf8 s).length then return t else throw (.fault (.trailing s))

/-- Reads a whole text as a signature. -/
def readSignature (s : String) : Except Stop MethodDesc :=
  match (Wire.utf8 s).head? with
  | none => .error (.fault (.truncated s))
  | some b =>
    if b = 0x28 then do
      let (params, p) ← readParams s 1
      let (ret, p) ← readType s p
      if p = (Wire.utf8 s).length then return ⟨params, ret⟩ else throw (.fault (.trailing s))
    else .error (.fault (.unexpected s (Char.ofNat b.toNat) 0))

section Signatures

variable {s : String} {before cs : List Char}

/-- What is scanned as a type has been passed over. -/
theorem toList_eq_of_scan {t : TypeDesc} {rest : List Char} (h : s.toList = before ++ cs)
    (hscan : TypeDesc.scan cs = .ok (t, rest)) : s.toList = (before ++ t.chars) ++ rest := by
  rw [h, TypeDesc.eq_chars_of_scan hscan, List.append_assoc]

/-- Unless the parentheses are closed, a type is read. -/
theorem readParams_of_ne {c : Char} (hc : c ≠ ')') (h : s.toList = before ++ c :: cs) :
    readParams s (byteCount before) = do
      let (t, q) ← readType s (byteCount before)
      if t.isVoid then throw (.fault (.misplacedVoid s))
      else
        let (ts, q) ← readParams s q
        return (t :: ts, q) := by
  obtain ⟨b, -, hhead, hlead⟩ := leadByte_cons c cs
  rw [← byte?_eq_head? h] at hhead
  have hb : b ≠ 0x29 := by
    rintro rfl
    exact hc ((leadByte_eq_iff (by decide)).1 hlead)
  rw [readParams, hhead]
  dsimp only
  rw [if_neg hb]
  split
  · rename_i e he
    rw [he]
    rfl
  · rename_i t q ht
    rw [ht]
    rfl

/-- **Parameter types.** The induction is on the scan. -/
theorem readParams_eq (h : s.toList = before ++ cs) :
    readParams s (byteCount before) = located s (MethodDesc.scanParams cs) := by
  fun_induction MethodDesc.scanParams cs generalizing before with
  | case1 =>
    rw [readParams, byte?_eq_head? h]
    rfl
  | case2 rest =>
    rw [located_ok _ (toList_eq_concat_append h), byteCount_append, readParams,
      byte?_of_lt (by decide) h]
    rfl
  | case3 c cs hc fault hscan =>
    rw [readParams_of_ne hc h, readType_eq h, hscan]
    rfl
  | case4 c cs hc t rest hscan hv =>
    rw [readParams_of_ne hc h, readType_eq h, hscan, located_ok _ (toList_eq_of_scan h hscan)]
    show (if t.isVoid then _ else _ : Except Stop (List TypeDesc × Nat)) = _
    rw [if_pos hv]
    rfl
  | case5 c cs hc t rest hscan hv fault hparams ih =>
    have hrest := toList_eq_of_scan h hscan
    rw [readParams_of_ne hc h, readType_eq h, hscan, located_ok _ hrest]
    show (if t.isVoid then _ else _ : Except Stop (List TypeDesc × Nat)) = _
    rw [if_neg hv, ih hrest, hparams]
    rfl
  | case6 c cs hc t rest hscan hv ts rest' hparams ih =>
    have hrest := toList_eq_of_scan h hscan
    rw [readParams_of_ne hc h, readType_eq h, hscan, located_ok _ hrest]
    show (if t.isVoid then _ else _ : Except Stop (List TypeDesc × Nat)) = _
    rw [if_neg hv, ih hrest, hparams]
    rfl

/-- A text is at its end when its bytes are. -/
theorem at_end_iff (h : s.toList = before ++ cs) :
    byteCount before = (Wire.utf8 s).length ↔ cs = [] := by
  rw [length_bytes h]
  cases cs with
  | nil => exact ⟨fun _ => rfl, fun _ => rfl⟩
  | cons c cs =>
    have hsize := c.utf8Size_pos
    rw [byteCount_cons]
    constructor
    · intro heq
      omega
    · exact fun heq => nomatch heq

/-- At the end of a text nothing is left of it. -/
theorem ite_at_end {α : Type} (a : α) (h : s.toList = before ++ cs) :
    (if byteCount before = (Wire.utf8 s).length then .ok a
      else .error (.fault (.trailing s)) : Except Stop α) =
      match cs with
      | [] => .ok a
      | _ :: _ => .error (.fault (.trailing s)) := by
  cases cs with
  | nil => exact if_pos ((at_end_iff h).2 rfl)
  | cons c cs => exact if_neg fun heq => nomatch (at_end_iff h).1 heq

end Signatures

/-! ### Whole texts -/

/-- **Whole types.** Reading by bytes answers what the parser answers; it stops for faults of the
text and for nothing else. -/
theorem readWhole_eq (s : String) : readWhole s = (TypeDesc.parse s).mapError .fault := by
  have hnil : s.toList = [] ++ s.toList := rfl
  have htype : readType s 0 = located s (TypeDesc.scan s.toList) := readType_eq hnil
  unfold readWhole TypeDesc.parse
  rw [htype]
  cases hscan : TypeDesc.scan s.toList with
  | error fault => rfl
  | ok result =>
    obtain ⟨t, rest⟩ := result
    have hrest := toList_eq_of_scan hnil hscan
    rw [located_ok _ hrest]
    refine (ite_at_end t hrest).trans ?_
    cases rest <;> rfl

/-- What follows the opening parenthesis. -/
theorem readSignature_of_open {s : String} {cs : List Char} (h : s.toList = '(' :: cs) :
    readSignature s = (do
      let (params, p) ← readParams s 1
      let (ret, p) ← readType s p
      if p = (Wire.utf8 s).length then return ⟨params, ret⟩ else throw (.fault (.trailing s))) := by
  have hhead : (Wire.utf8 s).head? = some 0x28 := by
    rw [utf8_eq_bytesOf, h]
    rfl
  rw [readSignature, hhead]
  rfl

/-- A text that begins otherwise is refused at its first byte. -/
theorem readSignature_of_ne {s : String} {c : Char} {cs : List Char} (hc : c ≠ '(')
    (h : s.toList = c :: cs) :
    readSignature s = .error (.fault (.unexpected s (leadByte (c :: cs)) 0)) := by
  obtain ⟨b, -, hhead, hlead⟩ := leadByte_cons c cs
  rw [← h, ← utf8_eq_bytesOf] at hhead
  have hb : b ≠ 0x28 := by
    rintro rfl
    exact hc ((leadByte_eq_iff (by decide)).1 hlead)
  rw [readSignature, hhead, hlead]
  exact if_neg hb

/-- The parameters and the return type, up to the end of the text. -/
theorem readSignature_of_open_eq {s : String} {cs : List Char} (h : s.toList = '(' :: cs) :
    readSignature s = (MethodDesc.scan ('(' :: cs)).mapError fun fault => .fault (fault.toError s) := by
  have hopen : s.toList = ['('] ++ cs := h
  have hparams : readParams s 1 = located s (MethodDesc.scanParams cs) := readParams_eq hopen
  rw [readSignature_of_open h, hparams, MethodDesc.scan]
  cases hscan : MethodDesc.scanParams cs with
  | error fault => rfl
  | ok result =>
    obtain ⟨params, rest⟩ := result
    have hrest : s.toList = (['('] ++ (params.flatMap TypeDesc.chars ++ [')'])) ++ rest := by
      rw [h, MethodDesc.eq_chars_of_scanParams hscan]
      simp
    rw [located_ok _ hrest]
    show (readType s _ >>= _) = _
    rw [readType_eq hrest]
    dsimp only
    cases hret : TypeDesc.scan rest with
    | error fault => rfl
    | ok result =>
      obtain ⟨ret, rest'⟩ := result
      have hend := toList_eq_of_scan hrest hret
      rw [located_ok _ hend]
      refine (ite_at_end (⟨params, ret⟩ : MethodDesc) hend).trans ?_
      cases rest' <;> rfl

theorem scan_of_ne {c : Char} (hc : c ≠ '(') (cs : List Char) :
    MethodDesc.scan (c :: cs) = .error (.unexpected (c :: cs)) := by
  unfold MethodDesc.scan
  split
  · rename_i heq
    exact nomatch heq
  · rename_i heq
    cases heq
    exact absurd rfl hc
  · rename_i heq
    cases heq
    rfl

/-- **Whole signatures.** The parentheses, the parameters between them and the return type. -/
theorem readSignature_eq (s : String) :
    readSignature s = (MethodDesc.parse s).mapError .fault := by
  have hparse : (MethodDesc.parse s).mapError Stop.fault =
      (MethodDesc.scan s.toList).mapError fun fault => .fault (fault.toError s) := by
    unfold MethodDesc.parse
    cases MethodDesc.scan s.toList <;> rfl
  rw [hparse]
  cases hs : s.toList with
  | nil =>
    rw [readSignature, utf8_eq_bytesOf, hs]
    rfl
  | cons c cs =>
    by_cases hc : c = '('
    · subst hc
      exact readSignature_of_open_eq hs
    · have hplace : byteCount s.toList - byteCount (c :: cs) = 0 := by rw [hs, Nat.sub_self]
      rw [readSignature_of_ne hc hs, scan_of_ne hc]
      show _ = Except.error (Stop.fault (.unexpected s _ (byteCount s.toList - _)))
      rw [hplace]

end Descriptor

end Interpose
