import Interpose.Instrument.Stub
import Interpose.Proofs.Assembling
/-!
# Stubs as programs

A stub is assembled behind an opening, which is empty but for constructors. It is read back as it was
assembled: its labels are marked once each, and it is short enough for its jumps.

## Main results

* `StubTarget.exists_laid_of_assemble`
-/

namespace Interpose

namespace StubTarget

open Item (Laid span marks)

variable (t : StubTarget)

/-! ### Blocks -/

/-- Pushes the receiver, if there is one. -/
def pushReceiver : List Item := if t.isStatic then [] else [.loadLocal 0]

/-- How the declared body is called. -/
def callKind : CallKind := if t.isStatic then .static else .special

/-- The blocks before the handler block. -/
def directPart : List Item :=
  if t.alwaysDispatch then []
  else t.markerBlock ++ (t.decisionBlock ++ (t.directBlock ++ t.clearBlock))

theorem directBlock_eq :
    t.directBlock = .mark directLabel :: (t.pushReceiver ++ (t.pushArguments ++
      [.invoke t.callKind t.className t.directName t.descriptor, returnItem t.signature])) := by
  unfold directBlock pushReceiver callKind
  cases t.isStatic <;> rfl

theorem handlerBlock_eq :
    t.handlerBlock = .mark handlerLabel :: .constClass t.className :: .constString t.recordName ::
      t.receiverOrNull :: (pushArray (t.signature.paramNames.map .constString) ++
        (pushArray t.pushArguments ++ .simple .methodInvoked :: answerBlock t.signature)) := by
  simp only [handlerBlock, List.append_assoc, List.cons_append]

theorem items_eq :
    t.items = [.newLabel, .newLabel, .newLabel] ++ (t.directPart ++ t.handlerBlock) := by
  unfold items directPart
  cases t.alwaysDispatch
  · simp only [Bool.false_eq_true, if_false, List.append_assoc]
  · rfl

/-! ### Sizes and labels -/

section Sizes

variable {t} {items : List Item}

theorem span_of_forall (h : ∀ item ∈ items, item.size = 1) : span items = items.length := by
  induction items with
  | nil => rfl
  | cons item rest ih =>
    rw [Item.span_cons, h item List.mem_cons_self,
      ih fun x hx => h x (List.mem_cons_of_mem item hx), List.length_cons, Nat.add_comm]

theorem marks_of_forall (h : ∀ item ∈ items, item.size = 1) : marks items = [] := by
  induction items with
  | nil => rfl
  | cons item rest ih =>
    have hrest := ih fun x hx => h x (List.mem_cons_of_mem item hx)
    have hitem := h item List.mem_cons_self
    cases item with
    | plain d =>
      cases d with
      | newLabel => exact nomatch hitem
      | mark label => exact nomatch hitem
      | emit i => exact hrest
    | _ => exact hrest

/-- Items that come to one instruction each. -/
theorem size_of_mem_pushArguments {item : Item} (h : item ∈ t.pushArguments) : item.size = 1 := by
  obtain ⟨i, -, rfl⟩ := List.mem_map.1 h
  rfl

theorem size_of_mem_storeElement {i : Nat} {element item : Item} (he : element.size = 1)
    (h : item ∈ storeElement i element) : item.size = 1 := by
  simp only [storeElement, List.mem_cons, List.not_mem_nil, or_false] at h
  rcases h with rfl | rfl | rfl | rfl
  · rfl
  · rfl
  · exact he
  · rfl

theorem size_of_mem_pushArray {item : Item} (he : ∀ x ∈ items, x.size = 1)
    (h : item ∈ pushArray items) : item.size = 1 := by
  rcases List.mem_cons.1 h with rfl | h
  · rfl
  rcases List.mem_cons.1 h with rfl | h
  · rfl
  obtain ⟨⟨x, i⟩, hx, hitem⟩ := List.mem_flatMap.1 h
  exact size_of_mem_storeElement (he x (List.fst_mem_of_mem_zipIdx hx)) hitem

theorem size_of_mem_answerBlock {signature : MethodDesc} {item : Item}
    (h : item ∈ answerBlock signature) : item.size = 1 := by
  unfold answerBlock at h
  split at h
  · simp only [List.mem_cons, List.not_mem_nil, or_false] at h
    rcases h with rfl | rfl <;> rfl
  split at h
  · simp only [List.mem_cons, List.not_mem_nil, or_false] at h
    rcases h with rfl | rfl <;> rfl
  · rw [List.mem_singleton.1 h]
    rfl

/-- What calls the declared body. -/
theorem size_of_mem_directCall {item : Item} (h : item ∈ t.pushReceiver ++ (t.pushArguments ++
      [.invoke t.callKind t.className t.directName t.descriptor, returnItem t.signature])) :
    item.size = 1 := by
  rcases List.mem_append.1 h with h | h
  · unfold pushReceiver at h
    split at h
    · exact nomatch h
    · rw [List.mem_singleton.1 h]
      rfl
  rcases List.mem_append.1 h with h | h
  · exact size_of_mem_pushArguments h
  simp only [List.mem_cons, List.not_mem_nil, or_false] at h
  rcases h with rfl | rfl
  · rfl
  · unfold returnItem
    split <;> rfl

theorem size_receiverOrNull : t.receiverOrNull.size = 1 := by
  unfold receiverOrNull
  split <;> rfl

/-- What hands the call to the handler. -/
theorem size_of_mem_handlerCall {item : Item}
    (h : item ∈ .constClass t.className :: .constString t.recordName :: t.receiverOrNull ::
      (pushArray (t.signature.paramNames.map .constString) ++
        (pushArray t.pushArguments ++ .simple .methodInvoked :: answerBlock t.signature))) :
    item.size = 1 := by
  rcases List.mem_cons.1 h with rfl | h
  · rfl
  rcases List.mem_cons.1 h with rfl | h
  · rfl
  rcases List.mem_cons.1 h with rfl | h
  · exact t.size_receiverOrNull
  rcases List.mem_append.1 h with h | h
  · refine size_of_mem_pushArray (fun x hx => ?_) h
    obtain ⟨s, -, rfl⟩ := List.mem_map.1 hx
    rfl
  rcases List.mem_append.1 h with h | h
  · exact size_of_mem_pushArray (fun _ => size_of_mem_pushArguments) h
  rcases List.mem_cons.1 h with rfl | h
  · rfl
  · exact size_of_mem_answerBlock h

theorem length_pushArguments : t.pushArguments.length = t.signature.arity := by
  rw [pushArguments, List.length_map, List.length_range]

theorem length_pushArray : (pushArray items).length = 4 * items.length + 2 := by
  have hflat : ∀ (l : List (Item × Nat)),
      (l.flatMap fun x => storeElement x.2 x.1).length = 4 * l.length := by
    intro l
    induction l with
    | nil => rfl
    | cons x l ih =>
      rw [List.flatMap_cons, List.length_append, ih, List.length_cons]
      show 4 + 4 * l.length = _
      omega
  show (items.zipIdx.flatMap fun x => storeElement x.2 x.1).length + 1 + 1 = _
  rw [hflat, List.length_zipIdx]

theorem span_pushArray (he : ∀ x ∈ items, x.size = 1) :
    span (pushArray items) = 4 * items.length + 2 := by
  rw [span_of_forall fun _ => size_of_mem_pushArray he, length_pushArray]

end Sizes

/-- The labels of a stub are marked once each. -/
theorem nodup_marks_items : (marks t.items).Nodup := by
  have hmarker : marks t.markerBlock = [] := by
    unfold markerBlock
    split <;> rfl
  have hdecision : marks t.decisionBlock = [] := by
    unfold decisionBlock receiverOrNull
    split <;> rfl
  have hdirect : marks t.directBlock = [directLabel] := by
    rw [directBlock_eq]
    show directLabel :: marks _ = _
    rw [marks_of_forall fun _ => size_of_mem_directCall]
  have hhandler : marks t.handlerBlock = [handlerLabel] := by
    rw [handlerBlock_eq]
    show handlerLabel :: marks _ = _
    rw [marks_of_forall fun _ => size_of_mem_handlerCall]
  have hclear : marks t.clearBlock = if t.isStatic then [] else [clearLabel] := by
    unfold clearBlock
    split <;> rfl
  rw [items_eq, Item.marks_append, Item.marks_append, hhandler]
  unfold directPart
  split
  · decide
  · simp only [Item.marks_append, hmarker, hdecision, hdirect, hclear]
    split <;> decide

/-- A stub is as long as its arguments make it. -/
theorem span_items_le : span t.items ≤ 9 * t.signature.arity + 24 := by
  have hmarker : span t.markerBlock ≤ 4 := by
    unfold markerBlock
    split
    · exact Nat.zero_le 4
    · exact Nat.le_refl 4
  have hdecision : span t.decisionBlock = 3 := by
    unfold decisionBlock receiverOrNull
    split <;> rfl
  have hclear : span t.clearBlock ≤ 4 := by
    unfold clearBlock
    split
    · exact Nat.zero_le 4
    · exact Nat.le_refl 4
  have hreceiver : t.pushReceiver.length ≤ 1 := by
    unfold pushReceiver
    split <;> decide
  have hanswer : (answerBlock t.signature).length ≤ 2 := by
    unfold answerBlock
    split
    · exact Nat.le_refl 2
    split
    · exact Nat.le_refl 2
    · exact Nat.le_succ 1
  have hdirect : span t.directBlock ≤ t.signature.arity + 3 := by
    rw [directBlock_eq, Item.span_cons, span_of_forall fun _ => size_of_mem_directCall]
    simp only [List.length_append, length_pushArguments, List.length_cons, List.length_nil]
    show 0 + _ ≤ _
    omega
  have hhandler : span t.handlerBlock ≤ 8 * t.signature.arity + 10 := by
    rw [handlerBlock_eq, Item.span_cons, span_of_forall fun _ => size_of_mem_handlerCall]
    simp only [List.length_append, List.length_cons, length_pushArray, length_pushArguments,
      List.length_map, MethodDesc.paramNames]
    show 0 + (4 * t.signature.arity + 2 + _ + 1 + 1 + 1) ≤ _
    omega
  rw [items_eq, Item.span_append, Item.span_append]
  have hpart : span t.directPart ≤ t.signature.arity + 14 := by
    unfold directPart
    split
    · exact Nat.zero_le _
    · simp only [Item.span_append, hdecision]
      omega
  show 0 + _ ≤ _
  omega

/-- A stub ends with a return. -/
theorem exists_items_eq_concat : ∃ init op, t.items = init ++ [.simple op] := by
  have hanswer : ∃ op, [.simple op] <:+ answerBlock t.signature := by
    unfold answerBlock
    split
    · exact ⟨.retVoid, List.suffix_cons _ _⟩
    split
    · exact ⟨.ret, List.suffix_cons _ _⟩
    · exact ⟨.ret, List.suffix_refl _⟩
  obtain ⟨op, hop⟩ := hanswer
  have hblock : answerBlock t.signature <:+ t.handlerBlock := by
    refine ⟨.mark handlerLabel :: .constClass t.className :: .constString t.recordName ::
      t.receiverOrNull :: pushArray (t.signature.paramNames.map .constString) ++
        pushArray t.pushArguments ++ [.simple .methodInvoked], ?_⟩
    simp only [handlerBlock, List.append_assoc, List.cons_append, List.nil_append]
  obtain ⟨init, hinit⟩ := hop.trans (hblock.trans
    ((List.suffix_append t.directPart _).trans (List.suffix_append _ _)))
  rw [items_eq]
  exact ⟨init, op, hinit.symm⟩

/-- The tags of a stub are those of primitive types. -/
theorem isSome_of_mem_items {tag : UInt8} (h : Item.emit (.unbox tag) ∈ t.items) :
    (TypeDesc.ofTag? tag).isSome := by
  have hreceiver : Item.emit (.unbox tag) ≠ t.receiverOrNull := by
    unfold receiverOrNull
    split <;> exact nofun
  have hreturn : Item.emit (.unbox tag) ≠ returnItem t.signature := by
    unfold returnItem
    split <;> exact nofun
  have harguments : Item.emit (.unbox tag) ∉ t.pushArguments := by
    simp [pushArguments, Item.emit, Item.loadLocal]
  have harray : ∀ elements, Item.emit (.unbox tag) ∉ elements →
      Item.emit (.unbox tag) ∉ pushArray elements := by
    intro elements he hmem
    simp only [pushArray, storeElement, Item.simple, Item.constInt, Item.emit, List.mem_cons,
      List.mem_flatMap, Prod.exists, Item.plain.injEq, Directive.emit.injEq, reduceCtorEq,
      List.not_mem_nil, false_or, or_false] at hmem
    obtain ⟨element, i, hi, rfl⟩ := hmem
    exact he (List.fst_mem_of_mem_zipIdx hi)
  have hanswer : Item.emit (.unbox tag) ∈ answerBlock t.signature := by
    rw [items_eq, handlerBlock_eq] at h
    have hnames := harray (t.signature.paramNames.map .constString) (by simp [Item.emit])
    have hvalues := harray t.pushArguments harguments
    simp only [Item.emit] at hreceiver hreturn harguments hnames hvalues h ⊢
    simpa [directPart, markerBlock, decisionBlock, directBlock_eq, pushReceiver, clearBlock,
      hreceiver, hreturn, harguments, hnames, hvalues, Item.newLabel, Item.mark, Item.jump,
      Item.loadLocal, Item.simple] using h
  unfold answerBlock at hanswer
  split at hanswer
  · simp [Item.emit, Item.simple] at hanswer
  split at hanswer
  · rename_i tag' htag'
    obtain rfl : tag = tag' := by simpa [Item.emit, Item.simple] using hanswer
    cases hret : t.signature.ret <;> rw [hret] at htag' <;> cases htag' <;> rfl
  · simp [Item.emit, Item.simple] at hanswer

/-- A label of a stub stands before its last instruction. -/
theorem place_of_laid_items {pool : Pool} {place : Nat → Nat} {code : List Instruction} {p label : Nat}
    (h : Laid pool place code p t.items) (hl : label ∈ marks t.items) :
    p ≤ place label ∧ place label < p + span t.items := by
  obtain ⟨init, op, hop⟩ := t.exists_items_eq_concat
  rw [hop] at h hl ⊢
  rw [Item.marks_append, show marks [Item.simple op] = [] from rfl, List.append_nil] at hl
  obtain ⟨hle, hle'⟩ := Item.place_of_laid (Item.laid_append.1 h).1 hl
  refine ⟨hle, ?_⟩
  rw [Item.span_append]
  exact Nat.lt_of_le_of_lt hle' (Nat.lt_succ_self _)

section Opening

variable {opening code : List Instruction} {pool pool' : Pool}

theorem span_opening : span (opening.map Item.emit) = opening.length := by
  rw [span_of_forall (List.forall_mem_map.2 fun _ _ => rfl), List.length_map]

theorem marks_opening : marks (opening.map Item.emit ++ t.items) = marks t.items := by
  rw [Item.marks_append, marks_of_forall (List.forall_mem_map.2 fun _ _ => rfl), List.nil_append]

/-- There is always something to a stub. -/
theorem ne_nil_of_assemble
    (h : Item.assemble pool (opening.map .emit ++ t.items) = .ok (code, pool'))
    (hfits : pool'.Fits) : code ≠ [] := by
  obtain ⟨place, -, hlen⟩ :=
    Item.laid_of_assemble h hfits (t.marks_opening ▸ t.nodup_marks_items)
  obtain ⟨init, op, hop⟩ := t.exists_items_eq_concat
  rw [hop, Item.span_append, Item.span_append] at hlen
  have hop' : span [Item.simple op] = 1 := rfl
  rw [← List.length_pos_iff]
  omega

/-- **Stubs.** What is assembled from a straight opening and a stub is read back as it is: first the
opening, then the stub. -/
theorem exists_laid_of_assemble
    (h : Item.assemble pool (opening.map .emit ++ t.items) = .ok (code, pool'))
    (hfits : pool'.Fits) (harity : t.signature.arity ≤ 65535)
    (hstraight : ∀ i ∈ opening, i.target? = none)
    (htags : ∀ tag, .unbox tag ∈ opening → (TypeDesc.ofTag? tag).isSome) :
    Code.decode (Code.encode code) = .ok code ∧
      (∀ p : Nat, p < opening.length → code[p]? = opening[p]?) ∧
      ∃ place, Laid pool' place code opening.length t.items := by
  have hmarks : marks (opening.map Item.emit ++ t.items) = marks t.items := t.marks_opening
  have hspan : span (opening.map Item.emit) = opening.length := span_opening
  obtain ⟨place, hlaid, hlen⟩ := Item.laid_of_assemble h hfits (hmarks ▸ t.nodup_marks_items)
  obtain ⟨hopening, hstub⟩ := Item.laid_append.1 hlaid
  rw [Nat.zero_add, hspan] at hstub
  rw [Item.span_append, hspan] at hlen
  have hhead : ∀ p : Nat, p < opening.length → code[p]? = opening[p]? := by
    intro p hp
    rw [← Item.getElem?_of_laid_emit hopening hstraight hp, Nat.zero_add]
  refine ⟨Code.decode_encode ?_, hhead, place, hstub⟩
  have htail : ∀ p : Nat, (hp : p < code.length) → opening.length ≤ p →
      p < opening.length + span t.items := fun p hp _ => hlen ▸ hp
  have hspan' := t.span_items_le
  have hreach : 9 * span t.items + 5 < 0x80000000 := by omega
  refine Code.writable_of_near hreach ?_ ?_
  · intro p c label hp
    have hlt : p < code.length := (List.getElem?_eq_some_iff.1 hp).1
    by_cases hpo : p < opening.length
    · rw [hhead p hpo] at hp
      exact nomatch hstraight _ (List.mem_of_getElem? hp)
    · have hle := Nat.le_of_not_lt hpo
      obtain ⟨l, hl, rfl⟩ := Item.exists_jump_of_laid hstub hle (htail p hlt hle) hp
      have hmark := Item.mem_marks_of_assemble h (List.mem_append_right _ hl)
      obtain ⟨hlow, hhigh⟩ := t.place_of_laid_items hstub (hmarks ▸ hmark)
      omega
  · intro tag htag
    obtain ⟨p, hlt, hp⟩ := List.getElem_of_mem htag
    have hp' : code[p]? = some (.unbox tag) := hp ▸ List.getElem?_eq_getElem hlt
    by_cases hpo : p < opening.length
    · rw [hhead p hpo] at hp'
      exact htags tag (List.mem_of_getElem? hp')
    · have hle := Nat.le_of_not_lt hpo
      exact t.isSome_of_mem_items (Item.mem_unbox_of_laid hstub hle (htail p hlt hle) hp')

end Opening

end StubTarget

end Interpose
