import Interpose.Proofs.Intercepted
import Interpose.Proofs.Walks
/-!
# Runs of stubs

What the blocks of a stub do, wherever they stand in a body and whatever lies on the stack below.
The arguments are read from the locals, so it does not matter how many of them there are.

## Main definitions

* `StubTarget.Served`: what a stub relies on
* `Machine.marked`, `Machine.clearMarker`

## Main results

* `StubTarget.Served.walks_direct`, `StubTarget.Served.walks_handler`: which block a stub gets to
* `StubTarget.Served.run_direct`, `StubTarget.Served.run_handler`: what it comes to there
-/

namespace Interpose

open Item (Laid span)
open Interpose.Frame (Walks)

/-! ### Blocks in their places -/

namespace StubTarget

variable {t : StubTarget} {pool : Pool} {place : Nat → Nat} {code : List Instruction} {p : Nat}

/-- The blocks before the handler block, in their places. -/
theorem laid_direct (h : Laid pool place code p t.items) (hd : t.alwaysDispatch = false) :
    Laid pool place code p t.markerBlock ∧
      Laid pool place code (p + span t.markerBlock) t.decisionBlock ∧
      place directLabel = p + span t.markerBlock + 3 ∧
      Laid pool place code (place directLabel) (t.pushReceiver ++ (t.pushArguments ++
        [.invoke t.callKind t.className t.directName t.descriptor, returnItem t.signature])) ∧
      (t.isStatic = false → Laid pool place code (place clearLabel)
        [.loadLocal 0, .simple .constNull, .field .put t.className markerFieldName,
          .jump .always directLabel]) := by
  have hdecision : span t.decisionBlock = 3 := by
    unfold decisionBlock receiverOrNull
    split <;> rfl
  rw [items_eq, Item.laid_append, Item.laid_append] at h
  obtain ⟨-, hpart, -⟩ := h
  unfold directPart at hpart
  rw [hd, if_neg Bool.false_ne_true, Item.laid_append, Item.laid_append, Item.laid_append] at hpart
  obtain ⟨hmarker, hdecide, hdirect, hclear⟩ := hpart
  rw [directBlock_eq] at hdirect
  obtain ⟨hplace, hcall⟩ := hdirect
  rw [hdecision] at hplace hcall
  refine ⟨hmarker, hdecide, hplace, ?_, fun hs => ?_⟩
  · rw [hplace]
    exact hcall
  · unfold clearBlock at hclear
    rw [hs, if_neg Bool.false_ne_true] at hclear
    obtain ⟨hplace', hclear⟩ := hclear
    rw [hplace']
    exact hclear

/-- The handler block in its place. -/
theorem laid_handler (h : Laid pool place code p t.items) :
    (t.alwaysDispatch = true → place handlerLabel = p) ∧
      Laid pool place code (place handlerLabel) (.constClass t.className ::
        .constString t.recordName :: t.receiverOrNull ::
        (pushArray (t.signature.paramNames.map .constString) ++
          (pushArray t.pushArguments ++ .simple .methodInvoked :: answerBlock t.signature))) := by
  rw [items_eq, Item.laid_append, Item.laid_append, handlerBlock_eq] at h
  obtain ⟨-, -, hplace, hhandler⟩ := h
  refine ⟨fun hd => ?_, ?_⟩
  · rw [show place handlerLabel = _ from hplace]
    unfold directPart
    rw [hd]
    rfl
  · rw [show place handlerLabel = _ from hplace]
    exact hhandler

end StubTarget

/-! ### Arrays of arguments -/

section Pushing

variable {handlers : Handlers} {k : LoadedMethod} {c : ClassRef} {locals : List Value}
variable {pool : Pool} {place : Nat → Nat} {code : List Instruction} {m : Machine}

/-- An item that pushes a value, whatever is on the heap. -/
def Pushes (handlers : Handlers) (k : LoadedMethod) (c : ClassRef) (locals : List Value)
    (pool : Pool) (place : Nat → Nat) (code : List Instruction) (m : Machine) (item : Item)
    (v : Value) : Prop :=
  ∀ p stack heap, item.Stands pool place code p →
    Walks handlers k ⟨c, p, locals, stack⟩ { m with heap := heap }
      ⟨c, p + 1, locals, v :: stack⟩ { m with heap := heap }

variable {α : Type} {item : α → Item} {value : α → Value}

/-- Pushing values one after the other. -/
theorem walks_pushAll {l : List α} {p : Nat} {stack : List Value} {heap : Heap}
    (hsize : ∀ a ∈ l, (item a).size = 1)
    (hpush : ∀ a ∈ l, Pushes handlers k c locals pool place code m (item a) (value a))
    (h : Laid pool place code p (l.map item)) :
    Walks handlers k ⟨c, p, locals, stack⟩ { m with heap := heap }
      ⟨c, p + l.length, locals, (l.map value).reverse ++ stack⟩ { m with heap := heap } := by
  induction l generalizing p stack with
  | nil => exact Walks.refl _ _
  | cons a l ih =>
    obtain ⟨hstands, hrest⟩ := h
    rw [hsize a List.mem_cons_self] at hrest
    have hfirst := hpush a List.mem_cons_self p stack heap hstands
    have htail : Walks handlers k ⟨c, p + 1, locals, value a :: stack⟩ { m with heap := heap }
        ⟨c, p + 1 + l.length, locals, (l.map value).reverse ++ value a :: stack⟩
        { m with heap := heap } :=
      ih (fun x hx => hsize x (List.mem_cons_of_mem a hx))
        (fun x hx => hpush x (List.mem_cons_of_mem a hx)) hrest
    rw [List.map_cons, List.reverse_cons, List.append_assoc, List.length_cons,
      Nat.add_comm l.length 1, ← Nat.add_assoc]
    exact hfirst.trans htail

/-- Filling the first slot of an array that holds null so far. -/
theorem walks_storeElement {item : Item} {v : Value} {done rest : List Value} {p : Nat}
    {stack : List Value} {heap : Heap}
    (hcode : ∀ (q : Nat) i, code[q]? = some i → k.code[q]? = some i)
    (hlen : done.length < 0x80000000) (hsize : item.size = 1)
    (hpush : Pushes handlers k c locals pool place code m item v)
    (h : Laid pool place code p (StubTarget.storeElement done.length item)) :
    Walks handlers k ⟨c, p, locals, .array ⟨heap.arrays.size⟩ :: stack⟩
      { m with heap := (heap.allocateArray (done ++ .null :: rest).toArray).2 }
      ⟨c, p + 4, locals, .array ⟨heap.arrays.size⟩ :: stack⟩
      { m with heap := (heap.allocateArray (done ++ v :: rest).toArray).2 } := by
  obtain ⟨hdup, hindex, helement, hstore, -⟩ := h
  rw [hsize] at hstore
  have hposition : done.length < (done ++ Value.null :: rest).toArray.size := by
    rw [List.size_toArray, List.length_append, List.length_cons]
    omega
  have hset : (done ++ Value.null :: rest).toArray.setIfInBounds done.length v =
      (done ++ v :: rest).toArray := by
    rw [List.setIfInBounds_toArray, List.set_append_right _ _ (Nat.le_refl _), Nat.sub_self,
      List.set_cons_zero]
  have hwrite : Walks handlers k
      ⟨c, p + 3, locals, v :: .int (Int32.ofNat done.length) ::
        .array ⟨heap.arrays.size⟩ :: .array ⟨heap.arrays.size⟩ :: stack⟩
      { m with heap := (heap.allocateArray (done ++ .null :: rest).toArray).2 }
      ⟨c, p + 4, locals, .array ⟨heap.arrays.size⟩ :: stack⟩
      { m with heap := (heap.allocateArray (done ++ v :: rest).toArray).2 } := by
    rw [← hset, ← Heap.setElement_allocateArray]
    exact Frame.walks_arrayStore (hcode _ _ hstore)
      (Heap.position?_allocateArray heap _ hposition hlen)
  exact (Frame.walks_dup (hcode _ _ hdup)).trans
    ((Frame.walks_constInt (hcode _ _ hindex)).trans ((hpush _ _ _ helement).trans hwrite))

/-- Filling an array from a position on. The induction is on the elements that are left; what has
been filled grows at its end. -/
theorem walks_storeFrom {l : List α} {done : List Value} {p : Nat} {stack : List Value}
    {heap : Heap} (hcode : ∀ (q : Nat) i, code[q]? = some i → k.code[q]? = some i)
    (hlen : done.length + l.length < 0x80000000) (hsize : ∀ a ∈ l, (item a).size = 1)
    (hpush : ∀ a ∈ l, Pushes handlers k c locals pool place code m (item a) (value a))
    (h : Laid pool place code p (((l.map item).zipIdx done.length).flatMap fun (element, i) =>
      StubTarget.storeElement i element)) :
    Walks handlers k ⟨c, p, locals, .array ⟨heap.arrays.size⟩ :: stack⟩
      { m with
        heap := (heap.allocateArray (done ++ List.replicate l.length Value.null).toArray).2 }
      ⟨c, p + 4 * l.length, locals, .array ⟨heap.arrays.size⟩ :: stack⟩
      { m with heap := (heap.allocateArray (done ++ l.map value).toArray).2 } := by
  induction l generalizing p done with
  | nil => exact Walks.refl _ _
  | cons a l ih =>
    rw [List.length_cons] at hlen
    rw [List.map_cons, List.zipIdx_cons, List.flatMap_cons, Item.laid_append] at h
    obtain ⟨helement, hrest⟩ := h
    have hspan : span (StubTarget.storeElement done.length (item a)) = 4 := by
      show 1 + (1 + ((item a).size + (1 + 0))) = 4
      rw [hsize a List.mem_cons_self]
    have hdone : (done ++ [value a]).length = done.length + 1 := List.length_append
    rw [hspan, ← hdone] at hrest
    have hfirst : Walks handlers k ⟨c, p, locals, .array ⟨heap.arrays.size⟩ :: stack⟩
        { m with heap := (heap.allocateArray
          (done ++ Value.null :: List.replicate l.length Value.null).toArray).2 }
        ⟨c, p + 4, locals, .array ⟨heap.arrays.size⟩ :: stack⟩
        { m with heap := (heap.allocateArray
          (done ++ value a :: List.replicate l.length Value.null).toArray).2 } :=
      walks_storeElement hcode (by omega) (hsize a List.mem_cons_self)
        (hpush a List.mem_cons_self) helement
    have hnext : Walks handlers k ⟨c, p + 4, locals, .array ⟨heap.arrays.size⟩ :: stack⟩
        { m with heap := (heap.allocateArray
          (done ++ [value a] ++ List.replicate l.length Value.null).toArray).2 }
        ⟨c, p + 4 + 4 * l.length, locals, .array ⟨heap.arrays.size⟩ :: stack⟩
        { m with heap := (heap.allocateArray (done ++ [value a] ++ l.map value).toArray).2 } :=
      ih (by omega) (fun x hx => hsize x (List.mem_cons_of_mem a hx))
        (fun x hx => hpush x (List.mem_cons_of_mem a hx)) hrest
    have hplace : p + 4 + 4 * l.length = p + 4 * (l.length + 1) := by omega
    rw [hplace, List.append_assoc, List.append_assoc] at hnext
    exact hfirst.trans hnext

/-- **Arrays.** Items that make an array push one that holds what they stand for. -/
theorem walks_pushArray {l : List α} {p : Nat} {stack : List Value} {heap : Heap}
    (hcode : ∀ (q : Nat) i, code[q]? = some i → k.code[q]? = some i) (hlen : l.length < 0x80000000)
    (hsize : ∀ a ∈ l, (item a).size = 1)
    (hpush : ∀ a ∈ l, Pushes handlers k c locals pool place code m (item a) (value a))
    (h : Laid pool place code p (StubTarget.pushArray (l.map item))) :
    Walks handlers k ⟨c, p, locals, stack⟩ { m with heap := heap }
      ⟨c, p + (4 * l.length + 2), locals, .array ⟨heap.arrays.size⟩ :: stack⟩
      { m with heap := (heap.allocateArray (l.map value).toArray).2 } := by
  obtain ⟨hlength, hnew, hstore⟩ := h
  have hlen' : (l.map item).length = l.length := List.length_map _
  have hlength' : code[p]? = some (.constInt (Int32.ofNat l.length)) := by
    rw [← hlen']
    exact hlength
  have hfill : Walks handlers k ⟨c, p + 2, locals, .array ⟨heap.arrays.size⟩ :: stack⟩
      { m with heap := (heap.allocateArray (Array.replicate l.length .null)).2 }
      ⟨c, p + 2 + 4 * l.length, locals, .array ⟨heap.arrays.size⟩ :: stack⟩
      { m with heap := (heap.allocateArray (l.map value).toArray).2 } := by
    rw [← List.toArray_replicate]
    have hlen'' : ([] : List Value).length + l.length < 0x80000000 := by
      rwa [List.length_nil, Nat.zero_add]
    exact walks_storeFrom hcode hlen'' hsize hpush hstore
  have hallocate : Walks handlers k ⟨c, p + 1, locals, .int (Int32.ofNat l.length) :: stack⟩
      { m with heap := heap } ⟨c, p + 2, locals, .array ⟨heap.arrays.size⟩ :: stack⟩
      { m with heap := (heap.allocateArray (Array.replicate l.length .null)).2 } :=
    Frame.walks_newArray (hcode _ _ hnew) hlen
  have hplace : p + 2 + 4 * l.length = p + (4 * l.length + 2) := by omega
  rw [← hplace]
  exact (Frame.walks_constInt (hcode _ _ hlength')).trans (hallocate.trans hfill)

end Pushing

/-! ### Markers -/

namespace Machine

variable (m : Machine) (c : ClassRef)

/-- A receiver's marker for a class: the object, the slot, and what it holds. -/
def marker? : Value → Option (ObjectRef × Nat × Value)
  | .object o =>
    match (m.cls c).declaredField? markerFieldName with
    | some slot => (m.heap.slot? o slot).map fun v => (o, slot, v)
    | none => none
  | _ => none

/-- Whether a receiver's marker for a class holds an instance of the class. -/
def marked (receiver : Value) : Bool :=
  match m.marker? c receiver with
  | some (_, _, v) => m.holds c v
  | none => false

/-- The machine after a marker that holds an instance of its class has been reset. -/
def clearMarker (receiver : Value) : Machine :=
  match m.marker? c receiver with
  | some (o, slot, v) => if m.holds c v then { m with heap := m.heap.setSlot o slot .null } else m
  | none => m

variable {m c} {receiver : Value}

theorem marker?_eq_some {o : ObjectRef} {slot : Nat} {v : Value}
    (h : m.marker? c receiver = some (o, slot, v)) : receiver = .object o ∧
      (m.cls c).declaredField? markerFieldName = some slot ∧ m.heap.slot? o slot = some v := by
  unfold marker? at h
  split at h
  case h_2 => cases h
  split at h
  case h_2 => cases h
  rename_i slot' hslot
  obtain ⟨w, hw, heq⟩ := Option.map_eq_some_iff.1 h
  cases heq
  exact ⟨rfl, hslot, hw⟩

/-- An instance of a class has a marker, if the class declares one. -/
theorem Instantiates.exists_marker {o : ObjectRef} (ho : m.Instantiates o c)
    (hc : ∃ slot, (m.cls c).declaredField? markerFieldName = some slot ∧
      slot < (m.cls c).slotCount) : (m.marker? c (.object o)).isSome := by
  obtain ⟨slot, hslot, hlt⟩ := hc
  obtain ⟨x, hx, -, hle⟩ := ho
  have hobject : m.heap.object o = x := by
    rw [Heap.object, Array.getD_eq_getD_getElem?, hx, Option.getD_some]
  rw [marker?, hslot]
  dsimp only
  rw [Heap.slot?, hobject, Array.getElem?_eq_getElem (Nat.lt_of_lt_of_le hlt hle)]
  rfl

theorem clearMarker_of_unmarked (h : m.marked c receiver = false) :
    m.clearMarker c receiver = m := by
  unfold marked at h
  unfold clearMarker
  split at h
  · rw [h]
    rfl
  · rfl

theorem clearMarker_atDepth (d : Nat) :
    (m.atDepth d).clearMarker c receiver = (m.clearMarker c receiver).atDepth d := by
  show (match m.marker? c receiver with
    | some (o, slot, v) => if m.holds c v then _ else _
    | none => _) = _
  unfold clearMarker
  split
  · split <;> rfl
  · rfl

/-- Clearing a marker changes a slot at most. -/
theorem classes_clearMarker : (m.clearMarker c receiver).classes = m.classes := by
  unfold clearMarker
  split
  · split <;> rfl
  · rfl

theorem cls_clearMarker (a : ClassRef) : (m.clearMarker c receiver).cls a = m.cls a := by
  rw [cls, cls, classes_clearMarker]

theorem evolves_clearMarker : m.Evolves (m.clearMarker c receiver) := by
  unfold clearMarker
  split
  · rename_i o slot v hv
    split
    · exact (Change.slot m o slot .null : m.Change False _).evolves
    · exact .refl m
  · exact .refl m

end Machine

/-- What a method of a signature answers for its handler: nothing if the return type is `void`, and
the handler's answer converted if it is primitive. -/
def MethodDesc.answer (signature : MethodDesc) (v : Value) : Run Value :=
  if signature.ret.isVoid then pure .null
  else if signature.ret.isPrimitive then Run.unbox signature.ret v
  else pure v

namespace StubTarget

/-! ### What a stub relies on -/

/-- A class that a stub may stand in: its name, its pool, and its handler. -/
structure Served (t : StubTarget) (pool : Pool) (m : Machine) (c : ClassRef) (h : HandlerRef) :
    Prop where
  name : (m.cls c).name = t.className
  constants : (m.cls c).constants = pool
  handler : (m.cls c).handler? = some h

/-- The receiver among the values that are handed over, or null if there is none. -/
def receiverOf (t : StubTarget) (args : List Value) : Value :=
  if t.isStatic then .null else args.headD .null

/-- The arguments among the values that are handed over. -/
def argumentsOf (t : StubTarget) (args : List Value) : List Value :=
  if t.isStatic then args else args.tail

/-- The receiver has a marker, unless there is no receiver. -/
def Marked (t : StubTarget) (m : Machine) (c : ClassRef) (args : List Value) : Prop :=
  t.isStatic = false → (m.marker? c (t.receiverOf args)).isSome

/-- What the handler learns of a call. -/
def callOf (t : StubTarget) (c : ClassRef) (args : List Value) : CallRecord :=
  ⟨c, t.recordName, t.receiverOf args, t.signature.paramNames, t.argumentsOf args⟩

/-- The values that are handed over stand first among the locals. There are as many as the stub
expects, and not more than locals can be numbered. -/
structure Handed (t : StubTarget) (locals args : List Value) : Prop where
  length : args.length = t.signature.arity + (!t.isStatic).toNat
  fits : args.length ≤ 65535
  locals : ∀ i : Nat, i < args.length → locals[i]? = args[i]?

section Handed

variable {t : StubTarget} {m : Machine} {c : ClassRef} {locals args : List Value}
variable {handlers : Handlers} {k : LoadedMethod} {pool : Pool} {place : Nat → Nat}
variable {code : List Instruction} {h : HandlerRef} {p : Nat} {stack : List Value}

theorem toNat_firstArgument : t.firstArgument.toNat = (!t.isStatic).toNat := by
  unfold firstArgument
  cases t.isStatic <;> rfl

theorem toNat_argumentSlot {i : Nat} (h : (!t.isStatic).toNat + i ≤ 65535) :
    (t.argumentSlot i).toNat = (!t.isStatic).toNat + i := by
  rw [argumentSlot, UInt16.toNat_add, toNat_firstArgument, UInt16.toNat_ofNat',
    Nat.mod_eq_of_lt (by omega : i < 2 ^ 16), Nat.mod_eq_of_lt (by omega)]

theorem Handed.length_argumentsOf (ha : t.Handed locals args) :
    (t.argumentsOf args).length = t.signature.arity := by
  have hlen := ha.length
  unfold argumentsOf
  cases hs : t.isStatic <;> rw [hs] at hlen
  · rw [if_neg Bool.false_ne_true, List.length_tail, hlen]
    rfl
  · exact hlen

theorem Handed.arity_lt (ha : t.Handed locals args) : t.signature.arity < 0x80000000 := by
  have hlen := ha.length
  have hfits := ha.fits
  omega

/-- The slot of an argument holds it. -/
theorem Handed.getElem?_argumentSlot (ha : t.Handed locals args) {i : Nat}
    (hi : i < t.signature.arity) :
    locals[(t.argumentSlot i).toNat]? = (t.argumentsOf args)[i]? := by
  have hlen := ha.length
  have hfits := ha.fits
  rw [toNat_argumentSlot (by omega), ha.locals _ (by omega)]
  unfold argumentsOf
  cases hs : t.isStatic
  · rw [if_neg Bool.false_ne_true, List.getElem?_tail]
    exact congrArg (args[·]?) (Nat.add_comm 1 i)
  · exact congrArg (args[·]?) (Nat.zero_add i)

theorem Handed.receiver_eq (ha : t.Handed locals args) (hs : t.isStatic = false) :
    args = t.receiverOf args :: t.argumentsOf args ∧ locals[0]? = some (t.receiverOf args) := by
  have hlen := ha.length
  have hlocal := ha.locals 0
  rw [hs] at hlen
  rw [receiverOf, argumentsOf, hs]
  cases args with
  | nil => exact nomatch hlen
  | cons v rest => exact ⟨rfl, hlocal (Nat.succ_pos _)⟩

/-- The values that are handed over are the receiver, if there is one, and the arguments. -/
theorem Handed.argumentsOf_eq (hs : t.isStatic = true) : t.argumentsOf args = args := by
  rw [argumentsOf, hs]
  rfl

/-! ### Pushing what was handed over -/

theorem Handed.pushes_receiver (ha : t.Handed locals args)
    (hcode : ∀ (q : Nat) i, code[q]? = some i → k.code[q]? = some i) :
    Pushes handlers k c locals pool place code m t.receiverOrNull (t.receiverOf args) := by
  intro p stack heap hstands
  unfold receiverOrNull at hstands
  cases hs : t.isStatic <;> rw [hs] at hstands
  · exact Frame.walks_loadLocal (hcode _ _ hstands) (ha.receiver_eq hs).2
  · rw [receiverOf, hs]
    exact Frame.walks_constNull (hcode _ _ hstands)

theorem Handed.pushes_argument (ha : t.Handed locals args)
    (hcode : ∀ (q : Nat) i, code[q]? = some i → k.code[q]? = some i) :
    ∀ i ∈ List.range t.signature.arity, Pushes handlers k c locals pool place code m
      (.loadLocal (t.argumentSlot i)) ((t.argumentsOf args).getD i .null) := by
  intro i hi p stack heap hstands
  have hlt : i < t.signature.arity := List.mem_range.1 hi
  refine Frame.walks_loadLocal (hcode _ _ hstands) ?_
  rw [ha.getElem?_argumentSlot hlt, List.getD_eq_getElem?_getD,
    List.getElem?_eq_getElem (ha.length_argumentsOf ▸ hlt), Option.getD_some]

theorem Handed.map_range (ha : t.Handed locals args) :
    (List.range t.signature.arity).map (fun i => (t.argumentsOf args).getD i .null) =
      t.argumentsOf args := by
  refine List.ext_getElem? fun i => ?_
  rw [List.getElem?_map]
  by_cases hi : i < t.signature.arity
  · rw [List.getElem?_range hi, Option.map_some, List.getD_eq_getElem?_getD,
      List.getElem?_eq_getElem (ha.length_argumentsOf ▸ hi), Option.getD_some]
  · have hle : t.signature.arity ≤ i := Nat.le_of_not_lt hi
    rw [List.getElem?_eq_none (by rwa [List.length_range]), Option.map_none,
      List.getElem?_eq_none (ha.length_argumentsOf ▸ hle)]

end Handed

/-! ### Which block a stub gets to -/

section Blocks

variable {t : StubTarget} {pool : Pool} {m : Machine} {c : ClassRef} {h : HandlerRef}
variable {locals args stack : List Value} {handlers : Handlers} {k : LoadedMethod}
variable {place : Nat → Nat} {code : List Instruction} {p : Nat}

/-- The slot of a marker is found by name. -/
theorem Served.resolveField?_marker {slot : Nat}
    (hslot : (m.cls c).declaredField? markerFieldName = some slot) :
    m.classes.resolveField? c markerFieldName = some slot := by
  rw [ClassTable.resolveField?, ClassTable.lineage, List.findSome?_cons]
  rw [show (m.classes.get c).declaredField? markerFieldName = some slot from hslot]

theorem Served.walks_marker (hs : t.Served pool m c h) (ha : t.Handed locals args)
    (hm : t.Marked m c args)
    (hcode : ∀ (q : Nat) i, code[q]? = some i → k.code[q]? = some i)
    (hlaid : Laid pool place code p t.markerBlock) :
    Walks handlers k ⟨c, p, locals, stack⟩ m
      ⟨c, if m.marked c (t.receiverOf args) then place clearLabel else p + span t.markerBlock,
        locals, stack⟩ m := by
  unfold markerBlock at hlaid ⊢
  cases hstatic : t.isStatic with
  | true =>
    rw [receiverOf, hstatic]
    exact Walks.refl _ _
  | false =>
    rw [hstatic, if_neg Bool.false_ne_true] at hlaid
    rw [if_neg Bool.false_ne_true]
    obtain ⟨hload, ⟨i, hi, hget⟩, ⟨j, hj, hinstance⟩, hjump, -⟩ := hlaid
    obtain ⟨⟨o, slot, v⟩, hmarker⟩ := Option.isSome_iff_exists.1 (hm hstatic)
    obtain ⟨hreceiver, hslot, hv⟩ := Machine.marker?_eq_some hmarker
    have hmarked : m.marked c (t.receiverOf args) = m.holds c v := by
      rw [Machine.marked, hmarker]
    have hlocal := (ha.receiver_eq hstatic).2
    rw [hreceiver] at hlocal
    rw [hmarked]
    refine (Frame.walks_loadLocal (hcode _ _ hload) hlocal).trans ?_
    refine (Frame.walks_getField (hcode _ _ hget) ?_ (resolveField?_marker hslot) hv).trans ?_
    · rw [hs.constants, hs.name]
      exact hi
    refine (Frame.walks_instanceOf (hcode _ _ hinstance) ?_).trans ?_
    · rw [hs.constants, hs.name]
      exact hj
    exact Frame.walks_ifTrue (hcode _ _ hjump)

theorem Served.walks_decision (hs : t.Served pool m c h) (ha : t.Handed locals args)
    (hcode : ∀ (q : Nat) i, code[q]? = some i → k.code[q]? = some i)
    (hlaid : Laid pool place code p t.decisionBlock) :
    Walks handlers k ⟨c, p, locals, stack⟩ m
      ⟨c, if (handlers h).callsDirectly m (t.receiverOf args) then p + 3 else place handlerLabel,
        locals, stack⟩ m := by
  obtain ⟨hreceiver, hdecide, hjump, -⟩ := hlaid
  have hsize : t.receiverOrNull.size = 1 := by
    unfold receiverOrNull
    split <;> rfl
  rw [hsize] at hdecide hjump
  refine (ha.pushes_receiver hcode p stack m.heap hreceiver).trans ?_
  refine (Frame.walks_shouldCallDirectly (hcode _ _ hdecide) hs.handler).trans ?_
  exact Frame.walks_ifFalse (hcode _ _ hjump)

theorem Served.walks_clear (hs : t.Served pool m c h) (ha : t.Handed locals args)
    (hm : t.Marked m c args)
    (hcode : ∀ (q : Nat) i, code[q]? = some i → k.code[q]? = some i)
    (hstatic : t.isStatic = false) (hmarked : m.marked c (t.receiverOf args) = true)
    (hlaid : Laid pool place code p
      [.loadLocal 0, .simple .constNull, .field .put t.className markerFieldName,
        .jump .always directLabel]) :
    Walks handlers k ⟨c, p, locals, stack⟩ m ⟨c, place directLabel, locals, stack⟩
      (m.clearMarker c (t.receiverOf args)) := by
  obtain ⟨hload, hnull, ⟨i, hi, hput⟩, hjump, -⟩ := hlaid
  obtain ⟨⟨o, slot, v⟩, hmarker⟩ := Option.isSome_iff_exists.1 (hm hstatic)
  obtain ⟨hreceiver, hslot, hv⟩ := Machine.marker?_eq_some hmarker
  have hholds : m.holds c v = true := by
    rw [Machine.marked, hmarker] at hmarked
    exact hmarked
  have hclear : m.clearMarker c (t.receiverOf args) =
      { m with heap := m.heap.setSlot o slot .null } := by
    rw [Machine.clearMarker, hmarker]
    exact if_pos hholds
  have hlocal := (ha.receiver_eq hstatic).2
  rw [hreceiver] at hlocal
  rw [hclear]
  refine (Frame.walks_loadLocal (hcode _ _ hload) hlocal).trans ?_
  refine (Frame.walks_constNull (hcode _ _ hnull)).trans ?_
  refine (Frame.walks_putField (hcode _ _ hput) ?_ (resolveField?_marker hslot) hv).trans ?_
  · rw [hs.constants, hs.name]
    exact hi
  exact Frame.walks_jump (hcode _ _ hjump)

/-- **The way to the declared body.** Nothing but a marker is changed. -/
theorem Served.walks_direct (hs : t.Served pool m c h) (ha : t.Handed locals args)
    (hm : t.Marked m c args)
    (hcode : ∀ (q : Nat) i, code[q]? = some i → k.code[q]? = some i)
    (hlaid : Laid pool place code p t.items) (hd : t.alwaysDispatch = false)
    (hdirect : m.marked c (t.receiverOf args) = true ∨
      (handlers h).callsDirectly m (t.receiverOf args) = true) :
    Walks handlers k ⟨c, p, locals, stack⟩ m ⟨c, place directLabel, locals, stack⟩
      (m.clearMarker c (t.receiverOf args)) := by
  obtain ⟨hmarker, hdecision, hplace, -, hclear⟩ := laid_direct hlaid hd
  have hfirst : Walks handlers k ⟨c, p, locals, stack⟩ m
      ⟨c, if m.marked c (t.receiverOf args) then place clearLabel else p + span t.markerBlock,
        locals, stack⟩ m := hs.walks_marker ha hm hcode hmarker
  cases hmarked : m.marked c (t.receiverOf args) with
  | true =>
    have hstatic : t.isStatic = false := by
      cases hst : t.isStatic with
      | false => rfl
      | true =>
        rw [receiverOf, hst] at hmarked
        exact nomatch hmarked
    rw [hmarked, if_pos rfl] at hfirst
    exact hfirst.trans (hs.walks_clear ha hm hcode hstatic hmarked (hclear hstatic))
  | false =>
    rw [hmarked, if_neg Bool.false_ne_true] at hfirst
    rw [Machine.clearMarker_of_unmarked hmarked, hplace]
    have hcalls : (handlers h).callsDirectly m (t.receiverOf args) = true :=
      hdirect.resolve_left (by rw [hmarked]; exact Bool.false_ne_true)
    have hsecond : Walks handlers k ⟨c, p + span t.markerBlock, locals, stack⟩ m
        ⟨c, if (handlers h).callsDirectly m (t.receiverOf args)
          then p + span t.markerBlock + 3 else place handlerLabel, locals, stack⟩ m :=
      hs.walks_decision ha hcode hdecision
    rw [hcalls, if_pos rfl] at hsecond
    exact hfirst.trans hsecond

/-- **The way to the handler.** Nothing is changed. -/
theorem Served.walks_handler (hs : t.Served pool m c h) (ha : t.Handed locals args)
    (hcode : ∀ (q : Nat) i, code[q]? = some i → k.code[q]? = some i)
    (hlaid : Laid pool place code p t.items)
    (hhandler : t.alwaysDispatch = true ∨ t.Marked m c args ∧
      m.marked c (t.receiverOf args) = false ∧
      (handlers h).callsDirectly m (t.receiverOf args) = false) :
    Walks handlers k ⟨c, p, locals, stack⟩ m ⟨c, place handlerLabel, locals, stack⟩ m := by
  cases hd : t.alwaysDispatch with
  | true =>
    rw [(laid_handler hlaid).1 hd]
    exact Walks.refl _ _
  | false =>
    obtain ⟨hm, hmarked, hcalls⟩ := hhandler.resolve_left (by rw [hd]; exact Bool.false_ne_true)
    obtain ⟨hmarker, hdecision, -⟩ := laid_direct hlaid hd
    have hfirst : Walks handlers k ⟨c, p, locals, stack⟩ m
        ⟨c, if m.marked c (t.receiverOf args) then place clearLabel else p + span t.markerBlock,
          locals, stack⟩ m := hs.walks_marker ha hm hcode hmarker
    rw [hmarked, if_neg Bool.false_ne_true] at hfirst
    have hsecond : Walks handlers k ⟨c, p + span t.markerBlock, locals, stack⟩ m
        ⟨c, if (handlers h).callsDirectly m (t.receiverOf args)
          then p + span t.markerBlock + 3 else place handlerLabel, locals, stack⟩ m :=
      hs.walks_decision ha hcode hdecision
    rw [hcalls, if_neg Bool.false_ne_true] at hsecond
    exact hfirst.trans hsecond

/-! ### What a stub comes to -/

/-- Pushing everything that was handed over. -/
theorem Handed.walks_pushAll (ha : t.Handed locals args)
    (hcode : ∀ (q : Nat) i, code[q]? = some i → k.code[q]? = some i)
    (hlaid : Laid pool place code p (t.pushReceiver ++ t.pushArguments)) :
    Walks handlers k ⟨c, p, locals, stack⟩ m
      ⟨c, p + args.length, locals, args.reverse ++ stack⟩ m := by
  obtain ⟨hreceiver, harguments⟩ := Item.laid_append.1 hlaid
  have hpush : ∀ q st, Laid pool place code q t.pushArguments →
      Walks handlers k ⟨c, q, locals, st⟩ m
        ⟨c, q + t.signature.arity, locals, (t.argumentsOf args).reverse ++ st⟩ m := by
    intro q st hq
    have hgo : Walks handlers k ⟨c, q, locals, st⟩ m
        ⟨c, q + (List.range t.signature.arity).length, locals,
          ((List.range t.signature.arity).map fun i =>
            (t.argumentsOf args).getD i .null).reverse ++ st⟩ m :=
      Interpose.walks_pushAll (fun _ _ => rfl) (ha.pushes_argument hcode) hq
    rw [List.length_range, ha.map_range] at hgo
    exact hgo
  unfold pushReceiver at hreceiver harguments
  cases hs : t.isStatic <;> rw [hs] at hreceiver harguments
  · obtain ⟨hargs, hlocal⟩ := ha.receiver_eq hs
    obtain ⟨hload, -⟩ := hreceiver
    have hlen := ha.length
    rw [hs] at hlen
    have hstack : args.reverse ++ stack =
        (t.argumentsOf args).reverse ++ t.receiverOf args :: stack := by
      rw [hargs, List.reverse_cons, List.append_assoc, ← hargs]
      rfl
    rw [hstack, hlen, Nat.add_comm t.signature.arity, ← Nat.add_assoc]
    exact (Frame.walks_loadLocal (hcode _ _ hload) hlocal).trans (hpush _ _ harguments)
  · have hlen := ha.length
    rw [hs] at hlen
    have hargs := hpush p stack harguments
    rw [Handed.argumentsOf_eq hs] at hargs
    rw [hlen]
    exact hargs

/-- An array of the names of the parameter types. -/
theorem Served.walks_names (hs : t.Served pool m c h)
    (hcode : ∀ (q : Nat) i, code[q]? = some i → k.code[q]? = some i)
    (harity : t.signature.arity < 0x80000000)
    (hlaid : Laid pool place code p (pushArray (t.signature.paramNames.map .constString))) :
    Walks handlers k ⟨c, p, locals, stack⟩ m
      ⟨c, p + (4 * t.signature.arity + 2), locals, .array ⟨m.heap.arrays.size⟩ :: stack⟩
      { m with
        heap := (m.heap.allocateArray (t.signature.paramNames.map Value.text).toArray).2 } := by
  have hlength : t.signature.paramNames.length = t.signature.arity := List.length_map _
  have hpush : ∀ s ∈ t.signature.paramNames,
      Pushes handlers k c locals pool place code m (.constString s) (.text s) := by
    intro s _ q stack heap hstands
    obtain ⟨i, hi, hs'⟩ := hstands
    refine Frame.walks_constString (hcode _ _ hs') ?_
    show (m.cls c).constants.string? i = some s
    rw [hs.constants]
    exact hi
  rw [← hlength]
  exact walks_pushArray hcode (hlength ▸ harity) (fun _ _ => rfl) hpush hlaid

/-- An array of the arguments. -/
theorem Handed.walks_values (ha : t.Handed locals args)
    (hcode : ∀ (q : Nat) i, code[q]? = some i → k.code[q]? = some i) {heap : Heap}
    (hlaid : Laid pool place code p (pushArray t.pushArguments)) :
    Walks handlers k ⟨c, p, locals, stack⟩ { m with heap := heap }
      ⟨c, p + (4 * t.signature.arity + 2), locals, .array ⟨heap.arrays.size⟩ :: stack⟩
      { m with heap := (heap.allocateArray (t.argumentsOf args).toArray).2 } := by
  have hrange : (List.range t.signature.arity).length = t.signature.arity := List.length_range
  have hgo : Walks handlers k ⟨c, p, locals, stack⟩ { m with heap := heap }
      ⟨c, p + (4 * (List.range t.signature.arity).length + 2), locals,
        .array ⟨heap.arrays.size⟩ :: stack⟩
      { m with
        heap := (heap.allocateArray ((List.range t.signature.arity).map fun i =>
          (t.argumentsOf args).getD i .null).toArray).2 } :=
    walks_pushArray hcode (hrange.symm ▸ ha.arity_lt) (fun _ _ => rfl) (ha.pushes_argument hcode) hlaid
  rw [hrange, ha.map_range] at hgo
  exact hgo

/-- Clearing a marker takes nothing away that a stub relies on. -/
theorem Served.clearMarker (hs : t.Served pool m c h) (receiver : Value) :
    t.Served pool (m.clearMarker c receiver) c h := by
  obtain ⟨hname, hconstants, hhandler⟩ := hs
  constructor <;> rw [Machine.cls_clearMarker]
  · exact hname
  · exact hconstants
  · exact hhandler

/-- What is pushed for the declared body takes one instruction each. -/
theorem Handed.span_eq (ha : t.Handed locals args) :
    span (t.pushReceiver ++ t.pushArguments) = args.length := by
  rw [Item.span_append, span_of_forall fun _ => size_of_mem_pushArguments, length_pushArguments,
    ha.length, Nat.add_comm]
  unfold pushReceiver
  cases t.isStatic <;> rfl

/-- The declared body is called on an object, or is static and its class has been begun. -/
theorem Handed.callKind_eq (ha : t.Handed locals args)
    (hreceiver : t.isStatic = false → ∃ o, t.receiverOf args = .object o)
    (hbegun : t.isStatic = true → (m.cls c).state ≠ .uninitialized) :
    t.callKind = .special ∧ (∃ o, args.head? = some (.object o)) ∨
      t.callKind = .static ∧ (m.cls c).state ≠ .uninitialized := by
  unfold callKind
  cases hs : t.isStatic with
  | false =>
    obtain ⟨o, ho⟩ := hreceiver hs
    refine .inl ⟨rfl, o, ?_⟩
    rw [(ha.receiver_eq hs).1, ho]
    rfl
  | true => exact .inr ⟨rfl, hbegun hs⟩

/-- **Declared bodies.** At its direct block, a stub executes the declared body with what was handed
over, and answers as it does, or with null if there is no result. -/
theorem Served.run_direct (hs : t.Served pool m c h) (ha : t.Handed locals args)
    (hreceiver : t.isStatic = false → ∃ o, t.receiverOf args = .object o)
    (hcode : ∀ (q : Nat) i, code[q]? = some i → k.code[q]? = some i)
    (hlaid : Laid pool place code p (t.pushReceiver ++ (t.pushArguments ++
      [.invoke t.callKind t.className t.directName t.descriptor, returnItem t.signature])))
    {found : ClassRef × Nat}
    (hfound : m.classes.resolveMethod? c t.directName t.descriptor = some found)
    (hname : t.directName ≠ constructorName)
    (hparse : MethodDesc.parse t.descriptor = .ok t.signature)
    (hbegun : t.isStatic = true → (m.cls c).state ≠ .uninitialized) :
    ∃ n, ∀ execute owner fuel,
      Frame.run handlers execute owner k (fuel + n) ⟨c, p, locals, stack⟩ m =
        (execute found.1 found.2 args >>= fun v =>
          pure (if t.signature.ret.isVoid then .null else v)) m := by
  rw [← List.append_assoc, Item.laid_append] at hlaid
  obtain ⟨hpush, ⟨i, hi, hinvoke⟩, hreturn, -⟩ := hlaid
  rw [ha.span_eq] at hinvoke hreturn
  obtain ⟨n, hn⟩ : Walks handlers k ⟨c, p, locals, stack⟩ m
      ⟨c, p + args.length, locals, args.reverse ++ stack⟩ m := ha.walks_pushAll hcode hpush
  have hkeeps : t.callKind.hasReceiver = !t.isStatic := by
    unfold callKind
    cases t.isStatic <;> rfl
  refine ⟨2 + n, fun execute owner fuel => ?_⟩
  rw [← Nat.add_assoc, hn]
  have htarget : Act.callTarget execute t.callKind ⟨t.className, t.directName, t.descriptor⟩ args
      ⟨c, p + args.length + 1, locals, stack⟩ m =
        some (.ok (found, ⟨c, p + args.length + 1, locals, stack⟩), m) :=
    Frame.callTarget_of_some hs.name.symm hname hfound (ha.callKind_eq hreceiver hbegun)
  have href : (m.cls c).constants.method? i =
      some ⟨t.className, t.directName, t.descriptor⟩ := by rw [hs.constants, hi]
  have hstep : Act.step execute handlers (.invoke t.callKind i)
      ⟨c, p + args.length + 1, locals, args.reverse ++ stack⟩ m =
        (execute found.1 found.2 args >>= fun v => pure (none,
          (⟨c, p + args.length + 1, locals,
            if t.signature.ret.isVoid then stack else v :: stack⟩ : Frame))) m :=
    Frame.step_invoke href hparse (by rw [hkeeps]; exact ha.length) htarget
  rw [Frame.run_succ (hcode _ _ hinvoke)]
  refine (Run.bind_congr_left hstep).trans (Run.bind_bind_apply.trans ?_)
  refine Run.bind_congr_right fun v m' _ => ?_
  show Frame.run handlers execute owner k (fuel + 1) _ m' = _
  unfold returnItem at hreturn
  cases hv : t.signature.ret.isVoid with
  | true =>
    rw [hv] at hreturn
    exact Frame.run_retVoid (hcode _ _ hreturn)
  | false =>
    rw [hv] at hreturn
    exact Frame.run_ret (hcode _ _ hreturn)

/-- The block behind the handler's answer. -/
theorem run_answer {signature : MethodDesc}
    (hcode : ∀ (q : Nat) i, code[q]? = some i → k.code[q]? = some i)
    (hlaid : Laid pool place code p (answerBlock signature)) :
    ∃ n, ∀ execute owner fuel stack v m,
      Frame.run handlers execute owner k (fuel + n) ⟨c, p, locals, v :: stack⟩ m =
        signature.answer v m := by
  unfold answerBlock at hlaid
  unfold MethodDesc.answer
  cases hvoid : signature.ret.isVoid with
  | true =>
    rw [hvoid] at hlaid
    obtain ⟨hpop, hret, -⟩ := hlaid
    refine ⟨2, fun execute owner fuel stack v m => ?_⟩
    rw [show fuel + 2 = fuel + 1 + 1 from rfl, Frame.run_pop (hcode _ _ hpop)]
    exact Frame.run_retVoid (hcode _ _ hret)
  | false =>
    rw [hvoid] at hlaid
    cases htag : signature.ret.tag? with
    | some tag =>
      rw [htag] at hlaid
      obtain ⟨hunbox, hret, -⟩ := hlaid
      obtain ⟨hprimitive, hofTag⟩ : signature.ret.isPrimitive = true ∧
          TypeDesc.ofTag? tag = some signature.ret := by
        cases hret : signature.ret <;> rw [hret] at htag <;> cases htag <;> exact ⟨rfl, rfl⟩
      refine ⟨2, fun execute owner fuel stack v m => ?_⟩
      rw [show fuel + 2 = fuel + 1 + 1 from rfl, Frame.run_unbox (hcode _ _ hunbox) hofTag,
        hprimitive]
      show _ = Run.unbox signature.ret v m
      rw [Run.bind_apply]
      rcases Run.unbox signature.ret v m with _ | ⟨_ | w, m'⟩
      · rfl
      · rfl
      · exact Frame.run_ret (hcode _ _ hret)
    | none =>
      rw [htag] at hlaid
      obtain ⟨hret, -⟩ := hlaid
      have hprimitive : signature.ret.isPrimitive = false := by
        cases hret : signature.ret <;> rw [hret] at htag <;> cases htag <;> rfl
      refine ⟨1, fun execute owner fuel stack v m => ?_⟩
      rw [hprimitive]
      exact Frame.run_ret (hcode _ _ hret)

/-- The call to the handler, and what stands behind it. -/
theorem Served.run_invoked (hs : t.Served pool m c h)
    (hcode : ∀ (q : Nat) i, code[q]? = some i → k.code[q]? = some i)
    (hinvoked : code[p]? = some (.simple .methodInvoked))
    (hanswer : Laid pool place code (p + 1) (answerBlock t.signature)) :
    ∃ n, ∀ execute owner fuel stack (heap : Heap) (call : CallRecord) (types values : ArrayRef),
      (heap.elements types).toList = call.paramTypes.map .text →
      (heap.elements values).toList = call.args →
      Frame.run handlers execute owner k (fuel + n)
        ⟨c, p, locals, .array values :: .array types :: call.receiver :: .text call.method ::
          .cls call.owner :: stack⟩ { m with heap := heap } =
        (((handlers h).methodInvoked call).run execute >>= t.signature.answer)
          { m with heap := heap } := by
  obtain ⟨n, hn⟩ : ∃ n, ∀ execute owner fuel stack v m,
      Frame.run handlers execute owner k (fuel + n) ⟨c, p + 1, locals, v :: stack⟩ m =
        t.signature.answer v m := run_answer hcode hanswer
  refine ⟨n + 1, fun execute owner fuel stack heap call types values htypes hvalues => ?_⟩
  have hstep : Act.step execute handlers (.simple .methodInvoked) ⟨c, p + 1, locals,
        .array values :: .array types :: call.receiver :: .text call.method ::
          .cls call.owner :: stack⟩ { m with heap := heap } =
      (((handlers h).methodInvoked call).run execute >>= fun v =>
        pure (none, (⟨c, p + 1, locals, v :: stack⟩ : Frame))) { m with heap := heap } :=
    Frame.step_methodInvoked hs.handler htypes hvalues
  rw [← Nat.add_assoc, Frame.run_succ (hcode _ _ hinvoked)]
  refine (Run.bind_congr_left hstep).trans (Run.bind_bind_apply.trans ?_)
  exact Run.bind_congr_right fun v m' _ => hn execute owner fuel _ v m'

/-- Up to the call to the handler, a stub pushes the class, the name, the receiver and two arrays. -/
theorem Served.walks_call (hs : t.Served pool m c h) (ha : t.Handed locals args)
    (hcode : ∀ (q : Nat) i, code[q]? = some i → k.code[q]? = some i)
    (hclass : (Item.constClass t.className).Stands pool place code p)
    (hname : (Item.constString t.recordName).Stands pool place code (p + 1))
    (hreceiver : t.receiverOrNull.Stands pool place code (p + 2))
    (hnames : Laid pool place code (p + 3) (pushArray (t.signature.paramNames.map .constString)))
    (hvalues : Laid pool place code (p + 3 + (4 * t.signature.arity + 2))
      (pushArray t.pushArguments)) :
    Walks handlers k ⟨c, p, locals, stack⟩ m
      ⟨c, p + 3 + (4 * t.signature.arity + 2) + (4 * t.signature.arity + 2), locals,
        .array ⟨m.heap.arrays.size + 1⟩ :: .array ⟨m.heap.arrays.size⟩ :: t.receiverOf args ::
          .text t.recordName :: .cls c :: stack⟩
      { m with
        heap := ((m.heap.allocateArray (t.signature.paramNames.map Value.text).toArray).2.allocateArray
          (t.argumentsOf args).toArray).2 } := by
  obtain ⟨i, hi, hclass⟩ := hclass
  obtain ⟨j, hj, hname⟩ := hname
  have hstart : Walks handlers k ⟨c, p, locals, stack⟩ m
      ⟨c, p + 3, locals, t.receiverOf args :: .text t.recordName :: .cls c :: stack⟩ m := by
    refine (Frame.walks_constClass (hcode _ _ hclass) ?_).trans ?_
    · rw [hs.constants, hs.name]
      exact hi
    exact (Frame.walks_constString (hcode _ _ hname) (hs.constants ▸ hj)).trans
      (ha.pushes_receiver hcode _ _ m.heap hreceiver)
  have hsize : (m.heap.allocateArray (t.signature.paramNames.map Value.text).toArray).2.arrays.size =
      m.heap.arrays.size + 1 := Array.size_push _
  rw [← hsize]
  exact hstart.trans ((hs.walks_names hcode ha.arity_lt hnames).trans (ha.walks_values hcode hvalues))

/-- **Handlers.** At its handler block, a stub puts the names of the parameter types and the
arguments into arrays, hands the call to the handler once, and answers with what the handler
answers, as the return type has it. -/
theorem Served.run_handler (hs : t.Served pool m c h) (ha : t.Handed locals args)
    (hcode : ∀ (q : Nat) i, code[q]? = some i → k.code[q]? = some i)
    (hlaid : Laid pool place code p (.constClass t.className ::
        .constString t.recordName :: t.receiverOrNull ::
        (pushArray (t.signature.paramNames.map .constString) ++
          (pushArray t.pushArguments ++ .simple .methodInvoked :: answerBlock t.signature)))) :
    ∃ n, ∀ execute owner fuel,
      Frame.run handlers execute owner k (fuel + n) ⟨c, p, locals, stack⟩ m =
        (do
          let _ ← Run.allocateArray (t.signature.paramNames.map Value.text).toArray
          let _ ← Run.allocateArray (t.argumentsOf args).toArray
          let v ← ((handlers h).methodInvoked (t.callOf c args)).run execute
          t.signature.answer v) m := by
  obtain ⟨hclass, hname, hreceiver, hlaid⟩ := hlaid
  rw [size_receiverOrNull] at hlaid
  obtain ⟨hnames, hlaid⟩ := Item.laid_append.1 hlaid
  obtain ⟨hvalues, hinvoked, hanswer⟩ := Item.laid_append.1 hlaid
  have hlength : t.signature.paramNames.length = t.signature.arity := List.length_map _
  have hspanNames : span (pushArray (t.signature.paramNames.map .constString)) =
      4 * t.signature.arity + 2 := by
    rw [span_pushArray (List.forall_mem_map.2 fun _ _ => rfl), List.length_map, hlength]
  have hspanValues : span (pushArray t.pushArguments) = 4 * t.signature.arity + 2 := by
    rw [span_pushArray fun _ => size_of_mem_pushArguments, length_pushArguments]
  rw [hspanNames] at hvalues hinvoked hanswer
  rw [hspanValues] at hinvoked hanswer
  -- The two arrays, and the heaps behind them.
  let names := (t.signature.paramNames.map Value.text).toArray
  let heap := (m.heap.allocateArray names).2
  let heap' := (heap.allocateArray (t.argumentsOf args).toArray).2
  have hsize : heap.arrays.size = m.heap.arrays.size + 1 := Array.size_push _
  have hnamesKept : (heap'.elements ⟨m.heap.arrays.size⟩).toList =
      t.signature.paramNames.map Value.text := by
    rw [Heap.elements_allocateArray_of_lt, Heap.elements_allocateArray]
    exact hsize ▸ Nat.lt_succ_self _
  have hvaluesKept : (heap'.elements ⟨m.heap.arrays.size + 1⟩).toList = t.argumentsOf args := by
    rw [← hsize, Heap.elements_allocateArray]
  obtain ⟨n, hn⟩ := hs.walks_call ha hcode hclass hname hreceiver hnames hvalues
  obtain ⟨n', hn'⟩ := hs.run_invoked hcode hinvoked hanswer
  refine ⟨n' + n, fun execute owner fuel => ?_⟩
  rw [← Nat.add_assoc, hn]
  exact hn' execute owner fuel stack heap' (t.callOf c args) _ _ hnamesKept hvaluesKept

end Blocks

end StubTarget

end Interpose
