import Interpose.Dispatch.Handler
import Interpose.Machine.Frame
/-!
# Arrays set into a heap

Two heaps may hold the same and differ all the same in how their arrays are numbered: one of them has
arrays that nothing refers to, and the numbers of those that were made later are higher there. Such an
*inset* is told by where its arrays begin and what they hold. It takes every value over, those of
fields, elements and locals as well as those that are noted or raised: references to arrays behind the
inset move up, and all else stays what it is.

Here are the effects of an inset on all data that holds values. An inset is set into no heap that has
not come so far as where it begins; there it moves references only. Reading and writing go over with
it everywhere, and making an array does unless that is what brings the heap so far.

## Main definitions

* `Inset`, `Inset.value`
* `Inset.heap`, `Inset.table`, `Inset.machine`: the same with the arrays set in

## Main results

* `Inset.elements_heap`, `Inset.heap_setElement`, `Inset.heap_allocateArray`: arrays
* `Inset.heap_setSlot`, `Inset.heap_allocate`, `Inset.table_setStatic`: objects and classes
-/

namespace Interpose

/-- Arrays to be set into a heap: where they begin, and what they hold. They are set in once the heap
has come so far; or, if they lie ahead, once it has come farther. -/
structure Inset where
  first : Nat
  items : Array (Array Value)
  ahead : Bool := false

namespace Inset

/-- To change one item and then take all over is to take all over and then change the one. -/
theorem map_modify {α : Type} {k f g : α → α} (h : ∀ x, k (f x) = g (k x)) (xs : Array α) (i : Nat) :
    (xs.modify i f).map k = (xs.map k).modify i g := by
  refine Array.ext_getElem? fun j => ?_
  simp only [Array.getElem?_map, Array.getElem?_modify]
  split
  · rw [Option.map_map, Option.map_map]
    exact congrArg (Option.map · _) (funext h)
  · rfl

variable (s : Inset)

/-- The arrays are set into heaps with so many arrays. -/
def Placed (size : Nat) : Prop := s.first + s.ahead.toNat ≤ size

instance (size : Nat) : Decidable (s.Placed size) := Nat.decLe ..

/-! ### Values -/

/-- Arrays behind the inset move up. -/
def array (a : ArrayRef) : ArrayRef :=
  if a.index < s.first then a else ⟨a.index + s.items.size⟩

def value : Value → Value
  | .array a => .array (s.array a)
  | v => v

theorem array_inj {a b : ArrayRef} (h : s.array a = s.array b) : a = b := by
  cases a; cases b
  simp only [array] at h
  simp only [ArrayRef.mk.injEq]
  split at h <;> split at h <;> simp only [ArrayRef.mk.injEq] at h <;> omega

theorem value_inj {v w : Value} (h : s.value v = s.value w) : v = w := by
  cases v <;> cases w <;> simp only [value, Value.array.injEq, reduceCtorEq] at h ⊢ <;>
    first | exact h | exact s.array_inj h

@[simp] theorem value_zeroFor (t : TypeDesc) : s.value (.zeroFor t) = .zeroFor t := by
  cases t <;> rfl

@[simp] theorem isNull_value (v : Value) : (s.value v).isNull = v.isNull := by cases v <;> rfl

@[simp] theorem bool?_value (v : Value) : (s.value v).bool? = v.bool? := by cases v <;> rfl

@[simp] theorem int?_value (v : Value) : (s.value v).int? = v.int? := by cases v <;> rfl

@[simp] theorem long?_value (v : Value) : (s.value v).long? = v.long? := by cases v <;> rfl

@[simp] theorem double?_value (v : Value) : (s.value v).double? = v.double? := by cases v <;> rfl

@[simp] theorem text?_value (v : Value) : (s.value v).text? = v.text? := by cases v <;> rfl

theorem unbox?_value (t : TypeDesc) (v : Value) :
    (s.value v).unbox? t = (v.unbox? t).map s.value := by
  cases v <;> cases t <;> rfl

theorem equal_value (v w : Value) : (s.value v).equal (s.value w) = v.equal w := by
  have hother : (s.value v == s.value w) = (v == w) := by
    rw [Bool.eq_iff_iff, beq_iff_eq, beq_iff_eq]
    exact ⟨s.value_inj, congrArg s.value⟩
  cases v <;> cases w <;> first | rfl | exact hother

/-! ### What holds values -/

def object (x : Instance) : Instance := { x with slots := x.slots.map s.value }

def cls (k : LoadedClass) : LoadedClass :=
  { k with fieldDefaults := k.fieldDefaults.map s.value, statics := k.statics.map s.value }

def table (t : ClassTable) : ClassTable := ⟨t.classes.map s.cls⟩

def realm (r : Realm) : Realm := { r with classes := s.table r.classes }

/-- The arrays of a heap, with those of the inset among them. -/
def arrays (held : Array (Array Value)) : Array (Array Value) :=
  if s.Placed held.size then
    (held.map (·.map s.value)).extract 0 s.first ++ s.items ++
      (held.map (·.map s.value)).extract s.first held.size
  else held.map (·.map s.value)

def heap (h : Heap) : Heap := ⟨h.objects.map s.object, s.arrays h.arrays⟩

def call (call : CallRecord) : CallRecord :=
  { call with receiver := s.value call.receiver, args := call.args.map s.value }

def event : Event → Event
  | .called call => .called (s.call call)
  | .substituted shadow call => .substituted shadow (s.call call)
  | e => e

def machine (m : Machine) : Machine :=
  { m with realm := s.realm m.realm, heap := s.heap m.heap, journal := m.journal.map s.event }

def error : VmError → VmError
  | .thrown v => .thrown (s.value v)
  | e => e

def result {α : Type} (g : α → α) : Except VmError α → Except VmError α
  | .ok a => .ok (g a)
  | .error e => .error (s.error e)

def frame (f : Frame) : Frame :=
  { f with locals := f.locals.map s.value, stack := f.stack.map s.value }

def request : Request → Request
  | .newInstance cls descriptor args => .newInstance cls descriptor (args.map s.value)
  | .callVirtual receiver name descriptor args =>
    .callVirtual (s.value receiver) name descriptor (args.map s.value)
  | .callSpecial c receiver name descriptor args =>
    .callSpecial c (s.value receiver) name descriptor (args.map s.value)
  | .callStatic cls name descriptor args => .callStatic cls name descriptor (args.map s.value)
  | .callDirect call => .callDirect (s.call call)
  | .directlyOn receiver name descriptor args =>
    .directlyOn (s.value receiver) name descriptor (args.map s.value)
  | .getField receiver name => .getField (s.value receiver) name
  | .setField receiver name v => .setField (s.value receiver) name (s.value v)
  | .setStatic cls name v => .setStatic cls name (s.value v)
  | r => r

/-! ### Classes -/

section Classes

variable (t : ClassTable) (c : ClassRef)

section Class

variable (k : LoadedClass)

@[simp] theorem name_cls : (s.cls k).name = k.name := rfl

@[simp] theorem loader_cls : (s.cls k).loader = k.loader := rfl

@[simp] theorem constants_cls : (s.cls k).constants = k.constants := rfl

@[simp] theorem methods_cls : (s.cls k).methods = k.methods := rfl

@[simp] theorem state_cls : (s.cls k).state = k.state := rfl

@[simp] theorem instrumented_cls : (s.cls k).instrumented = k.instrumented := rfl

@[simp] theorem handler?_cls : (s.cls k).handler? = k.handler? := rfl

@[simp] theorem declaredMethod?_cls (name descriptor : String) :
    (s.cls k).declaredMethod? name descriptor = k.declaredMethod? name descriptor := rfl

@[simp] theorem declaredField?_cls (name : String) :
    (s.cls k).declaredField? name = k.declaredField? name := rfl

end Class

theorem cls_default : s.cls default = default := by
  have hdefaults : (default : LoadedClass).fieldDefaults.map s.value = #[] := Array.map_empty
  have hstatics : (default : LoadedClass).statics.map s.value = #[] := Array.map_empty
  rw [cls, hdefaults, hstatics]
  rfl

theorem get_table : (s.table t).get c = s.cls (t.get c) := by
  unfold ClassTable.get table
  rw [Array.getD_eq_getD_getElem?, Array.getD_eq_getD_getElem?, Array.getElem?_map]
  cases t.classes[c.index]? with
  | some k => rfl
  | none => exact s.cls_default.symm

theorem lineage_table : (s.table t).lineage c = t.lineage c := by
  rw [ClassTable.lineage, get_table]
  rfl

theorem isSubclass_table (a : ClassRef) : (s.table t).isSubclass a c = t.isSubclass a c := by
  rw [ClassTable.isSubclass, lineage_table]
  rfl

theorem resolveMethod?_table (name descriptor : String) :
    (s.table t).resolveMethod? c name descriptor = t.resolveMethod? c name descriptor := by
  simp only [ClassTable.resolveMethod?, lineage_table, get_table]
  rfl

theorem resolveField?_table (name : String) :
    (s.table t).resolveField? c name = t.resolveField? c name := by
  simp only [ClassTable.resolveField?, lineage_table, get_table]
  rfl

theorem resolveStatic?_table (name : String) :
    (s.table t).resolveStatic? c name = t.resolveStatic? c name := by
  simp only [ClassTable.resolveStatic?, lineage_table, get_table]
  rfl

theorem static?_table (slot : Nat) : (s.table t).static? c slot = (t.static? c slot).map s.value := by
  rw [ClassTable.static?, get_table]
  exact Array.getElem?_map

theorem newInstance_table : (s.table t).newInstance c = s.object (t.newInstance c) := by
  rw [ClassTable.newInstance, get_table]
  rfl

theorem table_modify {f g : LoadedClass → LoadedClass} (h : ∀ k, s.cls (f k) = g (s.cls k)) :
    s.table (t.modify c f) = (s.table t).modify c g :=
  congrArg ClassTable.mk (map_modify h t.classes c.index)

theorem table_setState (state : InitState) :
    s.table (t.setState c state) = (s.table t).setState c state :=
  s.table_modify t c fun _ => rfl

theorem table_setStatic (slot : Nat) (v : Value) :
    s.table (t.setStatic c slot v) = (s.table t).setStatic c slot (s.value v) := by
  refine s.table_modify t c fun k => ?_
  rw [cls, Array.map_setIfInBounds]
  rfl

theorem table_add (k : LoadedClass) :
    (s.table t).add (s.cls k) = ((t.add k).1, s.table (t.add k).2) := by
  unfold ClassTable.add table
  rw [Array.size_map, Array.map_push]

end Classes

/-! ### The heap -/

section Heap

variable {s}
variable {h : Heap} {a : ArrayRef} {o : ObjectRef} {v : Value}

theorem object_default (s : Inset) : s.object default = default := by
  have hslots : (default : Instance).slots.map s.value = #[] := Array.map_empty
  rw [object, hslots]
  rfl

theorem object_heap : (s.heap h).object o = s.object (h.object o) := by
  unfold Heap.object heap
  rw [Array.getD_eq_getD_getElem?, Array.getD_eq_getD_getElem?, Array.getElem?_map]
  cases h.objects[o.index]? with
  | some x => rfl
  | none => exact s.object_default.symm

theorem slot?_heap (i : Nat) : (s.heap h).slot? o i = (h.slot? o i).map s.value := by
  rw [Heap.slot?, object_heap]
  exact Array.getElem?_map

theorem heap_setSlot (i : Nat) : s.heap (h.setSlot o i v) = (s.heap h).setSlot o i (s.value v) := by
  unfold Heap.setSlot heap
  rw [map_modify]
  intro x
  rw [object, Array.map_setIfInBounds]
  rfl

theorem heap_allocate (x : Instance) :
    (s.heap h).allocate (s.object x) = ((h.allocate x).1, s.heap (h.allocate x).2) := by
  unfold Heap.allocate heap
  rw [Array.size_map, Array.map_push]

end Heap

/-! ### Arrays -/

theorem Placed.le {size : Nat} (h : s.Placed size) : s.first ≤ size :=
  Nat.le_trans (Nat.le_add_right ..) h

theorem le_of_not_placed {size : Nat} (h : ¬s.Placed size) : size ≤ s.first := by
  have hahead := s.ahead.toNat_le
  unfold Placed at h
  omega

section Arrays

variable {s} {held : Array (Array Value)}

theorem size_arrays :
    (s.arrays held).size = held.size + if s.Placed held.size then s.items.size else 0 := by
  unfold arrays
  split
  · next h =>
    have hfirst := h.le
    simp only [Array.size_append, Array.size_extract, Array.size_map]
    omega
  · exact Array.size_map

/-- In front of the inset there is what was there, then comes the inset, and then the rest. -/
theorem getElem?_arrays (h : s.Placed held.size) (i : Nat) :
    (s.arrays held)[i]? =
      if i < s.first then held[i]?.map (·.map s.value)
      else if i < s.first + s.items.size then s.items[i - s.first]?
      else held[i - s.items.size]?.map (·.map s.value) := by
  rw [arrays, if_pos h]
  simp only [Array.getElem?_append, Array.size_append, Array.size_extract, Array.size_map,
    Array.getElem?_extract, Array.getElem?_map, Nat.min_eq_left h.le, Nat.min_self, Nat.sub_zero,
    Nat.zero_add]
  grind

theorem getElem?_arrays_of_not_placed (h : ¬s.Placed held.size) (i : Nat) :
    (s.arrays held)[i]? = held[i]?.map (·.map s.value) := by
  rw [arrays, if_neg h, Array.getElem?_map]

/-- Behind a reference that has been taken over there is what was there. -/
theorem getElem?_array (a : ArrayRef) :
    (s.arrays held)[(s.array a).index]? = held[a.index]?.map (·.map s.value) := by
  by_cases h : s.Placed held.size
  · rw [getElem?_arrays h, array]
    by_cases ha : a.index < s.first
    · simp only [if_pos ha]
    · simp only [if_neg ha, Nat.add_sub_cancel]
      rw [if_neg (by omega), if_neg (by omega)]
  · rw [getElem?_arrays_of_not_placed h, array]
    by_cases ha : a.index < s.first
    · rw [if_pos ha]
    -- There is no such array, neither under the one number nor under the other.
    · have hsize := s.le_of_not_placed h
      simp only [if_neg ha]
      rw [Array.getElem?_eq_none (by omega), Array.getElem?_eq_none (by omega)]

theorem arrays_modify (a : ArrayRef) {f g : Array Value → Array Value}
    (hfg : ∀ x, (f x).map s.value = g (x.map s.value)) :
    s.arrays (held.modify a.index f) = (s.arrays held).modify (s.array a).index g := by
  have hmap : ∀ x? : Option (Array Value),
      (x?.map f).map (·.map s.value) = (x?.map (·.map s.value)).map g := by
    rintro (_ | x)
    · rfl
    · exact congrArg some (hfg x)
  have hsize : (held.modify a.index f).size = held.size := Array.size_modify
  refine Array.ext_getElem? fun i => ?_
  by_cases h : s.Placed held.size
  · simp only [getElem?_arrays (hsize.symm ▸ h), Array.getElem?_modify, getElem?_arrays h, array]
    grind
  · have hle := s.le_of_not_placed h
    simp only [getElem?_arrays_of_not_placed (hsize.symm ▸ h), Array.getElem?_modify,
      getElem?_arrays_of_not_placed h, array]
    grind

/-- One more array makes no difference, unless the inset is set in with it. -/
theorem arrays_push (h : s.Placed (held.size + 1) → s.Placed held.size) (x : Array Value) :
    s.arrays (held.push x) = (s.arrays held).push (x.map s.value) := by
  have hsize : (held.push x).size = held.size + 1 := Array.size_push x
  refine Array.ext_getElem? fun i => ?_
  by_cases hplaced : s.Placed held.size
  · have hplaced' : s.Placed (held.push x).size := by
      rw [hsize]
      exact Nat.le_succ_of_le hplaced
    have hfirst := hplaced.le
    simp only [getElem?_arrays hplaced', Array.getElem?_push, getElem?_arrays hplaced, size_arrays,
      if_pos hplaced]
    grind
  · have hplaced' : ¬s.Placed (held.push x).size := hsize ▸ mt h hplaced
    simp only [getElem?_arrays_of_not_placed hplaced', Array.getElem?_push,
      getElem?_arrays_of_not_placed hplaced, size_arrays, if_neg hplaced]
    grind

end Arrays

section Elements

variable {s} {h : Heap} {a : ArrayRef} {v : Value}

theorem elements_heap : (s.heap h).elements (s.array a) = (h.elements a).map s.value := by
  unfold Heap.elements
  rw [Array.getD_eq_getD_getElem?, Array.getD_eq_getD_getElem?, heap, getElem?_array]
  cases h.arrays[a.index]? with
  | some x => rfl
  | none => exact Array.map_empty.symm

theorem position?_heap (i : Int32) : (s.heap h).position? (s.array a) i = h.position? a i := by
  rw [Heap.position?, elements_heap, Array.size_map]
  rfl

theorem element?_heap (i : Int32) :
    (s.heap h).element? (s.array a) i = (h.element? a i).map s.value := by
  rw [Heap.element?, position?_heap, elements_heap, Heap.element?]
  cases h.position? a i with
  | some p => exact Array.getElem?_map
  | none => rfl

theorem heap_setElement (p : Nat) :
    s.heap (h.setElement a p v) = (s.heap h).setElement (s.array a) p (s.value v) := by
  have harrays : s.arrays (h.arrays.modify a.index (·.setIfInBounds p v)) =
      (s.arrays h.arrays).modify (s.array a).index (·.setIfInBounds p (s.value v)) :=
    arrays_modify a fun _ => Array.map_setIfInBounds
  rw [Heap.setElement, heap, harrays]
  rfl

/-- A new array gets the number that the inset makes of its number. -/
theorem heap_allocateArray (hplaced : s.Placed (h.arrays.size + 1) → s.Placed h.arrays.size)
    (items : Array Value) :
    (s.heap h).allocateArray (items.map s.value) =
      (s.array (h.allocateArray items).1, s.heap (h.allocateArray items).2) := by
  unfold Heap.allocateArray
  have hnew : s.array ⟨h.arrays.size⟩ = ⟨(s.heap h).arrays.size⟩ := by
    rw [array, heap, size_arrays]
    by_cases hp : s.Placed h.arrays.size
    · rw [if_neg (Nat.not_lt.2 hp.le), if_pos hp]
    · rw [if_pos (Nat.lt_of_succ_le (s.le_of_not_placed (mt hplaced hp))), if_neg hp]
      rfl
  rw [hnew]
  exact congrArg (fun arrays => (_, Heap.mk _ arrays)) (arrays_push hplaced items).symm

end Elements

/-! ### Values as text -/

theorem typeName_value (t : ClassTable) (h : Heap) (v : Value) :
    (s.value v).typeName (s.table t) (s.heap h) = v.typeName t h := by
  cases v with
  | object o =>
    show ((s.table t).get ((s.heap h).object o).cls).name = _
    rw [get_table, object_heap]
    rfl
  | _ => rfl

/-- An array shows how many items it has, and not its number. -/
theorem display_value (t : ClassTable) (h : Heap) (v : Value) :
    (s.value v).display (s.table t) (s.heap h) = v.display t h := by
  cases v with
  | object o =>
    simp only [value, Value.display, get_table, object_heap]
    rfl
  | array a => simp only [value, Value.display, elements_heap, Array.size_map]
  | cls c =>
    simp only [value, Value.display, get_table]
    rfl
  | bool b => cases b <;> rfl
  | _ => rfl

/-! ### Machines -/

section Machine

variable (m : Machine)

theorem classes_machine : (s.machine m).classes = s.table m.classes := rfl

theorem cls_machine (c : ClassRef) : (s.machine m).cls c = s.cls (m.cls c) := s.get_table m.classes c

theorem classOf_machine (o : ObjectRef) : (s.machine m).classOf o = m.classOf o := by
  unfold Machine.classOf machine
  rw [object_heap]
  rfl

section Call

variable (call : CallRecord)

@[simp] theorem owner_call : (s.call call).owner = call.owner := rfl

@[simp] theorem method_call : (s.call call).method = call.method := rfl

@[simp] theorem paramTypes_call : (s.call call).paramTypes = call.paramTypes := rfl

end Call

theorem directMethod?_table (call : CallRecord) (t : ClassTable) :
    (s.call call).directMethod? (s.table t) = call.directMethod? t := by
  simp only [CallRecord.directMethod?, CallRecord.directName, get_table]
  rfl

theorem targetsNative_table (call : CallRecord) (t : ClassTable) :
    (s.call call).targetsNative (s.table t) = call.targetsNative t := by
  simp only [CallRecord.targetsNative, directMethod?_table, get_table]
  rfl

end Machine

end Inset

end Interpose
