import Interpose.Proofs.Assembling
import Interpose.Proofs.Executions
/-!
# Walks

A body *walks* from one frame on one machine to another if it gets there in a certain number of
steps, none of which executes a method. What comes behind does not matter, so walks can be put
together, and whatever the body comes to, it comes to from either end.

Walks are for code of which every instruction is known. There is a lemma for each instruction that a
stub is made of; the instructions that name a class or a field are taken to name those of the frame's
own class, which is there already.

## Main definitions

* `Frame.Walks`
* `Machine.holds`
-/

namespace Interpose

/-! ### Computations that succeed -/

section Success

variable {α β : Type} {m m' : Machine} {f f' : Frame} {a : α}

theorem Run.bind_of_ok {x : Run α} {g : α → Run β} (h : x m = some (.ok a, m')) :
    (x >>= g) m = g a m' := by
  rw [Run.bind_apply, h]

theorem Act.bind_of_ok {x : Act α} {g : α → Act β} (h : x f m = some (.ok (a, f'), m')) :
    (x >>= g) f m = g a f' m' := by
  show (x f >>= fun p => g p.1 p.2) m = g a f' m'
  rw [Run.bind_of_ok h]

theorem Act.lift_of_ok {x : Run α} (h : x m = some (.ok a, m')) :
    (liftM x : Act α) f m = some (.ok (a, f), m') := by
  show (x >>= fun a => pure (a, f)) m = _
  rw [Run.bind_of_ok h]
  rfl

/-- Where one computation and the next succeed, there is a machine in between. -/
theorem Run.bind_eq_ok {x : Run α} {g : α → Run β} {b : β} (h : (x >>= g) m = some (.ok b, m')) :
    ∃ a n, x m = some (.ok a, n) ∧ g a n = some (.ok b, m') := by
  rw [Run.bind_apply] at h
  rcases hx : x m with _ | ⟨_ | a, n⟩ <;> rw [hx] at h
  · cases h
  · cases h
  · exact ⟨a, n, rfl, h⟩

end Success

/-! ### Computations that fail -/

section Failure

variable {α β : Type} {m m' : Machine} {f : Frame} {e : VmError}

theorem Run.bind_of_error {x : Run α} {g : α → Run β} (h : x m = some (.error e, m')) :
    (x >>= g) m = some (.error e, m') := by
  rw [Run.bind_apply, h]

theorem Act.bind_of_error {x : Act α} {g : α → Act β} (h : x f m = some (.error e, m')) :
    (x >>= g) f m = some (.error e, m') :=
  Run.bind_of_error h

end Failure

/-! ### What comes behind -/

section Rest

variable {α β γ : Type} {m m' : Machine} {f : Frame}

/-- What comes behind two computations that come to the same. -/
theorem Run.bind_congr_left {x y : Run α} {g : α → Run β} (h : x m = y m) :
    (x >>= g) m = (y >>= g) m := by
  rw [Run.bind_apply, Run.bind_apply, h]

/-- What comes behind a computation, looked at where the computation ends. -/
theorem Run.bind_congr_right {x : Run α} {g g' : α → Run β}
    (h : ∀ a m', x m = some (.ok a, m') → g a m' = g' a m') : (x >>= g) m = (x >>= g') m := by
  rw [Run.bind_apply, Run.bind_apply]
  rcases hx : x m with _ | ⟨_ | a, m'⟩
  · rfl
  · rfl
  · exact h a m' hx

theorem Run.bind_bind_apply {x : Run α} {g : α → Run β} {k : β → Run γ} :
    (x >>= g >>= k) m = (x >>= fun a => g a >>= k) m := by
  rw [Run.bind_apply, Run.bind_apply, Run.bind_apply]
  rcases x m with _ | ⟨_ | a, m'⟩
  · rfl
  · rfl
  · exact (Run.bind_apply m' (g a) k).symm

/-- A computation of the machine, inside a frame, and what comes behind. -/
theorem Act.lift_bind_apply {x : Run α} {g : α → Act β} :
    (liftM x >>= g) f m = (x >>= fun a => g a f) m :=
  Run.bind_bind_apply

end Rest

/-- Nothing is loaded to find a class by its own name. -/
theorem Run.resolveClass_self {c : ClassRef} {name : String} {m : Machine}
    (h : (m.cls c).name = name) : Run.resolveClass c name m = some (.ok c, m) := by
  show (if (m.cls c).name = name then pure c
    else if m.realm.hasLiveLoader c then Run.loadThrough (m.cls c).loader name
    else Run.loadThrough m.entry name : Run ClassRef) m = _
  rw [if_pos h]
  rfl

/-- An object is taken off the stack, to go on with. -/
theorem Act.pop_object {α : Type} {c : ClassRef} {p : Nat} {locals stack : List Value}
    {o : ObjectRef} {m : Machine} (next : ObjectRef → Act α) :
    (do next (← Run.asObject (← Act.pop))) ⟨c, p, locals, .object o :: stack⟩ m =
      next o ⟨c, p, locals, stack⟩ m := by
  have hpop : Act.pop ⟨c, p, locals, .object o :: stack⟩ m =
      some (.ok (.object o, ⟨c, p, locals, stack⟩), m) := rfl
  have hobject : Run.asObject (.object o) m = some (.ok o, m) := rfl
  exact (Act.bind_of_ok hpop).trans (Act.bind_of_ok (Act.lift_of_ok hobject))

theorem Run.getSlot_of_some {o : ObjectRef} {slot : Nat} {v : Value} {m : Machine}
    (h : m.heap.slot? o slot = some v) : Run.getSlot o slot m = some (.ok v, m) := by
  unfold Run.getSlot
  rw [Run.get_bind_apply, h]
  rfl

theorem Run.setSlot_of_some {o : ObjectRef} {slot : Nat} {v w : Value} {m : Machine}
    (h : m.heap.slot? o slot = some w) :
    Run.setSlot o slot v m = some (.ok (), { m with heap := m.heap.setSlot o slot v }) := by
  unfold Run.setSlot
  rw [Run.get_bind_apply, h]
  rfl

theorem Run.resolveMethod_of_some {c : ClassRef} {owner name descriptor : String}
    {found : ClassRef × Nat} {m : Machine}
    (h : m.classes.resolveMethod? c name descriptor = some found) :
    Run.resolveMethod c owner name descriptor m = some (.ok found, m) := by
  unfold Run.resolveMethod
  rw [Run.get_bind_apply, h]
  rfl

/-- Whether a value is an instance of a class. -/
def Machine.holds (m : Machine) (c : ClassRef) : Value → Bool
  | .object o => m.classes.isSubclass (m.classOf o) c
  | _ => false

/-! ### The array added last -/

namespace Heap

variable (h : Heap) (items : Array Value)

theorem elements_allocateArray :
    (h.allocateArray items).2.elements ⟨h.arrays.size⟩ = items := by
  show (h.arrays.push items).getD h.arrays.size #[] = items
  rw [Array.getD_eq_getD_getElem?, Array.getElem?_push_size]
  rfl

theorem position?_allocateArray {q : Nat} (hq : q < items.size) (hlt : q < 0x80000000) :
    (h.allocateArray items).2.position? ⟨h.arrays.size⟩ (Int32.ofNat q) = some q := by
  have htoInt : (Int32.ofNat q).toInt = q := Int32.toInt_ofNat_of_lt hlt
  unfold position?
  rw [elements_allocateArray, htoInt, Int.toNat_natCast, if_pos ⟨Int.natCast_nonneg q, hq⟩]

/-- An array stays as it is when another is added. -/
theorem elements_allocateArray_of_lt {a : ArrayRef} (ha : a.index < h.arrays.size) :
    (h.allocateArray items).2.elements a = h.elements a := by
  show (h.arrays.push items).getD a.index #[] = h.arrays.getD a.index #[]
  rw [Array.getD_eq_getD_getElem?, Array.getD_eq_getD_getElem?, Array.getElem?_push,
    if_neg (Nat.ne_of_lt ha)]

/-- Writing to the new array is as good as allocating what it then holds. -/
theorem setElement_allocateArray (q : Nat) (v : Value) :
    (h.allocateArray items).2.setElement ⟨h.arrays.size⟩ q v =
      (h.allocateArray (items.setIfInBounds q v)).2 := by
  have hmodify : (h.arrays.push items).modify h.arrays.size (fun x => x.setIfInBounds q v) =
      h.arrays.push (items.setIfInBounds q v) := by
    refine Array.ext_getElem? fun i => ?_
    rw [Array.getElem?_modify, Array.getElem?_push, Array.getElem?_push]
    by_cases hi : i = h.arrays.size
    · rw [if_pos hi.symm, if_pos hi, if_pos hi]
      rfl
    · rw [if_neg (Ne.symm hi), if_neg hi, if_neg hi]
  show ({ h with arrays := (h.arrays.push items).modify h.arrays.size _ } : Heap) = _
  rw [hmodify]
  rfl

end Heap

namespace Act

variable {f : Frame} {m : Machine}

theorem currentClass_apply (f : Frame) (m : Machine) :
    currentClass f m = some (.ok (m.cls f.cls, f), m) := rfl

theorem constant_of_some {α : Type} {table : PoolTable} {index : UInt32}
    {find : Pool → UInt32 → Option α} {a : α} (h : find (m.cls f.cls).constants index = some a) :
    constant table index find f m = some (.ok (a, f), m) := by
  refine (bind_of_ok (currentClass_apply f m)).trans ?_
  rw [h]
  rfl

/-- The class that an entry of the pool names, if it is the class of the frame. -/
theorem classConstant_of_some {index : UInt32}
    (h : (m.cls f.cls).constants.class? index = some (m.cls f.cls).name) :
    classConstant index f m = some (.ok (f.cls, f), m) := by
  refine (bind_of_ok (constant_of_some h)).trans ?_
  exact (bind_of_ok (a := f) rfl).trans (lift_of_ok (Run.resolveClass_self rfl))

/-- The slot of the field that an entry of the pool names, if it is a field of the frame's class. -/
theorem fieldConstant_of_some {index : UInt32} {name : String} {slot : Nat}
    (h : (m.cls f.cls).constants.field? index = some ⟨(m.cls f.cls).name, name⟩)
    (hslot : m.classes.resolveField? f.cls name = some slot) :
    fieldConstant index f m = some (.ok (slot, f), m) := by
  have hresolve : Run.resolveField f.cls (m.cls f.cls).name name m = some (.ok slot, m) := by
    unfold Run.resolveField
    rw [Run.get_bind_apply, hslot]
    rfl
  have hclass : (liftM (Run.resolveClass f.cls (m.cls f.cls).name) : Act ClassRef) f m =
      some (.ok (f.cls, f), m) := lift_of_ok (Run.resolveClass_self rfl)
  refine (bind_of_ok (constant_of_some h)).trans ?_
  refine (bind_of_ok (a := f) rfl).trans ?_
  exact (bind_of_ok hclass).trans (lift_of_ok hresolve)

theorem handler_of_some {handlers : Handlers} {h : HandlerRef}
    (hh : (m.cls f.cls).handler? = some h) :
    handler handlers f m = some (.ok (handlers h, f), m) := by
  refine (bind_of_ok (currentClass_apply f m)).trans ?_
  rw [hh]
  rfl

end Act

namespace Frame

/-- From one frame on one machine, a body gets to another, whatever comes behind. -/
def Walks (handlers : Handlers) (k : LoadedMethod) (f : Frame) (m : Machine) (f' : Frame)
    (m' : Machine) : Prop :=
  ∃ n, ∀ execute owner fuel,
    Frame.run handlers execute owner k (fuel + n) f m = Frame.run handlers execute owner k fuel f' m'

variable {handlers : Handlers} {k : LoadedMethod} {f f' f'' : Frame} {m m' m'' : Machine}

theorem Walks.refl (f : Frame) (m : Machine) : Walks handlers k f m f m :=
  ⟨0, fun _ _ _ => rfl⟩

theorem Walks.trans (h : Walks handlers k f m f' m') (h' : Walks handlers k f' m' f'' m'') :
    Walks handlers k f m f'' m'' := by
  obtain ⟨n, hn⟩ := h
  obtain ⟨n', hn'⟩ := h'
  refine ⟨n' + n, fun execute owner fuel => ?_⟩
  rw [← Nat.add_assoc, hn, hn']

theorem run_succ {execute : Execute} {owner : String} {fuel : Nat} {i : Instruction}
    (hi : k.code[f.pc]? = some i) :
    Frame.run handlers execute owner k (fuel + 1) f = (do
      match ← (Act.step execute handlers i).run { f with pc := f.pc + 1 } with
      | (some result, _) => return result
      | (none, f) => Frame.run handlers execute owner k fuel f) := by
  rw [Frame.run]
  split
  · next hnone => cases hnone.symm.trans hi
  · next hsome =>
    cases hsome.symm.trans hi
    rfl

/-- An instruction without an answer that executes no method. -/
theorem Walks.step {i : Instruction} (hi : k.code[f.pc]? = some i)
    (h : ∀ execute, Act.step execute handlers i { f with pc := f.pc + 1 } m =
      some (.ok (none, f'), m')) : Walks handlers k f m f' m' := by
  refine ⟨1, fun execute owner fuel => ?_⟩
  rw [run_succ hi]
  exact (Run.bind_of_ok (h execute)).trans rfl

/-! ### Instructions -/

section Instructions

open Act (bind_of_ok lift_of_ok)

variable {c : ClassRef} {p : Nat} {locals stack : List Value} {v w : Value}

theorem walks_loadLocal {slot : UInt16} (hi : k.code[p]? = some (.loadLocal slot))
    (hv : locals[slot.toNat]? = some v) :
    Walks handlers k ⟨c, p, locals, stack⟩ m ⟨c, p + 1, locals, v :: stack⟩ m := by
  have hread : Act.readLocal slot ⟨c, p + 1, locals, stack⟩ m =
      some (.ok (v, ⟨c, p + 1, locals, stack⟩), m) := by
    rw [Act.readLocal_of_some hv]
    rfl
  exact Walks.step hi fun _ => (bind_of_ok hread).trans rfl

theorem walks_constNull (hi : k.code[p]? = some (.simple .constNull)) :
    Walks handlers k ⟨c, p, locals, stack⟩ m ⟨c, p + 1, locals, .null :: stack⟩ m :=
  Walks.step hi fun _ => rfl

theorem walks_constInt {n : Int32} (hi : k.code[p]? = some (.constInt n)) :
    Walks handlers k ⟨c, p, locals, stack⟩ m ⟨c, p + 1, locals, .int n :: stack⟩ m :=
  Walks.step hi fun _ => rfl

theorem walks_dup (hi : k.code[p]? = some (.simple .dup)) :
    Walks handlers k ⟨c, p, locals, v :: stack⟩ m ⟨c, p + 1, locals, v :: v :: stack⟩ m :=
  Walks.step hi fun _ => rfl

theorem walks_jump {target : Nat} (hi : k.code[p]? = some (.jump .always target)) :
    Walks handlers k ⟨c, p, locals, stack⟩ m ⟨c, target, locals, stack⟩ m :=
  Walks.step hi fun _ => rfl

theorem walks_ifTrue {target : Nat} {b : Bool} (hi : k.code[p]? = some (.jump .ifTrue target)) :
    Walks handlers k ⟨c, p, locals, .bool b :: stack⟩ m
      ⟨c, if b then target else p + 1, locals, stack⟩ m := by
  refine Walks.step hi fun execute => ?_
  cases b <;> rfl

theorem walks_ifFalse {target : Nat} {b : Bool} (hi : k.code[p]? = some (.jump .ifFalse target)) :
    Walks handlers k ⟨c, p, locals, .bool b :: stack⟩ m
      ⟨c, if b then p + 1 else target, locals, stack⟩ m := by
  refine Walks.step hi fun execute => ?_
  cases b <;> rfl

theorem walks_constString {index : UInt32} {s : String}
    (hi : k.code[p]? = some (.constString index))
    (hs : (m.cls c).constants.string? index = some s) :
    Walks handlers k ⟨c, p, locals, stack⟩ m ⟨c, p + 1, locals, .text s :: stack⟩ m :=
  Walks.step hi fun _ => (bind_of_ok (Act.constant_of_some hs)).trans rfl

theorem walks_constClass {index : UInt32} (hi : k.code[p]? = some (.constClass index))
    (h : (m.cls c).constants.class? index = some (m.cls c).name) :
    Walks handlers k ⟨c, p, locals, stack⟩ m ⟨c, p + 1, locals, .cls c :: stack⟩ m :=
  Walks.step hi fun _ =>
    (bind_of_ok (Act.classConstant_of_some (f := ⟨c, p + 1, locals, stack⟩) h)).trans rfl

/-! ### Objects -/

theorem walks_getField {index : UInt32} {name : String} {slot : Nat} {o : ObjectRef}
    (hi : k.code[p]? = some (.field .get index))
    (h : (m.cls c).constants.field? index = some ⟨(m.cls c).name, name⟩)
    (hslot : m.classes.resolveField? c name = some slot) (hv : m.heap.slot? o slot = some v) :
    Walks handlers k ⟨c, p, locals, .object o :: stack⟩ m ⟨c, p + 1, locals, v :: stack⟩ m := by
  refine Walks.step hi fun execute => (bind_of_ok (a := ()) ?_).trans rfl
  refine (bind_of_ok (Act.fieldConstant_of_some h hslot)).trans ((Act.pop_object _).trans ?_)
  exact bind_of_ok (lift_of_ok (Run.getSlot_of_some hv))

theorem walks_putField {index : UInt32} {name : String} {slot : Nat} {o : ObjectRef}
    (hi : k.code[p]? = some (.field .put index))
    (h : (m.cls c).constants.field? index = some ⟨(m.cls c).name, name⟩)
    (hslot : m.classes.resolveField? c name = some slot) (hw : m.heap.slot? o slot = some w) :
    Walks handlers k ⟨c, p, locals, v :: .object o :: stack⟩ m ⟨c, p + 1, locals, stack⟩
      { m with heap := m.heap.setSlot o slot v } := by
  refine Walks.step hi fun execute => (bind_of_ok (a := ()) ?_).trans rfl
  refine (bind_of_ok (Act.fieldConstant_of_some h hslot)).trans ((bind_of_ok rfl).trans ?_)
  exact (Act.pop_object _).trans (lift_of_ok (Run.setSlot_of_some hw))

theorem walks_instanceOf {index : UInt32} (hi : k.code[p]? = some (.instanceOf index))
    (h : (m.cls c).constants.class? index = some (m.cls c).name) :
    Walks handlers k ⟨c, p, locals, v :: stack⟩ m
      ⟨c, p + 1, locals, .bool (m.holds c v) :: stack⟩ m := by
  refine Walks.step hi fun execute => (bind_of_ok (a := ()) ?_).trans rfl
  cases v with
  | object o =>
    have hpop : Act.pop ⟨c, p + 1, locals, .object o :: stack⟩ m =
        some (.ok (.object o, ⟨c, p + 1, locals, stack⟩), m) := rfl
    exact (bind_of_ok hpop).trans ((bind_of_ok (Act.classConstant_of_some h)).trans rfl)
  | null | bool | int | long | double | text | array | cls => rfl

/-! ### Handlers -/

theorem walks_shouldCallDirectly {h : HandlerRef}
    (hi : k.code[p]? = some (.simple .shouldCallDirectly)) (hh : (m.cls c).handler? = some h) :
    Walks handlers k ⟨c, p, locals, v :: stack⟩ m
      ⟨c, p + 1, locals, .bool ((handlers h).callsDirectly m v) :: stack⟩ m := by
  refine Walks.step hi fun execute => (bind_of_ok (a := ()) ?_).trans rfl
  have hpop : Act.pop ⟨c, p + 1, locals, v :: stack⟩ m =
      some (.ok (v, ⟨c, p + 1, locals, stack⟩), m) := rfl
  exact (bind_of_ok hpop).trans ((bind_of_ok (Act.handler_of_some hh)).trans rfl)

/-- A call record is read off the stack and handed to the handler. -/
theorem step_methodInvoked {execute : Execute} {h : HandlerRef} {call : CallRecord}
    {types args : ArrayRef} (hh : (m.cls c).handler? = some h)
    (htypes : (m.heap.elements types).toList = call.paramTypes.map .text)
    (hargs : (m.heap.elements args).toList = call.args) :
    Act.step execute handlers (.simple .methodInvoked) ⟨c, p, locals, .array args :: .array types ::
        call.receiver :: .text call.method :: .cls call.owner :: stack⟩ m =
      (((handlers h).methodInvoked call).run execute >>= fun v =>
        pure (none, (⟨c, p, locals, v :: stack⟩ : Frame))) m := by
  have hnames : (call.paramTypes.map Value.text).mapM Value.text? = some call.paramTypes := by
    induction call.paramTypes with
    | nil => rfl
    | cons s names ih =>
      rw [List.map_cons, List.mapM_cons, ih]
      rfl
  have hrecord : Act.popRecord ⟨c, p, locals, .array args :: .array types :: call.receiver ::
      .text call.method :: .cls call.owner :: stack⟩ m =
        some (.ok (call, ⟨c, p, locals, stack⟩), m) := by
    show (Act.recordPart .paramTypeName ((m.heap.elements types).toList.mapM Value.text?) >>=
      fun names => do
        let args ← Act.elements (← Act.recordPart .arguments (Act.array? (.array args)))
        return (⟨call.owner, call.method, call.receiver, names, args⟩ : CallRecord) : Act CallRecord)
      ⟨c, p, locals, stack⟩ m = _
    rw [htypes, hnames]
    show some (Except.ok ((⟨call.owner, call.method, call.receiver, call.paramTypes,
      (m.heap.elements args).toList⟩ : CallRecord), (⟨c, p, locals, stack⟩ : Frame)), m) = _
    rw [hargs]
  have hinvoked : Act.methodInvoked execute handlers ⟨c, p, locals, .array args :: .array types ::
      call.receiver :: .text call.method :: .cls call.owner :: stack⟩ m =
        (((handlers h).methodInvoked call).run execute >>= fun v =>
          pure ((), (⟨c, p, locals, v :: stack⟩ : Frame))) m := by
    refine (bind_of_ok hrecord).trans ((bind_of_ok (Act.handler_of_some hh)).trans ?_)
    exact Act.lift_bind_apply.trans (Run.bind_congr_right fun v m' _ => rfl)
  refine (Run.bind_congr_left hinvoked).trans (Run.bind_bind_apply.trans ?_)
  exact Run.bind_congr_right fun v m' _ => rfl

/-! ### Arrays -/

theorem walks_newArray {n : Nat} (hi : k.code[p]? = some (.simple .newArray)) (hn : n < 0x80000000) :
    Walks handlers k ⟨c, p, locals, .int (Int32.ofNat n) :: stack⟩ m
      ⟨c, p + 1, locals, .array ⟨m.heap.arrays.size⟩ :: stack⟩
      { m with heap := (m.heap.allocateArray (Array.replicate n .null)).2 } := by
  have htoInt : (Int32.ofNat n).toInt = n := Int32.toInt_ofNat_of_lt hn
  have hnonneg : ¬Int32.ofNat n < 0 := by
    rw [Int32.lt_iff_toInt_lt, htoInt]
    exact Int.not_lt.2 (Int.natCast_nonneg n)
  have htoNat : (Int32.ofNat n).toInt.toNat = n := by rw [htoInt, Int.toNat_natCast]
  refine Walks.step hi fun execute => (bind_of_ok (a := ()) ?_).trans rfl
  show (if Int32.ofNat n < 0 then (Act.fail _ : Act Unit)
    else do Act.push (← Run.allocateArray (Array.replicate (Int32.ofNat n).toInt.toNat .null)))
      ⟨c, p + 1, locals, stack⟩ m = _
  rw [if_neg hnonneg, htoNat]
  rfl

theorem walks_arrayStore {a : ArrayRef} {i : Int32} {q : Nat}
    (hi : k.code[p]? = some (.simple .arrayStore)) (hq : m.heap.position? a i = some q) :
    Walks handlers k ⟨c, p, locals, v :: .int i :: .array a :: stack⟩ m ⟨c, p + 1, locals, stack⟩
      { m with heap := m.heap.setElement a q v } := by
  refine Walks.step hi fun execute => (bind_of_ok (a := ()) ?_).trans rfl
  refine (lift_of_ok (a := ()) (x := Run.setElement a i v) ?_)
  unfold Run.setElement
  rw [Run.get_bind_apply, hq]
  rfl

/-! ### Conversions -/

theorem run_pop {execute : Execute} {owner : String} {fuel : Nat}
    (hi : k.code[p]? = some (.simple .pop)) :
    Frame.run handlers execute owner k (fuel + 1) ⟨c, p, locals, v :: stack⟩ m =
      Frame.run handlers execute owner k fuel ⟨c, p + 1, locals, stack⟩ m := by
  rw [run_succ hi]
  rfl

theorem run_unbox {execute : Execute} {owner : String} {fuel : Nat} {tag : UInt8} {t : TypeDesc}
    (hi : k.code[p]? = some (.unbox tag)) (ht : TypeDesc.ofTag? tag = some t) :
    Frame.run handlers execute owner k (fuel + 1) ⟨c, p, locals, v :: stack⟩ m =
      (Run.unbox t v >>= fun w =>
        Frame.run handlers execute owner k fuel ⟨c, p + 1, locals, w :: stack⟩) m := by
  have hstep : Act.step execute handlers (.unbox tag) ⟨c, p + 1, locals, v :: stack⟩ m =
      (Run.unbox t v >>= fun w =>
        pure (none, (⟨c, p + 1, locals, w :: stack⟩ : Frame))) m := by
    unfold Act.step
    dsimp only
    rw [ht]
    have hpop : Act.pop ⟨c, p + 1, locals, v :: stack⟩ m =
        some (.ok (v, ⟨c, p + 1, locals, stack⟩), m) := rfl
    refine (bind_of_ok hpop).trans (Act.lift_bind_apply.trans ?_)
    exact Run.bind_congr_right fun w m' _ => rfl
  rw [run_succ hi]
  refine (Run.bind_congr_left hstep).trans (Run.bind_bind_apply.trans ?_)
  exact Run.bind_congr_right fun w m' _ => rfl

/-! ### Calls and returns -/

theorem run_ret {execute : Execute} {owner : String} {fuel : Nat}
    (hi : k.code[p]? = some (.simple .ret)) :
    Frame.run handlers execute owner k (fuel + 1) ⟨c, p, locals, v :: stack⟩ m =
      some (.ok v, m) := by
  rw [run_succ hi]
  rfl

theorem run_retVoid {execute : Execute} {owner : String} {fuel : Nat}
    (hi : k.code[p]? = some (.simple .retVoid)) :
    Frame.run handlers execute owner k (fuel + 1) ⟨c, p, locals, stack⟩ m =
      some (.ok .null, m) := by
  rw [run_succ hi]
  rfl

theorem popCall_of_parse {kind : CallKind} {descriptor : String} {signature : MethodDesc}
    {args : List Value} (hd : MethodDesc.parse descriptor = .ok signature)
    (hlen : args.length = signature.arity + kind.hasReceiver.toNat) :
    Act.popCall kind descriptor ⟨c, p, locals, args.reverse ++ stack⟩ m =
      some (.ok (args, ⟨c, p, locals, stack⟩), m) := by
  have hlen' : args.reverse.length = signature.arity + kind.hasReceiver.toNat := by
    rw [List.length_reverse, hlen]
  unfold Act.popCall
  rw [hd]
  dsimp only
  rw [Act.popMany_of_le, ← hlen']
  · show some (Except.ok (((args.reverse ++ stack).take args.reverse.length).reverse,
      (⟨c, p, locals, (args.reverse ++ stack).drop args.reverse.length⟩ : Frame)), m) = _
    rw [List.take_left, List.drop_left, List.reverse_reverse]
  · show signature.arity + kind.hasReceiver.toNat ≤ (args.reverse ++ stack).length
    rw [List.length_append, hlen']
    exact Nat.le_add_right _ _

/-- A class whose initialization has begun is not initialized again. -/
theorem initializeClass_of_begun {execute : Execute} (h : (m.cls c).state ≠ .uninitialized) :
    Run.initializeClass execute c m = some (.ok (), m) := by
  show Run.initializeLineage execute (c :: (m.cls c).ancestors) m = _
  rw [Run.initializeLineage, Run.bind_apply, Run.get_apply]
  dsimp only
  cases hs : (m.cls c).state with
  | uninitialized => exact absurd hs h
  | initializing => rfl
  | initialized => rfl

/-- The method that a call means, if it is one of the frame's own class or of its superclasses. A call
of a static method finds the class's initialization begun. -/
theorem callTarget_of_some {execute : Execute} {kind : CallKind} {ref : MethodRef}
    {args : List Value} {found : ClassRef × Nat} (howner : ref.owner = (m.cls f.cls).name)
    (hname : ref.name ≠ constructorName)
    (hfound : m.classes.resolveMethod? f.cls ref.name ref.descriptor = some found)
    (hkind : kind = .special ∧ (∃ o, args.head? = some (.object o)) ∨
      kind = .static ∧ (m.cls f.cls).state ≠ .uninitialized) :
    Act.callTarget execute kind ref args f m = some (.ok (found, f), m) := by
  have hclass : (liftM (Run.resolveClass f.cls ref.owner) : Act ClassRef) f m =
      some (.ok (f.cls, f), m) := lift_of_ok (Run.resolveClass_self howner.symm)
  have hmethod : (liftM (Run.resolveMethod f.cls ref.owner ref.name ref.descriptor) :
      Act (ClassRef × Nat)) f m = some (.ok (found, f), m) := by
    exact lift_of_ok (Run.resolveMethod_of_some hfound)
  rcases hkind with ⟨rfl, o, ho⟩ | ⟨rfl, hbegun⟩
  · have hreceiver : (liftM (Run.asObject (args.headD .null)) : Act ObjectRef) f m =
        some (.ok (o, f), m) := by
      cases args with
      | nil => exact nomatch ho
      | cons v rest =>
        cases ho
        rfl
    refine (bind_of_ok hreceiver).trans ?_
    refine (bind_of_ok (a := f) rfl).trans ((bind_of_ok hclass).trans ?_)
    show (if ref.name = constructorName then _ else _ : Act (ClassRef × Nat)) f m = _
    rw [if_neg hname]
    exact hmethod
  · refine (bind_of_ok (a := f) rfl).trans ((bind_of_ok hclass).trans ?_)
    exact (bind_of_ok (lift_of_ok (initializeClass_of_begun hbegun))).trans hmethod

/-- A call whose target is known executes it and keeps the result, if there is one. -/
theorem step_invoke {execute : Execute} {kind : CallKind} {index : UInt32} {ref : MethodRef}
    {signature : MethodDesc} {args : List Value} {owner : ClassRef} {i : Nat}
    (href : (m.cls c).constants.method? index = some ref)
    (hd : MethodDesc.parse ref.descriptor = .ok signature)
    (hlen : args.length = signature.arity + kind.hasReceiver.toNat)
    (htarget : Act.callTarget execute kind ref args ⟨c, p, locals, stack⟩ m =
      some (.ok ((owner, i), ⟨c, p, locals, stack⟩), m)) :
    Act.step execute handlers (.invoke kind index) ⟨c, p, locals, args.reverse ++ stack⟩ m =
      (execute owner i args >>= fun v => pure (none,
        (⟨c, p, locals, if signature.ret.isVoid then stack else v :: stack⟩ : Frame))) m := by
  have hinvoke : Act.invoke execute kind index ⟨c, p, locals, args.reverse ++ stack⟩ m =
      (execute owner i args >>= fun v => pure ((),
        (⟨c, p, locals, if signature.ret.isVoid then stack else v :: stack⟩ : Frame))) m := by
    refine (bind_of_ok (Act.constant_of_some href)).trans ?_
    refine (bind_of_ok (popCall_of_parse hd hlen)).trans ((bind_of_ok htarget).trans ?_)
    refine Act.lift_bind_apply.trans (Run.bind_congr_right fun v m' _ => ?_)
    rw [Act.endsInVoid_eq hd]
    cases signature.ret.isVoid <;> rfl
  refine (Run.bind_congr_left hinvoke).trans (Run.bind_bind_apply.trans ?_)
  exact Run.bind_congr_right fun v m' _ => rfl

end Instructions

end Frame

end Interpose
