import Interpose.Proofs.InterceptedCalls
/-!
# Calls past the stub

To call a method past its stub, the receiver's marker is set, and the stub resets it on its way to
the declared body. Where the stub gets there, the body begins on the machine as it was before the
call, with the marker as it was, and the next call is as free as this one was.

The marker is reset by the stub and by nothing else. Where the stub goes to the handler without a
look at the marker, as that of a native method does, the marker stays set, and the next call on the
receiver is direct as well.

## Main definitions

* `Machine.marking`: the machine with an object's marker set

## Main results

* `Machine.clearMarker_marking`: resetting the marker undoes that
* `comesTo_directlyOn_iff_declaredBody`: calls past a stub that is entered
-/

namespace Interpose

/-! ### Setting a marker -/

namespace Machine

variable {m : Machine} {c : ClassRef} {o : ObjectRef} {slot : Nat} {v : Value}

/-- The machine after an object's marker for a class has been set to the object. -/
def marking (m : Machine) (c : ClassRef) (o : ObjectRef) : Machine :=
  match (m.cls c).declaredField? markerFieldName with
  | some slot => { m with heap := m.heap.setSlot o slot (.object o) }
  | none => m

theorem marking_eq (h : m.marker? c (.object o) = some (o, slot, v)) :
    m.marking c o = { m with heap := m.heap.setSlot o slot (.object o) } := by
  rw [marking, (marker?_eq_some h).2.1]

theorem classOf_eq {x : Instance} (hx : m.heap.objects[o.index]? = some x) : m.classOf o = x.cls := by
  rw [classOf, Heap.object, Array.getD_eq_getD_getElem?, hx, Option.getD_some]

/-- An object holds itself, as far as its class is concerned. -/
theorem Instantiates.holds (h : m.Instantiates o c) : m.holds c (.object o) = true := by
  obtain ⟨x, hx, hsub, -⟩ := h
  rw [Machine.holds, classOf_eq hx]
  exact hsub

theorem evolves_marking : m.Evolves (m.marking c o) := by
  unfold marking
  split
  · rename_i slot _
    exact (Change.slot m o slot (.object o) : m.Change False _).evolves
  · exact .refl m

theorem classes_marking : (m.marking c o).classes = m.classes := by
  unfold marking
  split <;> rfl

/-- The marker that has been set. -/
theorem marker?_marking (h : m.marker? c (.object o) = some (o, slot, v)) :
    (m.marking c o).marker? c (.object o) = some (o, slot, .object o) := by
  obtain ⟨-, hslot, hv⟩ := marker?_eq_some h
  have hslot' : ((m.marking c o).cls c).declaredField? markerFieldName = some slot := by
    rw [cls, classes_marking]
    exact hslot
  rw [marker?, hslot', marking_eq h]
  dsimp only
  rw [Heap.slot?_setSlot hv]
  rfl

/-- Once set, a marker sends the next call to the declared body. -/
theorem marked_marking (h : m.marker? c (.object o) = some (o, slot, v))
    (hc : m.classes.Has c) (ho : m.Instantiates o c) :
    (m.marking c o).marked c (.object o) = true := by
  rw [marked, marker?_marking h]
  exact (evolves_marking.instantiates hc ho).holds

/-- **Resetting the marker** undoes setting it, if it was null. -/
theorem clearMarker_marking (h : m.marker? c (.object o) = some (o, slot, .null))
    (hc : m.classes.Has c) (ho : m.Instantiates o c) :
    (m.marking c o).clearMarker c (.object o) = m := by
  have hholds := (evolves_marking (c := c) (o := o).instantiates hc ho).holds
  rw [clearMarker, marker?_marking h]
  dsimp only
  rw [if_pos hholds, marking_eq h]
  dsimp only
  rw [Heap.setSlot_setSlot (marker?_eq_some h).2.2]

end Machine

/-! ### Calls past a stub -/

section PastStubs

variable {handlers : Handlers} {m m' : Machine} {c : ClassRef} {file file' : ClassFile}
variable {h : HandlerRef} {d : MethodDef} {o : ObjectRef} {slot : Nat} {v : Value}
variable {name descriptor : String} {args : List Value} {i : Nat}

/-- The nearest method of a name and descriptor is one that its class declares. -/
theorem ClassTable.declaredMethod?_of_resolveMethod? {t : ClassTable} {a : ClassRef}
    (h : t.resolveMethod? a name descriptor = some (c, i)) :
    (t.get c).declaredMethod? name descriptor = some i := by
  obtain ⟨b, -, hb⟩ := List.exists_of_findSome?_eq_some h
  obtain ⟨i', hi, heq⟩ := Option.map_eq_some_iff.1 hb
  cases heq
  exact hi

/-- To call a method past its stub is to execute the stub on a machine with the marker set. -/
theorem Machine.Intercepts.directlyOn_eq (hc : m.Intercepts c file file' h)
    (hfound : m.classes.resolveMethod? (m.classOf o) name descriptor = some (c, i))
    (hmarker : m.marker? c (.object o) = some (o, slot, v)) (execute : Execute) :
    Run.directlyOn execute (.object o) name descriptor args m =
      execute c i (.object o :: args) (m.marking c o) := by
  have hresolve : Run.resolveVirtual o name descriptor m = some (.ok (c, i), m) := by
    unfold Run.resolveVirtual
    rw [Run.get_bind_apply]
    exact Run.resolveMethod_of_some hfound
  obtain ⟨-, hslot, hv⟩ := Machine.marker?_eq_some hmarker
  unfold Run.directlyOn
  show (Run.resolveVirtual o name descriptor >>= _) m = _
  rw [Run.bind_apply, hresolve]
  dsimp only
  rw [Run.get_bind_apply, if_pos hc.instrumented, hslot]
  dsimp only
  rw [Run.bind_apply, Run.setSlot_of_some hv, Machine.marking_eq hmarker]

/-- **Calls past a stub.** If an object's marker is null, then to call an ordinary method of it that
has a body past the stub is to execute this body, one call deeper, on the machine as it was. -/
theorem comesTo_directlyOn_iff_declaredBody (hc : m.Intercepts c file file' h)
    (hverify : file.verify = .ok ()) (hdistinct : file.Distinct) (hunclaimed : file.Unclaimed)
    (hd : d ∈ file.methods) (hinit : d.name ≠ constructorName)
    (hclinit : d.name ≠ staticInitializerName) (hcode : d.code ≠ []) (hstatic : d.isStatic = false)
    (hargs : m.MayCall c d (.object o :: args)) (hdepth : m.depth < m.maxDepth)
    (hmarker : m.marker? c (.object o) = some (o, slot, .null)) {entry body : Nat}
    (hfound : m.classes.resolveMethod? (m.classOf o) d.name d.descriptor = some (c, entry))
    (hbody : (m.cls c).declaredMethod? (directMethodName file.name d.name) d.descriptor = some body)
    (r : Except VmError Value) (m' : Machine) :
    ComesTo (fun n => (Request.directlyOn (.object o) d.name d.descriptor args).run
        (executeWith handlers n)) m (r, m') ↔
      ∃ m'', ComesTo (fun n => executeWith handlers n c body (.object o :: args))
          (m.atDepth (m.depth + 1)) (r, m'') ∧
        m' = m''.atDepth m.depth := by
  obtain ⟨j, hj⟩ := List.getElem?_of_mem hd
  have hname : Instrument.bodyName file.name d.name = directMethodName file.name d.name := by
    rw [Instrument.bodyName, if_neg hinit, if_neg hclinit]
  have hentry := ClassTable.declaredMethod?_of_resolveMethod? hfound
  rw [show (m.classes.get c).declaredMethod? d.name d.descriptor = some (file.methods.length + j)
    from hc.declaredMethod?_entry hunclaimed hdistinct hj hclinit] at hentry
  rw [← hname, hc.declaredMethod?_body hunclaimed hdistinct hj] at hbody
  obtain rfl : file.methods.length + j = entry := Option.some.inj hentry
  obtain rfl : j = body := Option.some.inj hbody
  -- On the machine with the marker set, the stub takes the direct way, and resets it.
  have hreceiver : d.receiverOf (.object o :: args) = .object o := by
    rw [MethodDef.receiverOf, hstatic]
    rfl
  have ho : m.Instantiates o c := by
    obtain ⟨o', ho', hinstance⟩ := hargs.receiver hstatic
    rw [hreceiver] at ho'
    cases ho'
    exact hinstance
  have hevolves : m.Evolves (m.marking c o) := Machine.evolves_marking
  have hdepths : (m.marking c o).depth = m.depth ∧ (m.marking c o).maxDepth = m.maxDepth := by
    rw [Machine.marking_eq hmarker]
    exact ⟨rfl, rfl⟩
  have hargs' : (m.marking c o).MayCall c d (.object o :: args) :=
    hargs.evolves hc.has hstatic hevolves
  have hmarked : (m.marking c o).marked c (d.receiverOf (.object o :: args)) = true := by
    rw [hreceiver]
    exact Machine.marked_marking hmarker hc.has ho
  have hexecute : ComesTo (fun n => (Request.directlyOn (.object o) d.name d.descriptor args).run
      (executeWith handlers n)) m (r, m') ↔
      ComesTo (fun n => executeWith handlers n c (file.methods.length + j) (.object o :: args))
        (m.marking c o) (r, m') :=
    exists_congr fun n => ⟨(hc.directlyOn_eq hfound hmarker _).symm.trans,
      (hc.directlyOn_eq hfound hmarker _).trans⟩
  rw [hexecute, (hc.of_extends hevolves.classes).comesTo_direct_iff hverify hdistinct hunclaimed hj
    hinit hclinit hcode hargs' (by rwa [hdepths.1, hdepths.2]) (.inl hmarked), hreceiver,
    Machine.clearMarker_marking hmarker hc.has ho, hdepths.1]

end PastStubs

/-! ### A call past the stub of an echo -/

/-- The object echoes three past its stub, although the recorders would have it be zero. -/
theorem echoMachine_comesTo_three :
    ComesTo (fun n => (Request.directlyOn (.object ⟨0⟩) "echo" "(I)I" [.int 3]).run
      (executeWith recorders n)) echoMachine (.ok (.int 3), echoMachine) := by
  obtain ⟨-, hbody, hmarker⟩ := echoMachine_members
  have hfound : echoMachine.classes.resolveMethod? (echoMachine.classOf ⟨0⟩) "echo" "(I)I" =
      some (⟨0⟩, 1) := by decide +kernel
  refine (comesTo_directlyOn_iff_declaredBody echoMachine_intercepts echoFile_verify.1
    echoFile_distinct echoFile_unclaimed (List.getElem_mem (Nat.zero_lt_one)) (by decide +kernel)
    (by decide +kernel) (by decide +kernel) (by decide +kernel) echoMachine_mayCall
    (by decide +kernel) hmarker hfound hbody _ _).2 ?_
  exact ⟨echoMachine.atDepth 1, ⟨3, by decide +kernel⟩, rfl⟩

/-! ### A native method -/

/-- A class file with a native method. -/
def pokeFile : ClassFile where
  name := "t.Poke"
  methods := [⟨"poke", "()I", Modifier.visible.bit ||| Modifier.native.bit, [], 0, []⟩]

/-- The instrumented form of that file. -/
def interceptedPokeFile : ClassFile := pokeFile.transform.toOption.getD default

/-- A machine with a class of that form and an instance of it, whose marker is null. -/
def pokeMachine : Machine where
  realm := {
    classes := ⟨#[(LoadedClass.define ⟨⟨0⟩, false, true, some ⟨0⟩⟩ none
      interceptedPokeFile).toOption.getD default]⟩
    resources := {} }
  heap := { objects := #[⟨⟨0⟩, #[.null]⟩] }
  entry := ⟨0⟩

/-- A native method is called past its stub, answers, and leaves the marker set. -/
theorem pokeMachine_marker_stays :
    pokeMachine.Intercepts ⟨0⟩ pokeFile interceptedPokeFile ⟨0⟩ ∧ pokeFile.verify = .ok () ∧
      interceptedPokeFile.verify = .ok () ∧
      pokeMachine.marker? ⟨0⟩ (.object ⟨0⟩) = some (⟨0⟩, 0, .null) ∧
      ∃ m', ComesTo (fun n => (Request.directlyOn (.object ⟨0⟩) "poke" "()I" []).run
          (executeWith recorders n)) pokeMachine (.ok (.int 0), m') ∧
        m'.marker? ⟨0⟩ (.object ⟨0⟩) = some (⟨0⟩, 0, .object ⟨0⟩) := by
  refine ⟨⟨by decide +kernel, by decide +kernel, ?_⟩, by decide +kernel, by decide +kernel,
    by decide +kernel, ?_⟩
  · exact ⟨⟨⟨0⟩, false, true, some ⟨0⟩⟩, none, _, rfl, rfl, by decide +kernel, rfl⟩
  · let call : CallRecord := ⟨⟨0⟩, "poke", .object ⟨0⟩, [], []⟩
    exact ⟨{ (pokeMachine.marking ⟨0⟩ ⟨0⟩).recorded call with journal := #[.called call] },
      ⟨40, by decide +kernel⟩, by decide +kernel⟩

end Interpose
