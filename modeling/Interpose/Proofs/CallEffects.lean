import Interpose.Proofs.Courses
/-!
# Effects of calls

A call that comes back leaves a result on the stack unless the last two characters of its descriptor
are `)V`. The verifier has read the whole descriptor and counts on a result unless the return type is
`void`. A class name may hold any character but a semicolon, parentheses among them, so the two
characters may well stand in the middle of a descriptor. They do not end one that is read unless it
ends in `void`: every other type ends in a letter of its own or in the semicolon behind a class name.

So whatever is executed on behalf of a call, and whatever it makes of the machine, the call takes off
the stack what the verifier says and leaves there what the verifier says. Everything else in the frame
is as it was.

## Main definitions

* `Act.KeepsFrame`: computations of a frame that leave it as it is

## Main results

* `Act.endsInVoid_iff`: the shortcut looks at the end of the text
* `Act.frame_of_invoke`: what a call leaves of a frame
* `Act.calls_have_their_effect`
-/

namespace Interpose

namespace Act

variable {α β : Type}

/-! ### Frames that are kept -/

/-- A computation that leaves the frame as it is. -/
class KeepsFrame (x : Act α) : Prop where
  frame_eq : ∀ {f f' : Frame} {m m' : Machine} {a : α}, x f m = some (.ok (a, f'), m') → f' = f

namespace KeepsFrame

instance pure (a : α) : KeepsFrame (pure a) :=
  ⟨fun h => by
    cases h
    rfl⟩

theorem seq {x : Act α} {g : α → Act β} [hx : KeepsFrame x] (hg : ∀ a, KeepsFrame (g a)) :
    KeepsFrame (x >>= g) := by
  refine ⟨fun h => ?_⟩
  obtain ⟨a, f₁, m₁, hfirst, hrest⟩ := bind_eq_ok h
  exact ((hg a).frame_eq hrest).trans (hx.frame_eq hfirst)

instance bind {x : Act α} {g : α → Act β} [KeepsFrame x] [hg : ∀ a, KeepsFrame (g a)] :
    KeepsFrame (x >>= g) := .seq hg

/-- The machine knows nothing of frames. -/
instance lift (x : Run α) : KeepsFrame (liftM x) := by
  refine ⟨fun h => ?_⟩
  obtain ⟨a, m₁, -, hrest⟩ := Run.bind_eq_ok h
  cases hrest
  rfl

instance get : KeepsFrame (get : Act Frame) :=
  ⟨fun h => by
    cases h
    rfl⟩

instance ite {p : Prop} [Decidable p] {x y : Act α} [KeepsFrame x] [KeepsFrame y] :
    KeepsFrame (if p then x else y) := by
  split <;> assumption

end KeepsFrame

instance constant_keepsFrame (table : PoolTable) (index : UInt32)
    (find : Pool → UInt32 → Option α) : KeepsFrame (constant table index find) := by
  have hmachine : KeepsFrame machine := KeepsFrame.lift _
  have hclass : KeepsFrame currentClass := by
    unfold currentClass
    infer_instance
  refine .seq fun k => ?_
  split
  · infer_instance
  · exact KeepsFrame.lift _

instance callTarget_keepsFrame (execute : Execute) (kind : CallKind) (ref : MethodRef)
    (args : List Value) : KeepsFrame (callTarget execute kind ref args) := by
  cases kind <;> unfold callTarget <;> infer_instance

/-! ### Calls that come back -/

section Results

variable {execute : Execute} {handlers : Handlers} {f f' : Frame} {m m' : Machine}

/-- The operands of a call are there, and are taken off the stack. -/
theorem popCall_eq_ok {kind : CallKind} {descriptor : String} {args : List Value}
    (h : popCall kind descriptor f m = some (.ok (args, f'), m')) :
    ∃ d, MethodDesc.parse descriptor = .ok d ∧ (d.stackEffect kind).pops ≤ f.stack.length ∧
      f' = { f with stack := f.stack.drop (d.stackEffect kind).pops } := by
  unfold popCall at h
  cases hd : MethodDesc.parse descriptor with
  | error e =>
    rw [hd] at h
    cases h
  | ok d =>
    rw [hd] at h
    refine ⟨d, rfl, ?_⟩
    by_cases hle : (d.stackEffect kind).pops ≤ f.stack.length
    · refine ⟨hle, ?_⟩
      have hpop := (congrFun (popMany_of_le hle) m).symm.trans h
      cases hpop
      rfl
    · have hpop := (congrFun (popMany_of_lt (Nat.lt_of_not_le hle)) m).symm.trans h
      cases hpop

/-- **Calls.** A call that comes back has taken its operands off the stack and left its result there,
unless its return type is `void`. -/
theorem frame_of_invoke {kind : CallKind} {index : UInt32} {a : Option Value}
    (h : step execute handlers (.invoke kind index) f m = some (.ok (a, f'), m')) :
    ∃ ref d v, (m.cls f.cls).constants.method? index = some ref ∧
      MethodDesc.parse ref.descriptor = .ok d ∧ (d.stackEffect kind).pops ≤ f.stack.length ∧
      a = none ∧ f' = { f with stack :=
        (if d.ret.isVoid then [] else [v]) ++ f.stack.drop (d.stackEffect kind).pops } := by
  obtain ⟨⟨⟩, f₁, m₁, hinvoke, hreturn⟩ := bind_eq_ok h
  cases hreturn
  obtain ⟨ref, f₂, m₂, hconstant, hoperands⟩ := bind_eq_ok hinvoke
  have href := constant_eq_ok hconstant
  obtain rfl := (constant_keepsFrame _ index _).frame_eq hconstant
  obtain ⟨args, f₃, m₃, hargs, hcall⟩ := bind_eq_ok hoperands
  obtain ⟨d, hd, hle, rfl⟩ := popCall_eq_ok hargs
  obtain ⟨⟨owner, i⟩, f₄, m₄, htarget, hexecute⟩ := bind_eq_ok hcall
  obtain rfl := (callTarget_keepsFrame execute kind ref args).frame_eq htarget
  obtain ⟨v, f₅, m₅, hresult, hpush⟩ := bind_eq_ok hexecute
  obtain rfl := (KeepsFrame.lift (execute owner i args)).frame_eq hresult
  refine ⟨ref, d, v, href, hd, hle, rfl, ?_⟩
  rw [endsInVoid_eq hd] at hpush
  cases hvoid : d.ret.isVoid with
  | true | false =>
    rw [hvoid] at hpush
    cases hpush
    rfl

end Results

/-! ### The shortcut -/

/-- The shortcut looks at the end of the text. -/
theorem endsInVoid_iff (s : String) : endsInVoid s = true ↔ ∃ front, s = front ++ ")V" := by
  unfold endsInVoid
  constructor
  · intro h
    split at h
    · rename_i rest hs
      refine ⟨String.ofList rest.reverse, ?_⟩
      rw [← String.toList_inj, String.toList_append, String.toList_ofList,
        ← List.reverse_reverse s.toList, hs]
      simp
    · cases h
  · rintro ⟨front, rfl⟩
    rw [String.toList_append, List.reverse_append]
    rfl

/-- **The effect of calls.** The shortcut asks whether a text ends in `)V`, and a descriptor that is
read does so exactly if its return type is `void`. Hence every call that comes back changes the number
of operands by its effect as the verifier has it, which is known, and found them there. -/
theorem calls_have_their_effect :
    (∀ s, endsInVoid s = true ↔ ∃ front, s = front ++ ")V") ∧
    (∀ s d, MethodDesc.parse s = .ok d → ((∃ front, s = front ++ ")V") ↔ d.ret = .void)) ∧
    ∀ (execute : Execute) (handlers : Handlers) (kind : CallKind) (index : UInt32) (f f' : Frame)
      (m m' : Machine) (a : Option Value),
      step execute handlers (.invoke kind index) f m = some (.ok (a, f'), m') →
      ∃ effect, Instruction.stackEffect? (m.cls f.cls).constants (.invoke kind index) = some effect ∧
        effect.pops ≤ f.stack.length ∧
        f'.stack.length = f.stack.length - effect.pops + effect.pushes := by
  refine ⟨endsInVoid_iff, fun s d hd => ?_, fun execute handlers kind index f f' m m' a h => ?_⟩
  · rw [← endsInVoid_iff, endsInVoid_eq hd, TypeDesc.isVoid_iff]
  obtain ⟨ref, d, v, href, hd, hle, -, rfl⟩ := frame_of_invoke h
  refine ⟨d.stackEffect kind, ?_, hle, ?_⟩
  · simp only [Instruction.stackEffect?, href, hd]
  · rw [List.length_append, List.length_drop, Nat.add_comm]
    show _ = f.stack.length - (d.stackEffect kind).pops + (!d.ret.isVoid).toNat
    cases d.ret.isVoid <;> rfl

end Act

/-! ### A descriptor with parentheses in it -/

/-- A class with a method that takes and answers an instance of a class called `)V`. -/
def namesakeClass : LoadedClass where
  name := "t.Same"
  loader := ⟨0⟩
  orphan := false
  ancestors := []
  constants := { methods := [⟨"t.Same", "same", "(L)V;)L)V;"⟩] }
  annotations := []
  methods := [⟨"same", "(L)V;)L)V;", ⟨[.object ")V"], .object ")V"⟩, Modifier.static.bit, 1,
    #[.loadLocal 0, .simple .ret]⟩]
  fieldSlots := []
  fieldDefaults := #[]
  staticSlots := []
  statics := #[]
  state := .initialized
  instrumented := false
  handler? := none

/-- A machine with that class. -/
def namesakeMachine : Machine where
  realm := { classes := ⟨#[namesakeClass]⟩, resources := {} }
  entry := ⟨0⟩

/-- A frame of that class with two operands. -/
def namesakeFrame : Frame := { cls := ⟨0⟩, locals := [], stack := [.null, .int 7] }

/-- The call takes one operand and leaves a result. -/
theorem namesake_called :
    MethodDesc.parse "(L)V;)L)V;" = .ok ⟨[.object ")V"], .object ")V"⟩ ∧
    (¬∃ front, "(L)V;)L)V;" = front ++ ")V") ∧
    Act.step (executeWith (fun _ => default) 3) (fun _ => default) (.invoke .static 0) namesakeFrame
      namesakeMachine = some (.ok (none, namesakeFrame), namesakeMachine) ∧
    ∃ effect, Instruction.stackEffect? namesakeClass.constants (.invoke .static 0) = some effect ∧
      effect.pops ≤ 2 ∧ 2 = 2 - effect.pops + effect.pushes := by
  have hparse : MethodDesc.parse "(L)V;)L)V;" = .ok ⟨[.object ")V"], .object ")V"⟩ := by cbv
  have hstep : Act.step (executeWith (fun _ => default) 3) (fun _ => default) (.invoke .static 0)
      namesakeFrame namesakeMachine = some (.ok (none, namesakeFrame), namesakeMachine) := by
    decide +kernel
  obtain ⟨-, hvoid, heffect⟩ := Act.calls_have_their_effect
  refine ⟨hparse, fun h => ?_, hstep, heffect _ _ _ _ _ _ _ _ _ hstep⟩
  cases (hvoid _ _ hparse).1 h

end Interpose
