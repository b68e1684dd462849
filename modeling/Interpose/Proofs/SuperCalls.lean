import Interpose.Proofs.Courses
import Interpose.Proofs.Openings
/-!
# The call that constructs the superclass

The search for the call follows the code of a constructor on marks, of which there are two: the
receiver, and anything else. The marks speak of a real stack: there is a mark for each value, and where
the mark is the receiver the value is what local 0 held at the start. Each instruction that the search
goes through takes a marked stack to a marked stack, whatever it does to the machine, for it touches no
more values than its effect says and leaves the locals alone. So where the search ends, at a call of as
many arguments as there are values above the lowest, the lowest is the receiver.

This is so when a frame comes to the call for the first time. What stands behind the call may write
locals and jump back, and would come to the call again with other values below it. A constructor of
which that is true is not split: behind the call, no jump may lead back before it.

## Main definitions

* `SuperCall.Marked`: marks that speak of a stack
* `SuperCall.Found`: what the search says of the call

## Main results

* `SuperCall.Marked.advance`: marks follow values
* `SuperCall.found_of_locate`, `SuperCall.locate_sound`
-/

namespace Interpose

open View (Accepts)

/-! ### What instructions that succeed have found -/

namespace Act

variable {execute : Execute} {handlers : Handlers} {f f' : Frame} {m m' : Machine}

theorem class_of_classConstant {index : UInt32} {c : ClassRef}
    (h : classConstant index f m = some (.ok (c, f'), m')) :
    ((m.cls f.cls).constants.class? index).isSome := by
  obtain ⟨name, f₁, m₁, hname, -⟩ := bind_eq_ok h
  rw [constant_eq_ok hname]
  rfl

theorem field_of_fieldConstant {index : UInt32} {slot : Nat}
    (h : fieldConstant index f m = some (.ok (slot, f'), m')) :
    ((m.cls f.cls).constants.field? index).isSome := by
  obtain ⟨ref, f₁, m₁, href, -⟩ := bind_eq_ok h
  rw [constant_eq_ok href]
  rfl

theorem field_of_staticConstant {index : UInt32} {found : ClassRef × Nat}
    (h : staticConstant execute index f m = some (.ok (found, f'), m')) :
    ((m.cls f.cls).constants.field? index).isSome := by
  obtain ⟨ref, f₁, m₁, href, -⟩ := bind_eq_ok h
  rw [constant_eq_ok href]
  rfl

theorem field_of_accessField {index : UInt32} {access : FieldAccess} {u : Unit}
    (h : accessField execute index access f m = some (.ok (u, f'), m')) :
    ((m.cls f.cls).constants.field? index).isSome := by
  cases access with
  | get | put =>
    obtain ⟨slot, f₁, m₁, hslot, -⟩ := bind_eq_ok h
    exact field_of_fieldConstant hslot
  | getStatic | putStatic =>
    obtain ⟨found, f₁, m₁, hfound, -⟩ := bind_eq_ok h
    exact field_of_staticConstant hfound

theorem local_of_readLocal {slot : UInt16} {v : Value}
    (h : readLocal slot f m = some (.ok (v, f'), m')) : f.locals[slot.toNat]? = some v := by
  cases hslot : f.locals[slot.toNat]? with
  | none =>
    rw [readLocal_of_none hslot] at h
    cases h
  | some w =>
    rw [readLocal_of_some hslot] at h
    cases h
    rfl

/-- An instruction that succeeds has found its operand, unless it tests a value for the class that the
operand names and the value is no object. -/
theorem accepts_of_step {i : Instruction} {effect : StackEffect} {a : Option Value}
    (h : step execute handlers i f m = some (.ok (a, f'), m'))
    (heffect : Instruction.stackEffect? (m.cls f.cls).constants i = some effect)
    (hstore : ∀ slot, i ≠ .storeLocal slot)
    (hinstance : ∀ index, i = .instanceOf index → ((m.cls f.cls).constants.class? index).isSome) :
    Accepts (m.cls f.cls).constants (· = f.locals) i effect where
  effect_eq := heffect
  string := by
    rintro index rfl
    obtain ⟨s, f₁, m₁, hs, -⟩ := bind_eq_ok h
    rw [constant_eq_ok hs]
    rfl
  cls := by
    rintro index (rfl | rfl | rfl)
    · obtain ⟨c, f₁, m₁, hc, -⟩ := bind_eq_ok h
      exact class_of_classConstant hc
    · obtain ⟨_, f₁, m₁, hnew, -⟩ := bind_eq_ok h
      obtain ⟨c, f₂, m₂, hc, -⟩ := bind_eq_ok hnew
      exact class_of_classConstant hc
    · exact hinstance index rfl
  field := by
    rintro access index rfl
    obtain ⟨u, f₁, m₁, hu, -⟩ := bind_eq_ok h
    exact field_of_accessField hu
  read := by
    rintro slot rfl _ rfl
    obtain ⟨v, f₁, m₁, hv, -⟩ := bind_eq_ok h
    exact (List.getElem?_eq_some_iff.1 (local_of_readLocal hv)).1
  write := fun slot hslot => absurd hslot (hstore slot)
  tag := by
    rintro tag rfl
    cases htag : TypeDesc.ofTag? tag with
    | some t => rfl
    | none =>
      simp only [step, htag] at h
      cases h

end Act

/-! ### Instructions and the values below their operands -/

/-- One machine on both sides, and outcomes on both sides or on neither. -/
def Simulation.alike : Simulation := { Simulation.exactly with mayOutlast := False }

theorem Simulation.alike_executeWith (handlers : Handlers) (fuel : Nat) :
    Simulation.alike.ExecuteSim (executeWith handlers fuel) (executeWith handlers fuel) := by
  have hlax : Simulation.alike.Lax := ⟨not_false, fun _ => trivial, trivial⟩
  rw [← executeBy_enforced]
  refine hlax.executeBy_sim (Simulation.handlersSim_of_eq (fun hr => hr) (fun _ => trivial) _) ?_
    (.inl rfl)
  rintro m _ rfl k owner args
  exact ⟨fun _ => trivial, .inl rfl⟩

namespace SuperCall

variable {handlers : Handlers} {execute : Execute} {c : ClassRef} {locals stack : List Value}
variable {start m m' : Machine} {p : Nat} {i : Instruction} {effect : StackEffect}

/-- An instruction that control goes through replaces its operands, and leaves what lies below. -/
theorem Passes.step_over (hi : Passes i)
    (haccepts : Accepts (start.cls c).constants (· = locals) i effect) (hc : start.classes.Has c)
    (he : Simulation.alike.ExecuteSim execute execute) (hm : start.Extends m)
    {top base : List Value} (htop : top.length = effect.pops) {f : Frame}
    (h : Act.step execute handlers i ⟨c, p + 1, locals, top ++ base⟩ m = some (.ok (none, f), m')) :
    m.Evolves m' ∧ ∃ top', f = ⟨c, p + 1, locals, top' ++ base⟩ ∧ top'.length = effect.pushes := by
  let V : View (Simulation.alike.since start) :=
    .active Simulation.alike start c hc (· = locals) 0 base
  have hstep : V.Follows (V.At (0 + effect.pops) (· = p + 1)) i p (0 + effect.pushes)
      (Act.step execute handlers i) (Act.step execute handlers (i.mapTarget (· + 0))) :=
    View.step_sim (he.since start)
      ((Simulation.handlersSim_of_eq (fun hr => hr) (fun _ => trivial) handlers).since start)
      fun _ => haccepts
  have hat : V.At (0 + effect.pops) (· = p + 1) ⟨c, p + 1, locals, top⟩ :=
    fun _ => ⟨rfl, by rw [Nat.zero_add]; exact htop, rfl, rfl⟩
  have ho := hstep ⟨c, p + 1, locals, top⟩ hat m m ⟨rfl, hm⟩
  rw [View.mapTarget_add_zero] at ho
  have hsecond : Act.step execute handlers i (V.shift ⟨c, p + 1, locals, top⟩) m =
      some (.ok (none, f), m') := h
  rw [hsecond] at ho
  rcases hfirst : Act.step execute handlers i ⟨c, p + 1, locals, top⟩ m
    with _ | ⟨_ | ⟨a, f₁⟩, m₁⟩ <;> rw [hfirst] at ho
  · exact ho.2.elim
  · exact ho.elim
  obtain ⟨⟨⟨hnone, -⟩, hbehind, hshift⟩, hrel, hevolves⟩ := ho
  obtain ⟨hcls, hdepth, hlocals, hplace⟩ := hbehind trivial
  have hnext : f₁.pc = p + 1 := by
    rcases hplace with hret | hsucc
    · exact absurd hret (by rw [hi.isReturn_eq_false]; exact nofun)
    · rw [Verifier.successors, hi.target, hi.onward] at hsucc
      exact List.mem_singleton.1 hsucc
  obtain rfl : m' = m₁ := hrel.1
  obtain ⟨cls, pc, locals', top'⟩ := f₁
  obtain rfl : cls = c := hcls
  obtain rfl : locals' = locals := hlocals
  obtain rfl : pc = p + 1 := hnext
  exact ⟨hevolves, top', hshift, by rw [← Nat.zero_add effect.pushes]; exact hdepth⟩

/-- A test for a class does not look for the class if the value is no object. -/
theorem step_instanceOf {index : UInt32} {v : Value} {base : List Value} {f : Frame}
    {a : Option Value}
    (h : Act.step execute handlers (.instanceOf index) ⟨c, p, locals, v :: base⟩ m =
      some (.ok (a, f), m')) :
    ((m.cls c).constants.class? index).isSome ∨
      f = ⟨c, p, locals, .bool false :: base⟩ ∧ m' = m := by
  cases v with
  | object o =>
    obtain ⟨_, f₁, m₁, hinstance, -⟩ := Act.bind_eq_ok h
    obtain ⟨w, f₂, m₂, hpop, hclass⟩ := Act.bind_eq_ok hinstance
    cases hpop
    obtain ⟨c', f₃, m₃, hc, -⟩ := Act.bind_eq_ok hclass
    exact .inl (Act.class_of_classConstant hc)
  | _ =>
    cases h
    exact .inr ⟨rfl, rfl⟩

/-- **Frames.** Whatever its operand names, an instruction that control goes through and that succeeds
replaces as many values as its effect says, and leaves what lies below, and the locals. -/
theorem Passes.step_ok (hi : Passes i)
    (heffect : i.stackEffect? (start.cls c).constants = some effect) (hc : start.classes.Has c)
    (he : Simulation.alike.ExecuteSim execute execute) (hm : start.Extends m)
    (hpops : effect.pops ≤ stack.length) {f : Frame}
    (h : Act.step execute handlers i ⟨c, p + 1, locals, stack⟩ m = some (.ok (none, f), m')) :
    m.Extends m' ∧ ∃ top', f = ⟨c, p + 1, locals, top' ++ stack.drop effect.pops⟩ ∧
      top'.length = effect.pushes := by
  have hpool : (m.cls c).constants = (start.cls c).constants :=
    LoadedClass.constants_eq_of_fixed (hm.fixed_eq c hc)
  have htop : (stack.take effect.pops).length = effect.pops := List.length_take_of_le hpops
  have hfound : (∀ index, i = .instanceOf index → ((m.cls c).constants.class? index).isSome) →
      m.Extends m' ∧ ∃ top', f = ⟨c, p + 1, locals, top' ++ stack.drop effect.pops⟩ ∧
        top'.length = effect.pushes := by
    intro hinstance
    have haccepts := Act.accepts_of_step (f := ⟨c, p + 1, locals, stack⟩) h (hpool ▸ heffect)
      hi.store hinstance
    rw [← List.take_append_drop effect.pops stack] at h
    obtain ⟨hevolves, hrest⟩ := hi.step_over (hpool ▸ haccepts) hc he hm htop h
    exact ⟨hevolves.classes, hrest⟩
  cases i with
  | instanceOf index =>
    cases heffect
    obtain ⟨v, base, rfl⟩ := List.exists_cons_of_length_pos (l := stack) hpops
    rcases step_instanceOf h with hsome | ⟨rfl, rfl⟩
    · refine hfound fun index' hindex => ?_
      cases hindex
      exact hsome
    · exact ⟨.refl _, [.bool false], rfl, rfl⟩
  | _ => exact hfound fun _ hindex => nomatch hindex

/-! ### Marks -/

variable {marks marks' : List Mark}

/-- Marks that speak of a stack: there is one for each value, and where it is the receiver the value is
that of local 0. -/
structure Marked (locals : List Value) (marks : List Mark) (stack : List Value) : Prop where
  length_eq : stack.length = marks.length
  receiver : ∀ n : Nat, marks[n]? = some .receiver → stack[n]? = locals[0]?

namespace Marked

theorem nil : Marked locals [] [] := ⟨rfl, nofun⟩

theorem cons {a : Mark} {v : Value} (ha : a = .receiver → some v = locals[0]?)
    (h : Marked locals marks stack) : Marked locals (a :: marks) (v :: stack) := by
  refine ⟨congrArg (· + 1) h.length_eq, ?_⟩
  rintro (_ | n) hn
  · exact ha (Option.some.inj hn)
  · exact h.receiver n hn

/-- The mark of anything else says nothing. -/
theorem other (v : Value) (h : Marked locals marks stack) : Marked locals (.other :: marks) (v :: stack) :=
  h.cons nofun

theorem exists_of_cons {a : Mark} (h : Marked locals (a :: marks) stack) :
    ∃ v rest, stack = v :: rest ∧ (a = .receiver → some v = locals[0]?) ∧
      Marked locals marks rest := by
  obtain ⟨v, rest, rfl⟩ := List.exists_cons_of_length_eq_add_one h.length_eq
  refine ⟨v, rest, rfl, fun ha => h.receiver 0 (congrArg some ha), ?_⟩
  exact ⟨Nat.succ.inj h.length_eq, fun n hn => h.receiver (n + 1) hn⟩

theorem drop (n : Nat) (h : Marked locals marks stack) :
    Marked locals (marks.drop n) (stack.drop n) := by
  refine ⟨by rw [List.length_drop, List.length_drop, h.length_eq], fun k hk => ?_⟩
  rw [List.getElem?_drop] at hk ⊢
  exact h.receiver (n + k) hk

theorem append (top : List Value) (h : Marked locals marks stack) :
    Marked locals (List.replicate top.length .other ++ marks) (top ++ stack) := by
  induction top with
  | nil => exact h
  | cons v top ih => exact ih.other v

/-- **Marks.** An instruction that the search goes through takes a marked stack to a marked stack. -/
theorem advance (h : Marked locals marks stack) (hi : Passes i)
    (hadvance : advance (start.cls c).constants p marks i = .ok marks') (hc : start.classes.Has c)
    (he : Simulation.alike.ExecuteSim execute execute) (hm : start.Extends m) {f : Frame}
    (hstep : Act.step execute handlers i ⟨c, p + 1, locals, stack⟩ m = some (.ok (none, f), m')) :
    m.Extends m' ∧ ∃ stack', f = ⟨c, p + 1, locals, stack'⟩ ∧ Marked locals marks' stack' := by
  rcases advance_eq_ok hadvance with ⟨rfl, rfl⟩ | ⟨a, rest, rfl, rfl, rfl⟩ |
    ⟨a, b, rest, rfl, rfl, rfl⟩ | ⟨effect, heffect, hpops, rfl⟩
  · -- The receiver is loaded.
    obtain ⟨v, f₁, m₁, hread, hpush⟩ := Act.bind_eq_ok hstep
    have hlocal := Act.local_of_readLocal hread
    rw [Act.readLocal_of_some hlocal] at hread
    cases hread
    cases hpush
    exact ⟨.refl _, _, rfl, h.cons fun _ => hlocal.symm⟩
  · -- A value is duplicated. What the copies are is forgotten.
    obtain ⟨v, base, rfl, -, hbase⟩ := h.exists_of_cons
    cases hstep
    exact ⟨.refl _, _, rfl, (hbase.other v).other v⟩
  · -- Two values change places, and so do their marks.
    obtain ⟨v, base, rfl, hv, hrest⟩ := h.exists_of_cons
    obtain ⟨w, base', rfl, hw, hbase⟩ := hrest.exists_of_cons
    cases hstep
    exact ⟨.refl _, _, rfl, (hbase.cons hv).cons hw⟩
  · obtain ⟨hextends, top, rfl, htop⟩ := hi.step_ok heffect hc he hm (h.length_eq ▸ hpops) hstep
    exact ⟨hextends, _, rfl, htop ▸ (h.drop effect.pops).append top⟩

end Marked

/-! ### The call -/

variable {pool : Pool} {className superName : String} {code : List Instruction} {call : Nat}

/-- What the search says of the call that it finds: it is the first that constructs the superclass or
delegates to the class itself, and the way to it is straight. -/
structure Located (pool : Pool) (className superName : String) (code : List Instruction) (call : Nat)
    (signature : MethodDesc) : Prop where
  constructs : ∃ index ref, code[call]? = some (.invoke .special index) ∧
    pool.method? index = some ref ∧ constructs className superName ref = true ∧
    MethodDesc.parse ref.descriptor = .ok signature
  straight : ∀ p i, p < call → code[p]? = some i → Passes i
  first : ∀ p index, p < call → code[p]? = some (.invoke .special index) →
    ∀ ref, pool.method? index = some ref → SuperCall.constructs className superName ref = false

/-- A stack that is as the call needs it. -/
structure Laid (locals : List Value) (signature : MethodDesc) (stack : List Value) : Prop where
  length_eq : stack.length = signature.arity + 1
  bottom : stack.getLast? = locals[0]?

theorem exists_signature_of_checkCall {ref : MethodRef} (h : checkCall p marks ref = .ok ()) :
    ∃ signature, MethodDesc.parse ref.descriptor = .ok signature ∧
      marks.length = signature.arity + 1 ∧ marks[signature.arity]? = some .receiver := by
  unfold checkCall at h
  split at h
  · cases h
  rename_i signature hsignature
  split at h
  · cases h
  split at h
  · cases h
  rename_i hreceiver
  split at h
  · cases h
  rename_i hlength
  exact ⟨signature, hsignature, Decidable.not_not.1 hlength, Decidable.not_not.1 hreceiver⟩

/-- Marks that have been checked speak of a stack as the call needs it. -/
theorem Marked.laid {ref : MethodRef} (h : Marked locals marks stack)
    (hcheck : checkCall p marks ref = .ok ()) :
    ∃ signature, MethodDesc.parse ref.descriptor = .ok signature ∧
      Laid locals signature stack := by
  obtain ⟨signature, hsignature, hlength, hreceiver⟩ := exists_signature_of_checkCall hcheck
  have hlen : stack.length = signature.arity + 1 := h.length_eq.trans hlength
  refine ⟨signature, hsignature, hlen, ?_⟩
  rw [List.getLast?_eq_getElem?, hlen, Nat.add_sub_cancel]
  exact h.receiver _ hreceiver

/-- The call that is found constructs, and none before it does. -/
theorem exists_ref_of_locateFrom
    (h : locateFrom pool className superName p marks code = .ok call) :
    ∃ q index ref signature, call = p + q ∧ code[q]? = some (.invoke .special index) ∧
      pool.method? index = some ref ∧ SuperCall.constructs className superName ref = true ∧
      MethodDesc.parse ref.descriptor = .ok signature ∧
      ∀ r index', r < q → code[r]? = some (.invoke .special index') →
        ∀ ref', pool.method? index' = some ref' →
          SuperCall.constructs className superName ref' = false := by
  induction code generalizing p marks with
  | nil => cases h
  | cons i rest ih =>
    obtain ⟨-, -, ⟨index, ref, rfl, href, hconstructs, hcheck, rfl⟩ |
      ⟨hother, marks', -, hrest⟩⟩ := locateFrom_cons_eq_ok h
    · obtain ⟨signature, hsignature, -⟩ := exists_signature_of_checkCall hcheck
      exact ⟨0, index, ref, signature, rfl, rfl, href, hconstructs, hsignature, nofun⟩
    · obtain ⟨q, index, ref, signature, rfl, hindex, href, hconstructs, hsignature, hbefore⟩ :=
        ih hrest
      refine ⟨q + 1, index, ref, signature, by omega, hindex, href, hconstructs, hsignature, ?_⟩
      rintro (_ | r) index' hr hindex' ref' href'
      · exact hother index' ref' (Option.some.inj hindex') href'
      · exact hbefore r index' (Nat.lt_of_succ_lt_succ hr) hindex' ref' href'

/-- **The search.** -/
theorem exists_located (h : locate pool className superName code = .ok call) :
    ∃ signature, Located pool className superName code call signature := by
  obtain ⟨q, index, ref, signature, rfl, hindex, href, hconstructs, hsignature, hbefore⟩ :=
    exists_ref_of_locateFrom h
  obtain ⟨q', heq, -, hall⟩ := locateFrom_eq_ok h
  obtain rfl : q = q' := Nat.add_left_cancel heq
  rw [Nat.zero_add]
  exact ⟨signature, ⟨index, ref, hindex, href, hconstructs, hsignature⟩,
    fun r i hr => hall r i (Nat.le_of_lt hr), fun r index' hr hindex' => hbefore r index' hr hindex'⟩

/-- A frame that comes to the call for the first time has the locals that it began with, and a stack as
the call needs it. The induction is on the code that is searched, from any place with its marks. -/
theorem laid_of_course {whole : List Instruction} {places : List Nat} {f : Frame}
    (h : locateFrom (start.cls c).constants className superName p marks code = .ok call)
    (hcode : ∀ q : Nat, whole[p + q]? = code[q]?) (hc : start.classes.Has c)
    (he : Simulation.alike.ExecuteSim execute execute) (hm : start.Extends m)
    (hmarked : Marked locals marks stack)
    (hcourse : Frame.Course handlers execute whole.toArray places ⟨c, p, locals, stack⟩ m f m')
    (hf : f.pc = call) (hfirst : call ∉ places) :
    f.locals = locals ∧ ∀ index ref, whole[call]? = some (.invoke .special index) →
      (start.cls c).constants.method? index = some ref →
        ∃ signature, MethodDesc.parse ref.descriptor = .ok signature ∧
          Laid locals signature f.stack := by
  induction code generalizing p marks stack m places with
  | nil => cases h
  | cons i rest ih =>
    have hi : whole[p]? = some i := hcode 0
    obtain ⟨htarget, hends, ⟨index, ref, rfl, href, -, hcheck, rfl⟩ |
      ⟨-, marks', hadvance, hrest⟩⟩ := locateFrom_cons_eq_ok h
    · cases hcourse with
      | stay =>
        refine ⟨rfl, fun index' ref' hindex' href' => ?_⟩
        obtain rfl := InstructionOf.invoke.inj (Option.some.inj (hi.symm.trans hindex')) |>.2
        obtain rfl := Option.some.inj (href.symm.trans href')
        exact hmarked.laid hcheck
      | step => exact absurd List.mem_cons_self hfirst
    · obtain ⟨q, rfl, -⟩ := locateFrom_eq_ok hrest
      cases hcourse with
      | stay => exact absurd hf (by dsimp only; omega)
      | step hi' hstep hcourse =>
        rw [List.getElem?_toArray] at hi'
        obtain rfl := Option.some.inj (hi.symm.trans hi')
        have hpasses : Passes i := by
          refine ⟨htarget, hends, ?_⟩
          rintro slot rfl
          cases hadvance
        obtain ⟨hextends, stack', rfl, hmarked'⟩ :=
          hmarked.advance hpasses hadvance hc he hm hstep
        refine ih hrest (fun q => ?_) (hm.trans hextends) hmarked' hcourse
          fun hmem => hfirst (List.mem_cons_of_mem _ hmem)
        rw [Nat.add_assoc, Nat.add_comm 1]
        exact hcode (q + 1)

/-- Where the code behind the call can be cut off, no jump there leads back. -/
theorem lt_target_of_strip {body : List Instruction} (h : strip code call = .ok body) {q : Nat}
    {i : Instruction} {target : Nat} (hq : call < q) (hi : code[q]? = some i)
    (htarget : i.target? = some target) : call < target := by
  obtain ⟨r, rfl⟩ := Nat.exists_eq_add_of_le (Nat.succ_le_of_lt hq)
  have hbody := rebase_eq_ok h r
  rw [List.getElem?_drop, hi] at hbody
  obtain ⟨j, -, rfl⟩ := Option.map_eq_some_iff.1 hbody.symm
  cases j with
  | jump condition label =>
    obtain rfl : label + (call + 1) = target := Option.some.inj htarget
    omega
  | _ => exact nomatch htarget

/-- So a frame comes to the call once. -/
theorem not_mem_places {body : List Instruction} {places : List Nat} {f f' : Frame}
    {signature : MethodDesc} (hlocated : Located pool className superName code call signature)
    (hstrip : strip code call = .ok body)
    (hcourse : Frame.Course handlers execute code.toArray places f m f' m') (hf : f'.pc = call) :
    call ∉ places := by
  intro hmem
  obtain ⟨before, behind, f₁, m₁, -, hpc, hrest⟩ := hcourse.exists_of_mem hmem
  obtain ⟨index, ref, hindex, -⟩ := hlocated.constructs
  cases hrest with
  | @step _ i _ f₂ _ _ _ _ hi hstep hrest =>
    rw [List.getElem?_toArray] at hi
    obtain rfl := Option.some.inj (hindex.symm.trans hi)
    have hnext : f₁.pc < f₂.pc := by
      rcases Act.pc_of_step hstep with hnext | hjump
      · exact hnext ▸ Nat.lt_succ_self f₁.pc
      · exact nomatch hjump
    have hlt := hrest.behind (fun q i target hq hi htarget =>
      lt_target_of_strip hstrip hq (List.getElem?_toArray ▸ hi) htarget) hnext
    exact absurd hf (Nat.ne_of_gt hlt)

/-- **Soundness.** The call that the search finds is the first that constructs, behind a straight way.
A frame of a class with the pool that comes to it for the first time has the locals that it began with,
and on its stack the receiver, which is what local 0 was, and above it the arguments. If the code behind
the call can be cut off, this is so whenever a frame comes to the call. -/
theorem locate_sound (h : locate pool className superName code = .ok call) :
    ∃ signature, Located pool className superName code call signature ∧
      ∀ (handlers : Handlers) (fuel : Nat) (c : ClassRef) (locals : List Value) (m m' : Machine)
        (places : List Nat) (f : Frame), m.classes.Has c → (m.cls c).constants = pool →
        Frame.Course handlers (executeWith handlers fuel) code.toArray places ⟨c, 0, locals, []⟩ m
          f m' → f.pc = call → (call ∉ places ∨ ∃ body, strip code call = .ok body) →
        f.locals = locals ∧ Laid locals signature f.stack := by
  obtain ⟨signature, hlocated⟩ := exists_located h
  refine ⟨signature, hlocated, ?_⟩
  rintro handlers fuel c locals m m' places f hc rfl hcourse hf honce
  have hfirst : call ∉ places := by
    rcases honce with hfirst | ⟨body, hstrip⟩
    · exact hfirst
    · exact not_mem_places hlocated hstrip hcourse hf
  obtain ⟨hlocals, hlaid⟩ := laid_of_course h (fun q => by rw [Nat.zero_add]) hc
    (Simulation.alike_executeWith handlers fuel) (.refl m) .nil hcourse hf hfirst
  obtain ⟨index, ref, hindex, href, -, hsignature⟩ := hlocated.constructs
  obtain ⟨signature', hsignature', hlaid⟩ := hlaid index ref hindex href
  obtain rfl := Except.ok.inj (hsignature.symm.trans hsignature')
  exact ⟨hlocals, hlaid⟩

/-- The pool of a class with two constructors. -/
def pairPool : Pool where
  methods := [⟨"t.Pair", "<init>", "()V"⟩, ⟨"t.Pair", "<init>", "(Lt/Pair;)V"⟩]

/-- Delegates to the constructor without arguments, and starts again with the argument in the place of
the receiver. -/
def restarting : List Instruction :=
  [.loadLocal 0, .invoke .special 0, .loadLocal 1, .storeLocal 0, .jump .always 0]

/-- Delegates to the constructor with an argument, and is done. -/
def delegating : List Instruction :=
  [.loadLocal 0, .loadLocal 1, .invoke .special 1, .simple .retVoid]

/-- A class with two constructors. -/
def pair : LoadedClass where
  name := "t.Pair"
  loader := ⟨0⟩
  orphan := false
  ancestors := []
  constants := pairPool
  annotations := []
  methods := [⟨"<init>", "()V", ⟨[], .void⟩, Modifier.visible.bit, 1, #[.simple .retVoid]⟩,
    ⟨"<init>", "(Lt/Pair;)V", ⟨[.object "t.Pair"], .void⟩, Modifier.visible.bit, 2,
      restarting.toArray⟩]
  fieldSlots := []
  fieldDefaults := #[]
  staticSlots := []
  statics := #[]
  state := .initialized
  instrumented := false
  handler? := none

/-- A machine with two objects of the class. -/
def pairs : Machine where
  realm :=
    { classes := ⟨#[pair]⟩
      loaders := #[{ kind := .bootstrap, classes := [("t.Pair", ⟨0⟩)] }]
      resources := {} }
  heap := { objects := #[⟨⟨0⟩, #[]⟩, ⟨⟨0⟩, #[]⟩] }
  entry := ⟨0⟩

/-- A constructor that hands its argument on comes to the call with the argument above the receiver. -/
theorem delegating_laid :
    locate pairPool "t.Pair" "t.Base" delegating = .ok 2 ∧
    Frame.Course (fun _ => default) (executeWith (fun _ => default) 2) delegating.toArray [0, 1]
      ⟨⟨0⟩, 0, [.object ⟨0⟩, .object ⟨1⟩], []⟩ pairs
      ⟨⟨0⟩, 2, [.object ⟨0⟩, .object ⟨1⟩], [.object ⟨1⟩, .object ⟨0⟩]⟩ pairs ∧
    ∃ signature, Located pairPool "t.Pair" "t.Base" delegating 2 signature ∧
      Laid [.object ⟨0⟩, .object ⟨1⟩] signature [.object ⟨1⟩, .object ⟨0⟩] := by
  have hlocate : locate pairPool "t.Pair" "t.Base" delegating = .ok 2 := by decide +kernel
  have hcourse : Frame.Course (fun _ => default) (executeWith (fun _ => default) 2)
      delegating.toArray [0, 1] ⟨⟨0⟩, 0, [.object ⟨0⟩, .object ⟨1⟩], []⟩ pairs
      ⟨⟨0⟩, 2, [.object ⟨0⟩, .object ⟨1⟩], [.object ⟨1⟩, .object ⟨0⟩]⟩ pairs :=
    Frame.course_of_follow (n := 2) (by decide +kernel)
  obtain ⟨signature, hlocated, hsound⟩ := locate_sound hlocate
  have hhas : pairs.classes.Has ⟨0⟩ := Nat.zero_lt_one
  exact ⟨hlocate, hcourse, signature, hlocated,
    (hsound _ 2 _ _ _ _ _ _ hhas rfl hcourse rfl (.inl (by decide))).2⟩

/-- When a frame comes to the call again, the locals need not be those that it began with: the code
behind the call has written one and jumped back. -/
theorem not_laid_of_restarting :
    ¬ ∀ (pool : Pool) (className superName : String) (code : List Instruction) (call : Nat),
      locate pool className superName code = .ok call →
      ∃ signature, Located pool className superName code call signature ∧
        ∀ (handlers : Handlers) (fuel : Nat) (c : ClassRef) (locals : List Value) (m m' : Machine)
          (places : List Nat) (f : Frame), m.classes.Has c → (m.cls c).constants = pool →
          Frame.Course handlers (executeWith handlers fuel) code.toArray places ⟨c, 0, locals, []⟩ m
            f m' → f.pc = call →
          f.locals = locals ∧ Laid locals signature f.stack := by
  intro hall
  have hlocate : locate pairPool "t.Pair" "t.Base" restarting = .ok 1 := by decide +kernel
  obtain ⟨signature, -, hsound⟩ := hall _ _ _ _ _ hlocate
  have hcourse : Frame.Course (fun _ => default) (executeWith (fun _ => default) 2)
      restarting.toArray [0, 1, 2, 3, 4, 0] ⟨⟨0⟩, 0, [.object ⟨0⟩, .object ⟨1⟩], []⟩ pairs
      ⟨⟨0⟩, 1, [.object ⟨1⟩, .object ⟨1⟩], [.object ⟨1⟩]⟩ pairs :=
    Frame.course_of_follow (n := 6) (by decide +kernel)
  have hhas : pairs.classes.Has ⟨0⟩ := Nat.zero_lt_one
  have hlocals := (hsound _ 2 _ _ _ _ _ _ hhas rfl hcourse rfl).1
  exact absurd hlocals (by decide)

end SuperCall

end Interpose
