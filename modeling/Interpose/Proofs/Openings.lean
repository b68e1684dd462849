import Interpose.Instrument.Constructor
import Interpose.Proofs.Entries
/-!
# Openings

A constructor is cut behind the call that constructs its superclass. The way to that call, its
*opening*, is straight: no instruction of it jumps, leaves the body, or writes a local. So a run of
any body that begins with the opening is a run of the opening, to a frame with the locals of the
first, and then of the rest.

What stands behind the cut is what stood there before, its labels moved by the length of the opening.

## Main definitions

* `SuperCall.Parts`: a body that has been cut
* `Straight`: instructions that follow one another
* `Frame.advance`: doing what straight instructions say

## Main results

* `SuperCall.parts_of_cut`
* `Straight.run_eq`: runs of bodies that begin with an opening
* `Straight.comesTo_iff`, `Straight.comesTo_run_iff`: what they come to
-/

namespace Interpose

open View (Accepts)

namespace SuperCall

/-! ### Cuts -/

/-- An instruction that control goes through, from one to the next, and that leaves the locals as
they are. -/
structure Passes (i : Instruction) : Prop where
  target : i.target? = none
  onward : i.opcode.isTerminator = false
  store : ∀ slot, i ≠ .storeLocal slot

theorem Passes.isReturn_eq_false {i : Instruction} (h : Passes i) : i.opcode.isReturn = false := by
  have honward := h.onward
  unfold Opcode.isTerminator at honward
  split at honward
  · exact nomatch honward
  · exact nomatch honward
  · exact honward

/-- A body that has been cut in two. -/
structure Parts (code opening rest : List Instruction) : Prop where
  begins : ∀ p : Nat, p < opening.length → code[p]? = opening[p]?
  passes : ∀ i ∈ opening, Passes i
  ends : ∀ p : Nat, code[opening.length + p]? =
    (rest[p]?).map (·.mapTarget (· + opening.length))

variable {pool pool' : Pool} {className superName : String} {place : Nat} {stack : List Mark}
variable {code : List Instruction}

/-- What an instruction does to the marks if nothing is special about it: it takes some, and puts on
others that do not stand for the receiver. -/
theorem advance_eq_ok_of_plain {i : Instruction} {stack' : List Mark}
    (hplain : advance pool place stack i = ((i.stackEffect? pool).elim
      (.error s!"invalid constant reference at {place}") fun effect =>
        if stack.length < effect.pops then .error s!"stack underflow at {place}"
        else .ok (List.replicate effect.pushes .other ++ stack.drop effect.pops)))
    (h : advance pool place stack i = .ok stack') :
    ∃ effect, i.stackEffect? pool = some effect ∧ effect.pops ≤ stack.length ∧
      stack' = List.replicate effect.pushes .other ++ stack.drop effect.pops := by
  rw [hplain] at h
  cases heffect : i.stackEffect? pool with
  | none =>
    rw [heffect] at h
    cases h
  | some effect =>
    rw [heffect, Option.elim_some] at h
    split at h
    next => cases h
    next hpops =>
      cases h
      exact ⟨effect, rfl, Nat.le_of_not_lt hpops, rfl⟩

/-- What an instruction does to the marks. -/
theorem advance_eq_ok {i : Instruction} {stack' : List Mark}
    (h : advance pool place stack i = .ok stack') :
    (i = .loadLocal 0 ∧ stack' = .receiver :: stack) ∨
    (∃ a rest, i = .simple .dup ∧ stack = a :: rest ∧ stack' = .other :: .other :: rest) ∨
    (∃ a b rest, i = .simple .swap ∧ stack = a :: b :: rest ∧ stack' = b :: a :: rest) ∨
    ∃ effect, i.stackEffect? pool = some effect ∧ effect.pops ≤ stack.length ∧
      stack' = List.replicate effect.pushes .other ++ stack.drop effect.pops := by
  cases i with
  | loadLocal slot =>
    obtain ⟨⟨n, hn⟩⟩ := slot
    cases n with
    | zero =>
      cases h
      exact .inl ⟨rfl, rfl⟩
    | succ n => exact .inr (.inr (.inr (advance_eq_ok_of_plain rfl h)))
  | storeLocal slot => cases h
  | simple op =>
    cases op with
    | dup =>
      cases stack with
      | nil => cases h
      | cons a rest =>
        cases h
        exact .inr (.inl ⟨a, rest, rfl, rfl, rfl⟩)
    | swap =>
      rcases stack with _ | ⟨a, _ | ⟨b, rest⟩⟩
      · cases h
      · cases h
      · cases h
        exact .inr (.inr (.inl ⟨a, b, rest, rfl, rfl, rfl⟩))
    | _ => exact .inr (.inr (.inr (advance_eq_ok_of_plain rfl h)))
  | invoke kind index =>
    refine .inr (.inr (.inr (advance_eq_ok_of_plain ?_ h)))
    unfold advance
    dsimp only
    cases Instruction.stackEffect? pool (.invoke kind index) <;> rfl
  | jump c label =>
    refine .inr (.inr (.inr (advance_eq_ok_of_plain ?_ h)))
    cases c <;> rfl
  | field access index =>
    refine .inr (.inr (.inr (advance_eq_ok_of_plain ?_ h)))
    cases access <;> rfl
  | _ => exact .inr (.inr (.inr (advance_eq_ok_of_plain rfl h)))

/-- The call is the first instruction, or is looked for behind it. -/
theorem locateFrom_cons_eq_ok {i : Instruction} {rest : List Instruction} {call : Nat}
    (h : locateFrom pool className superName place stack (i :: rest) = .ok call) :
    i.target? = none ∧ i.opcode.isTerminator = false ∧
      ((∃ index m, i = .invoke .special index ∧ pool.method? index = some m ∧
          constructs className superName m = true ∧ checkCall place stack m = .ok () ∧
          call = place) ∨
        (∀ index m, i = .invoke .special index → pool.method? index = some m →
          constructs className superName m = false) ∧
        ∃ stack', advance pool place stack i = .ok stack' ∧
          locateFrom pool className superName (place + 1) stack' rest = .ok call) := by
  unfold locateFrom at h
  dsimp only at h
  split at h
  · cases h
  rename_i hpasses
  rw [Bool.or_eq_true, not_or, Bool.not_eq_true, Bool.not_eq_true,
    Option.isSome_eq_false_iff, Option.isNone_iff_eq_none] at hpasses
  refine ⟨hpasses.1, hpasses.2, ?_⟩
  split at h
  next index =>
    split at h
    · cases h
    rename_i m hm
    split at h
    next hconstructs =>
      obtain ⟨_, hcheck, hcall⟩ := Results.map_eq_ok h
      exact .inl ⟨index, m, rfl, hm, hconstructs, hcheck, hcall.symm⟩
    next hother =>
      split at h
      next => cases h
      next stack' hadvance =>
        refine .inr ⟨fun index' m' hindex hm' => ?_, stack', hadvance, h⟩
        cases hindex
        obtain rfl := Option.some.inj (hm.symm.trans hm')
        exact Bool.eq_false_iff.2 hother
  next hnot =>
    split at h
    next => cases h
    next stack' hadvance =>
      refine .inr ⟨fun index' m' hindex _ => ?_, stack', hadvance, h⟩
      exact (hnot index' hindex).elim

/-- The call is behind instructions that control goes through. -/
theorem locateFrom_eq_ok {call : Nat}
    (h : locateFrom pool className superName place stack code = .ok call) :
    ∃ q, call = place + q ∧ q < code.length ∧
      ∀ (p : Nat) i, p ≤ q → code[p]? = some i → Passes i := by
  induction code generalizing place stack with
  | nil => cases h
  | cons i rest ih =>
    obtain ⟨htarget, hends, ⟨index, m, rfl, -, -, -, hcall⟩ | ⟨-, stack', hadvance, hrest⟩⟩ :=
      locateFrom_cons_eq_ok h
    · refine ⟨0, by omega, Nat.succ_pos _, ?_⟩
      rintro (_ | p) j hp hj
      · cases hj
        exact ⟨rfl, rfl, by rintro _ ⟨⟩⟩
      · exact absurd hp (by omega)
    · obtain ⟨q, rfl, hq, hall⟩ := ih hrest
      refine ⟨q + 1, by omega, Nat.succ_lt_succ hq, ?_⟩
      rintro (_ | p) j hp hj
      · cases hj
        refine ⟨htarget, hends, fun slot hi => ?_⟩
        subst hi
        cases hadvance
      · exact hall p j (by omega) hj

/-- Labels that have been moved down can be moved up again. -/
theorem rebase_eq_ok {start : Nat} {rest : List Instruction} (h : rebase start place code = .ok rest)
    (p : Nat) : code[p]? = (rest[p]?).map (·.mapTarget (· + start)) := by
  induction code generalizing place rest p with
  | nil =>
    cases h
    rfl
  | cons i code ih =>
    rw [rebase] at h
    split at h
    · rename_i label hlabel
      split at h
      · exact nomatch h
      rename_i hle
      obtain ⟨rest', hrest', rfl⟩ := Results.map_eq_ok h
      cases p with
      | succ p => exact ih hrest' p
      | zero =>
        cases i with
        | jump c target =>
          cases hlabel
          have htarget : label - start + start = label := Nat.sub_add_cancel (Nat.le_of_not_lt hle)
          show some (InstructionOf.jump c label) = some (.jump c (label - start + start))
          rw [htarget]
        | _ => exact nomatch hlabel
    · rename_i hnone
      obtain ⟨rest', hrest', rfl⟩ := Results.map_eq_ok h
      cases p with
      | succ p => exact ih hrest' p
      | zero =>
        cases i with
        | jump c target => exact nomatch hnone
        | _ => rfl

/-- **Cuts.** -/
theorem parts_of_cut {superName : Option String} {opening rest : List Instruction}
    (h : cut pool className superName code = .ok (opening, rest)) : Parts code opening rest := by
  unfold cut at h
  split at h
  · cases h
    refine ⟨fun p hp => absurd hp p.not_lt_zero, fun i hi => absurd hi List.not_mem_nil,
      fun p => ?_⟩
    rw [List.length_nil, Nat.zero_add]
    cases code[p]? with
    | none => rfl
    | some i => exact congrArg some (View.mapTarget_add_zero i).symm
  · split at h
    · cases h
    rename_i call hcall
    obtain ⟨body, hbody, heq⟩ := Results.map_eq_ok h
    cases heq
    obtain ⟨q, rfl, hq, hall⟩ := locateFrom_eq_ok hcall
    rw [Nat.zero_add] at hbody ⊢
    have hlen : (code.take (q + 1)).length = q + 1 := List.length_take_of_le hq
    refine ⟨fun p hp => ?_, fun i hi => ?_, fun p => ?_⟩
    · rw [hlen] at hp
      exact (List.getElem?_take_of_lt hp).symm
    · obtain ⟨p, hp, rfl⟩ := List.getElem_of_mem hi
      have hp' : p < q + 1 := hlen ▸ hp
      refine hall p _ (Nat.le_of_lt_succ hp') ?_
      rw [← List.getElem?_take_of_lt hp', List.getElem?_eq_getElem hp]
    · rw [hlen, ← rebase_eq_ok hbody, List.getElem?_drop]

theorem Parts.eq_append {opening rest : List Instruction} (h : Parts code opening rest) :
    code = opening ++ rest.map (·.mapTarget (· + opening.length)) := by
  refine List.ext_getElem? fun p => ?_
  rcases Nat.lt_or_ge p opening.length with hp | hp
  · rw [h.begins p hp, List.getElem?_append_left hp]
  · obtain ⟨q, rfl⟩ := Nat.exists_eq_add_of_le hp
    rw [h.ends, List.getElem?_append_right hp, Nat.add_sub_cancel_left, List.getElem?_map]

/-- What stands behind the cut is read back on its own. -/
theorem Parts.decode_rest {opening rest : List Instruction} (h : Parts code opening rest)
    {bytes : Bytes} (hcode : Code.decode bytes = .ok code) :
    Code.decode (Code.encode rest) = .ok rest := by
  have hwhole : Code.Writable code := Code.writable_of_decode hcode
  rw [h.eq_append] at hwhole
  exact Code.decode_encode hwhole.of_append

/-! ### Cuts in a pool that has grown -/

/-- Instructions whose effect is known. -/
def Known (pool : Pool) (code : List Instruction) : Prop :=
  ∀ i ∈ code, (i.stackEffect? pool).isSome

theorem advance_of_extends (hp : pool.Extends pool') {i : Instruction}
    (hi : (i.stackEffect? pool).isSome) :
    advance pool' place stack i = advance pool place stack i := by
  obtain ⟨effect, heffect⟩ := Option.isSome_iff_exists.1 hi
  have heffect' := hp.stackEffect? heffect
  -- Only calls look into the pool. What the match does elsewhere has to be seen case by case.
  cases i with
  | invoke kind index =>
    unfold advance
    dsimp only
    rw [heffect, heffect']
  | simple op => cases op <;> rfl
  | jump c label => cases c <;> rfl
  | field access index => cases access <;> rfl
  | loadLocal slot =>
    obtain ⟨⟨n, hn⟩⟩ := slot
    cases n <;> rfl
  | _ => rfl

theorem locateFrom_of_extends (hp : pool.Extends pool') (hcode : Known pool code) :
    locateFrom pool' className superName place stack code =
      locateFrom pool className superName place stack code := by
  induction code generalizing place stack with
  | nil => rfl
  | cons i rest ih =>
    have hi := hcode i List.mem_cons_self
    have hrest : ∀ place stack, locateFrom pool' className superName place stack rest =
        locateFrom pool className superName place stack rest :=
      fun _ _ => ih fun j hj => hcode j (List.mem_cons_of_mem i hj)
    unfold locateFrom
    rw [advance_of_extends hp hi]
    simp only [hrest]
    cases i with
    | invoke kind index =>
      cases kind with
      | special =>
        have hsome : (pool.method? index).isSome := by
          cases hm : pool.method? index with
          | none =>
            simp only [Instruction.stackEffect?, hm, Option.isSome_none, Bool.false_eq_true] at hi
          | some m => rfl
        obtain ⟨m, hm⟩ := Option.isSome_iff_exists.1 hsome
        simp only [hm, hp.method? hm]
      | _ => rfl
    | _ => rfl

/-- A body whose instructions have an effect is cut alike in a pool that has grown. -/
theorem cut_of_extends (hp : pool.Extends pool') (hcode : Known pool code)
    (superName : Option String) :
    cut pool' className superName code = cut pool className superName code := by
  cases superName with
  | none => rfl
  | some superName => rw [cut, cut, locate, locate, locateFrom_of_extends hp hcode]

end SuperCall

/-! ### Straight instructions -/

/-- Instructions that follow one another, from one depth of the stack to another, without writing the
locals. -/
inductive Straight (pool : Pool) (locals : List Value) : Nat → List Instruction → Nat → Prop
  | nil (n : Nat) : Straight pool locals n [] n
  | cons {i : Instruction} {rest : List Instruction} {effect : StackEffect} {n n' : Nat}
    (passes : SuperCall.Passes i) (accepts : Accepts pool (· = locals) i effect)
    (pops : effect.pops ≤ n)
    (onward : Straight pool locals (n - effect.pops + effect.pushes) rest n') :
    Straight pool locals n (i :: rest) n'

/-- Straight instructions of a typed body. -/
theorem Straight.of_typed {pool : Pool} {keeps : List Value → Prop} {returnsVoid : Bool}
    {code : Array Instruction} {depthAt : Nat → Option Nat}
    (h : Typed pool keeps returnsVoid code depthAt) {opening : List Instruction} {p n : Nat}
    (hn : depthAt p = some n) (hcode : ∀ q : Nat, q < opening.length → code[p + q]? = opening[q]?)
    (hpasses : ∀ i ∈ opening, SuperCall.Passes i) {locals : List Value} (hlocals : keeps locals) :
    ∃ n', Straight pool locals n opening n' := by
  induction opening generalizing p n with
  | nil => exact ⟨n, .nil n⟩
  | cons i opening ih =>
    obtain ⟨i', effect, hi', haccepts, hpops, -, hnext⟩ := h p n hn
    obtain rfl : i' = i := Option.some.inj (hi'.symm.trans (hcode 0 (Nat.succ_pos _)))
    have hi := hpasses i' List.mem_cons_self
    have hsucc : p + 1 ∈ Verifier.successors p i' := by
      rw [Verifier.successors, hi.onward]
      exact List.mem_append_right _ List.mem_cons_self
    obtain ⟨n', hn'⟩ := ih (hnext _ hsucc)
      (fun q hq => by
        rw [Nat.add_assoc, Nat.add_comm 1]
        exact hcode (q + 1) (Nat.succ_lt_succ hq))
      fun j hj => hpasses j (List.mem_cons_of_mem i' hj)
    refine ⟨n', .cons hi ?_ hpops hn'⟩
    exact {
      effect_eq := haccepts.effect_eq
      string := haccepts.string
      cls := haccepts.cls
      field := haccepts.field
      read := by
        rintro slot hslot _ rfl
        exact haccepts.read slot hslot _ hlocals
      write := fun slot hslot => absurd hslot (hi.store slot)
      tag := haccepts.tag }

/-- Does what instructions say, one after the other. -/
def Frame.advance (handlers : Handlers) (execute : Execute) : List Instruction → Frame → Run Frame
  | [], f => pure f
  | i :: rest, f => do
    let (_, f) ← Act.step execute handlers i { f with pc := f.pc + 1 }
    Frame.advance handlers execute rest f

section Advancing

variable {handlers : Handlers} {execute : Execute} {c : ClassRef} {locals stack : List Value}
variable {start m m' : Machine} {n n' p : Nat} {opening : List Instruction}

/-- An instruction that control goes through leaves the frame before the next one. -/
theorem SuperCall.Passes.step {i : Instruction} {effect : StackEffect} (hi : SuperCall.Passes i)
    (haccepts : Accepts (start.cls c).constants (· = locals) i effect)
    (hpops : effect.pops ≤ stack.length) (hc : start.classes.Has c)
    (he : Simulation.exactly.ExecuteSim execute execute) (hm : start.Extends m)
    {a : Option Value} {f : Frame}
    (h : Act.step execute handlers i ⟨c, p + 1, locals, stack⟩ m = some (.ok (a, f), m')) :
    a = none ∧ m.Evolves m' ∧ ∃ stack', f = ⟨c, p + 1, locals, stack'⟩ ∧
      stack'.length = stack.length - effect.pops + effect.pushes := by
  let S := Simulation.exactly.since start
  let V : View S := .active Simulation.exactly start c hc (· = locals) 0 []
  have hstep : V.Follows (V.At (stack.length - effect.pops + effect.pops) (· = p + 1)) i p
      (stack.length - effect.pops + effect.pushes) (Act.step execute handlers i)
      (Act.step execute handlers (i.mapTarget (· + 0))) :=
    View.step_sim (he.since start) ((Simulation.handlersSim_exactly handlers).since start)
      fun _ => haccepts
  have hat : V.At (stack.length - effect.pops + effect.pops) (· = p + 1)
      ⟨c, p + 1, locals, stack⟩ := fun _ => ⟨rfl, by rw [Nat.sub_add_cancel hpops], rfl, rfl⟩
  have ho := hstep ⟨c, p + 1, locals, stack⟩ hat m m ⟨rfl, hm⟩
  rw [h] at ho
  rcases hstep' : Act.step execute handlers (i.mapTarget (· + 0)) (V.shift ⟨c, p + 1, locals, stack⟩) m
    with _ | ⟨_ | ⟨b, _⟩, m''⟩ <;> rw [hstep'] at ho
  · exact ho.elim
  · exact ho.elim
  obtain ⟨⟨⟨-, ha⟩, hbehind, -⟩, -, hevolves⟩ := ho
  obtain ⟨hcls, hdepth, hlocals, hplace⟩ := hbehind trivial
  have hreturn := hi.isReturn_eq_false
  have hnext : f.pc = p + 1 := by
    rcases hplace with hret | hsucc
    · exact absurd hret (by rw [hreturn]; exact nofun)
    · rw [Verifier.successors, hi.target, hi.onward] at hsucc
      exact List.mem_singleton.1 hsucc
  obtain ⟨cls, pc, locals', stack'⟩ := f
  obtain rfl : cls = c := hcls
  obtain rfl : locals' = locals := hlocals
  obtain rfl : pc = p + 1 := hnext
  exact ⟨ha.eq_none hreturn, hevolves, stack', rfl, hdepth⟩

/-- Behind straight instructions a frame has the locals it had before. -/
theorem Straight.advance_ok (h : Straight (start.cls c).constants locals n opening n')
    (hn : stack.length = n) (hc : start.classes.Has c)
    (he : Simulation.exactly.ExecuteSim execute execute) (hm : start.Extends m) {f : Frame}
    (hadvance : Frame.advance handlers execute opening ⟨c, p, locals, stack⟩ m =
      some (.ok f, m')) :
    m.Evolves m' ∧ ∃ stack', f = ⟨c, p + opening.length, locals, stack'⟩ ∧
      stack'.length = n' := by
  induction h generalizing p stack m with
  | nil n =>
    cases hadvance
    exact ⟨.refl _, stack, rfl, hn⟩
  | @cons i rest effect n n' hi haccepts hpops _ ih =>
    rw [Frame.advance, Run.bind_apply] at hadvance
    rcases hstep : Act.step execute handlers i ⟨c, p + 1, locals, stack⟩ m
      with _ | ⟨_ | ⟨a, f₁⟩, m₁⟩ <;> rw [hstep] at hadvance
    · exact nomatch hadvance
    · exact nomatch hadvance
    obtain ⟨rfl, hevolves, stack₁, rfl, hlength⟩ :=
      hi.step haccepts (hn ▸ hpops) hc he hm hstep
    rw [hn] at hlength
    obtain ⟨hevolves', stack', rfl, hlength'⟩ := ih hlength (hm.trans hevolves.classes) hadvance
    refine ⟨hevolves.trans hevolves', stack', ?_, hlength'⟩
    rw [List.length_cons, Nat.add_right_comm, Nat.add_assoc]

/-- **Openings.** A run of a body that goes on with straight instructions is a run of these, and then
of the body from behind them. -/
theorem Straight.run_eq (h : Straight (start.cls c).constants locals n opening n')
    (hn : stack.length = n) (hc : start.classes.Has c)
    (he : Simulation.exactly.ExecuteSim execute execute) (hm : start.Extends m)
    {k : LoadedMethod} (hcode : ∀ q : Nat, q < opening.length → k.code[p + q]? = opening[q]?)
    (owner : String) (fuel : Nat) :
    Frame.run handlers execute owner k (fuel + opening.length) ⟨c, p, locals, stack⟩ m =
      (Frame.advance handlers execute opening ⟨c, p, locals, stack⟩ >>=
        Frame.run handlers execute owner k fuel) m := by
  induction h generalizing p stack m with
  | nil n => rfl
  | @cons i rest effect n n' hi haccepts hpops _ ih =>
    have hfirst : k.code[p]? = some i := hcode 0 (Nat.succ_pos _)
    have hrest : ∀ q : Nat, q < rest.length → k.code[p + 1 + q]? = rest[q]? := fun q hq => by
      rw [Nat.add_assoc, Nat.add_comm 1]
      exact hcode (q + 1) (Nat.succ_lt_succ hq)
    rw [List.length_cons, ← Nat.add_assoc, Frame.run, Frame.advance, hfirst, bind_assoc]
    dsimp only [StateT.run]
    rw [Run.bind_apply, Run.bind_apply]
    rcases hstep : Act.step execute handlers i ⟨c, p + 1, locals, stack⟩ m
      with _ | ⟨_ | ⟨a, f₁⟩, m₁⟩
    · rfl
    · rfl
    obtain ⟨rfl, hevolves, stack₁, rfl, hlength⟩ :=
      hi.step haccepts (hn ▸ hpops) hc he hm hstep
    rw [hn] at hlength
    exact ih hlength (hm.trans hevolves.classes) hrest

end Advancing

/-- Straight instructions follow each other in any simulation in which anything may happen. -/
theorem Simulation.Lax.advance_sim {S : Simulation} (h : S.Lax) {handlers : Handlers}
    {execute execute' : Execute} (he : S.ExecuteSim execute execute') (hh : S.HandlersSim handlers)
    (opening : List Instruction) (f : Frame) :
    S.Sim Eq (Frame.advance handlers execute opening f)
      (Frame.advance handlers execute' opening f) := by
  induction opening generalizing f with
  | nil => exact Sim.pure rfl
  | cons i rest ih =>
    let V := View.blank h
    have hunknown : V.known → Accepts V.pool V.keeps i ⟨0, 0⟩ := False.elim
    have hstep : V.Follows (V.At (0 + 0) (· = f.pc + 1)) i f.pc (0 + 0)
        (Act.step execute handlers i) (Act.step execute' handlers (i.mapTarget (· + 0))) :=
      View.step_sim he hh hunknown
    rw [View.mapTarget_add_zero] at hstep
    have hsim := hstep { f with pc := f.pc + 1 } False.elim
    rw [V.shift_of_empty ⟨rfl, rfl⟩] at hsim
    refine Sim.bind hsim ?_
    rintro ⟨a, f'⟩ ⟨_, _⟩ ⟨-, -, rfl⟩
    rw [V.shift_of_empty ⟨rfl, rfl⟩]
    exact ih f'

/-- **Openings and fuel.** -/
theorem steady_advance {handlers : Handlers} {limit : Limit} (opening : List Instruction)
    (f : Frame) : Steady fun n => Frame.advance handlers (executeBy limit handlers n) opening f := by
  rintro fuel fuel' m ⟨r, m'⟩ h hle
  exact ((Simulation.exactly_lax.advance_sim (Simulation.executeBy_exactly limit handlers hle)
    (Simulation.handlersSim_exactly handlers) opening f).eq_of_exactly h).1

/-- Once the opening has run, what a body comes to is what it comes to from there. -/
theorem Straight.comesTo_iff {handlers : Handlers} {limit : Limit} {c : ClassRef}
    {locals stack : List Value} {m m₁ : Machine} {n' p : Nat} {opening : List Instruction}
    (h : Straight (m.cls c).constants locals stack.length opening n') (hc : m.classes.Has c)
    {k : LoadedMethod} (hcode : ∀ q : Nat, q < opening.length → k.code[p + q]? = opening[q]?)
    {f : Frame} (hadvance : ComesTo (fun n => Frame.advance handlers (executeBy limit handlers n)
      opening ⟨c, p, locals, stack⟩) m (.ok f, m₁)) (owner : String)
    {o : Except VmError Value × Machine} :
    ComesTo (fun n => Frame.run handlers (executeBy limit handlers n) owner k n
        ⟨c, p, locals, stack⟩) m o ↔
      ComesTo (fun n => Frame.run handlers (executeBy limit handlers n) owner k n f) m₁ o := by
  obtain ⟨fuel₀, hfuel₀⟩ := hadvance
  -- With fuel for the opening, a run is one from behind it, with fewer steps.
  have hrun : ∀ fuel, Frame.run handlers (executeBy limit handlers (fuel + fuel₀ + opening.length))
      owner k (fuel + fuel₀ + opening.length) ⟨c, p, locals, stack⟩ m =
        Frame.run handlers (executeBy limit handlers (fuel + fuel₀ + opening.length)) owner k
          (fuel + fuel₀) f m₁ := by
    intro fuel
    have he : Simulation.exactly.ExecuteSim
        (executeBy limit handlers (fuel + fuel₀ + opening.length))
        (executeBy limit handlers (fuel + fuel₀ + opening.length)) :=
      Simulation.executeBy_exactly limit handlers (Nat.le_refl _)
    have hmore : Frame.advance handlers (executeBy limit handlers (fuel + fuel₀ + opening.length))
        opening ⟨c, p, locals, stack⟩ m = some (.ok f, m₁) :=
      steady_advance opening ⟨c, p, locals, stack⟩ fuel₀ _ m _ hfuel₀ (by omega)
    rw [h.run_eq rfl hc he (.refl m) hcode, Run.bind_apply, hmore]
  constructor
  · rintro ⟨fuel, hfuel⟩
    refine ⟨fuel + fuel₀ + opening.length, ?_⟩
    have hmore : Frame.run handlers (executeBy limit handlers (fuel + fuel₀ + opening.length)) owner k
        (fuel + fuel₀ + opening.length) ⟨c, p, locals, stack⟩ m = some o :=
      run_of_le (by omega) (by omega) hfuel
    exact run_of_le (Nat.le_refl _) (by omega) ((hrun fuel).symm.trans hmore)
  · rintro ⟨fuel, hfuel⟩
    exact ⟨fuel + fuel₀ + opening.length,
      (hrun fuel).trans (run_of_le (by omega) (by omega) hfuel)⟩

/-- **Runs through an opening.** A body that begins with straight instructions fails where one of these
fails, and comes to what it comes to from behind them. -/
theorem Straight.comesTo_run_iff {handlers : Handlers} {limit : Limit} {c : ClassRef}
    {locals stack : List Value} {m : Machine} {n' p : Nat} {opening : List Instruction}
    (h : Straight (m.cls c).constants locals stack.length opening n') (hc : m.classes.Has c)
    {k : LoadedMethod} (hcode : ∀ q : Nat, q < opening.length → k.code[p + q]? = opening[q]?)
    (owner : String) {o : Except VmError Value × Machine} :
    ComesTo (fun n => Frame.run handlers (executeBy limit handlers n) owner k n
        ⟨c, p, locals, stack⟩) m o ↔
      (∃ e m₁, ComesTo (fun n => Frame.advance handlers (executeBy limit handlers n) opening
          ⟨c, p, locals, stack⟩) m (.error e, m₁) ∧ o = (.error e, m₁)) ∨
      ∃ f m₁, ComesTo (fun n => Frame.advance handlers (executeBy limit handlers n) opening
          ⟨c, p, locals, stack⟩) m (.ok f, m₁) ∧
        ComesTo (fun n => Frame.run handlers (executeBy limit handlers n) owner k n f) m₁ o := by
  have hrun : ∀ fuel steps, Frame.run handlers (executeBy limit handlers fuel) owner k
      (steps + opening.length) ⟨c, p, locals, stack⟩ m =
        (Frame.advance handlers (executeBy limit handlers fuel) opening ⟨c, p, locals, stack⟩ >>=
          Frame.run handlers (executeBy limit handlers fuel) owner k steps) m := fun fuel steps =>
    h.run_eq rfl hc (Simulation.executeBy_exactly limit handlers (Nat.le_refl _)) (.refl m) hcode
      owner steps
  constructor
  · rintro ⟨fuel, hfuel⟩
    have hmore : Frame.run handlers (executeBy limit handlers fuel) owner k (fuel + opening.length)
        ⟨c, p, locals, stack⟩ m = some o := run_of_le (Nat.le_refl _) (by omega) hfuel
    rw [hrun, Run.bind_apply] at hmore
    rcases hadvance : Frame.advance handlers (executeBy limit handlers fuel) opening
      ⟨c, p, locals, stack⟩ m with _ | ⟨e | f, m₁⟩ <;> rw [hadvance] at hmore
    · exact nomatch hmore
    · exact .inl ⟨e, m₁, ⟨fuel, hadvance⟩, (Option.some.inj hmore).symm⟩
    · exact .inr ⟨f, m₁, ⟨fuel, hadvance⟩, fuel, hmore⟩
  · rintro (⟨e, m₁, ⟨fuel, hfuel⟩, rfl⟩ | ⟨f, m₁, hadvance, hrest⟩)
    · refine ⟨fuel + opening.length, ?_⟩
      have hmore : Frame.advance handlers (executeBy limit handlers (fuel + opening.length)) opening
          ⟨c, p, locals, stack⟩ m = some (.error e, m₁) :=
        steady_advance opening ⟨c, p, locals, stack⟩ fuel _ m _ hfuel (by omega)
      dsimp only
      rw [hrun, Run.bind_apply, hmore]
    · exact (h.comesTo_iff hc hcode hadvance owner).2 hrest

end Interpose
