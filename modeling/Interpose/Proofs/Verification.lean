import Interpose.Proofs.Methods
import Interpose.Proofs.Pools
/-!
# What verification accepts

Verification follows paths in an order of its own and stops at the first fault. What it accepts can be
said without that: a body passes exactly if every operand is found and the places can be given depths
that its instructions agree with. The name under which a method is reported has no part in it, so a
method that has passed goes on passing under another name, with more entries in its pool, and with
more locals.

## Main definitions

* `Verifier.Found`: an operand that leads to something
* `Verifier.Agrees`: depths that the instructions of a body agree with
* `Verifier.Passes`: a body that passes

## Main results

* `Verifier.checkStack_eq_ok_iff`: following paths accepts every body that can be given depths
* `Verifier.checkBody_eq_ok_iff`, `Verifier.checkMethod_eq_ok_iff`
* `Verifier.checkMethod_of_extends`
-/

namespace Interpose

namespace Verifier

variable {method method' : String} {pool pool' : Pool} {maxLocals maxLocals' : UInt16}
variable {returnsVoid : Bool} {code : List Instruction} {depthAt : Nat → Option Nat}

/-! ### Operands -/

/-- What the operand of an instruction names is there. -/
def Found (pool : Pool) (maxLocals : UInt16) : Instruction → Prop
  | .constString i => (pool.string? i).isSome
  | .constClass i | .new i | .instanceOf i => (pool.class? i).isSome
  | .field _ i => (pool.field? i).isSome
  | .invoke _ i =>
    ∃ m signature, pool.method? i = some m ∧ MethodDesc.parse m.descriptor = .ok signature
  | .loadLocal n | .storeLocal n => n < maxLocals
  | _ => True

theorem checkOperand_eq_ok_iff (method : String) (place : Nat) {i : Instruction} :
    checkOperand method pool maxLocals place i = .ok () ↔ Found pool maxLocals i := by
  have hentry : ∀ {α : Type} {a : Option α} {e : VerifyError},
      (if a.isNone then Except.error e else .ok ()) = .ok () ↔ a.isSome := by
    intro α a e
    cases a <;> simp
  have hslot : ∀ {n : UInt16} {e : VerifyError},
      (if maxLocals ≤ n then Except.error e else .ok ()) = .ok () ↔ n < maxLocals := by
    intro n e
    rw [← UInt16.not_le]
    split <;> simp [*]
  cases i with
  | constString i => exact hentry
  | constClass i | new i | instanceOf i => exact hentry
  | field access i => exact hentry
  | loadLocal n | storeLocal n => exact hslot
  | invoke kind i =>
    simp only [checkOperand, Found]
    cases pool.method? i with
    | none => simp
    | some m => cases hs : MethodDesc.parse m.descriptor <;> simp [hs]
  | _ => exact ⟨fun _ => trivial, fun _ => rfl⟩

theorem checkOperands_eq_ok_iff (method : String) (place : Nat) :
    checkOperands method pool maxLocals place code = .ok () ↔ ∀ i ∈ code, Found pool maxLocals i := by
  induction code generalizing place with
  | nil => exact ⟨fun _ => nofun, fun _ => rfl⟩
  | cons i rest ih =>
    rw [List.forall_mem_cons, ← ih (place + 1),
      ← checkOperand_eq_ok_iff method place]
    rw [checkOperands]
    cases checkOperand method pool maxLocals place i <;> simp

/-- What is found stays to be found. -/
theorem Found.mono (hp : pool.Extends pool') (hl : maxLocals ≤ maxLocals') {i : Instruction}
    (h : Found pool maxLocals i) : Found pool' maxLocals' i := by
  have hsome : ∀ {α : Type} {a b : Option α}, (∀ x, a = some x → b = some x) → a.isSome →
      b.isSome := by
    intro α a b hab ha
    obtain ⟨x, hx⟩ := Option.isSome_iff_exists.1 ha
    exact Option.isSome_iff_exists.2 ⟨x, hab x hx⟩
  cases i with
  | constString i => exact hsome (fun _ => hp.string?) h
  | constClass i | new i | instanceOf i => exact hsome (fun _ => hp.class?) h
  | field access i => exact hsome (fun _ => hp.field?) h
  | loadLocal n | storeLocal n => exact UInt16.lt_of_lt_of_le h hl
  | invoke kind i =>
    obtain ⟨m, signature, hm, hs⟩ := h
    exact ⟨m, signature, hp.method? hm, hs⟩
  | _ => trivial

/-- An instruction whose operand is found has an effect. -/
theorem Found.exists_effect {i : Instruction} (h : Found pool maxLocals i) :
    ∃ effect, i.stackEffect? pool = some effect := by
  cases i with
  | jump c _ => cases c <;> exact ⟨_, rfl⟩
  | field access _ => cases access <;> exact ⟨_, rfl⟩
  | invoke kind index =>
    obtain ⟨m, signature, hm, hs⟩ := h
    exact ⟨signature.stackEffect kind, by simp only [Instruction.stackEffect?, hm, hs]⟩
  | _ => exact ⟨_, rfl⟩

/-! ### Depths -/

/-- Depths of places of a body that its instructions agree with. Where there is a depth there is an
instruction, which finds its operands, may return, and leaves the depths behind it. -/
def Agrees (pool : Pool) (returnsVoid : Bool) (code : List Instruction)
    (depthAt : Nat → Option Nat) : Prop :=
  ∀ p n, depthAt p = some n → ∃ i effect, code[p]? = some i ∧ i.stackEffect? pool = some effect ∧
    effect.pops ≤ n ∧ returnMismatch returnsVoid i = false ∧
    ∀ q ∈ successors p i, depthAt q = some (n - effect.pops + effect.pushes)

theorem Agrees.of_extends (hp : pool.Extends pool') (h : Agrees pool returnsVoid code depthAt) :
    Agrees pool' returnsVoid code depthAt := by
  intro p n hn
  obtain ⟨i, effect, hi, heffect, hrest⟩ := h p n hn
  exact ⟨i, effect, hi, hp.stackEffect? heffect, hrest⟩

theorem Agrees.depthAfter_eq_ok (h : Agrees pool returnsVoid code depthAt) (method : String)
    {p n : Nat} (hn : depthAt p = some n) :
    ∃ i next, code[p]? = some i ∧ depthAfter method pool returnsVoid p n i = .ok next ∧
      ∀ q ∈ successors p i, depthAt q = some next := by
  obtain ⟨i, effect, hi, heffect, hpops, hreturn, hnext⟩ := h p n hn
  refine ⟨i, _, hi, ?_, hnext⟩
  unfold depthAfter
  rw [heffect, Option.getD_some, if_neg (Nat.not_lt_of_le hpops), hreturn]
  rfl

/-- What is known after some rounds is what the assignment says. -/
structure Progress.Fits (code : List Instruction) (depthAt : Nat → Option Nat) (s : Progress) :
    Prop where
  size_eq : s.depths.size = code.length
  known : ∀ p n, s.Knows p n → depthAt p = some n

theorem Progress.fits_start (h : depthAt 0 = some 0) :
    (Progress.start code.length).Fits code depthAt := by
  refine ⟨Array.size_replicate .., fun p n hp => ?_⟩
  rcases hp with hmade | hmem
  · obtain ⟨hlt, heq⟩ := Array.getElem?_eq_some_iff.1 hmade
    have hnone : (Progress.start code.length).depths[p] = none := Array.getElem_replicate ..
    cases hnone.symm.trans heq
  · cases List.mem_singleton.1 hmem
    exact h

/-- A round on an entry that the assignment knows does not give up, and finds nothing that the
assignment does not know. -/
theorem Agrees.exists_enter (h : Agrees pool returnsVoid code depthAt) {s : Progress}
    (hs : s.Fits code depthAt) {entry : Nat × Nat} {rest : List (Nat × Nat)}
    (hperm : s.pending.Perm (entry :: rest)) :
    ∃ s', Progress.enter method pool returnsVoid code.toArray s.depths entry rest = .ok s' ∧
      s'.Fits code depthAt := by
  obtain ⟨p, n⟩ := entry
  have hplace : depthAt p = some n := hs.known p n (.inr (hperm.mem_iff.2 List.mem_cons_self))
  have hrest : ∀ q m, (q, m) ∈ rest → depthAt q = some m := fun q m hq =>
    hs.known q m (.inr (hperm.mem_iff.2 (List.mem_cons_of_mem _ hq)))
  obtain ⟨i, next, hi, hnext, hsucc⟩ := h.depthAfter_eq_ok method hplace
  have hlt : p < s.depths.size := hs.size_eq ▸ (List.getElem?_eq_some_iff.1 hi).1
  unfold Progress.enter
  rw [List.getElem?_toArray, hi, Array.getElem?_eq_getElem hlt]
  cases hd : s.depths[p] with
  | none =>
    dsimp only
    rw [hnext]
    refine ⟨_, rfl, (Array.size_setIfInBounds ..).trans hs.size_eq, fun q m hq => ?_⟩
    rcases hq with hmade | hmem
    · by_cases hne : p = q
      · subst hne
        rw [Array.getElem?_setIfInBounds_self_of_lt hlt] at hmade
        cases hmade
        exact hplace
      · rw [Array.getElem?_setIfInBounds_ne hne] at hmade
        exact hs.known q m (.inl hmade)
    · rcases List.mem_append.1 hmem with hmem | hmem
      · obtain ⟨r, hr, heq⟩ := List.mem_map.1 hmem
        cases heq
        exact hsucc q (List.mem_reverse.1 hr)
      · exact hrest q m hmem
  | some first =>
    have hfirst := (hs.known p first (.inl (hd ▸ Array.getElem?_eq_getElem hlt))).symm.trans hplace
    dsimp only
    rw [if_pos (Option.some.inj hfirst)]
    refine ⟨_, rfl, hs.size_eq, fun q m hq => ?_⟩
    rcases hq with hmade | hmem
    · exact hs.known q m (.inl hmade)
    · exact hrest q m hmem

/-- Whatever the order, what is known is what the assignment says. -/
theorem Agrees.fits_of_rounds (h : Agrees pool returnsVoid code depthAt) (hstart : depthAt 0 = some 0)
    {k : Nat} {s : Progress} (hrounds : Rounds method pool returnsVoid code.toArray k s) :
    s.Fits code depthAt := by
  induction hrounds with
  | start => exact Progress.fits_start hstart
  | take _ htakes ih =>
    obtain ⟨entry, rest, hperm, henter⟩ := htakes
    obtain ⟨s'', henter', hfits⟩ := h.exists_enter ih hperm
    obtain rfl := Except.ok.inj (henter.symm.trans henter')
    exact hfits

/-- Whatever the order, nothing is given up on. -/
theorem Agrees.not_refuses (h : Agrees pool returnsVoid code depthAt) (hstart : depthAt 0 = some 0)
    {k : Nat} {s : Progress} (hrounds : Rounds method pool returnsVoid code.toArray k s)
    (e : VerifyError) : ¬ s.Refuses method pool returnsVoid code.toArray e := by
  rintro ⟨entry, rest, hperm, herror⟩
  obtain ⟨s', henter, -⟩ := h.exists_enter (h.fits_of_rounds hstart hrounds) hperm
  cases herror.symm.trans henter

/-- Depths with which all places have been entered are depths that the instructions agree with. -/
theorem agrees_of_entered (hfound : ∀ i ∈ code, Found pool maxLocals i)
    (h : ∀ p n, depthAt p = some n → Entered method pool returnsVoid code.toArray depthAt p n) :
    Agrees pool returnsVoid code depthAt := by
  intro p n hn
  obtain ⟨i, next, hi, hnext, hsucc⟩ := h p n hn
  rw [List.getElem?_toArray] at hi
  obtain ⟨effect, heffect⟩ := (hfound i (List.mem_of_getElem? hi)).exists_effect
  unfold depthAfter at hnext
  rw [heffect, Option.getD_some] at hnext
  dsimp only at hnext
  split at hnext
  · cases hnext
  rename_i hpops
  split at hnext
  · cases hnext
  rename_i hreturn
  cases hnext
  exact ⟨i, effect, hi, heffect, Nat.le_of_not_lt hpops, Bool.eq_false_iff.2 hreturn, hsucc⟩

/-- **Depths.** Following paths accepts a body whose operands are found exactly if its places can be
given depths that its instructions agree with, from an empty stack on. -/
theorem checkStack_eq_ok_iff (hfound : ∀ i ∈ code, Found pool maxLocals i) :
    checkStack method pool returnsVoid code = .ok () ↔
      ∃ depthAt, depthAt 0 = some 0 ∧ Agrees pool returnsVoid code depthAt := by
  constructor
  · intro h
    obtain ⟨depthAt, hstart, hentered⟩ := exists_depths_of_checkStack h
    exact ⟨depthAt, hstart, agrees_of_entered hfound hentered⟩
  · rintro ⟨depthAt, hstart, hagrees⟩
    obtain ⟨k, s, hrounds, hend⟩ := exists_rounds_of_checkStack method pool returnsVoid code
    rcases hend with ⟨-, hok⟩ | ⟨e, hrefuses, -⟩
    · exact hok
    · exact (hagrees.not_refuses hstart hrounds e hrefuses).elim

/-! ### Instructions whose targets are moved -/

theorem found_mapTarget {f : Nat → Nat} {i : Instruction} :
    Found pool maxLocals (i.mapTarget f) ↔ Found pool maxLocals i := by
  cases i <;> rfl

theorem stackEffect?_mapTarget {f : Nat → Nat} {i : Instruction} :
    Instruction.stackEffect? pool (i.mapTarget f) = i.stackEffect? pool := by
  cases i with
  | jump c label => cases c <;> rfl
  | field access index => cases access <;> rfl
  | _ => rfl

theorem returnMismatch_mapTarget {f : Nat → Nat} {i : Instruction} :
    returnMismatch returnsVoid (i.mapTarget f) = returnMismatch returnsVoid i := by
  cases i <;> rfl

theorem mem_successors_mapTarget {offset p q : Nat} {i : Instruction}
    (h : q ∈ successors p i) :
    offset + q ∈ successors (offset + p) (i.mapTarget (· + offset)) := by
  unfold successors at h ⊢
  rw [InstructionOf.opcode_mapTarget]
  rcases List.mem_append.1 h with h | h
  · refine List.mem_append_left _ ?_
    cases i with
    | jump c label =>
      rw [List.mem_singleton.1 h, Nat.add_comm]
      exact List.mem_cons_self
    | _ => exact nomatch h
  · refine List.mem_append_right _ ?_
    split at h
    · exact nomatch h
    · rw [if_neg ‹_›, List.mem_singleton.1 h]
      exact List.mem_cons_self

/-! ### Bodies and methods -/

/-- A body that passes: its operands are found, and its places can be given depths. -/
structure Passes (pool : Pool) (maxLocals : UInt16) (returnsVoid : Bool) (code : List Instruction) :
    Prop where
  found : ∀ i ∈ code, Found pool maxLocals i
  depths : ∃ depthAt, depthAt 0 = some 0 ∧ Agrees pool returnsVoid code depthAt

theorem Passes.mono (hp : pool.Extends pool') (hl : maxLocals ≤ maxLocals')
    (h : Passes pool maxLocals returnsVoid code) : Passes pool' maxLocals' returnsVoid code := by
  obtain ⟨hfound, depthAt, hstart, hagrees⟩ := h
  exact ⟨fun i hi => (hfound i hi).mono hp hl, depthAt, hstart, hagrees.of_extends hp⟩

/-- **Bodies.** A body passes exactly if its locals have room for what is handed over, and it can be read
as a program that passes. -/
theorem checkBody_eq_ok_iff (method : String) {m : MethodDef} {signature : MethodDesc} :
    checkBody method pool m signature = .ok () ↔
      signature.arity + (!m.isStatic).toNat ≤ m.maxLocals.toNat ∧
      ∃ code, Code.decode m.code = .ok code ∧
        Passes pool m.maxLocals signature.ret.isVoid code := by
  constructor
  · intro h
    obtain ⟨code, hcode, hroom, hoperands, hstack⟩ := checkBody_eq_ok h
    have hfound := (checkOperands_eq_ok_iff method 0).1 hoperands
    exact ⟨hroom, code, hcode, hfound, (checkStack_eq_ok_iff hfound).1 hstack⟩
  · rintro ⟨hroom, code, hcode, hpasses⟩
    unfold checkBody
    dsimp only
    rw [if_neg (Nat.not_lt_of_le hroom), hcode]
    dsimp only
    rw [(checkOperands_eq_ok_iff method 0).2 hpasses.found]
    exact (checkStack_eq_ok_iff hpasses.found).2 hpasses.depths

/-- **Methods.** A method passes under any name exactly if its signature can be read, and it has
a body that passes, or none if it is native or abstract. -/
theorem checkMethod_eq_ok_iff {className : String} {m : MethodDef} :
    checkMethod className pool m = .ok () ↔
      ∃ signature, m.signature = .ok signature ∧
        if m.isNative || m.isAbstract then m.code = []
        else m.code ≠ [] ∧ signature.arity + (!m.isStatic).toNat ≤ m.maxLocals.toNat ∧
          ∃ code, Code.decode m.code = .ok code ∧
            Passes pool m.maxLocals signature.ret.isVoid code := by
  unfold checkMethod
  dsimp only
  cases m.signature with
  | error e => simp
  | ok signature =>
    have hsame : ∀ {P : MethodDesc → Prop},
        (∃ s, Except.ok signature = (Except.ok s : Except DescriptorError _) ∧ P s) ↔ P signature :=
      ⟨fun ⟨_, heq, h⟩ => Except.ok.inj heq ▸ h, fun h => ⟨signature, rfl, h⟩⟩
    rw [hsame, ← checkBody_eq_ok_iff (qualifiedName className m)]
    dsimp only
    by_cases hcode : m.code = []
    · rw [hcode]
      split <;> simp
    · rw [List.isEmpty_eq_false_iff.2 hcode]
      split <;> simp [hcode]

/-- A method that passes goes on passing under another name, when the pool grows. -/
theorem checkMethod_of_extends {className className' : String} {m : MethodDef} (name : String)
    (hp : pool.Extends pool') (h : checkMethod className pool m = .ok ()) :
    checkMethod className' pool' { m with name := name } = .ok () := by
  rw [checkMethod_eq_ok_iff] at h ⊢
  obtain ⟨signature, hsignature, hrest⟩ := h
  refine ⟨signature, hsignature, ?_⟩
  show if m.isNative || m.isAbstract then m.code = []
    else m.code ≠ [] ∧ signature.arity + (!m.isStatic).toNat ≤ m.maxLocals.toNat ∧
      ∃ code, Code.decode m.code = .ok code ∧ Passes pool' m.maxLocals signature.ret.isVoid code
  split at hrest
  · rwa [if_pos ‹_›]
  · obtain ⟨hcode, hroom, code, hdecode, hpasses⟩ := hrest
    rw [if_neg ‹_›]
    exact ⟨hcode, hroom, code, hdecode, hpasses.mono hp (UInt16.le_refl _)⟩

end Verifier

end Interpose
