import Mathlib.Logic.Function.Basic
import Interpose.Proofs.Entries
import Interpose.Proofs.Verification
/-!
# Depths of stubs

Items are written one after the other, and the depth of the stack can be told along with them: each
item takes it from one depth to the next, and behind a jump or a return there is none until a label
is marked. All labels of a stub are reached at one depth, the one at which the stub begins. That this
works out is a matter of the items alone; the program that they are assembled to then has depths that
its instructions agree with.

Stubs begin with an empty stack, but for those of constructors, which go on from their opening.

## Main definitions

* `Item.Leads`, `Item.Flows`: from one depth to the next, and along items

## Main results

* `Item.Flows.exists_depths`: depths of an assembled program
* `StubTarget.flows_items`: a stub returns with what it was entered with
-/

namespace Interpose

open Verifier (Found Agrees Passes returnMismatch successors)

/-! ### Depths and where they lead -/

section AgreesBut

variable {pool : Pool} {returnsVoid : Bool} {code : List Instruction} {elsewhere : Nat → Nat → Prop}
variable {depthAt : Nat → Option Nat} {p n : Nat}

/-- Depths at one place of a body, and behind it, but for where it leads elsewhere. -/
def AgreesAt (pool : Pool) (returnsVoid : Bool) (code : List Instruction)
    (elsewhere : Nat → Nat → Prop) (depthAt : Nat → Option Nat) (p n : Nat) : Prop :=
  ∃ i effect, code[p]? = some i ∧ i.stackEffect? pool = some effect ∧ effect.pops ≤ n ∧
    returnMismatch returnsVoid i = false ∧ ∀ q ∈ successors p i,
      depthAt q = some (n - effect.pops + effect.pushes) ∨
        elsewhere q (n - effect.pops + effect.pushes)

/-- Depths that the instructions of a body agree with, but for those that lead elsewhere. -/
def AgreesBut (pool : Pool) (returnsVoid : Bool) (code : List Instruction)
    (elsewhere : Nat → Nat → Prop) (depthAt : Nat → Option Nat) : Prop :=
  ∀ p n, depthAt p = some n → AgreesAt pool returnsVoid code elsewhere depthAt p n

theorem AgreesBut.agrees (h : AgreesBut pool returnsVoid code elsewhere depthAt)
    (helsewhere : ∀ q m, elsewhere q m → depthAt q = some m) :
    Agrees pool returnsVoid code depthAt := by
  intro p n hn
  obtain ⟨i, effect, hi, heffect, hpops, hreturns, hnext⟩ := h p n hn
  exact ⟨i, effect, hi, heffect, hpops, hreturns,
    fun q hq => (hnext q hq).elim id (helsewhere q _)⟩

theorem update_of_eq_some (hp : depthAt p = none) {d : Option Nat} {q m : Nat}
    (hq : depthAt q = some m) : Function.update depthAt p d q = some m := by
  rw [← hq]
  refine Function.update_of_ne ?_ _ _
  rintro rfl
  exact nomatch hp.symm.trans hq

/-- A place that has no depth can be given one if its instruction leads to the depths there are. -/
theorem AgreesBut.update (h : AgreesBut pool returnsVoid code elsewhere depthAt)
    (hp : depthAt p = none) (hn : AgreesAt pool returnsVoid code elsewhere depthAt p n) :
    AgreesBut pool returnsVoid code elsewhere (Function.update depthAt p (some n)) := by
  have keep : ∀ {q m}, AgreesAt pool returnsVoid code elsewhere depthAt q m →
      AgreesAt pool returnsVoid code elsewhere (Function.update depthAt p (some n)) q m := by
    rintro q m ⟨i, effect, hi, heffect, hpops, hreturns, hnext⟩
    exact ⟨i, effect, hi, heffect, hpops, hreturns,
      fun q' hq' => (hnext q' hq').imp (update_of_eq_some hp) id⟩
  intro q m hm
  by_cases hq : q = p
  · subst hq
    rw [Function.update_self] at hm
    cases hm
    exact keep hn
  · rw [Function.update_of_ne hq] at hm
    exact keep (h q m hm)

end AgreesBut

namespace Item

/-! ### Items and their instructions -/

/-- The instruction of an item, but for the index of a named operand. -/
def outline : Item → Instruction
  | plain (.emit i) => i
  | plain _ => .simple .nop
  | constString _ => .constString 0
  | constClass _ => .constClass 0
  | new _ => .new 0
  | instanceOf _ => .instanceOf 0
  | field access _ _ => .field access 0
  | invoke kind _ _ _ => .invoke kind 0

/-- The effect of the instruction of an item. The pool has a part in it if there are indices among the
operands. -/
def effect? (pool : Pool) : Item → Option StackEffect
  | invoke kind _ _ descriptor =>
    match MethodDesc.parse descriptor with
    | .ok signature => some (signature.stackEffect kind)
    | .error _ => none
  | item => item.outline.stackEffect? pool

/-- An item whose operand is found, unless it is a name, which will be. -/
def Held (pool : Pool) (maxLocals : UInt16) : Item → Prop
  | plain (.emit i) => Found pool maxLocals i
  | _ => True

section Standing

variable {pool pool' : Pool} {place : Nat → Nat} {code : List Instruction} {p : Nat} {item : Item}
variable {maxLocals : UInt16} {returnsVoid : Bool} {effect : StackEffect}

theorem marks_cons {rest : List Item} (h : item.size = 1) : marks (item :: rest) = marks rest := by
  cases item with
  | plain d => cases d <;> first | rfl | exact nomatch h
  | _ => rfl

/-- Only what is emitted as it is can be a jump. -/
theorem exists_eq_jump {label : Nat} (h : item.outline.target? = some label) :
    ∃ c, item = jump c label := by
  cases item with
  | plain d =>
    cases d with
    | emit i =>
      cases i with
      | jump c l =>
        cases h
        exact ⟨c, rfl⟩
      | _ => exact nomatch h
    | _ => exact nomatch h
  | _ => exact nomatch h

/-- The instruction that stands for an item, in a pool that has grown. -/
theorem Stands.exists_instruction (h : item.Stands pool' place code p) (returnsVoid : Bool)
    (hp : pool.Extends pool') (hsize : item.size = 1) (hheld : item.Held pool maxLocals)
    (heffect : item.effect? pool = some effect) :
    ∃ i, code[p]? = some i ∧ Found pool' maxLocals i ∧ i.stackEffect? pool' = some effect ∧
      returnMismatch returnsVoid i = returnMismatch returnsVoid item.outline ∧
      successors p i = item.outline.target?.toList.map place ++
        if item.outline.opcode.isTerminator then [] else [p + 1] := by
  cases item with
  | plain d =>
    cases d with
    | newLabel => cases hsize
    | mark label => cases hsize
    | emit i =>
      have hfound : Found pool' maxLocals i := hheld.mono hp (UInt16.le_refl _)
      have heffect' : i.stackEffect? pool' = some effect := hp.stackEffect? heffect
      refine ⟨i.mapTarget place, h, ?_⟩
      cases i with
      | jump c label => cases c <;> exact ⟨hfound, heffect', rfl, rfl⟩
      | _ => exact ⟨hfound, heffect', rfl, rfl⟩
  | constString s =>
    obtain ⟨i, hi, hget⟩ := h
    exact ⟨_, hget, Option.isSome_iff_exists.2 ⟨s, hi⟩, heffect, rfl, rfl⟩
  | constClass name | new name | instanceOf name =>
    obtain ⟨i, hi, hget⟩ := h
    exact ⟨_, hget, Option.isSome_iff_exists.2 ⟨name, hi⟩, heffect, rfl, rfl⟩
  | field access owner name =>
    obtain ⟨i, hi, hget⟩ := h
    refine ⟨_, hget, Option.isSome_iff_exists.2 ⟨_, hi⟩, ?_, rfl, rfl⟩
    cases access <;> exact heffect
  | invoke kind owner name descriptor =>
    obtain ⟨i, hi, hget⟩ := h
    rw [effect?] at heffect
    split at heffect
    · rename_i signature hsignature
      refine ⟨_, hget, ⟨_, signature, hi, hsignature⟩, ?_, rfl, rfl⟩
      simp only [Instruction.stackEffect?, hi, hsignature, heffect]
    · cases heffect

end Standing

/-! ### From one depth to the next -/

/-- Leads from one depth to the next; where there is none, no path arrives. Labels are reached at the
depth `base`. -/
inductive Leads (pool : Pool) (maxLocals : UInt16) (returnsVoid : Bool) (base : Nat) :
    Option Nat → Item → Option Nat → Prop
  | newLabel (d : Option Nat) : Leads pool maxLocals returnsVoid base d newLabel d
  | mark {d : Option Nat} (label : Nat) (arrives : d = none ∨ d = some base) :
    Leads pool maxLocals returnsVoid base d (mark label) (some base)
  | emit {item : Item} {effect : StackEffect} {n : Nat} (size : item.size = 1)
    (held : item.Held pool maxLocals) (effect_eq : item.effect? pool = some effect)
    (pops : effect.pops ≤ n) (returns : returnMismatch returnsVoid item.outline = false)
    (jumps : item.outline.target?.isSome → n - effect.pops + effect.pushes = base) :
    Leads pool maxLocals returnsVoid base (some n) item
      (if item.outline.opcode.isTerminator then none else some (n - effect.pops + effect.pushes))

/-- Leads along items. -/
inductive Flows (pool : Pool) (maxLocals : UInt16) (returnsVoid : Bool) (base : Nat) :
    Option Nat → List Item → Option Nat → Prop
  | nil (d : Option Nat) : Flows pool maxLocals returnsVoid base d [] d
  | cons {d d' d'' : Option Nat} {item : Item} {rest : List Item}
    (head : Leads pool maxLocals returnsVoid base d item d')
    (tail : Flows pool maxLocals returnsVoid base d' rest d'') :
    Flows pool maxLocals returnsVoid base d (item :: rest) d''

section Flows

variable {maxLocals : UInt16} {returnsVoid : Bool} {base : Nat} {d d' d'' : Option Nat}
variable {items rest : List Item} {pool pool' : Pool} {place : Nat → Nat}
variable {code : List Instruction} {p n : Nat}

theorem Flows.append (h : Flows pool maxLocals returnsVoid base d items d')
    (hrest : Flows pool maxLocals returnsVoid base d' rest d'') :
    Flows pool maxLocals returnsVoid base d (items ++ rest) d'' := by
  induction h with
  | nil d => exact hrest
  | cons head _ ih => exact .cons head (ih hrest)

/-- The operands of the instructions that stand for items are found. -/
theorem Flows.found (h : Flows pool maxLocals returnsVoid base d items d')
    (hp : pool.Extends pool')
    (hlaid : Laid pool' place code p items) {q : Nat} (hle : p ≤ q) (hlt : q < p + span items) :
    ∃ i, code[q]? = some i ∧ Found pool' maxLocals i := by
  induction h generalizing p with
  | nil d => exact absurd hlt (Nat.not_lt_of_le hle)
  | @cons d d' d'' item rest head _ ih =>
    rw [span_cons, ← Nat.add_assoc] at hlt
    cases head with
    | newLabel => exact ih hlaid.2 hle hlt
    | mark label => exact ih hlaid.2 hle hlt
    | emit hsize hheld heffect =>
      rw [hsize] at hlt
      by_cases hq : q = p
      · subst hq
        obtain ⟨i, hi, hfound, -⟩ :=
          hlaid.1.exists_instruction returnsVoid hp hsize hheld heffect
        exact ⟨i, hi, hfound⟩
      · have hrest := hlaid.2
        rw [hsize] at hrest
        exact ih hrest (by omega) hlt

/-- Depths of the instructions that stand for items which no path leaves, but for where jumps lead to.
The induction is on the items: what comes first is given its depth when those behind it have theirs. -/
theorem Flows.exists_depths_of_labels (h : Flows pool maxLocals returnsVoid base d items none)
    (hp : pool.Extends pool') (hlaid : Laid pool' place code p items) (reached : Nat → Prop)
    (hjumps : ∀ c label, jump c label ∈ items → reached (place label)) :
    ∃ depthAt : Nat → Option Nat, (∀ n, d = some n → depthAt p = some n) ∧
      (∀ q, q < p → depthAt q = none) ∧ (∀ label ∈ marks items, depthAt (place label) = some base) ∧
      AgreesBut pool' returnsVoid code (fun q m => reached q ∧ m = base) depthAt := by
  obtain ⟨last, hlast⟩ : ∃ last : Option Nat, last = none := ⟨none, rfl⟩
  rw [← hlast] at h
  induction h generalizing p with
  | nil d =>
    subst hlast
    exact ⟨fun _ => none, nofun, fun _ _ => rfl, nofun, nofun⟩
  | @cons d d' d'' item rest head _ ih =>
    obtain ⟨depthAt, hstart, hbefore, hlabels, hagrees⟩ :=
      ih hlaid.2 (fun c label hmem => hjumps c label (List.mem_cons_of_mem item hmem)) hlast
    cases head with
    | newLabel => exact ⟨depthAt, hstart, hbefore, hlabels, hagrees⟩
    | mark label harrives =>
      have hp : depthAt p = some base := hstart base rfl
      refine ⟨depthAt, fun n hn => ?_, hbefore, ?_, hagrees⟩
      · rcases harrives with rfl | rfl
        · exact nomatch hn
        · exact hn ▸ hp
      · intro l hl
        rcases List.mem_cons.1 hl with rfl | hl
        · rw [show place l = p from hlaid.1]
          exact hp
        · exact hlabels l hl
    | @emit _ effect n hsize hheld heffect hpops hreturns hbase =>
      obtain ⟨i, hi, -, heffect', hreturns', hsuccessors⟩ :=
        hlaid.1.exists_instruction returnsVoid hp hsize hheld heffect
      rw [hsize] at hstart hbefore
      have hfresh : depthAt p = none := hbefore p (Nat.lt_succ_self p)
      refine ⟨Function.update depthAt p (some n), fun m hm => ?_, fun q hq => ?_, fun l hl => ?_, ?_⟩
      · rw [Function.update_self, hm]
      · rw [Function.update_of_ne (Nat.ne_of_lt hq)]
        exact hbefore q (Nat.lt_succ_of_lt hq)
      · rw [marks_cons hsize] at hl
        exact update_of_eq_some hfresh (hlabels l hl)
      refine hagrees.update hfresh ⟨i, effect, hi, heffect', hpops, hreturns'.trans hreturns, ?_⟩
      intro q hq
      rw [hsuccessors] at hq
      rcases List.mem_append.1 hq with hq | hq
      · obtain ⟨label, hlabel, rfl⟩ := List.mem_map.1 hq
        obtain ⟨c, rfl⟩ := exists_eq_jump (Option.mem_toList.1 hlabel)
        exact .inr ⟨hjumps c label List.mem_cons_self, hbase rfl⟩
      · split at hq
        · exact nomatch hq
        · rename_i honward
          rw [List.mem_singleton.1 hq]
          exact .inl (hstart _ (if_neg honward))

/-- **Depths.** Where items lead to no depth in the end, and their jumps to labels among them, their
instructions agree with depths from the first of them on. -/
theorem Flows.exists_depths (h : Flows pool maxLocals returnsVoid base (some n) items none)
    (hp : pool.Extends pool') (hlaid : Laid pool' place code p items)
    (hjumps : ∀ c label, jump c label ∈ items → label ∈ marks items) :
    ∃ depthAt, depthAt p = some n ∧ Agrees pool' returnsVoid code depthAt := by
  obtain ⟨depthAt, hstart, -, hlabels, hagrees⟩ := h.exists_depths_of_labels hp hlaid
    (fun q => ∃ label ∈ marks items, place label = q)
    fun c label hmem => ⟨label, hjumps c label hmem, rfl⟩
  refine ⟨depthAt, hstart n rfl, hagrees.agrees fun q m ⟨⟨label, hmem, hq⟩, hm⟩ => ?_⟩
  subst hq hm
  exact hlabels label hmem

/-- **Assembled programs.** -/
theorem Flows.passes_of_assemble (h : Flows pool maxLocals returnsVoid base (some 0) items none)
    (hassemble : assemble pool items = .ok (code, pool')) (hfits : pool'.Fits)
    (hmarks : (marks items).Nodup) : Passes pool' maxLocals returnsVoid code := by
  have hp := extends_of_assemble hassemble
  obtain ⟨place, hlaid, hlen⟩ := laid_of_assemble hassemble hfits hmarks
  refine ⟨fun i hi => ?_, h.exists_depths hp hlaid fun _ _ => mem_marks_of_assemble hassemble⟩
  obtain ⟨q, hq, rfl⟩ := List.getElem_of_mem hi
  obtain ⟨j, hj, hfound⟩ := h.found hp hlaid (Nat.zero_le q) (by omega)
  obtain rfl : code[q] = j := Option.some.inj ((List.getElem?_eq_getElem hq).symm.trans hj)
  exact hfound

end Flows

/-! ### Items that control goes through -/

/-- An item whose instruction pops and pushes, and goes on with the next. -/
structure Moves (pool : Pool) (maxLocals : UInt16) (item : Item) (pops pushes : Nat) : Prop where
  size : item.size = 1
  held : item.Held pool maxLocals
  effect : item.effect? pool = some ⟨pops, pushes⟩
  target : item.outline.target? = none
  onward : item.outline.opcode.isTerminator = false

section Moves

variable {pool : Pool} {maxLocals : UInt16} {returnsVoid : Bool} {base n pops pushes : Nat}
variable {d d' : Option Nat} {item : Item} {items rest : List Item}

theorem moves_loadLocal {slot : UInt16} (h : slot < maxLocals) :
    Moves pool maxLocals (loadLocal slot) 0 1 := ⟨rfl, h, rfl, rfl, rfl⟩

theorem moves_constInt (v : Int32) : Moves pool maxLocals (constInt v) 0 1 :=
  ⟨rfl, trivial, rfl, rfl, rfl⟩

theorem moves_constString (s : String) : Moves pool maxLocals (constString s) 0 1 :=
  ⟨rfl, trivial, rfl, rfl, rfl⟩

theorem moves_constClass (name : String) : Moves pool maxLocals (constClass name) 0 1 :=
  ⟨rfl, trivial, rfl, rfl, rfl⟩

theorem moves_instanceOf (name : String) : Moves pool maxLocals (instanceOf name) 1 1 :=
  ⟨rfl, trivial, rfl, rfl, rfl⟩

theorem moves_getField (owner name : String) : Moves pool maxLocals (field .get owner name) 1 1 :=
  ⟨rfl, trivial, rfl, rfl, rfl⟩

theorem moves_putField (owner name : String) : Moves pool maxLocals (field .put owner name) 2 0 :=
  ⟨rfl, trivial, rfl, rfl, rfl⟩

theorem moves_unbox (tag : UInt8) : Moves pool maxLocals (emit (.unbox tag)) 1 1 :=
  ⟨rfl, trivial, rfl, rfl, rfl⟩

theorem moves_simple (op : Simple) (h : (Opcode.simple op).isTerminator = false) :
    Moves pool maxLocals (simple op) op.stackEffect.pops op.stackEffect.pushes :=
  ⟨rfl, trivial, rfl, rfl, h⟩

theorem moves_invoke {kind : CallKind} {owner name descriptor : String} {signature : MethodDesc}
    (h : MethodDesc.parse descriptor = .ok signature) :
    Moves pool maxLocals (invoke kind owner name descriptor)
      (signature.arity + kind.hasReceiver.toNat) (!signature.ret.isVoid).toNat := by
  refine ⟨rfl, trivial, ?_, rfl, rfl⟩
  rw [effect?, h]
  rfl

theorem Flows.move (h : Moves pool maxLocals item pops pushes)
    (hrest : Flows pool maxLocals returnsVoid base (some (n + pushes)) rest d) :
    Flows pool maxLocals returnsVoid base (some (n + pops)) (item :: rest) d := by
  have hreturns : returnMismatch returnsVoid item.outline = false := by
    have honward := h.onward
    unfold returnMismatch
    split
    · rename_i heq
      rw [heq] at honward
      exact nomatch honward
    · rename_i heq
      rw [heq] at honward
      exact nomatch honward
    · rfl
  have hhead : Leads pool maxLocals returnsVoid base (some (n + pops)) item
      (if item.outline.opcode.isTerminator then none else some (n + pops - pops + pushes)) :=
    .emit h.size h.held h.effect (Nat.le_add_left pops n) hreturns
      fun htarget => nomatch h.target ▸ htarget
  rw [h.onward] at hhead
  rw [← Nat.add_sub_cancel (n := n) (m := pops)] at hrest
  exact .cons hhead hrest

/-- Items that push a value each. -/
theorem Flows.push (h : ∀ item ∈ items, Moves pool maxLocals item 0 1) :
    Flows pool maxLocals returnsVoid base (some n) items (some (n + items.length)) := by
  induction items generalizing n with
  | nil => exact .nil _
  | cons item rest ih =>
    have hrest := ih (n := n + 1) fun x hx => h x (List.mem_cons_of_mem item hx)
    rw [Nat.add_assoc, Nat.add_comm 1] at hrest
    exact .move (n := n) (h item List.mem_cons_self) hrest

theorem Flows.mark {label : Nat} (hd : d = none ∨ d = some base)
    (hrest : Flows pool maxLocals returnsVoid base (some base) rest d') :
    Flows pool maxLocals returnsVoid base d (Item.mark label :: rest) d' :=
  .cons (.mark label hd) hrest

/-- A jump that tests the value on top of the stack. -/
theorem Flows.branch {c : Condition} (hc : c ≠ .always) {label : Nat}
    (hrest : Flows pool maxLocals returnsVoid base (some base) rest d) :
    Flows pool maxLocals returnsVoid base (some (base + 1)) (jump c label :: rest) d := by
  have heffect : (jump c label).effect? pool = some ⟨1, 0⟩ := by
    cases c with
    | always => exact absurd rfl hc
    | _ => rfl
  have honward : (jump c label).outline.opcode.isTerminator = false := by
    cases c with
    | always => exact absurd rfl hc
    | _ => rfl
  have hheld : (jump c label).Held pool maxLocals := trivial
  have hreturns : returnMismatch returnsVoid (jump c label).outline = false := rfl
  have hbase : base + 1 - 1 + 0 = base := rfl
  have hhead := Leads.emit rfl hheld heffect (Nat.le_add_left 1 base) hreturns fun _ => hbase
  rw [honward] at hhead
  exact .cons hhead hrest

theorem Flows.goto {label : Nat} (hrest : Flows pool maxLocals returnsVoid base none rest d) :
    Flows pool maxLocals returnsVoid base (some base) (jump .always label :: rest) d :=
  have heffect : (jump .always label).effect? pool = some ⟨0, 0⟩ := rfl
  .cons (.emit rfl trivial heffect (Nat.zero_le base) rfl fun _ => rfl) hrest

/-- Returning, with a value or without one. -/
theorem Flows.ret : Flows pool maxLocals false base (some (n + 1)) [simple .ret] none :=
  have heffect : (simple .ret).effect? pool = some ⟨1, 0⟩ := rfl
  .cons (.emit rfl trivial heffect (Nat.le_add_left 1 n) rfl nofun) (.nil _)

theorem Flows.retVoid : Flows pool maxLocals true base (some n) [simple .retVoid] none :=
  have heffect : (simple .retVoid).effect? pool = some ⟨0, 0⟩ := rfl
  .cons (.emit rfl trivial heffect (Nat.zero_le n) rfl nofun) (.nil _)

end Moves

end Item

/-! ### Stubs -/

namespace StubTarget

open Item (Flows Moves)

variable {t : StubTarget} {pool : Pool} {maxLocals : UInt16} {returnsVoid : Bool} {base n : Nat}

section Blocks

variable (hroom : t.signature.arity + (!t.isStatic).toNat ≤ maxLocals.toNat)
include hroom

theorem moves_receiver (hs : t.isStatic = false) : Moves pool maxLocals (.loadLocal 0) 0 1 := by
  rw [hs] at hroom
  exact Item.moves_loadLocal (UInt16.lt_iff_toNat_lt.2 (Nat.lt_of_lt_of_le (Nat.succ_pos _) hroom))

theorem moves_receiverOrNull : Moves pool maxLocals t.receiverOrNull 0 1 := by
  unfold receiverOrNull
  split
  · exact Item.moves_simple .constNull rfl
  · exact moves_receiver hroom (Bool.eq_false_iff.2 ‹_›)

theorem moves_of_mem_pushArguments {item : Item} (h : item ∈ t.pushArguments) :
    Moves pool maxLocals item 0 1 := by
  obtain ⟨i, hi, rfl⟩ := List.mem_map.1 h
  have hlt : i < t.signature.arity := List.mem_range.1 hi
  have hmax : maxLocals.toNat < 65536 := maxLocals.toNat_lt
  refine Item.moves_loadLocal (UInt16.lt_iff_toNat_lt.2 ?_)
  rw [toNat_argumentSlot (by omega)]
  omega

theorem flows_markerBlock :
    Flows pool maxLocals returnsVoid base (some base) t.markerBlock (some base) := by
  unfold markerBlock
  split
  · exact .nil _
  · exact .move (n := base) (moves_receiver hroom (Bool.eq_false_iff.2 ‹_›))
      (.move (n := base) (Item.moves_getField _ _)
        (.move (n := base) (Item.moves_instanceOf _)
          (.branch (by decide) (.nil _))))

theorem flows_decisionBlock :
    Flows pool maxLocals returnsVoid base (some base) t.decisionBlock (some base) :=
  .move (n := base) (moves_receiverOrNull hroom)
    (.move (n := base) (Item.moves_simple .shouldCallDirectly rfl)
      (.branch (by decide) (.nil _)))

theorem flows_clearBlock : Flows pool maxLocals returnsVoid base none t.clearBlock none := by
  unfold clearBlock
  split
  · exact .nil _
  · exact .mark (.inl rfl) (.move (n := base) (moves_receiver hroom (Bool.eq_false_iff.2 ‹_›))
      (.move (n := base + 1) (Item.moves_simple .constNull rfl)
        (.move (n := base) (Item.moves_putField _ _)
          (.goto (.nil _)))))

theorem flows_pushReceiver :
    Flows pool maxLocals returnsVoid base (some n) t.pushReceiver (some (n + (!t.isStatic).toNat)) := by
  unfold pushReceiver
  cases hs : t.isStatic
  · exact .move (n := n) (moves_receiver hroom hs) (.nil _)
  · exact .nil _

theorem flows_pushArguments : Flows pool maxLocals returnsVoid base (some n) t.pushArguments
    (some (n + t.signature.arity)) := by
  rw [← length_pushArguments]
  exact .push fun _ => moves_of_mem_pushArguments hroom

omit hroom in
theorem flows_returnItem (signature : MethodDesc) :
    Flows pool maxLocals signature.ret.isVoid base (some (n + (!signature.ret.isVoid).toNat))
      [returnItem signature] none := by
  unfold returnItem
  cases signature.ret.isVoid
  · exact .ret
  · exact .retVoid

/-- The declared body is called with what the stub was entered with. -/
theorem flows_directBlock (hdescriptor : MethodDesc.parse t.descriptor = .ok t.signature) :
    Flows pool maxLocals t.signature.ret.isVoid base (some base) t.directBlock none := by
  rw [directBlock_eq]
  refine .mark (.inr rfl) ((flows_pushReceiver hroom).append ((flows_pushArguments hroom).append ?_))
  have hkind : t.callKind.hasReceiver = !t.isStatic := by
    unfold callKind
    cases t.isStatic <;> rfl
  rw [← hkind, Nat.add_assoc, Nat.add_comm t.callKind.hasReceiver.toNat]
  exact .move (Item.moves_invoke hdescriptor) (flows_returnItem t.signature)

omit hroom in
/-- An array takes one place on the stack, whatever it holds. -/
theorem flows_pushArray {elements : List Item} (h : ∀ x ∈ elements, Moves pool maxLocals x 0 1) :
    Flows pool maxLocals returnsVoid base (some n) (pushArray elements) (some (n + 1)) := by
  have hstore : ∀ l : List (Item × Nat), (∀ x ∈ l, Moves pool maxLocals x.1 0 1) →
      Flows pool maxLocals returnsVoid base (some (n + 1)) (l.flatMap fun x => storeElement x.2 x.1)
        (some (n + 1)) := by
    intro l hl
    induction l with
    | nil => exact .nil _
    | cons x l ih =>
      rw [List.flatMap_cons]
      refine Flows.append ?_ (ih fun y hy => hl y (List.mem_cons_of_mem x hy))
      exact .move (n := n) (Item.moves_simple .dup rfl)
        (.move (n := n + 2) (Item.moves_constInt _)
          (.move (n := n + 3) (hl x List.mem_cons_self)
            (.move (n := n + 1) (Item.moves_simple .arrayStore rfl) (.nil _))))
  exact .move (n := n) (Item.moves_constInt _)
    (.move (n := n) (Item.moves_simple .newArray rfl)
      (hstore _ fun x hx => h x.1 (List.fst_mem_of_mem_zipIdx hx)))

omit hroom in
theorem flows_answerBlock (signature : MethodDesc) :
    Flows pool maxLocals signature.ret.isVoid base (some (n + 1)) (answerBlock signature) none := by
  unfold answerBlock
  cases signature.ret.isVoid
  · rw [if_neg Bool.false_ne_true]
    split
    · exact .move (n := n) (Item.moves_unbox _) .ret
    · exact .ret
  · exact .move (n := n) (Item.moves_simple .pop rfl) .retVoid

/-- The handler takes five values and leaves one. -/
theorem flows_handlerBlock {d : Option Nat} (hd : d = none ∨ d = some base) :
    Flows pool maxLocals t.signature.ret.isVoid base d t.handlerBlock none := by
  rw [handlerBlock_eq]
  have hnames : ∀ x ∈ t.signature.paramNames.map Item.constString, Moves pool maxLocals x 0 1 := by
    intro x hx
    obtain ⟨s, -, rfl⟩ := List.mem_map.1 hx
    exact Item.moves_constString s
  exact .mark hd (.move (n := base) (Item.moves_constClass _)
    (.move (n := base + 1) (Item.moves_constString _)
      (.move (n := base + 2) (moves_receiverOrNull hroom)
        ((flows_pushArray hnames).append
          ((flows_pushArray fun _ => moves_of_mem_pushArguments hroom).append
            (.move (n := base) (Item.moves_simple .methodInvoked rfl)
              (flows_answerBlock t.signature)))))))

/-- **Stubs.** Whatever stands on the stack when a stub begins, it goes through with that, and ends. -/
theorem flows_items (hdescriptor : MethodDesc.parse t.descriptor = .ok t.signature) :
    Flows pool maxLocals t.signature.ret.isVoid base (some base) t.items none := by
  rw [items_eq]
  have hlabels : Flows pool maxLocals t.signature.ret.isVoid base (some base)
      [.newLabel, .newLabel, .newLabel] (some base) :=
    .cons (.newLabel _) (.cons (.newLabel _) (.cons (.newLabel _) (.nil _)))
  refine hlabels.append ?_
  unfold directPart
  split
  · exact flows_handlerBlock hroom (.inr rfl)
  · exact ((flows_markerBlock hroom).append ((flows_decisionBlock hroom).append
      ((flows_directBlock hroom hdescriptor).append (flows_clearBlock hroom)))).append
        (flows_handlerBlock hroom (.inl rfl))

end Blocks

end StubTarget

end Interpose
