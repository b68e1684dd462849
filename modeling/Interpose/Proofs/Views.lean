import Interpose.Proofs.Requests
/-!
# Simulations of computations of a frame

Two frames are compared through a *view*: the second is the first with its program counter moved by
an offset and with further values below its operand stack. A computation of a frame is simulated
when it does the same through the view.

A view may *know* its frames: that they belong to a certain class, how many operands are on the
stack, and what their locals keep to. Then the computations that would fault, popping from an empty
stack or naming a local that is not there, do not. A view that does not know its frames has nothing
below the stack and allows every failure.

## Main definitions

* `View`, `View.shift`: the second frame as a function of the first
* `View.At`: where a frame of the view stands, as far as that is known
* `View.Sim`: one computation of a frame follows another
-/

namespace Interpose

/-! ### Computations of a frame, applied -/

namespace Act

variable {f : Frame} {v : Value}

theorem get_bind_apply {α : Type} (g : Frame → Act α) : (get >>= g) f = g f f := rfl

theorem pop_of_nil (h : f.stack = []) : pop f = Run.fail .stackUnderflow := by
  obtain ⟨cls, pc, locals, stack⟩ := f
  subst h
  rfl

theorem pop_of_cons {rest : List Value} (h : f.stack = v :: rest) :
    pop f = pure (v, { f with stack := rest }) := by
  obtain ⟨cls, pc, locals, stack⟩ := f
  subst h
  rfl

theorem peek_of_nil (h : f.stack = []) : peek f = Run.fail .stackUnderflow := by
  obtain ⟨cls, pc, locals, stack⟩ := f
  subst h
  rfl

theorem peek_of_cons {rest : List Value} (h : f.stack = v :: rest) : peek f = pure (v, f) := by
  obtain ⟨cls, pc, locals, stack⟩ := f
  subst h
  rfl

theorem popMany_of_lt {n : Nat} (h : f.stack.length < n) :
    popMany n f = Run.fail .stackUnderflow := by
  show (if f.stack.length < n then (fail .stackUnderflow : Act (List Value)) else _) f = _
  rw [if_pos h]
  rfl

theorem popMany_of_le {n : Nat} (h : n ≤ f.stack.length) :
    popMany n f = pure ((f.stack.take n).reverse, { f with stack := f.stack.drop n }) := by
  show (if f.stack.length < n then (fail .stackUnderflow : Act (List Value)) else _) f = _
  rw [if_neg (Nat.not_lt.2 h)]
  rfl

theorem readLocal_of_some {slot : UInt16} (h : f.locals[slot.toNat]? = some v) :
    readLocal slot f = pure (v, f) := by
  unfold readLocal
  rw [get_bind_apply, h]
  rfl

theorem readLocal_of_none {slot : UInt16} (h : f.locals[slot.toNat]? = none) :
    readLocal slot f = Run.fail (.type (.localRange slot.toNat)) := by
  unfold readLocal
  rw [get_bind_apply, h]
  rfl

theorem writeLocal_of_lt {slot : UInt16} (h : slot.toNat < f.locals.length) :
    writeLocal slot v f = pure ((), { f with locals := f.locals.set slot.toNat v }) := by
  show (if slot.toNat < f.locals.length then (set _ : Act Unit) else _) f = _
  rw [if_pos h]
  rfl

theorem writeLocal_of_le {slot : UInt16} (h : f.locals.length ≤ slot.toNat) :
    writeLocal slot v f = Run.fail (.type (.localRange slot.toNat)) := by
  show (if slot.toNat < f.locals.length then (set _ : Act Unit) else _) f = _
  rw [if_neg (Nat.not_lt.2 h)]
  rfl

end Act

/-! ### Views -/

/-- How the second of two frames looks from the first, and what is known of the first. -/
structure View (S : Simulation) where
  /-- How far the second program counter is ahead. -/
  offset : Nat
  /-- What lies below the second stack. -/
  base : List Value
  /-- Whether anything is known of the first frame. -/
  known : Prop
  cls : ClassRef
  pool : Pool
  /-- What the locals keep to. -/
  keeps : List Value → Prop
  has : S.strict → ∀ {m n}, S.rel m n → m.classes.Has cls
  constants_eq : known → ∀ {m n}, S.rel m n → (m.cls cls).constants = pool
  lenient : ¬known → base = [] ∧ (∀ e, S.allows e) ∧ ¬S.strict

namespace View

variable {S : Simulation} (V : View S) {α β γ δ : Type}

/-- The second frame. -/
def shift (f : Frame) : Frame :=
  { f with pc := f.pc + V.offset, stack := f.stack ++ V.base }

/-- A view without anything to it. -/
theorem shift_of_empty (h : V.offset = 0 ∧ V.base = []) (f : Frame) : V.shift f = f := by
  unfold shift
  rw [h.1, h.2, List.append_nil, Nat.add_zero]

/-- The first frame, if it is known at all, has so many operands and stands at such a place. -/
structure Stands (depth : Nat) (places : Nat → Prop) (f : Frame) : Prop where
  cls : f.cls = V.cls
  depth : f.stack.length = depth
  locals : V.keeps f.locals
  place : places f.pc

/-- What is known of the first frame. -/
def At (depth : Nat) (places : Nat → Prop) (f : Frame) : Prop :=
  V.known → V.Stands depth places f

/-- Whatever the first computation does on a frame, the second does on its shift. -/
def Sim (P P' : Frame → Prop) (Q : α → β → Prop) (x : Act α) (y : Act β) : Prop :=
  ∀ f, P f → S.Sim (fun p q => Q p.1 q.1 ∧ P' p.2 ∧ q.2 = V.shift p.2) (x f) (y (V.shift f))

variable {V} {P P' P'' : Frame → Prop}

theorem Sim.mono {R R' : Frame → Prop} {Q Q' : α → β → Prop} {x : Act α} {y : Act β}
    (h : V.Sim P P' Q x y) (hP : ∀ f, R f → P f) (hP' : ∀ f, P' f → R' f)
    (hQ : ∀ a b, Q a b → Q' a b) : V.Sim R R' Q' x y :=
  fun f hf => (h f (hP f hf)).mono fun _ _ hr => ⟨hQ _ _ hr.1, hP' _ hr.2.1, hr.2.2⟩

theorem Sim.pure {Q : α → β → Prop} {a : α} {b : β} (h : Q a b) :
    V.Sim P P Q (pure a) (pure b) :=
  fun _ hf => Simulation.Sim.pure ⟨h, hf, rfl⟩

theorem Sim.bind {Q : α → β → Prop} {Q' : γ → δ → Prop} {x : Act α} {y : Act β}
    {g : α → Act γ} {k : β → Act δ} (hx : V.Sim P P' Q x y)
    (hg : ∀ a b, Q a b → V.Sim P' P'' Q' (g a) (k b)) : V.Sim P P'' Q' (x >>= g) (y >>= k) := by
  intro f hf
  refine Simulation.Sim.bind (hx f hf) ?_
  rintro ⟨a, f'⟩ ⟨b, _⟩ ⟨hab, hf', rfl⟩
  exact hg a b hab f' hf'

/-- What comes behind two computations with the same result. -/
theorem Sim.seq {Q : γ → δ → Prop} {x y : Act α} {g : α → Act γ} {k : α → Act δ}
    (hx : V.Sim P P' Eq x y) (hg : ∀ a, V.Sim P' P'' Q (g a) (k a)) :
    V.Sim P P'' Q (x >>= g) (y >>= k) := by
  refine hx.bind ?_
  rintro a _ rfl
  exact hg a

theorem Sim.ite {c : Prop} [Decidable c] {Q : α → β → Prop} {x x' : Act α} {y y' : Act β}
    (h : c → V.Sim P P' Q x y) (h' : ¬c → V.Sim P P' Q x' y') :
    V.Sim P P' Q (if c then x else x') (if c then y else y') := by
  by_cases hc : c
  · rw [if_pos hc, if_pos hc]; exact h hc
  · rw [if_neg hc, if_neg hc]; exact h' hc

/-- A computation of the machine, inside a frame. -/
theorem Sim.lift {Q : α → β → Prop} {x : Run α} {y : Run β} (h : S.Sim Q x y) :
    V.Sim P P Q (liftM x) (liftM y) := by
  intro f hf
  refine Simulation.Sim.bind h ?_
  intro a b hab
  exact Simulation.Sim.pure ⟨hab, hf, rfl⟩

theorem Sim.failure {Q : α → β → Prop} {e : VmError} (h : e.isCodeFault = false) :
    V.Sim P P' Q (Act.fail e) (Act.fail e) := by
  intro f _
  refine Simulation.Sim.bind (Simulation.Sim.failure (Q := fun _ _ => False) h) ?_
  exact fun _ _ h => h.elim

/-- A failure that no known frame meets. -/
theorem Sim.fault {Q : α → β → Prop} {e : VmError} (h : ¬V.known) :
    V.Sim P P' Q (Act.fail e) (Act.fail e) := by
  intro f _
  refine Simulation.Sim.bind (Simulation.Sim.fail (Q := fun _ _ => False) ((V.lenient h).2.1 e)) ?_
  exact fun _ _ h => h.elim

/-- Reading the frame: the second is the shift of the first. -/
theorem Sim.frame_bind {Q : α → β → Prop} {g : Frame → Act α} {k : Frame → Act β}
    (h : ∀ f, P f → V.Sim P P' Q (g f) (k (V.shift f))) :
    V.Sim P P' Q (get >>= g) (get >>= k) :=
  fun f hf => h f hf f hf

/-! ### The stack and the program counter -/

variable {depth : Nat} {places : Nat → Prop}

theorem push_sim {v : Value} :
    V.Sim (V.At depth places) (V.At (depth + 1) places) Eq (Act.push v) (Act.push v) := by
  intro f hf
  refine Simulation.Sim.pure ⟨rfl, fun hk => ?_, rfl⟩
  obtain ⟨hcls, hdepth, hlocals, hplace⟩ := hf hk
  exact ⟨hcls, congrArg (· + 1) hdepth, hlocals, hplace⟩

/-- Either the stack is known to hold a value, or what is below the second stack is nothing and both
run empty together. -/
theorem pop_sim :
    V.Sim (V.At (depth + 1) places) (V.At depth places) Eq Act.pop Act.pop := by
  intro f hf
  cases hs : f.stack with
  | nil =>
    have hk : ¬V.known := fun hk => by
      have := (hf hk).depth
      rw [hs] at this
      exact absurd this (by simp)
    have hs' : (V.shift f).stack = [] := by
      show f.stack ++ V.base = []
      rw [hs, (V.lenient hk).1]
      rfl
    rw [Act.pop_of_nil hs, Act.pop_of_nil hs']
    exact Simulation.Sim.fail ((V.lenient hk).2.1 _)
  | cons v rest =>
    have hs' : (V.shift f).stack = v :: (rest ++ V.base) := by
      show f.stack ++ V.base = _
      rw [hs]
      rfl
    rw [Act.pop_of_cons hs, Act.pop_of_cons hs']
    refine Simulation.Sim.pure ⟨rfl, fun hk => ?_, rfl⟩
    obtain ⟨hcls, hdepth, hlocals, hplace⟩ := hf hk
    rw [hs] at hdepth
    exact ⟨hcls, Nat.succ.inj hdepth, hlocals, hplace⟩

theorem peek_sim :
    V.Sim (V.At (depth + 1) places) (V.At (depth + 1) places) Eq Act.peek Act.peek := by
  intro f hf
  cases hs : f.stack with
  | nil =>
    have hk : ¬V.known := fun hk => by
      have := (hf hk).depth
      rw [hs] at this
      exact absurd this (by simp)
    have hs' : (V.shift f).stack = [] := by
      show f.stack ++ V.base = []
      rw [hs, (V.lenient hk).1]
      rfl
    rw [Act.peek_of_nil hs, Act.peek_of_nil hs']
    exact Simulation.Sim.fail ((V.lenient hk).2.1 _)
  | cons v rest =>
    have hs' : (V.shift f).stack = v :: (rest ++ V.base) := by
      show f.stack ++ V.base = _
      rw [hs]
      rfl
    rw [Act.peek_of_cons hs, Act.peek_of_cons hs']
    exact Simulation.Sim.pure ⟨rfl, hf, rfl⟩

theorem popMany_sim {n : Nat} :
    V.Sim (V.At (depth + n) places) (V.At depth places) Eq (Act.popMany n) (Act.popMany n) := by
  intro f hf
  by_cases hn : n ≤ f.stack.length
  · have hn' : n ≤ (V.shift f).stack.length := by
      show n ≤ (f.stack ++ V.base).length
      rw [List.length_append]
      omega
    rw [Act.popMany_of_le hn, Act.popMany_of_le hn']
    refine Simulation.Sim.pure ⟨?_, fun hk => ?_, ?_⟩
    · exact congrArg List.reverse (List.take_append_of_le_length hn).symm
    · obtain ⟨hcls, hdepth, hlocals, hplace⟩ := hf hk
      refine ⟨hcls, ?_, hlocals, hplace⟩
      show (f.stack.drop n).length = depth
      rw [List.length_drop, hdepth]
      omega
    · show ({ V.shift f with stack := (f.stack ++ V.base).drop n } : Frame) = _
      rw [List.drop_append_of_le_length hn]
      rfl
  · have hk : ¬V.known := fun hk => hn (by rw [(hf hk).depth]; omega)
    have hlt : f.stack.length < n := Nat.lt_of_not_le hn
    have hlt' : (V.shift f).stack.length < n := by
      show (f.stack ++ V.base).length < n
      rwa [(V.lenient hk).1, List.append_nil]
    rw [Act.popMany_of_lt hlt, Act.popMany_of_lt hlt']
    exact Simulation.Sim.fail ((V.lenient hk).2.1 _)

theorem jump_sim {target : Nat} :
    V.Sim (V.At depth places) (V.At depth (· = target)) Eq (Act.jump target)
      (Act.jump (target + V.offset)) := by
  intro f hf
  refine Simulation.Sim.pure ⟨rfl, fun hk => ?_, rfl⟩
  obtain ⟨hcls, hdepth, hlocals, -⟩ := hf hk
  exact ⟨hcls, hdepth, hlocals, rfl⟩

/-! ### Locals and constants -/

theorem readLocal_sim {slot : UInt16}
    (h : V.known → ∀ locals, V.keeps locals → slot.toNat < locals.length) :
    V.Sim (V.At depth places) (V.At depth places) Eq (Act.readLocal slot) (Act.readLocal slot) := by
  intro f hf
  cases hs : f.locals[slot.toNat]? with
  | some v =>
    rw [Act.readLocal_of_some hs, Act.readLocal_of_some (f := V.shift f) hs]
    exact Simulation.Sim.pure ⟨rfl, hf, rfl⟩
  | none =>
    have hk : ¬V.known := fun hk =>
      absurd (h hk f.locals (hf hk).locals) (Nat.not_lt.2 (List.getElem?_eq_none_iff.1 hs))
    rw [Act.readLocal_of_none hs, Act.readLocal_of_none (f := V.shift f) hs]
    exact Simulation.Sim.fail ((V.lenient hk).2.1 _)

theorem writeLocal_sim {slot : UInt16} {v : Value}
    (h : V.known → ∀ locals, V.keeps locals →
      slot.toNat < locals.length ∧ V.keeps (locals.set slot.toNat v)) :
    V.Sim (V.At depth places) (V.At depth places) Eq (Act.writeLocal slot v)
      (Act.writeLocal slot v) := by
  intro f hf
  by_cases hlt : slot.toNat < f.locals.length
  · rw [Act.writeLocal_of_lt hlt, Act.writeLocal_of_lt (f := V.shift f) hlt]
    refine Simulation.Sim.pure ⟨rfl, fun hk => ?_, rfl⟩
    obtain ⟨hcls, hdepth, hlocals, hplace⟩ := hf hk
    exact ⟨hcls, hdepth, (h hk f.locals hlocals).2, hplace⟩
  · have hk : ¬V.known := fun hk => hlt (h hk f.locals (hf hk).locals).1
    have hle : f.locals.length ≤ slot.toNat := Nat.le_of_not_lt hlt
    rw [Act.writeLocal_of_le hle, Act.writeLocal_of_le (f := V.shift f) hle]
    exact Simulation.Sim.fail ((V.lenient hk).2.1 _)

theorem machine_sim : V.Sim P P (fun m n => ∃ d, n = m.atDepth d) Act.machine Act.machine :=
  Sim.lift Simulation.Sim.look

/-- What a computation does with the machine that it reads. -/
theorem Sim.machine_bind {Q : α → β → Prop} {g : Machine → Act α} {k : Machine → Act β}
    (h : ∀ m d, V.Sim P P' Q (g m) (k (m.atDepth d))) :
    V.Sim P P' Q (Act.machine >>= g) (Act.machine >>= k) := by
  refine machine_sim.bind ?_
  rintro m _ ⟨d, rfl⟩
  exact h m d

/-- The class of the frame; its pool, if the frame is known. -/
theorem currentClass_sim :
    V.Sim (V.At depth places) (V.At depth places)
      (fun k k' => k = k' ∧ (V.known → k.constants = V.pool)) Act.currentClass
      Act.currentClass := by
  intro f hf
  refine Simulation.Sim.intro fun m d hr => ⟨⟨⟨rfl, fun hk => ?_⟩, hf, rfl⟩, hr, .refl m⟩
  show (m.cls f.cls).constants = V.pool
  rw [(hf hk).cls]
  exact V.constants_eq hk hr

theorem constant_sim {table : PoolTable} {index : UInt32} {find : Pool → UInt32 → Option α}
    (h : V.known → (find V.pool index).isSome) :
    V.Sim (V.At depth places) (V.At depth places)
      (fun a b => a = b ∧ (V.known → find V.pool index = some a))
      (Act.constant table index find) (Act.constant table index find) := by
  refine currentClass_sim.bind ?_
  rintro k _ ⟨rfl, hk⟩
  cases hfind : find k.constants index with
  | some a => exact Sim.pure ⟨rfl, fun hkn => hk hkn ▸ hfind⟩
  | none =>
    have hkn : ¬V.known := fun hkn => by
      have := h hkn
      rw [← hk hkn, hfind] at this
      exact absurd this (by simp)
    exact Sim.fault hkn

end View

end Interpose
