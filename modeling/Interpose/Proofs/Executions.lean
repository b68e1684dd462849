import Interpose.Proofs.Instructions
/-!
# Simulations of executions

From instructions to bodies, and from bodies to methods. A body is *typed* by an assignment of stack
depths to places, as the verifier finds it: wherever the assignment has a depth, there is an
instruction, its operands are there, and the places control may go to have the depths it leaves.
Running a typed body through a view needs nothing else, so no run of it meets a fault.

What runs behind the door of a method, one call deeper, and until when, differs between the executions
that are compared, and so does what becomes of a call where calls are nested too deep; `Run.enterBy`
has these as parameters.

## Main definitions

* `Typed`: a body with an assignment of stack depths
* `View.Carries`: one body read through a view is another
* `Limit`: ways to treat the limit to the depth of calls
* `Run.enterBy`: entering a method

## Main results

* `View.run_sim`: bodies
* `Simulation.enterBy_sim`: methods
-/

namespace Interpose

open View (Accepts)

/-! ### Typed bodies -/

/-- An assignment of stack depths to places of a body that no instruction contradicts. -/
def Typed (pool : Pool) (keeps : List Value → Prop) (returnsVoid : Bool) (code : Array Instruction)
    (depthAt : Nat → Option Nat) : Prop :=
  ∀ p n, depthAt p = some n → ∃ i effect, code[p]? = some i ∧ Accepts pool keeps i effect ∧
    effect.pops ≤ n ∧ Verifier.returnMismatch returnsVoid i = false ∧
    ∀ q ∈ Verifier.successors p i, depthAt q = some (n - effect.pops + effect.pushes)

namespace View

variable {S : Simulation} {V : View S} {execute execute' : Execute} {handlers : Handlers}
variable {code code' : Array Instruction} {depthAt : Nat → Option Nat} {returnsVoid : Bool}

/-- One body read through a view is another: of a known frame, wherever it may stand, and in any
case if there is nothing to the view. -/
structure Carries (V : View S) (code code' : Array Instruction) (depthAt : Nat → Option Nat)
    (returnsVoid : Bool) : Prop where
  typed : V.known → Typed V.pool V.keeps returnsVoid code depthAt
  moved : V.known → ∀ p n i, depthAt p = some n → code[p]? = some i →
    code'[p + V.offset]? = some (i.mapTarget (· + V.offset))
  same : ¬V.known → V.offset = 0 ∧ code' = code

/-- A frame stands where the assignment has a depth, with so many operands. -/
def Placed (V : View S) (depthAt : Nat → Option Nat) (f : Frame) : Prop :=
  V.known → ∃ n, depthAt f.pc = some n ∧ V.Stands n (· = f.pc) f

/-- The results of a typed body: null where there is no result. -/
def Results (V : View S) (returnsVoid : Bool) (a b : Value) : Prop :=
  a = b ∧ (V.known → returnsVoid = true → a = .null)

@[simp] theorem mapTarget_add_zero (i : Instruction) : i.mapTarget (· + 0) = i := by
  cases i <;> rfl

/-- What comes behind an instruction: the result, or the next place. -/
def Next (V : View S) (depthAt : Nat → Option Nat) (returnsVoid : Bool)
    (p q : Option Value × Frame) : Prop :=
  p.1 = q.1 ∧ q.2 = V.shift p.2 ∧ (∀ v, p.1 = some v → V.known → returnsVoid = true → v = .null) ∧
    (p.1 = none → V.Placed depthAt p.2)

/-- A frame in its place finds an instruction there, in both bodies, and what it does comes to the
next place. -/
theorem next_sim (he : S.ExecuteSim execute execute') (hh : S.HandlersSim handlers)
    (hc : V.Carries code code' depthAt returnsVoid) {f : Frame} {i : Instruction}
    (hf : V.Placed depthAt f) (hi : code[f.pc]? = some i) :
    code'[f.pc + V.offset]? = some (i.mapTarget (· + V.offset)) ∧
      S.Sim (V.Next depthAt returnsVoid)
        (Act.step execute handlers i { f with pc := f.pc + 1 })
        (Act.step execute' handlers (i.mapTarget (· + V.offset))
          (V.shift { f with pc := f.pc + 1 })) := by
  by_cases hk : V.known
  · obtain ⟨n, hn, hcls, hdepth, hlocals, -⟩ := hf hk
    obtain ⟨i', effect, hi', haccepts, hpops, hreturn, hnext⟩ := hc.typed hk f.pc n hn
    rw [hi] at hi'
    cases hi'
    refine ⟨hc.moved hk f.pc n i hn hi, ?_⟩
    have hstep := step_sim (V := V) (r := n - effect.pops) (p := f.pc) he hh fun _ => haccepts
    refine (hstep { f with pc := f.pc + 1 } fun _ => ?_).mono ?_
    · exact ⟨hcls, by rw [Nat.sub_add_cancel hpops]; exact hdepth, hlocals, rfl⟩
    rintro ⟨a, f'⟩ ⟨b, _⟩ ⟨⟨rfl, ha⟩, hbehind, rfl⟩
    refine ⟨rfl, rfl, fun v hv _ hvoid => ?_, fun hnone _ => ?_⟩
    · obtain rfl : a = some v := hv
      subst hvoid
      exact ha.eq_null hreturn
    · obtain ⟨hcls', hdepth', hlocals', hplace⟩ := hbehind hk
      obtain rfl : a = none := hnone
      have hsucc : f'.pc ∈ Verifier.successors f.pc i := by
        rcases hplace with hret | hsucc
        · exact absurd hret (by rw [ha.isReturn_eq_false]; exact nofun)
        · exact hsucc
      exact ⟨_, hnext _ hsucc, hcls', hdepth', hlocals', rfl⟩
  · obtain ⟨hoffset, rfl⟩ := hc.same hk
    refine ⟨by rw [hoffset, mapTarget_add_zero]; exact hi, ?_⟩
    have haccepts : V.known → Accepts V.pool V.keeps i default := fun h => absurd h hk
    have hstep := step_sim (V := V) (r := 0) (p := f.pc) he hh haccepts
    refine (hstep { f with pc := f.pc + 1 } fun h => absurd h hk).mono ?_
    rintro ⟨a, f'⟩ ⟨b, _⟩ ⟨⟨rfl, -⟩, -, rfl⟩
    exact ⟨rfl, rfl, fun v _ h => absurd h hk, fun _ h => absurd h hk⟩

/-- What comes behind an instruction, whatever it is that goes on. -/
theorem next_bind {x : Run (Option Value × Frame)} {y : Run (Option Value × Frame)}
    {rest rest' : Frame → Run Value} (h : S.Sim (V.Next depthAt returnsVoid) x y)
    (hrest : ∀ f, V.Placed depthAt f → S.Sim (V.Results returnsVoid) (rest f) (rest' (V.shift f))) :
    S.Sim (V.Results returnsVoid)
      (x >>= fun p => match p with
        | (some result, _) => pure result
        | (none, f) => rest f)
      (y >>= fun p => match p with
        | (some result, _) => pure result
        | (none, f) => rest' f) := by
  refine h.bind ?_
  rintro ⟨_ | v, f'⟩ ⟨_, _⟩ ⟨rfl, rfl, hnull, hplaced⟩
  · exact hrest f' (hplaced rfl)
  · exact Simulation.Sim.pure ⟨rfl, hnull v rfl⟩

/-- **Bodies.** The induction is on the fuel. If nothing is known of the frame, both may run past
the end of the one body. -/
theorem run_sim (he : S.ExecuteSim execute execute') (hh : S.HandlersSim handlers)
    {m m' : LoadedMethod} {owner owner' : String}
    (hc : V.Carries m.code m'.code depthAt returnsVoid)
    (hname : ¬V.known → owner' = owner ∧ m'.name = m.name) (hg : S.mayGiveUp) {fuel fuel' : Nat}
    (hfuel : fuel = fuel' ∨ S.mayOutlast ∧ fuel ≤ fuel') {f : Frame} (hf : V.Placed depthAt f) :
    S.Sim (V.Results returnsVoid) (Frame.run handlers execute owner m fuel f)
      (Frame.run handlers execute' owner' m' fuel' (V.shift f)) := by
  induction fuel generalizing fuel' f with
  | zero =>
    intro start n _
    rcases hfuel with rfl | ⟨hlast, -⟩
    · exact hg
    · exact Simulation.outcome_none hg hlast
  | succ fuel ih =>
    obtain ⟨fuel', rfl⟩ : ∃ k, fuel' = k + 1 := by
      refine ⟨fuel' - 1, ?_⟩
      rcases hfuel with rfl | ⟨-, hle⟩ <;> omega
    have hfuel' : fuel = fuel' ∨ S.mayOutlast ∧ fuel ≤ fuel' :=
      hfuel.imp (fun h => by omega) fun h => ⟨h.1, by omega⟩
    cases hi : m.code[f.pc]? with
    | none =>
      have hk : ¬V.known := fun hk => by
        obtain ⟨n, hn, -⟩ := hf hk
        obtain ⟨i, -, hi', -⟩ := hc.typed hk f.pc n hn
        rw [hi] at hi'
        exact nomatch hi'
      obtain ⟨hoffset, hcode⟩ := hc.same hk
      obtain ⟨rfl, hmethod⟩ := hname hk
      have hi' : m'.code[(V.shift f).pc]? = none := by
        show m'.code[f.pc + V.offset]? = none
        rw [hcode, hoffset]
        exact hi
      rw [Frame.run, Frame.run, hi, hi', hmethod]
      exact Simulation.Sim.fail ((V.lenient hk).2.1 _)
    | some i =>
      obtain ⟨hi', hstep⟩ := next_sim he hh hc hf hi
      rw [Frame.run, Frame.run, hi]
      rw [show m'.code[(V.shift f).pc]? = some (i.mapTarget (· + V.offset)) from hi']
      have hpc : ({ V.shift f with pc := (V.shift f).pc + 1 } : Frame) =
          V.shift { f with pc := f.pc + 1 } := by
        show ({ V.shift f with pc := f.pc + V.offset + 1 } : Frame) =
          { V.shift f with pc := f.pc + 1 + V.offset }
        rw [Nat.add_right_comm]
      rw [hpc]
      exact next_bind hstep fun f' hf' => ih hfuel' hf'

end View

/-! ### Methods -/

/-- What becomes of a call at the limit to the depth of calls: it fails, as it does in fact, or it is
made all the same, or it has no outcome. -/
inductive Limit
  | enforced
  | lifted
  | lapsing

/-- What is decided about a call at the door of a method, given the obstacle to it: a failure, no
failure, or nothing. -/
def Limit.verdict (limit : Limit) (obstacle? : Option VmError) : Option (Option VmError) :=
  match limit, obstacle? with
  | .lifted, some .stackOverflow => some none
  | .lapsing, some .stackOverflow => none
  | _, obstacle? => some obstacle?

/-- Enters a method: the checks at its door, and its body, run in a way that is given, one call
deeper. -/
def Run.enterBy (limit : Limit) (body : String → LoadedMethod → Frame → Run Value) :
    Execute := fun c i args => do
  let machine ← get
  let k := machine.cls c
  match k.methods[i]? with
  | none => fail (.noSuchMethod (.position k.name i))
  | some m =>
    match limit.verdict (m.obstacle? k.name args machine) with
    | none => outOfFuel
    | some (some e) => fail e
    | some none => deeper (body k.name m (.enter c m.maxLocals.toNat args))

/-- What becomes of a call is decided at the door of the method. -/
theorem Run.enterBy_apply {limit : Limit} {body : String → LoadedMethod → Frame → Run Value}
    {m : Machine} {c : ClassRef} {i : Nat} {k : LoadedMethod} {args : List Value}
    (hk : (m.cls c).methods[i]? = some k) :
    Run.enterBy limit body c i args m =
      match limit.verdict (k.obstacle? (m.cls c).name args m) with
      | none => none
      | some (some e) => some (.error e, m)
      | some none =>
        Run.deeper (body (m.cls c).name k (.enter c k.maxLocals.toNat args)) m := by
  unfold Run.enterBy
  rw [Run.get_bind_apply, hk]
  dsimp only
  cases limit.verdict (k.obstacle? (m.cls c).name args m) with
  | none => rfl
  | some obstacle? => cases obstacle? <;> rfl

theorem Limit.verdict_enforced (obstacle? : Option VmError) :
    Limit.enforced.verdict obstacle? = some obstacle? := rfl

theorem Run.enter_eq (handlers : Handlers) (execute : Execute) (fuel : Nat) :
    Run.enter handlers execute fuel =
      Run.enterBy .enforced fun owner m f => Frame.run handlers execute owner m fuel f := by
  funext c i args
  refine bind_congr fun machine => ?_
  dsimp only
  cases (machine.cls c).methods[i]? with
  | none => rfl
  | some m =>
    dsimp only
    rw [Limit.verdict_enforced]
    cases m.obstacle? (machine.cls c).name args machine <;> rfl

theorem Run.deeper_apply {α : Type} (x : Run α) (m : Machine) :
    Run.deeper x m =
      match x (m.atDepth (m.depth + 1)) with
      | none => none
      | some (r, m') => some (r, m'.atDepth (m'.depth - 1)) := rfl

/-- A failure at the door is no fault of the code. -/
theorem LoadedMethod.isCodeFault_of_obstacle {m : LoadedMethod} {owner : String}
    {args : List Value} {machine : Machine} {e : VmError}
    (h : m.obstacle? owner args machine = some e) : e.isCodeFault = false := by
  unfold LoadedMethod.obstacle? at h
  split at h
  · cases h; rfl
  split at h
  · cases h; rfl
  split at h
  · cases h; rfl
  split at h
  · cases h; rfl
  · cases h

/-- Where nothing is in the way, a call is made. -/
theorem Limit.verdict_none (limit : Limit) : limit.verdict none = some none := by
  cases limit <;> rfl

/-- A call that fails at the door meets an obstacle there. -/
theorem Limit.obstacle_eq_some (limit : Limit) {obstacle? : Option VmError} {e : VmError}
    (h : limit.verdict obstacle? = some (some e)) : obstacle? = some e := by
  unfold Limit.verdict at h
  split at h
  · exact nomatch h
  · exact nomatch h
  · exact Option.some.inj h

/-- A call that goes in meets no obstacle but the depth of calls. -/
theorem Limit.obstacle_of_enters (limit : Limit) {obstacle? : Option VmError}
    (h : limit.verdict obstacle? = some none) :
    obstacle? = none ∨ obstacle? = some .stackOverflow := by
  unfold Limit.verdict at h
  split at h
  · exact .inr rfl
  · exact nomatch h
  · exact .inl (Option.some.inj h)

namespace Simulation

variable {S : Simulation} {α β : Type}

theorem deeper_sim {Q : α → β → Prop} {x : Run α} {y : Run β} (h : S.Sim Q x y) :
    S.Sim Q (Run.deeper x) (Run.deeper y) := by
  intro m n hr
  have ho := h _ _ (S.enter hr)
  rw [Run.deeper_apply, Run.deeper_apply]
  rcases hx : x (m.atDepth (m.depth + 1)) with _ | ⟨e | a, m'⟩ <;>
    rcases hy : y (n.atDepth (n.depth + 1)) with _ | ⟨e' | b, n'⟩ <;>
    rw [hx, hy] at ho <;> first | exact ho | exact ho.elim | skip
  · obtain ⟨he, ha, hr', hm⟩ := ho
    exact ⟨he, ha, S.leave hr', hm.of_deeper⟩
  · obtain ⟨hq, hr', hm⟩ := ho
    exact ⟨hq, S.leave hr', hm.of_deeper⟩

/-- What the second of two doors decides is what the first does, or the first decides nothing. -/
def Heeds (S : Simulation) (v v' : Option (Option VmError)) : Prop :=
  (v = none → S.mayGiveUp) ∧ (v' = v ∨ v = none ∧ S.mayOutlast)

/-- **Methods.** Two ways of entering methods follow each other if their doors do and the bodies
behind the door do, on machines that have the classes of the one at the door. -/
theorem enterBy_sim {limit limit' : Limit}
    {body body' : String → LoadedMethod → Frame → Run Value}
    (hlimit : ∀ m n, S.rel m n → ∀ (k : LoadedMethod) owner args,
      S.Heeds (limit.verdict (k.obstacle? owner args m)) (limit'.verdict (k.obstacle? owner args n)))
    (hbody : ∀ start n c (i : Nat) (m : LoadedMethod) args, S.rel start n →
      (start.cls c).methods[i]? = some m →
      limit.verdict (m.obstacle? (start.cls c).name args start) = some none →
      (S.since start).Sim Eq (body (start.cls c).name m (.enter c m.maxLocals.toNat args))
        (body' (start.cls c).name m (.enter c m.maxLocals.toNat args))) :
    S.ExecuteSim (Run.enterBy limit body) (Run.enterBy limit' body') := by
  intro c i args start n hr
  have hcls : n.cls c = start.cls c := by rw [S.eq_atDepth hr, Machine.cls_atDepth]
  unfold Run.enterBy
  rw [Run.bind_apply, Run.bind_apply, Run.get_apply, Run.get_apply]
  simp only [hcls]
  cases hm : (start.cls c).methods[i]? with
  | none => exact ⟨rfl, S.allows_of rfl, hr, .refl start⟩
  | some m =>
    dsimp only
    obtain ⟨hgive, hsame | ⟨hnone, hlast⟩⟩ := hlimit start n hr m (start.cls c).name args
    · rw [hsame]
      cases hv : limit.verdict (m.obstacle? (start.cls c).name args start) with
      | none => exact hgive hv
      | some o =>
        cases o with
        | some e =>
          have he := m.isCodeFault_of_obstacle (limit.obstacle_eq_some hv)
          exact ⟨rfl, S.allows_of he, hr, .refl start⟩
        | none =>
          exact (deeper_sim (hbody start n c i m args hr hm hv) start n
            ⟨hr, .refl start⟩).of_since
    · rw [hnone]
      exact outcome_none (hgive hnone) hlast

end Simulation

end Interpose
