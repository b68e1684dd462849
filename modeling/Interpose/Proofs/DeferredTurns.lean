import Interpose.Dispatch.Wrangler
import Interpose.Proofs.CallThrough
import Interpose.Proofs.Following
import Interpose.Proofs.Intercepted
import Interpose.Proofs.VerifiedStubs
/-!
# Turns

A class file may declare its static initializer once. Instrumentation moves it and puts in its place
three instructions, of which the second notifies the handler, and a wrangler that is notified has the
override done, or the declared initializer if there is none. So while the class is in the middle of
its initialization, running what has taken over the initializer's place in an abstaining run is taking
a turn. There the handler is notified once, and whatever it does on that account takes no other turn.

## Main definitions

* `Deferral.Concerns`: where the initializers of the class stand
* `Deferral.Binds`: a wrangler with the override bound to the class

## Main results

* `Deferral.runBy_entry`: what the entry does
* `Deferral.turn_followed`: running the entry is taking a turn
-/

namespace Interpose

namespace Deferral

variable {d : Deferral} {file file' : ClassFile} {h : HandlerRef} {m : Machine}

/-- The class file declares a static initializer, one, and nothing under the name that it is given. -/
structure Concerns (d : Deferral) (file : ClassFile) : Prop where
  declares : ∃ e, file.methods[d.body]? = some e ∧ e.name = staticInitializerName ∧
    e.descriptor = "()V"
  unique : ∀ (i : Nat) e, file.methods[i]? = some e → e.name = staticInitializerName → i = d.body
  unclaimed : ∀ e ∈ file.methods, e.name ≠ staticInitializerBodyName
  entry_eq : d.entry = file.methods.length + d.body

theorem Concerns.entry_ne_body (hd : d.Concerns file) : d.entry ≠ d.body := by
  obtain ⟨e, he, -, -⟩ := hd.declares
  have hlt : d.body < file.methods.length := (List.getElem?_eq_some_iff.1 he).1
  rw [hd.entry_eq]
  omega

/-- What stands in place of the static initializer, and where that has gone. -/
theorem Concerns.exists_halves (hd : d.Concerns file) (htransform : file.transform = .ok file') :
    ∃ body entry p p', file'.methods[d.body]? = some body ∧
      file'.methods[d.entry]? = some entry ∧ p'.Extends file'.constants ∧
      Instrument.initializerStub p file.name = .ok (entry, p') ∧
      (body.name = Instrument.bodyName file.name staticInitializerName ∧ body.descriptor = "()V") ∧
      entry.name = staticInitializerName ∧ entry.descriptor = "()V" := by
  obtain ⟨e, he, hname, hdescriptor⟩ := hd.declares
  obtain ⟨bodies, entries, added, pool, hfile⟩ :=
    ClassFile.exists_instrumented_of_transform htransform
  obtain ⟨body, entry, p, p', hbody, hentry, -, hgrows, hsplit⟩ := hfile.exists_halves he
  have hhalves := Instrument.halves_of_splitMethod hsplit
  have hnames : body.name = Instrument.bodyName file.name staticInitializerName ∧
      entry.name = staticInitializerName := by
    rw [hhalves.bodyName, hhalves.entryName, hname]
    exact ⟨rfl, rfl⟩
  rw [Instrument.splitMethod, if_neg (by rw [hname]; decide), if_pos hname] at hsplit
  obtain ⟨⟨stub, q⟩, hstub, hsplit⟩ := Results.bind_eq_ok hsplit
  cases hsplit
  exact ⟨_, _, p, p', hbody, hd.entry_eq ▸ hentry, hgrows, hstub, ⟨hnames.1, hdescriptor⟩, hnames.2,
    hhalves.initializerDescriptor hname⟩

/-- **The entry** is found under the name of static initializers. -/
theorem Concerns.declaredMethod?_entry (hd : d.Concerns file)
    (hm : m.Intercepts d.cls file file' h) :
    (m.cls d.cls).declaredMethod? staticInitializerName "()V" = some d.entry := by
  obtain ⟨-, entry, -, -, -, hentry, -, -, -, hname, hdescriptor⟩ := hd.exists_halves hm.transform
  obtain ⟨bodies, entries, added, pool, hfile⟩ :=
    ClassFile.exists_instrumented_of_transform hm.transform
  rw [← hname, ← hdescriptor]
  refine hm.declaredMethod?_eq_some hentry fun i e he hname' _ => ?_
  rw [hname] at hname'
  cases hfile.part he with
  | body _ hbody =>
    have hgenerated : IsBodyName e.name := hbody ▸ Instrument.isBodyName_bodyName _ _
    rw [hname'] at hgenerated
    exact absurd hgenerated (by decide)
  | entry hplace hd' hentry' =>
    have hplace' := hd.unique _ _ hd' (hentry'.symm.trans hname')
    exact Nat.le_of_eq (by rw [hplace, hplace', hd.entry_eq])
  | added _ hadded => exact absurd (hname'.symm.trans hadded) (by decide)

/-- **The body** is found under the name that static initializers are given. -/
theorem Concerns.declaredMethod?_body (hd : d.Concerns file)
    (hm : m.Intercepts d.cls file file' h) :
    (m.cls d.cls).declaredMethod? staticInitializerBodyName "()V" = some d.body := by
  obtain ⟨body, -, -, -, hbody, -, -, -, ⟨hname, hdescriptor⟩, -⟩ := hd.exists_halves hm.transform
  obtain ⟨bodies, entries, added, pool, hfile⟩ :=
    ClassFile.exists_instrumented_of_transform hm.transform
  have hbodyName : Instrument.bodyName file.name staticInitializerName =
      staticInitializerBodyName := rfl
  rw [← hbodyName, ← hname, ← hdescriptor]
  refine hm.declaredMethod?_eq_some hbody fun i e he hname' _ => ?_
  rw [hname] at hname'
  cases hfile.part he with
  | body hd' hbody' =>
    exact Nat.le_of_eq (hd.unique _ _ hd' (Instrument.bodyName_inj (hbody'.symm.trans hname')))
  | entry _ hd' hentry' =>
    exact absurd (hentry'.symm.trans (hname'.trans hbodyName))
      (hd.unclaimed _ (List.mem_of_getElem? hd'))
  | added _ hadded =>
    exact absurd (hadded.symm.trans (hname'.trans hbodyName)) (by decide)

/-- What the entry does, instruction by instruction. -/
theorem Concerns.code_of_entry (hd : d.Concerns file) (hm : m.Intercepts d.cls file file' h)
    {k : LoadedMethod} (hk : (m.cls d.cls).methods[d.entry]? = some k) :
    ∃ index, file'.constants.class? index = some file.name ∧
      k.code[0]? = some (.constClass index) ∧
      k.code[1]? = some (.simple .classInitializing) ∧ k.code[2]? = some (.simple .retVoid) := by
  obtain ⟨-, entry, p, p', -, hentry, hgrows, hstub, -⟩ := hd.exists_halves hm.transform
  obtain ⟨k', hk', hdefine⟩ := hm.exists_method hentry
  obtain rfl : k' = k := Option.some.inj (hk'.symm.trans hk)
  obtain ⟨signature, code, -, hdecode, rfl⟩ := LoadedMethod.define_eq_ok hdefine
  obtain ⟨⟨code', q⟩, hcode, hstub⟩ := Results.bind_eq_ok hstub
  cases hstub
  have hassemble := Instrument.assemble_eq_ok hcode
  have hfits : p'.Fits := hm.fits.of_extends hgrows
  have hdecode' : Code.decode (Code.encode code') = .ok code' :=
    Item.decode_of_assemble hassemble hfits List.nodup_nil
      (by simp [Item.jump, Item.simple]) (by simp [Item.emit, Item.simple])
  obtain rfl : code' = code := Except.ok.inj (hdecode'.symm.trans hdecode)
  obtain ⟨place, ⟨⟨index, hindex, h₀⟩, h₁, h₂, -⟩, -⟩ :=
    Item.laid_of_assemble hassemble hfits List.nodup_nil
  refine ⟨index, hgrows.class? hindex, ?_, ?_, ?_⟩
  · exact (List.getElem?_toArray ..).trans h₀
  · exact (List.getElem?_toArray ..).trans h₁
  · exact (List.getElem?_toArray ..).trans h₂

/-! ### Turns -/

variable {lapse : Run Value} {handlers : Handlers} {execute : Execute}

/-- The second instruction of the entry notifies the handler. -/
theorem step_notify (hm : m.Intercepts d.cls file file' h) (p : Nat) (locals : List Value) :
    d.step execute true handlers (.simple .classInitializing)
        ⟨d.cls, p, locals, [.cls d.cls]⟩ m =
      (d.notify execute true (handlers h) d.cls >>= fun _ =>
        pure (none, ⟨d.cls, p, locals, []⟩)) m := by
  have hpop : Act.pop ⟨d.cls, p, locals, [.cls d.cls]⟩ m =
      some (.ok (.cls d.cls, ⟨d.cls, p, locals, []⟩), m) := rfl
  have hclass : Run.asClass (.cls d.cls) m = some (.ok d.cls, m) := rfl
  have hhandler : Act.handler handlers ⟨d.cls, p, locals, []⟩ m =
      some (.ok (handlers h, ⟨d.cls, p, locals, []⟩), m) := Act.handler_of_some hm.handler
  have hnotify : d.classInitializing execute true handlers ⟨d.cls, p, locals, [.cls d.cls]⟩ m =
      (d.notify execute true (handlers h) d.cls >>= fun _ =>
        pure ((), ⟨d.cls, p, locals, []⟩)) m := by
    refine (Act.bind_of_ok hpop).trans ((Act.bind_of_ok (Act.lift_of_ok hclass)).trans ?_)
    refine (Act.bind_of_ok hhandler).trans ?_
    show ((d.notify execute true (handlers h) d.cls >>= fun a =>
      pure (a, _)) >>= fun p => pure ((), p.2)) m = _
    rw [Run.bind_apply, Run.bind_apply, Run.bind_apply]
    cases d.notify execute true (handlers h) d.cls m with
    | none => rfl
    | some o => obtain ⟨_ | _, _⟩ := o <;> rfl
  show (d.classInitializing execute true handlers ⟨d.cls, p, locals, [.cls d.cls]⟩ >>= fun p =>
    pure (none, p.2)) m = _
  rw [Run.bind_apply, hnotify, Run.bind_apply, Run.bind_apply]
  cases d.notify execute true (handlers h) d.cls m with
  | none => rfl
  | some o => obtain ⟨_ | _, _⟩ := o <;> rfl

theorem runBy_of_ok {step : Instruction → Act (Option Value)} {owner : String} {k : LoadedMethod}
    {fuel : Nat} {f f' : Frame} {i : Instruction} {m' : Machine} (hi : k.code[f.pc]? = some i)
    (hstep : step i { f with pc := f.pc + 1 } m = some (.ok (none, f'), m')) :
    Frame.runBy step lapse owner k (fuel + 1) f m = Frame.runBy step lapse owner k fuel f' m' := by
  rw [Frame.runBy, hi]
  exact (Run.bind_of_ok hstep).trans rfl

/-- **The entry** notifies the handler, by the second of three instructions. -/
theorem runBy_entry (hm : m.Intercepts d.cls file file' h)
    {k : LoadedMethod} {index : UInt32} (hindex : file'.constants.class? index = some file.name)
    (h₀ : k.code[0]? = some (.constClass index)) (h₁ : k.code[1]? = some (.simple .classInitializing))
    (h₂ : k.code[2]? = some (.simple .retVoid)) (owner : String) (locals : List Value) (fuel : Nat) :
    Frame.runBy (d.step execute true handlers) lapse owner k fuel ⟨d.cls, 0, locals, []⟩ m =
      (if fuel < 2 then lapse
        else do
          let _ ← d.notify execute true (handlers h) d.cls
          if fuel < 3 then lapse else return .null) m := by
  have hclass : (m.cls d.cls).constants.class? index = some (m.cls d.cls).name := by
    rw [hm.constants, hm.name, hindex]
  have hconst : d.step execute true handlers (.constClass index) ⟨d.cls, 1, locals, []⟩ m =
      some (.ok (none, ⟨d.cls, 1, locals, [.cls d.cls]⟩), m) :=
    (Act.bind_of_ok (Act.classConstant_of_some hclass)).trans rfl
  match fuel with
  | 0 => rfl
  | 1 => exact runBy_of_ok h₀ hconst
  | fuel + 2 =>
    have hreturn : ∀ n : Machine,
        Frame.runBy (d.step execute true handlers) lapse owner k fuel ⟨d.cls, 2, locals, []⟩ n =
          (if fuel + 2 < 3 then lapse else return .null) n := by
      intro n
      cases fuel with
      | zero => rfl
      | succ fuel =>
        rw [Frame.runBy, h₂, if_neg (by omega)]
        rfl
    rw [runBy_of_ok h₀ hconst, Frame.runBy, h₁, if_neg (by omega)]
    dsimp only
    rw [Run.bind_apply, step_notify hm, Run.bind_apply, Run.bind_apply]
    cases d.notify execute true (handlers h) d.cls m with
    | none => rfl
    | some o =>
      obtain ⟨e | v, n⟩ := o
      · rfl
      · exact hreturn n

/-- The handler is a wrangler that has the override bound to the class, or no override. -/
def Binds (d : Deferral) (file : ClassFile) (handler : Handler) : Prop :=
  ∃ w : Wrangler, handler = w.handler ∧
    (w.binding? file.name).bind (·.staticInitializer?) = d.override?

/-- What the handler does when it is notified. -/
theorem Binds.plan_eq {handler : Handler} (hbinds : d.Binds file handler)
    (hm : m.Intercepts d.cls file file' h) :
    ∃ next, handler.classInitializing d.cls = .look next ∧ next m =
      match d.override? with
      | some override => override d.cls
      | none => .ask (.performInitializer d.cls) := by
  obtain ⟨w, rfl, hover⟩ := hbinds
  refine ⟨_, rfl, ?_⟩
  have hplan : w.initializing file.name d.cls =
      match (w.binding? file.name).bind (·.staticInitializer?) with
      | some override => override d.cls
      | none => .ask (.performInitializer d.cls) := rfl
  show w.initializing (m.cls d.cls).name d.cls = _
  rw [hm.name, hplan, hover]

/-- The request for the body has it run. -/
theorem Concerns.performInitializer_apply (hd : d.Concerns file)
    (hm : m.Intercepts d.cls file file' h) :
    (Request.performInitializer d.cls).run execute m =
      (do let _ ← execute d.cls d.body []; return .null : Run Value) m := by
  have hperform : Run.performInitializer execute d.cls m =
      (do let _ ← execute d.cls d.body []; pure () : Run Unit) m := by
    rw [Run.performInitializer, Run.get_bind_apply, hm.instrumented, hd.declaredMethod?_body hm]
    rfl
  rw [Request.run, Run.bind_apply, hperform, Run.bind_apply, Run.bind_apply]
  cases execute d.cls d.body [] m with
  | none => rfl
  | some o => obtain ⟨_ | _, _⟩ := o <;> rfl

section Turns

variable {I : Machine → Prop} [hI : d.Kept I]

theorem executeBody_followed (hd : d.Concerns file) (hlapse : d.Followed I lapse lapse)
    (hbegun : ∀ m : Machine, I m → (m.cls d.cls).state ≠ .uninitialized) (fuel : Nat) :
    d.Followed I (d.abstaining lapse handlers fuel d.cls d.body [])
      (d.executeBody lapse handlers fuel) := by
  cases fuel with
  | zero => exact hlapse
  | succ fuel =>
    have hapart : d.Apart I (d.abstaining lapse handlers fuel) (d.idle lapse handlers fuel) :=
      regular_abstaining.apart_of_begun (regular_deferring _) hlapse hbegun fuel
    have hbody : ¬(d.cls = d.cls ∧ d.body = d.entry) := fun hself => hd.entry_ne_body hself.2.symm
    show d.Followed I (d.enter _ (decide (d.cls = d.cls ∧ d.body = d.entry)) lapse handlers fuel
      d.cls d.body []) _
    rw [decide_eq_false hbody]
    exact enter_followed hlapse fuel d.cls d.body []

/-- **What is due.** While the class is in the middle of its initialization, what the handler does
when the entry notifies it is what is due. -/
theorem due_followed (hd : d.Concerns file) (hbinds : d.Binds file (handlers h))
    (hlapse : d.Followed I lapse lapse) (hm : ∀ m, I m → m.Intercepts d.cls file file' h)
    (hbegun : ∀ m : Machine, I m → (m.cls d.cls).state ≠ .uninitialized) (fuel : Nat) :
    d.Followed I (d.notify (d.abstaining lapse handlers fuel) true (handlers h) d.cls)
      (d.due lapse handlers fuel) := by
  refine ⟨fun m hI' o ho => ?_⟩
  obtain ⟨next, hplan, hnext⟩ := hbinds.plan_eq (hm m hI')
  rw [notify, if_pos rfl, if_pos rfl, hplan] at ho
  cases hoverride : d.override? with
  | some override =>
    have hapart : d.Apart I (d.abstaining lapse handlers fuel) (d.idle lapse handlers fuel) :=
      regular_abstaining.apart_of_begun (regular_deferring _) hlapse hbegun fuel
    have hfollowed : d.Followed I
        (d.plan (d.abstaining lapse handlers fuel) (override d.cls))
        (d.plan (d.idle lapse handlers fuel) (override d.cls)) := inferInstance
    rw [hoverride] at ho hnext
    rw [due, hoverride]
    rw [if_pos Option.isSome_some, plan, Run.get_bind_apply, hnext] at ho
    exact hfollowed.rel m hI' o ho
  | none =>
    have hbody : d.Followed I (d.abstaining lapse handlers fuel d.cls d.body [])
        (d.executeBody lapse handlers fuel) := executeBody_followed hd hlapse hbegun fuel
    have hfollowed : d.Followed I
        (do let _ ← d.abstaining lapse handlers fuel d.cls d.body []; return .null : Run Value)
        (do let _ ← d.executeBody lapse handlers fuel; return .null) := inferInstance
    rw [hoverride] at ho hnext
    rw [due, hoverride]
    rw [if_neg (by decide), Plan.run, Run.get_bind_apply, hnext, Plan.run_ask,
      hd.performInitializer_apply (hm m hI')] at ho
    exact hfollowed.rel m hI' o ho

/-- **Turns.** While the class is in the middle of its initialization, running the entry is taking a
turn. -/
theorem turn_followed (hd : d.Concerns file) (hbinds : d.Binds file (handlers h))
    (hlapse : d.Followed I lapse lapse) (hm : ∀ m, I m → m.Intercepts d.cls file file' h)
    (hstate : ∀ m : Machine, I m → (m.cls d.cls).state = .initializing) (fuel : Nat)
    (args : List Value) :
    d.Followed I (d.abstaining lapse handlers fuel d.cls d.entry args)
      (d.deferring lapse handlers (d.takeTurn lapse handlers) fuel d.cls d.entry args) := by
  cases fuel with
  | zero => exact hlapse
  | succ fuel =>
    refine ⟨fun m hI' o ho => ?_⟩
    have hself : d.cls = d.cls ∧ d.entry = d.entry := ⟨rfl, rfl⟩
    have hturn : d.deferring lapse handlers (d.takeTurn lapse handlers) (fuel + 1) d.cls d.entry
        args = d.takeTurn lapse handlers fuel args := if_pos hself
    have hentry : d.abstaining lapse handlers (fuel + 1) d.cls d.entry args =
        d.enter (d.abstaining lapse handlers fuel) true lapse handlers fuel d.cls d.entry args := by
      show d.enter _ (decide (d.cls = d.cls ∧ d.entry = d.entry)) lapse handlers fuel _ _ args = _
      rw [decide_eq_true hself]
    have hdue := due_followed hd hbinds hlapse hm (fun m hI' => by rw [hstate m hI']; rintro ⟨⟩) fuel
    rw [hentry] at ho
    rw [hturn, takeTurn, Run.get_bind_apply, if_pos (hstate m hI')]
    refine enterBy_follows (d := d) hI' (fun k hk => ?_) ho
    obtain ⟨index, hindex, h₀, h₁, h₂⟩ := hd.code_of_entry (hm m hI') hk
    have hrest : d.Followed I
        (if fuel < 2 then lapse
          else do
            let _ ← d.notify (d.abstaining lapse handlers fuel) true (handlers h) d.cls
            if fuel < 3 then lapse else return .null)
        (d.turnBody lapse handlers fuel) := by
      unfold turnBody
      infer_instance
    refine ⟨fun n hn o ho => ?_⟩
    rw [Frame.enter, runBy_entry (hm n hn) hindex h₀ h₁ h₂] at ho
    exact hrest.rel n hn o ho

end Turns

end Deferral

end Interpose
