import Interpose.Dispatch.Handler
import Interpose.Proofs.Simulation
/-!
# Simulations of requests and plans

Requests run code through a parameter. So one request follows another as soon as the two ways of
executing methods do, whatever the simulation is. A plan follows another when it makes the same
requests, whatever their outcome, and ends with the same outcome; what it sees when it looks at the
machine is all that can make a difference.

## Main results

* `Simulation.request_sim`: requests
* `Simulation.plan_sim`: plans
-/

namespace Interpose

namespace Simulation

variable {S : Simulation} {execute execute' : Execute}

/-- One way of executing methods follows another. -/
def ExecuteSim (S : Simulation) (execute execute' : Execute) : Prop :=
  ∀ c i args, S.Sim Eq (execute c i args) (execute' c i args)

theorem ExecuteSim.since (h : S.ExecuteSim execute execute') (start : Machine) :
    (S.since start).ExecuteSim execute execute' :=
  fun c i args => (h c i args).since start

/-! ### Initialization -/

theorem runInitializer_sim (h : S.ExecuteSim execute execute') (c : ClassRef) :
    S.Sim Eq (Run.runInitializer execute c) (Run.runInitializer execute' c) := by
  refine Sim.look_bind fun m d => ?_
  rw [Machine.cls_atDepth]
  split
  · exact (h _ _ _).seq fun _ => Sim.pure rfl
  · exact Sim.pure rfl

theorem setState_sim (c : ClassRef) (s : InitState) :
    S.Sim Eq (modify fun m => m.updateClasses (·.setState c s) : Run Unit)
      (modify fun m => m.updateClasses (·.setState c s)) :=
  Sim.modify (fun m => .state m c s) fun _ _ => rfl

/-- The induction is on the lineage: a class is marked, its superclasses come next, and the mark
that is put in the end depends on the outcome, which is the same on both sides. -/
theorem initializeLineage_sim (h : S.ExecuteSim execute execute') (lineage : List ClassRef) :
    S.Sim Eq (Run.initializeLineage execute lineage) (Run.initializeLineage execute' lineage) := by
  induction lineage with
  | nil => exact Sim.pure rfl
  | cons c supers ih =>
    refine Sim.look_bind fun m d => ?_
    rw [Machine.cls_atDepth]
    split
    · exact Sim.pure rfl
    · exact Sim.pure rfl
    · refine (setState_sim c .initializing).seq fun _ => ?_
      have hbody := ih.seq fun _ => runInitializer_sim h c
      refine hbody.attempt.bind ?_
      rintro r _ ⟨rfl, hr⟩
      exact (setState_sim c _).seq fun _ => Sim.resume hr

theorem initializeClass_sim (h : S.ExecuteSim execute execute') (c : ClassRef) :
    S.Sim Eq (Run.initializeClass execute c) (Run.initializeClass execute' c) :=
  Sim.look_bind fun m _ => initializeLineage_sim h (m.classes.lineage c)

theorem performInitializer_sim (h : S.ExecuteSim execute execute') (c : ClassRef) :
    S.Sim Eq (Run.performInitializer execute c) (Run.performInitializer execute' c) := by
  refine Sim.look_bind fun m d => ?_
  rw [Machine.cls_atDepth]
  refine Sim.ite (fun _ => initializeClass_sim h c) fun _ => ?_
  split
  · exact (h _ _ _).seq fun _ => Sim.pure rfl
  · exact Sim.pure rfl

/-! ### Resolution -/

theorem resolveMethod_sim {c : ClassRef} {owner name descriptor : String} :
    S.Sim Eq (Run.resolveMethod c owner name descriptor)
      (Run.resolveMethod c owner name descriptor) := by
  refine Sim.look_bind fun m d => ?_
  rw [Machine.classes_atDepth]
  split
  · exact Sim.pure rfl
  · exact Sim.failure rfl

theorem declaredMethod_sim {c : ClassRef} {owner name descriptor : String} :
    S.Sim Eq (Run.declaredMethod c owner name descriptor)
      (Run.declaredMethod c owner name descriptor) := by
  refine Sim.look_bind fun m d => ?_
  rw [Machine.cls_atDepth]
  split
  · exact Sim.pure rfl
  · exact Sim.failure rfl

theorem resolveVirtual_sim {o : ObjectRef} {name descriptor : String} :
    S.Sim Eq (Run.resolveVirtual o name descriptor) (Run.resolveVirtual o name descriptor) :=
  Sim.look_bind fun _ _ => resolveMethod_sim

theorem resolveField_sim {c : ClassRef} {owner name : String} :
    S.Sim Eq (Run.resolveField c owner name) (Run.resolveField c owner name) := by
  refine Sim.look_bind fun m d => ?_
  rw [Machine.classes_atDepth]
  split
  · exact Sim.pure rfl
  · exact Sim.failure rfl

theorem resolveStatic_sim {c : ClassRef} {owner name : String} :
    S.Sim Eq (Run.resolveStatic c owner name) (Run.resolveStatic c owner name) := by
  refine Sim.look_bind fun m d => ?_
  rw [Machine.classes_atDepth]
  split
  · exact Sim.pure rfl
  · exact Sim.failure rfl

theorem getStaticSlot_sim {missing : MissingField} {c : ClassRef} {slot : Nat} :
    S.Sim Eq (Run.getStaticSlot missing c slot) (Run.getStaticSlot missing c slot) := by
  refine Sim.look_bind fun m d => ?_
  rw [Machine.classes_atDepth]
  split
  · exact Sim.pure rfl
  · exact Sim.failure rfl

theorem setStaticSlot_sim {missing : MissingField} {c : ClassRef} {slot : Nat} {v : Value} :
    S.Sim Eq (Run.setStaticSlot missing c slot v) (Run.setStaticSlot missing c slot v) := by
  refine Sim.look_bind fun m d => ?_
  rw [Machine.classes_atDepth]
  split
  · exact Sim.modify (fun m => .static m c slot v) fun _ _ => rfl
  · exact Sim.failure rfl

/-! ### Requests -/

theorem newInstance_sim (h : S.ExecuteSim execute execute') (cls descriptor : String)
    (args : List Value) :
    S.Sim Eq (Run.newInstance execute cls descriptor args)
      (Run.newInstance execute' cls descriptor args) := by
  refine loadClass_sim.bind_since (P := fun c m => S.strict → m.classes.Has c)
    (fun m n c m' hr hc hs => has_of_loadThrough (S.sound hs hr) hc) ?_
  rintro c _ start rfl hc
  refine (initializeClass_sim (h.since start) c).seq fun _ => ?_
  refine declaredMethod_sim.seq fun i => ?_
  have hhas : S.strict → ∀ m n, (S.since start).rel m n → m.classes.Has c :=
    fun hs m n hr => hr.2.has (hc hs)
  refine (allocate_sim hhas).seq fun object => ?_
  exact (h.since start c i (object :: args)).seq fun _ => Sim.pure rfl

/-- A new object of a class that a name means inside another. -/
theorem newObject_sim (h : S.ExecuteSim execute execute') {current : ClassRef} {name : String}
    (hcurrent : S.strict → ∀ m n, S.rel m n → m.classes.Has current) :
    S.Sim Eq
      (do
        let c ← Run.resolveClass current name
        Run.initializeClass execute c
        Run.allocate c)
      (do
        let c ← Run.resolveClass current name
        Run.initializeClass execute' c
        Run.allocate c) := by
  refine resolveClass_sim.bind_since (P := fun c m => S.strict → m.classes.Has c)
    (fun m n c m' hr hc hs => has_of_resolveClass (S.sound hs hr) (hcurrent hs m n hr) hc) ?_
  rintro c _ start rfl hc
  refine (initializeClass_sim (h.since start) c).seq fun _ => ?_
  have hhas : S.strict → ∀ m n, (S.since start).rel m n → m.classes.Has c :=
    fun hs m n hr => hr.2.has (hc hs)
  exact allocate_sim hhas

theorem callVirtual_sim (h : S.ExecuteSim execute execute') (receiver : Value)
    (name descriptor : String) (args : List Value) :
    S.Sim Eq (Run.callVirtual execute receiver name descriptor args)
      (Run.callVirtual execute' receiver name descriptor args) := by
  refine asObject_sim.seq fun o => ?_
  refine resolveVirtual_sim.seq fun ⟨owner, i⟩ => ?_
  exact h owner i (receiver :: args)

theorem callSpecial_sim (h : S.ExecuteSim execute execute') (c : ClassRef) (receiver : Value)
    (name descriptor : String) (args : List Value) :
    S.Sim Eq (Run.callSpecial execute c receiver name descriptor args)
      (Run.callSpecial execute' c receiver name descriptor args) := by
  refine asObject_sim.seq fun _ => ?_
  refine Sim.look_bind fun m d => ?_
  refine resolveMethod_sim.seq fun ⟨owner, i⟩ => ?_
  exact h owner i (receiver :: args)

theorem callStatic_sim (h : S.ExecuteSim execute execute') (cls name descriptor : String)
    (args : List Value) :
    S.Sim Eq (Run.callStatic execute cls name descriptor args)
      (Run.callStatic execute' cls name descriptor args) := by
  refine loadClass_sim.seq fun c => ?_
  refine (initializeClass_sim h c).seq fun _ => ?_
  refine resolveMethod_sim.seq fun ⟨owner, i⟩ => ?_
  exact h owner i args

theorem callDirect_sim (h : S.ExecuteSim execute execute') (call : CallRecord) :
    S.Sim Eq (Run.callDirect execute call) (Run.callDirect execute' call) := by
  refine Sim.look_bind fun m d => ?_
  simp only [Machine.cls_atDepth, Machine.classes_atDepth]
  split
  · exact Sim.failure rfl
  · refine Sim.ite (fun _ => h _ _ _) fun _ => ?_
    exact Sim.ite (fun _ => Sim.failure rfl) fun _ => h _ _ _

theorem directlyOn_sim (h : S.ExecuteSim execute execute') (receiver : Value)
    (name descriptor : String) (args : List Value) :
    S.Sim Eq (Run.directlyOn execute receiver name descriptor args)
      (Run.directlyOn execute' receiver name descriptor args) := by
  refine asObject_sim.seq fun o => ?_
  refine resolveVirtual_sim.seq fun ⟨owner, i⟩ => ?_
  refine Sim.look_bind fun m d => ?_
  simp only [Machine.cls_atDepth]
  refine Sim.ite (fun _ => ?_) fun _ => h owner i (receiver :: args)
  split
  · exact setSlot_sim.seq fun _ => h owner i (receiver :: args)
  · exact h owner i (receiver :: args)

theorem getField_sim {receiver : Value} {name : String} :
    S.Sim Eq (Run.getField receiver name) (Run.getField receiver name) := by
  refine asObject_sim.seq fun o => ?_
  refine Sim.look_bind fun m d => ?_
  refine resolveField_sim.seq fun slot => ?_
  exact getSlot_sim

theorem setField_sim {receiver : Value} {name : String} {v : Value} :
    S.Sim Eq (Run.setField receiver name v) (Run.setField receiver name v) := by
  refine asObject_sim.seq fun o => ?_
  refine Sim.look_bind fun m d => ?_
  refine resolveField_sim.seq fun slot => ?_
  exact setSlot_sim

theorem staticByName_sim (h : S.ExecuteSim execute execute') (cls name : String) :
    S.Sim Eq (Run.staticByName execute cls name) (Run.staticByName execute' cls name) := by
  refine loadClass_sim.seq fun c => ?_
  exact (initializeClass_sim h c).seq fun _ => resolveStatic_sim

/-- **Requests.** What a request comes to depends on how methods are executed, and on nothing
else. -/
theorem request_sim (h : S.ExecuteSim execute execute') (r : Request) :
    S.Sim Eq (r.run execute) (r.run execute') := by
  cases r with
  | loadClass name =>
    refine loadClass_sim.seq fun c => ?_
    exact Sim.pure rfl
  | initializeClass c => exact (initializeClass_sim h c).seq fun _ => Sim.pure rfl
  | performInitializer c => exact (performInitializer_sim h c).seq fun _ => Sim.pure rfl
  | newInstance cls descriptor args => exact newInstance_sim h cls descriptor args
  | callVirtual receiver name descriptor args => exact callVirtual_sim h receiver name descriptor args
  | callSpecial c receiver name descriptor args =>
    exact callSpecial_sim h c receiver name descriptor args
  | callStatic cls name descriptor args => exact callStatic_sim h cls name descriptor args
  | callDirect call => exact callDirect_sim h call
  | directlyOn receiver name descriptor args => exact directlyOn_sim h receiver name descriptor args
  | getField receiver name => exact getField_sim
  | setField receiver name v => exact setField_sim.seq fun _ => Sim.pure rfl
  | getStatic cls name =>
    refine (staticByName_sim h cls name).seq fun ⟨owner, slot⟩ => ?_
    exact getStaticSlot_sim
  | setStatic cls name v =>
    refine (staticByName_sim h cls name).seq fun ⟨owner, slot⟩ => ?_
    exact setStaticSlot_sim.seq fun _ => Sim.pure rfl

/-! ### Plans -/

/-- One plan follows another: the same requests, then the same outcome. -/
inductive PlanSim (S : Simulation) : Plan → Plan → Prop
  | finish {r : Except VmError Value} (h : S.Admits r) : PlanSim S (.finish r) (.finish r)
  | request {r : Request} {next next' : Except VmError Value → Plan}
    (h : ∀ result, S.Admits result → PlanSim S (next result) (next' result)) :
    PlanSim S (.request r next) (.request r next')
  | look {next next' : Machine → Plan}
    (h : ∀ m d, S.rel m (m.atDepth d) → PlanSim S (next m) (next' (m.atDepth d))) :
    PlanSim S (.look next) (.look next')
  | note {e : Event} {next next' : Plan} (h : PlanSim S next next') :
    PlanSim S (.note e next) (.note e next')

/-- **Plans.** -/
theorem plan_sim (h : S.ExecuteSim execute execute') {p p' : Plan} (hp : S.PlanSim p p') :
    S.Sim Eq (p.run execute) (p'.run execute') := by
  induction hp with
  | finish hr => exact Sim.resume hr
  | @request r next next' _ ih =>
    refine (request_sim h r).attempt.bind ?_
    rintro result _ ⟨rfl, hresult⟩
    exact ih result hresult
  | @look next next' _ ih =>
    refine Sim.intro fun m d hr => ?_
    exact ih m d hr m _ hr
  | note _ ih => exact note_sim.seq fun _ => ih

/-- The decisions and plans of handlers are the same on related machines. -/
structure HandlersSim (S : Simulation) (handlers : Handlers) : Prop where
  callsDirectly : ∀ h v m d, S.rel m (m.atDepth d) →
    (handlers h).callsDirectly (m.atDepth d) v = (handlers h).callsDirectly m v
  classInitializing : ∀ h c,
    S.PlanSim ((handlers h).classInitializing c) ((handlers h).classInitializing c)
  methodInvoked : ∀ h call,
    S.PlanSim ((handlers h).methodInvoked call) ((handlers h).methodInvoked call)

theorem PlanSim.since {p p' : Plan} (h : S.PlanSim p p') (start : Machine) :
    (S.since start).PlanSim p p' := by
  induction h with
  | finish hr => exact .finish hr
  | request _ ih => exact .request ih
  | look _ ih => exact .look fun m d hr => ih m d hr.1
  | note _ ih => exact .note ih

theorem HandlersSim.since {handlers : Handlers} (h : S.HandlersSim handlers) (start : Machine) :
    (S.since start).HandlersSim handlers where
  callsDirectly ref v m d hr := h.callsDirectly ref v m d hr.1
  classInitializing ref c := (h.classInitializing ref c).since start
  methodInvoked ref call := (h.methodInvoked ref call).since start

end Simulation

end Interpose
