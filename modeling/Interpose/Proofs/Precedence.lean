import Interpose.Dispatch.Shadow
/-!
# Precedence among substitutes

A shadow is searched in one pass. The first substitute that fits a call is the answer if it is for the
very overload that is called. Otherwise the pass goes on behind it, to the first one that is, and comes
back to where it started if there is none.

The rule has two stages instead. Among the substitutes for the very overload the first one declared is
the answer, and only where there is none of these, the first one declared for all overloads. Both come
to the same, in whatever order substitutes of either kind and of other methods have been declared: what
fits a call is what one of the stages looks for, so the first that fits is the first of its stage.

## Main definitions

* `Shadow.Declaration`, `Shadow.ofDeclarations`: how shadows are built
* `Shadow.Chosen`: the rule

## Main results

* `Shadow.find?_eq_or`: one pass is as good as two stages
* `Shadow.methods_declareAll`: substitutes stand in the order in which they were declared
* `Shadow.substitute?_eq_iff`: calls are answered by the rule
-/

namespace Interpose

/-! ### Substitutes that fit -/

namespace ShadowMethod

variable {m : ShadowMethod} {call : CallRecord}

/-- Whether a substitute is for the very overload that is called. -/
def isForOverload (call : CallRecord) (m : ShadowMethod) : Bool :=
  m.name == call.method && m.params? == some call.paramTypes

/-- Whether a substitute is for all overloads of the called method. -/
def isForAll (call : CallRecord) (m : ShadowMethod) : Bool :=
  m.name == call.method && m.params?.isNone

/-- A substitute that fits and has parameter types is for the very overload. -/
theorem isForOverload_iff :
    m.isForOverload call = true ↔ m.fits call = true ∧ m.params?.isSome = true := by
  unfold fits isForOverload
  cases m.params? <;> simp

/-- A substitute that fits and has none is for all overloads. -/
theorem isForAll_iff : m.isForAll call = true ↔ m.fits call = true ∧ m.params?.isNone = true := by
  unfold fits isForAll
  cases m.params? <;> simp

end ShadowMethod

namespace Shadow

/-! ### One pass and two stages -/

/-- A stage of the search, among the substitutes that fit. -/
theorem find?_filter_fits {call : CallRecord} {stage kind : ShadowMethod → Bool}
    (h : ∀ m, stage m = true ↔ m.fits call = true ∧ kind m = true) (methods : List ShadowMethod) :
    (methods.filter (·.fits call)).find? kind = methods.find? stage := by
  rw [List.find?_filter]
  refine congrArg methods.find? (funext fun m => Bool.eq_iff_iff.2 ?_)
  rw [h, decide_eq_true_iff]

/-- **One pass is as good as two stages.** A search that goes on behind the first substitute that fits
finds the first one for the very overload, or else the first one for all. -/
theorem find?_eq_or (s : Shadow) (call : CallRecord) :
    s.find? call = (s.methods.find? (·.isForOverload call)).or (s.methods.find? (·.isForAll call)) := by
  rw [← find?_filter_fits (fun _ => ShadowMethod.isForOverload_iff),
    ← find?_filter_fits (fun _ => ShadowMethod.isForAll_iff)]
  unfold find?
  cases s.methods.filter (·.fits call) with
  | nil => rfl
  | cons first rest =>
    cases hfirst : first.params? with
    | some params => simp [hfirst]
    | none =>
      -- what the pass started from is the first of the second stage
      cases hrest : rest.find? (·.params?.isSome) <;> simp [hfirst, hrest]

/-! ### Declarations -/

/-- What is declared of a shadow. -/
inductive Declaration
  | method (name : String) (body : CallRecord → Plan)
  | overload (name : String) (params : List String) (body : CallRecord → Plan)
  | localeUnsafeMethod (name : String) (body : CallRecord → Plan)
  | staticInitializer (run : ClassRef → Plan)

namespace Declaration

variable {call : CallRecord} {d : Declaration}

/-- The substitute that is declared. -/
def substitute? : Declaration → Option ShadowMethod
  | method name body => some ⟨name, none, false, body⟩
  | overload name params body => some ⟨name, some params, false, body⟩
  | localeUnsafeMethod name body => some ⟨name, none, true, body⟩
  | staticInitializer _ => none

/-- A declaration for the very overload that is called. -/
def IsForOverload (call : CallRecord) (d : Declaration) : Prop :=
  ∃ body, d = overload call.method call.paramTypes body

/-- A declaration for all overloads of the called method. -/
def IsForAll (call : CallRecord) (d : Declaration) : Prop :=
  ∃ body, d = method call.method body ∨ d = localeUnsafeMethod call.method body

theorem any_isForOverload_iff :
    d.substitute?.any (·.isForOverload call) = true ↔ d.IsForOverload call := by
  cases d <;> simp [substitute?, ShadowMethod.isForOverload, IsForOverload]

theorem any_isForAll_iff : d.substitute?.any (·.isForAll call) = true ↔ d.IsForAll call := by
  cases d <;> simp [substitute?, ShadowMethod.isForAll, IsForAll]

end Declaration

/-- Declares something of a shadow. -/
def declare (s : Shadow) : Declaration → Shadow
  | .method name body => s.method name body
  | .overload name params body => s.overload name params body
  | .localeUnsafeMethod name body => s.localeUnsafeMethod name body
  | .staticInitializer run => { s with staticInitializer? := some run }

/-- Declares one thing after the other. -/
def declareAll (s : Shadow) (declarations : List Declaration) : Shadow :=
  declarations.foldl declare s

/-- The shadow of which something has been declared. -/
def ofDeclarations (name : String) (declarations : List Declaration) : Shadow :=
  declareAll { name := name } declarations

/-- **One declaration.** A substitute is added behind those that are there. -/
theorem methods_declare (s : Shadow) (d : Declaration) :
    (s.declare d).methods = s.methods ++ d.substitute?.toList := by
  cases d with
  | staticInitializer run => exact (List.append_nil s.methods).symm
  | _ => rfl

/-- **Declarations.** Substitutes stand in the order in which they were declared. The induction is on
the declarations, each of which starts from what those before it have built. -/
theorem methods_declareAll (s : Shadow) (declarations : List Declaration) :
    (s.declareAll declarations).methods =
      s.methods ++ declarations.filterMap Declaration.substitute? := by
  induction declarations generalizing s with
  | nil => exact (List.append_nil s.methods).symm
  | cons d rest ih =>
    rw [declareAll, List.foldl_cons, ← declareAll, ih, methods_declare, List.append_assoc]
    cases hd : d.substitute? with
    | none => rw [List.filterMap_cons_none hd]; rfl
    | some m => rw [List.filterMap_cons_some hd]; rfl

/-- A stage of the search, among the declarations. -/
theorem find?_methods_ofDeclarations (name : String) (declarations : List Declaration)
    (stage : ShadowMethod → Bool) :
    (ofDeclarations name declarations).methods.find? stage =
      (declarations.find? fun d => d.substitute?.any stage).bind Declaration.substitute? := by
  rw [ofDeclarations, methods_declareAll]
  exact List.find?_filterMap

/-- The two stages, among the declarations. -/
theorem find?_ofDeclarations (name : String) (declarations : List Declaration) (call : CallRecord) :
    (ofDeclarations name declarations).find? call =
      ((declarations.find? fun d => d.substitute?.any (·.isForOverload call)).bind
        Declaration.substitute?).or
      ((declarations.find? fun d => d.substitute?.any (·.isForAll call)).bind
        Declaration.substitute?) := by
  rw [find?_eq_or, find?_methods_ofDeclarations, find?_methods_ofDeclarations]

/-! ### The rule -/

/-- The body of the substitute for a call, and whether it depends on the locale. -/
def substitute? (s : Shadow) (call : CallRecord) : Option ((CallRecord → Plan) × Bool) :=
  (s.find? call).map fun m => (m.body, m.localeUnsafe)

/-- The first of some declarations of which something is true. -/
structure First (p : Declaration → Prop) (declarations : List Declaration) (d : Declaration) :
    Prop where
  holds : p d
  exists_split : ∃ before behind, declarations = before ++ d :: behind ∧ ∀ e ∈ before, ¬p e

/-- **The rule of precedence.** The first substitute for the very overload answers a call; where there
is none, the first substitute for all overloads; where there is none of these either, nothing does.
Only a substitute that was declared so depends on the locale. -/
inductive Chosen (call : CallRecord) (declarations : List Declaration) :
    Option ((CallRecord → Plan) × Bool) → Prop
  | overload {body : CallRecord → Plan} :
    First (·.IsForOverload call) declarations (.overload call.method call.paramTypes body) →
    Chosen call declarations (some (body, false))
  | method {body : CallRecord → Plan} : (∀ d ∈ declarations, ¬d.IsForOverload call) →
    First (·.IsForAll call) declarations (.method call.method body) →
    Chosen call declarations (some (body, false))
  | localeUnsafeMethod {body : CallRecord → Plan} : (∀ d ∈ declarations, ¬d.IsForOverload call) →
    First (·.IsForAll call) declarations (.localeUnsafeMethod call.method body) →
    Chosen call declarations (some (body, true))
  | nothing : (∀ d ∈ declarations, ¬d.IsForOverload call) →
    (∀ d ∈ declarations, ¬d.IsForAll call) → Chosen call declarations none

section Stages

variable {p : Declaration → Prop} {test : Declaration → Bool} {declarations : List Declaration}

theorem find?_eq_some_iff_first (h : ∀ {d}, test d = true ↔ p d) {d : Declaration} :
    declarations.find? test = some d ↔ First p declarations d := by
  have hnot : ∀ e, (!test e) = true ↔ ¬p e := fun e => by
    rw [← h, Bool.not_eq_true', Bool.not_eq_true]
  rw [List.find?_eq_some_iff_append, h]
  simp only [hnot]
  exact ⟨fun ⟨hd, hsplit⟩ => ⟨hd, hsplit⟩, fun hd => ⟨hd.holds, hd.exists_split⟩⟩

theorem find?_eq_none_iff_forall (h : ∀ {d}, test d = true ↔ p d) :
    declarations.find? test = none ↔ ∀ d ∈ declarations, ¬p d := by
  simp only [List.find?_eq_none, h]

end Stages

open Declaration (any_isForOverload_iff any_isForAll_iff)

/-- What a shadow answers is what the rule chooses. -/
theorem chosen_substitute? (name : String) (declarations : List Declaration) (call : CallRecord) :
    Chosen call declarations ((ofDeclarations name declarations).substitute? call) := by
  rw [substitute?, find?_ofDeclarations]
  cases hoverload : declarations.find? fun d => d.substitute?.any (·.isForOverload call) with
  | some d =>
    have hfirst := (find?_eq_some_iff_first any_isForOverload_iff).1 hoverload
    obtain ⟨body, rfl⟩ := hfirst.holds
    exact .overload hfirst
  | none =>
    have hnone := (find?_eq_none_iff_forall any_isForOverload_iff).1 hoverload
    cases hall : declarations.find? fun d => d.substitute?.any (·.isForAll call) with
    | some d =>
      have hfirst := (find?_eq_some_iff_first any_isForAll_iff).1 hall
      obtain ⟨body, rfl | rfl⟩ := hfirst.holds
      · exact .method hnone hfirst
      · exact .localeUnsafeMethod hnone hfirst
    | none => exact .nothing hnone ((find?_eq_none_iff_forall any_isForAll_iff).1 hall)

/-- What the rule chooses is what a shadow answers, so it does not choose two things. -/
theorem Chosen.substitute?_eq {call : CallRecord} {declarations : List Declaration}
    {answer : Option ((CallRecord → Plan) × Bool)} (h : Chosen call declarations answer)
    (name : String) : (ofDeclarations name declarations).substitute? call = answer := by
  rw [substitute?, find?_ofDeclarations]
  cases h with
  | overload hfirst =>
    rw [(find?_eq_some_iff_first any_isForOverload_iff).2 hfirst]
    rfl
  | method hnone hfirst | localeUnsafeMethod hnone hfirst =>
    rw [(find?_eq_none_iff_forall any_isForOverload_iff).2 hnone,
      (find?_eq_some_iff_first any_isForAll_iff).2 hfirst]
    rfl
  | nothing hnone hnone' =>
    rw [(find?_eq_none_iff_forall any_isForOverload_iff).2 hnone,
      (find?_eq_none_iff_forall any_isForAll_iff).2 hnone']
    rfl

/-- **Calls are answered by the rule.** Whatever has been declared of a shadow, and in whatever order,
body and flag of the substitute for a call are those that the rule chooses, and there is none exactly
if the rule chooses none. -/
theorem substitute?_eq_iff (name : String) (declarations : List Declaration) (call : CallRecord)
    (answer : Option ((CallRecord → Plan) × Bool)) :
    (ofDeclarations name declarations).substitute? call = answer ↔
      Chosen call declarations answer := by
  constructor
  · rintro rfl
    exact chosen_substitute? name declarations call
  · intro h
    exact h.substitute?_eq name

/-- A substitute for all overloads that was declared first gives way to the first of two for the very
overload, and is not asked whether it depends on the locale. -/
example (c : ClassRef) (all one two : CallRecord → Plan) :
    (ofDeclarations "s" [.localeUnsafeMethod "f" all, .overload "g" ["int"] two,
      .overload "f" ["int"] one, .overload "f" ["int"] two]).substitute?
        ⟨c, "f", .null, ["int"], [.int 1]⟩ = some (one, false) := rfl

end Shadow

end Interpose
