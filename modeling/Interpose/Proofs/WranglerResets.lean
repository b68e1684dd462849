import Interpose.Dispatch.Wrangler
import Interpose.Machine.Execute
/-!
# Resetting a wrangler

A wrangler that is reset starts again where a new one of the same options starts. So what was done to
it before cannot be told from anything it does later: not from what it answers about its shadows and
its switches, and not from what becomes of calls and initializations that are handed to it, on
whatever machine.

This rests on one thing. Of the parts of a wrangler a reset puts back all but the options, and no
operation changes the options.

## Main definitions

* `Wrangler.Operation`, `Wrangler.performAll`: what can be done to a wrangler
* `Wrangler.Query`, `Wrangler.Query.answer`: what can be asked of it
* `Wrangler.answers`: what is seen of a wrangler in the course of operations and queries

## Main results

* `Wrangler.options_performAll`: the options are what a wrangler started with
* `Wrangler.performAll_reset`: a wrangler that is reset is a new one
* `Wrangler.answers_after_reset`: nothing is seen of what came before a reset
-/

namespace Interpose

namespace Wrangler

/-! ### Operations -/

/-- What can be done to a wrangler. -/
inductive Operation
  | bind (target : String) (shadow : Shadow)
  | unbind (target : String)
  | setStrict (on : Bool)
  | setDirect (on : Bool)
  | reset

/-- Does something to a wrangler. -/
def perform (w : Wrangler) : Operation → Wrangler
  | .bind target shadow => w.bind target shadow
  | .unbind target => w.unbind target
  | .setStrict on => w.setStrict on
  | .setDirect on => w.setDirect on
  | .reset => w.reset

/-- Does one thing after the other. -/
def performAll (w : Wrangler) (operations : List Operation) : Wrangler :=
  operations.foldl perform w

/-! ### Queries -/

/-- What can be asked of a wrangler. Calls and initializations are handed to it on a machine, where
it is the handler of a reference; other references have handlers of their own. -/
inductive Query
  | binding (target : String)
  | bindingCount
  | options
  | strict
  | callsDirectly (receiver : Value) (machine : Machine)
  | methodInvoked (call : CallRecord) (others : Handlers) (ref : HandlerRef) (fuel : Nat)
    (machine : Machine)
  | classInitializing (cls : ClassRef) (others : Handlers) (ref : HandlerRef) (fuel : Nat)
    (machine : Machine)

/-- What is seen of a wrangler. -/
inductive Answer
  /-- Nothing but that it is done. -/
  | done
  | shadow (shadow? : Option Shadow)
  | count (n : Nat)
  | options (options : WranglerOptions)
  | switch (on : Bool)
  /-- What becomes of a machine, if anything does with the given fuel. -/
  | outcome (outcome? : Option (Except VmError Value × Machine))

/-- The handlers with a wrangler among them. -/
def among (w : Wrangler) (others : Handlers) (ref : HandlerRef) : Handlers := fun r =>
  if r = ref then w.handler else others r

/-- What a wrangler answers. -/
def Query.answer (w : Wrangler) : Query → Answer
  | .binding target => .shadow (w.binding? target)
  | .bindingCount => .count w.bindingCount
  | .options => .options w.options
  | .strict => .switch w.strict
  | .callsDirectly receiver machine => .switch (w.handler.callsDirectly machine receiver)
  | .methodInvoked call others ref fuel machine =>
    .outcome ((w.handler.methodInvoked call).run (executeWith (w.among others ref) fuel) machine)
  | .classInitializing cls others ref fuel machine =>
    .outcome ((w.handler.classInitializing cls).run (executeWith (w.among others ref) fuel) machine)

/-- What an operation answers: shadows that are put in place of others or taken away are handed
back. -/
def Operation.answer (w : Wrangler) : Operation → Answer
  | .bind target _ | .unbind target => .shadow (w.binding? target)
  | _ => .done

/-! ### Courses of operations and queries -/

/-- An operation or a query. -/
inductive Step
  | operate (operation : Operation)
  | ask (query : Query)

/-- What is seen of a wrangler at a step. -/
def Step.answer (w : Wrangler) : Step → Answer
  | .operate operation => operation.answer w
  | .ask query => query.answer w

/-- The wrangler behind a step. Queries leave it as it is. -/
def take (w : Wrangler) : Step → Wrangler
  | .operate operation => w.perform operation
  | .ask _ => w

/-- What is seen of a wrangler in the course of some steps. -/
def answers (w : Wrangler) : List Step → List Answer
  | [] => []
  | step :: rest => step.answer w :: answers (w.take step) rest

/-! ### Resets -/

/-- **One operation.** No operation changes the options. -/
theorem options_perform (w : Wrangler) (operation : Operation) :
    (w.perform operation).options = w.options := by
  cases operation <;> rfl

/-- Nor do many. The induction is on the operations, each of which starts from where those before it
have led. -/
theorem options_performAll (w : Wrangler) (operations : List Operation) :
    (w.performAll operations).options = w.options := by
  induction operations generalizing w with
  | nil => rfl
  | cons operation rest ih =>
    rw [performAll, List.foldl_cons, ← performAll, ih, options_perform]

/-- A reset leaves the options, and nothing else of the wrangler. -/
theorem reset_eq_new (w : Wrangler) : w.reset = new w.options := rfl

/-- **Resets.** Whatever has been done to a wrangler, when it is reset it is a new one. -/
theorem performAll_reset (options : WranglerOptions) (history : List Operation) :
    (new options).performAll (history ++ [.reset]) = new options := by
  rw [performAll, List.foldl_append, ← performAll]
  show ((new options).performAll history).reset = new options
  rw [reset_eq_new, options_performAll]
  rfl

/-- Strictness is put back to how it was configured, which need not be how it is by default. -/
example : ((new ⟨true, false⟩).performAll [.setStrict false, .reset]).strict = true := rfl

/-- **Nothing is seen of what came before a reset.** After any operations and a reset, a wrangler
answers in any course of operations and queries as a new one of the same options does. -/
theorem answers_after_reset (options : WranglerOptions) (history : List Operation)
    (course : List Step) :
    ((new options).performAll (history ++ [.reset])).answers course =
      (new options).answers course := by
  rw [performAll_reset]

end Wrangler

end Interpose
