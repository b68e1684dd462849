import Interpose.Machine.Request
/-!
# Dispatch handlers

Instrumented code leaves its decisions to a handler: whether to run declared bodies, what an
intercepted call answers, and what happens when a class is initialized. A handler's answer is a
*plan*. A plan looks at the machine and makes requests of it, each time with the outcome of the last
one in hand, and ends with a value or a failure; it cannot change the machine in any other way. Any
terminating routine that works through the machine's requests is a plan.
-/

namespace Interpose

/-- What a handler does. -/
inductive Plan
  | finish (result : Except VmError Value)
  | request (r : Request) (next : Except VmError Value → Plan)
  | look (next : Machine → Plan)
  | note (e : Event) (next : Plan)

namespace Plan

/-- Ends with a value. -/
def answer (v : Value) : Plan := finish (.ok v)

/-- Ends with a failure. -/
def fail (e : VmError) : Plan := finish (.error e)

/-- Makes a request; its outcome is the plan's. -/
def ask (r : Request) : Plan := request r finish

/-- Carries a plan out. -/
def run (execute : Execute) : Plan → Run Value
  | finish result => Run.resume result
  | request r next => do
    let result ← Run.attempt (r.run execute)
    (next result).run execute
  | look next => do
    (next (← get)).run execute
  | note e next => do
    Run.note e
    next.run execute

end Plan

/-- The decisions that instrumented code asks for. -/
structure Handler where
  /-- Whether a call on a receiver, or on null for a static method, runs its declared body. -/
  callsDirectly : Machine → Value → Bool
  /-- What happens when the static initializer of a class is due. The value is of no use. -/
  classInitializing : ClassRef → Plan
  /-- What an intercepted call answers. -/
  methodInvoked : CallRecord → Plan

/-- Runs declared bodies and initializers, and nothing else. -/
instance : Inhabited Handler where
  default := {
    callsDirectly := fun _ _ => true
    classInitializing := fun c => .ask (.performInitializer c)
    methodInvoked := fun call => .ask (.callDirect call) }

/-- The handlers by reference. -/
abbrev Handlers := HandlerRef → Handler

end Interpose
