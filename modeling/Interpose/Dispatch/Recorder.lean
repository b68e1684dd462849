import Interpose.Dispatch.Handler
/-!
# The recorder

A handler that writes every question it is asked into the journal, and otherwise stays out of the
way: it runs static initializers unless it is to put them off, and answers calls with null unless it
is to call through.
-/

namespace Interpose

/-- A handler that keeps a journal. -/
structure Recorder where
  /-- Leave static initializers out. -/
  deferInit : Bool := false
  /-- Run declared bodies of intercepted calls. -/
  callThrough : Bool := false
  /-- Direct mode: no call is intercepted. -/
  direct : Bool := false
  deriving DecidableEq, Repr, Inhabited

namespace Recorder

variable (r : Recorder)

/-- Leaves direct mode. -/
def reset : Recorder := { r with direct := false }

/-- The recorder as a handler. -/
def handler : Handler where
  callsDirectly _ _ := r.direct
  classInitializing c :=
    .note (.initializing c) (if r.deferInit then .answer .null else .ask (.performInitializer c))
  methodInvoked call :=
    .note (.called call) (if r.callThrough then .ask (.callDirect call) else .answer .null)

end Recorder

end Interpose
