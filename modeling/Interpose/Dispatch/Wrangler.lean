import Interpose.Dispatch.Shadow
/-!
# The wrangler

The ordinary handler. It keeps shadows by the name of the class they stand in for, at most one for
each, and sends intercepted calls to them. A call without a substitute runs the declared body if
that is the wrangler's way, and otherwise answers null, as a native method without a substitute
always does.

Direct mode and strictness are switches. `reset` puts everything back to where a new wrangler of the
same options starts.
-/

namespace Interpose

/-- How a wrangler starts, and starts again when it is reset. -/
structure WranglerOptions where
  /-- Refuse substitutes that depend on the locale. -/
  strict : Bool := false
  /-- Run the declared body where there is no substitute. -/
  callThrough : Bool := false
  deriving DecidableEq, Repr, Inhabited

/-- A registry of shadows. -/
structure Wrangler where
  options : WranglerOptions
  bindings : List (String × Shadow) := []
  strict : Bool := options.strict
  /-- Direct mode: every call runs its declared body. -/
  direct : Bool := false

namespace Wrangler

variable (w : Wrangler)

/-- A wrangler without shadows. -/
def new (options : WranglerOptions) : Wrangler := { options := options }

/-- The shadow of a class. -/
def binding? (target : String) : Option Shadow := w.bindings.lookup target

/-- Takes the shadow of a class away. -/
def unbind (target : String) : Wrangler :=
  { w with bindings := w.bindings.filter fun b => b.1 != target }

/-- Gives a class a shadow, in place of the one it may have had. -/
def bind (target : String) (shadow : Shadow) : Wrangler :=
  { w with bindings := (target, shadow) :: (w.unbind target).bindings }

def bindingCount : Nat := w.bindings.length

def setDirect (on : Bool) : Wrangler := { w with direct := on }

def setStrict (on : Bool) : Wrangler := { w with strict := on }

/-- Forgets the shadows, and puts the switches back. -/
def reset : Wrangler := { w with bindings := [], strict := w.options.strict, direct := false }

/-- What an intercepted call answers, in a class of the given name. -/
def answer (owner : String) (native : Bool) (call : CallRecord) : Plan :=
  match (w.binding? owner).bind (·.find? call) with
  | some m =>
    if m.localeUnsafe && w.strict then .fail (.strictMode owner call.method) else m.body call
  | none =>
    if native then .answer .null
    else if w.options.callThrough then .ask (.callDirect call)
    else .answer .null

/-- What happens when the static initializer of a class of the given name is due. -/
def initializing (name : String) (c : ClassRef) : Plan :=
  match (w.binding? name).bind (·.staticInitializer?) with
  | some run => run c
  | none => .ask (.performInitializer c)

/-- The wrangler as a handler. -/
def handler : Handler where
  callsDirectly _ _ := w.direct
  classInitializing c := .look fun m => w.initializing (m.cls c).name c
  methodInvoked call := .look fun m =>
    w.answer (m.cls call.owner).name (call.targetsNative m.classes) call

end Wrangler

end Interpose
