import Interpose.Dispatch.Shadow
/-!
# Scripted substitutes

A small language for the bodies of substitutes: answer, fail, look at the call, make a request,
one thing after the other. A script is read as a plan that goes on with the value of the script; a
failure ends the plan.

A script can also stand in for a static initializer. Then there is no call: the receiver is null,
and whatever needs a call answers null.
-/

namespace Interpose

/-- The body of a substitute. -/
inductive Script
  | answer (v : Value)
  | fail (e : VmError)
  | receiver
  | arg (i : Nat)
  /-- Runs the declared body. -/
  | direct
  /-- Runs the declared body on other arguments. -/
  | directWith (args : List Value)
  | callVirtual (name descriptor : String) (args : List Value)
  | directlyOn (name descriptor : String) (args : List Value)
  | getField (name : String)
  | setField (name : String) (v : Value)
  | setStatic (cls name : String) (v : Value)
  /-- Runs the declared static initializer. -/
  | perform
  | seq (parts : List Script)
  deriving Inhabited

/-- Where a script runs: in a class, and as the answer to a call if there is one. -/
structure Site where
  owner : ClassRef
  call? : Option CallRecord
  deriving DecidableEq, Repr, Inhabited

/-- The receiver of the call. -/
def Site.receiver (s : Site) : Value :=
  match s.call? with
  | some call => call.receiver
  | none => .null

namespace Script

/-- Makes a request and goes on with its value. -/
def andThen (r : Request) (next : Value → Plan) : Plan :=
  .request r fun
    | .ok v => next v
    | .error e => .fail e

/-- Makes a request about the call and goes on with its value, which is null if there is no call. -/
def withCall (s : Site) (r : CallRecord → Request) (next : Value → Plan) : Plan :=
  match s.call? with
  | some call => andThen (r call) next
  | none => next .null

mutual

/-- The plan of a script, which goes on with the script's value. -/
def plan (s : Site) (next : Value → Plan) : Script → Plan
  | answer v => next v
  | fail e => .fail e
  | receiver => next s.receiver
  | arg i =>
    match s.call? with
    | some call => next (call.arg i)
    | none => next .null
  | direct => withCall s .callDirect next
  | directWith args => withCall s (fun call => .callDirect { call with args := args }) next
  | callVirtual name descriptor args => andThen (.callVirtual s.receiver name descriptor args) next
  | directlyOn name descriptor args => andThen (.directlyOn s.receiver name descriptor args) next
  | getField name => andThen (.getField s.receiver name) next
  | setField name v => andThen (.setField s.receiver name v) next
  | setStatic cls name v => andThen (.setStatic cls name v) next
  | perform => andThen (.performInitializer s.owner) next
  | seq parts => planAll s next .null parts

/-- The plan of scripts one after the other. The value is the last one's, or the given one if there
is none. -/
def planAll (s : Site) (next : Value → Plan) (last : Value) : List Script → Plan
  | [] => next last
  | part :: rest => plan s (fun v => planAll s next v rest) part

end

/-- The script as the substitute for a method, noted under the name of the shadow. -/
def body (shadow : String) (script : Script) (call : CallRecord) : Plan :=
  .note (.substituted shadow call) (script.plan ⟨call.owner, some call⟩ .answer)

/-- The script as the substitute for a static initializer. -/
def initializer (shadow : String) (script : Script) (c : ClassRef) : Plan :=
  .note (.substitutedInit shadow c) (script.plan ⟨c, none⟩ fun _ => .answer .null)

end Script

end Interpose
