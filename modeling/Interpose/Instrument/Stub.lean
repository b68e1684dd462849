import Interpose.Instrument.Error
import Interpose.Instrument.Naming
/-!
# Generated methods

Behind an intercepted name stands a *stub*, which sends a call either to the handler or to the
declared body:

```
        [instance] if the marker holds an instance of the class, go to clear
        if the handler does not ask for direct calls, go to handler
direct: call the declared body with the same receiver and arguments, and return its result
clear:  [instance] put null into the marker, go to direct
handler: hand class, name, receiver, parameter types and arguments to the handler,
         unbox its answer if the return type is primitive, and return it
```

The stub of a native method is its handler block, since there is no body to call. Blocks are lists
of items, so the whole is an append of lists and its length is a sum; labels 0, 1 and 2 are the
three places named above.
-/

namespace Interpose

/-- What a stub stands in for. -/
structure StubTarget where
  className : String
  /-- The method name that the handler is told. -/
  recordName : String
  /-- The method that holds the declared body. -/
  directName : String
  descriptor : String
  signature : MethodDesc
  isStatic : Bool
  /-- Whether there is no declared body to fall back on. -/
  alwaysDispatch : Bool

namespace StubTarget

/-- Where the declared body is called. -/
def directLabel : Nat := 0

/-- Where the marker is cleared. -/
def clearLabel : Nat := 1

/-- Where the handler is called. -/
def handlerLabel : Nat := 2

/-- The slot of the first argument. -/
def firstArgument (t : StubTarget) : UInt16 := if t.isStatic then 0 else 1

/-- The slot of an argument. -/
def argumentSlot (t : StubTarget) (i : Nat) : UInt16 := t.firstArgument + UInt16.ofNat i

/-- Slots of a stub: the receiver and the arguments. -/
def locals (t : StubTarget) : UInt16 := t.firstArgument + UInt16.ofNat t.signature.arity

/-- Pushes the receiver, or null when there is none. -/
def receiverOrNull (t : StubTarget) : Item :=
  if t.isStatic then .simple .constNull else .loadLocal 0

/-- Returns from a method of the given signature with what the call left. -/
def returnItem (signature : MethodDesc) : Item :=
  if signature.ret.isVoid then .simple .retVoid else .simple .ret

/-- Goes to the clearing block if the marker holds an instance of the class. -/
def markerBlock (t : StubTarget) : List Item :=
  if t.isStatic then []
  else
    [.loadLocal 0, .field .get t.className markerFieldName, .instanceOf t.className,
      .jump .ifTrue clearLabel]

/-- Goes to the handler block unless the handler asks for direct calls. -/
def decisionBlock (t : StubTarget) : List Item :=
  [t.receiverOrNull, .simple .shouldCallDirectly, .jump .ifFalse handlerLabel]

/-- Pushes the arguments in order. -/
def pushArguments (t : StubTarget) : List Item :=
  (List.range t.signature.arity).map fun i => .loadLocal (t.argumentSlot i)

/-- Calls the declared body and returns. -/
def directBlock (t : StubTarget) : List Item :=
  let receiver := if t.isStatic then [] else [Item.loadLocal 0]
  let kind : CallKind := if t.isStatic then .static else .special
  .mark directLabel :: receiver ++ t.pushArguments
    ++ [.invoke kind t.className t.directName t.descriptor, returnItem t.signature]

/-- Clears the marker and goes on to the declared body. -/
def clearBlock (t : StubTarget) : List Item :=
  if t.isStatic then []
  else
    [.mark clearLabel, .loadLocal 0, .simple .constNull, .field .put t.className markerFieldName,
      .jump .always directLabel]

/-- Stores one element into the array on top of the stack, which stays there. -/
def storeElement (i : Nat) (element : Item) : List Item :=
  [.simple .dup, .constInt (Int32.ofNat i), element, .simple .arrayStore]

/-- Pushes an array of given elements. -/
def pushArray (elements : List Item) : List Item :=
  .constInt (Int32.ofNat elements.length) :: .simple .newArray
    :: elements.zipIdx.flatMap fun (element, i) => storeElement i element

/-- Pops or converts the handler's answer and returns. -/
def answerBlock (signature : MethodDesc) : List Item :=
  if signature.ret.isVoid then [.simple .pop, .simple .retVoid]
  else
    match signature.ret.tag? with
    | some tag => [.emit (.unbox tag), .simple .ret]
    | none => [.simple .ret]

/-- Calls the handler and returns its answer. -/
def handlerBlock (t : StubTarget) : List Item :=
  .mark handlerLabel :: .constClass t.className :: .constString t.recordName :: t.receiverOrNull
    :: pushArray (t.signature.paramNames.map .constString)
    ++ pushArray t.pushArguments
    ++ .simple .methodInvoked :: answerBlock t.signature

/-- The whole stub. -/
def items (t : StubTarget) : List Item :=
  let direct :=
    if t.alwaysDispatch then []
    else t.markerBlock ++ t.decisionBlock ++ t.directBlock ++ t.clearBlock
  [.newLabel, .newLabel, .newLabel] ++ direct ++ t.handlerBlock

end StubTarget

namespace Instrument

/-- Assembles generated items. -/
def assemble (pool : Pool) (items : List Item) :
    Except TransformError (List Instruction × Pool) :=
  match Item.assemble pool items with
  | .ok result => .ok result
  | .error e => .error (.build e)

/-- The signature of a method of a class. -/
def signatureOf (className : String) (m : MethodDef) : Except TransformError MethodDesc :=
  match m.signature with
  | .ok signature => .ok signature
  | .error e => .error (.descriptor (className ++ "." ++ m.name) e)

/-- The stub that takes over an ordinary method's name. -/
def entryMethod (pool : Pool) (className : String) (m : MethodDef) :
    Except TransformError (MethodDef × Pool) := do
  let signature ← signatureOf className m
  let target : StubTarget :=
    ⟨className, m.name, directMethodName className m.name, m.descriptor, signature, m.isStatic,
      m.isNative⟩
  let (code, pool) ← assemble pool target.items
  let access := Access.without m.access (Modifier.native.bit ||| Modifier.abstract.bit)
  return (⟨m.name, m.descriptor, access, m.exceptions, target.locals, Code.encode code⟩, pool)

/-- A static initializer that only tells the handler. -/
def initializerStub (pool : Pool) (className : String) :
    Except TransformError (MethodDef × Pool) := do
  let (code, pool) ←
    assemble pool [.constClass className, .simple .classInitializing, .simple .retVoid]
  return (⟨staticInitializerName, "()V", Modifier.static.bit, [], 0, Code.encode code⟩, pool)

/-- The constructor without parameters that a class without one is given. -/
def defaultConstructor (pool : Pool) (superName : Option String) :
    Except TransformError (MethodDef × Pool) := do
  let (code, pool) ← assemble pool (ClassDraft.defaultConstructorBody superName)
  return (⟨constructorName, "()V", Modifier.visible.bit, [], 1, Code.encode code⟩, pool)

end Instrument

end Interpose
