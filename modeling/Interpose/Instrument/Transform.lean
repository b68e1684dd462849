import Interpose.Instrument.Constructor
/-!
# Instrumented classes

Instrumentation gives every method of a class a second half. An ordinary method moves to its direct
name and a stub takes over; a constructor is split; the static initializer moves to a name of its
own and a notification takes over. A class without a constructor that takes no parameters is given
one, and every class is given the marker field. The renamed halves stand first, in the order of the
declarations, then the generated ones in the same order.

The pool only grows, so the code of a renamed half keeps its meaning. Nothing but the class file
goes into the result.
-/

namespace Interpose

namespace Instrument

/-- The two halves of a method, renamed and generated, and the pool with the operands of the
latter. -/
def splitMethod (pool : Pool) (className : String) (superName : Option String) (m : MethodDef) :
    Except TransformError (MethodDef × MethodDef × Pool) :=
  if m.name = constructorName then
    splitConstructor pool className superName m
  else if m.name = staticInitializerName then do
    let (stub, pool) ← initializerStub pool className
    return ({ m with name := staticInitializerBodyName }, stub, pool)
  else do
    let (entry, pool) ← entryMethod pool className m
    return ({ m with name := directMethodName className m.name }, entry, pool)

/-- Splits methods in order: the renamed halves, the generated halves, and the pool after all. -/
def splitMethods (className : String) (superName : Option String) (pool : Pool) :
    List MethodDef → Except TransformError (List MethodDef × List MethodDef × Pool)
  | [] => .ok ([], [], pool)
  | m :: rest => do
    let (renamed, generated, pool) ← splitMethod pool className superName m
    let (renamedRest, generatedRest, pool) ← splitMethods className superName pool rest
    return (renamed :: renamedRest, generated :: generatedRest, pool)

/-- Whether a class declares a constructor without parameters. -/
def hasDefaultConstructor (c : ClassFile) : Bool :=
  c.methods.any fun m => m.name == constructorName && m.descriptor == "()V"

/-- The constructor to add, if one is wanted. -/
def addedConstructor (c : ClassFile) (pool : Pool) :
    Except TransformError (List MethodDef × Pool) :=
  if hasDefaultConstructor c then .ok ([], pool)
  else do
    let (m, pool) ← defaultConstructor pool c.superName
    return ([m], pool)

/-- The fields with the marker among them. -/
def withMarker (c : ClassFile) : List FieldDef :=
  if (c.field? markerFieldName).isSome then c.fields
  else c.fields ++ [⟨markerFieldName, markerFieldDescriptor, Modifier.visible.bit⟩]

end Instrument

open Instrument in
/-- Instruments a class. -/
def ClassFile.transform (c : ClassFile) : Except TransformError ClassFile := do
  let (renamed, generated, pool) ← splitMethods c.name c.superName c.constants c.methods
  let (added, pool) ← addedConstructor c pool
  return { c with
    constants := pool
    fields := withMarker c
    methods := renamed ++ generated ++ added }

/-- Instruments the class of some bytes. -/
def ClassFile.transformBytes (bytes : Bytes) : Except TransformError Bytes :=
  match ClassFile.decode bytes with
  | .error e => .error (.decode e)
  | .ok c => c.transform.map ClassFile.encode

end Interpose
