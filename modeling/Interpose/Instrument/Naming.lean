import Interpose.ClassFile.Basic
import Interpose.Digest.Sha256
/-!
# Generated names

Members that instrumentation adds to a class, and the names under which declared bodies live on. The
direct name of a method carries a fingerprint of the full class name, so that classes of one simple
name in one hierarchy do not answer for each other.
-/

namespace Interpose

/-- How every direct method name starts. -/
def directMethodPrefix : String := "__umbra__"

/-- The name of the part of a constructor behind the superclass's construction. -/
def constructorBodyName : String := "__constructor__"

/-- The name of the declared static initializer. -/
def staticInitializerBodyName : String := "__staticInitializer__"

/-- The field that sends the next call on an object to the declared body. -/
def markerFieldName : String := "__umbra_data__"

/-- The marker may hold anything. -/
def markerFieldDescriptor : String := "X"

/-- Two bytes of the hash of a class name, as text. -/
def fingerprint (className : String) : String :=
  Hex.encode ((Sha256.digest (Wire.utf8 className)).take 2)

/-- The name of the method that holds the declared body of a method. -/
def directMethodName (className methodName : String) : String :=
  directMethodPrefix ++ simpleName className ++ "_" ++ fingerprint className ++ "_" ++ methodName

end Interpose
