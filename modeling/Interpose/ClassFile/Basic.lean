import Interpose.Instruction.Codec
/-!
# Class files

A class as it is stored: its pool, its names, its annotations, and the fields and methods it
declares. Method bodies are kept as bytes. Nothing here is checked; a class file may name a missing
superclass, repeat a method or hold undecodable code, and the verifier and the loaders deal with
that.
-/

namespace Interpose

/-- The name of every constructor. -/
def constructorName : String := "<init>"

/-- The name of the static initializer. -/
def staticInitializerName : String := "<clinit>"

/-! ## Access flags -/

/-- The access flags. -/
inductive Modifier
  | visible | hidden | inherited | static | final | native | abstract | synthetic
  deriving DecidableEq, Repr

namespace Modifier

/-- The bit of a flag. -/
def bit : Modifier → UInt16
  | visible => 0x0001
  | hidden => 0x0002
  | inherited => 0x0004
  | static => 0x0008
  | final => 0x0010
  | native => 0x0100
  | abstract => 0x0400
  | synthetic => 0x1000

/-- The word for a flag. -/
def name : Modifier → String
  | visible => "public"
  | hidden => "private"
  | inherited => "protected"
  | static => "static"
  | final => "final"
  | native => "native"
  | abstract => "abstract"
  | synthetic => "synthetic"

/-- Every flag, by rising bit. -/
def all : List Modifier :=
  [visible, hidden, inherited, static, final, native, abstract, synthetic]

/-- The three flags that say who may see a member. -/
def visibility : UInt16 := visible.bit ||| hidden.bit ||| inherited.bit

end Modifier

/-- A set of access flags, as stored; bits without a meaning are carried along. -/
abbrev Access := UInt16

namespace Access

/-- Whether a flag is set. -/
def has (flags : Access) (m : Modifier) : Bool := flags &&& m.bit != 0

/-- The flags without some bits. -/
def without (flags bits : Access) : Access := flags &&& ~~~bits

end Access

/-! ## Members -/

/-- A declared field. -/
structure FieldDef where
  name : String
  descriptor : String
  access : Access
  deriving DecidableEq, Repr, Inhabited

/-- Whether the field belongs to the class and not to its instances. -/
def FieldDef.isStatic (f : FieldDef) : Bool := Access.has f.access .static

/-- A declared method. `maxLocals` counts local slots, receiver and parameters included. -/
structure MethodDef where
  name : String
  descriptor : String
  access : Access
  exceptions : List String
  maxLocals : UInt16
  code : Bytes
  deriving DecidableEq, Repr, Inhabited

namespace MethodDef

def isStatic (m : MethodDef) : Bool := Access.has m.access .static

def isNative (m : MethodDef) : Bool := Access.has m.access .native

def isAbstract (m : MethodDef) : Bool := Access.has m.access .abstract

/-- The signature that the descriptor denotes. -/
def signature (m : MethodDef) : Except DescriptorError MethodDesc :=
  MethodDesc.parse m.descriptor

end MethodDef

/-! ## Classes -/

/-- The part of a dotted name behind the last dot. -/
def simpleName (name : String) : String :=
  String.ofList (name.toList.reverse.takeWhile (· != '.')).reverse

/-- A stored class. A class without a superclass is a root. -/
structure ClassFile where
  flags : UInt32 := 0
  constants : Pool := {}
  name : String
  superName : Option String := none
  access : Access := Modifier.visible.bit
  annotations : List String := []
  fields : List FieldDef := []
  methods : List MethodDef := []
  deriving DecidableEq, Repr, Inhabited

namespace ClassFile

def isAnnotated (c : ClassFile) (mark : String) : Bool := c.annotations.contains mark

/-- The first method of a name and descriptor. -/
def method? (c : ClassFile) (name descriptor : String) : Option MethodDef :=
  c.methods.find? fun m => m.name == name && m.descriptor == descriptor

/-- The first method of a name. -/
def methodNamed? (c : ClassFile) (name : String) : Option MethodDef :=
  c.methods.find? fun m => m.name == name

/-- The first field of a name. -/
def field? (c : ClassFile) (name : String) : Option FieldDef :=
  c.fields.find? fun f => f.name == name

end ClassFile

end Interpose
