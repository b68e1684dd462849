import Interpose.Assembler
import Interpose.Context
/-!
# Reports

A failure as it is handed to a program that uses the library: the name of its kind, and a text for
readers. A failure that only passes another one on has the name of both, with a dot between them.
Failures whose text is none of the library's business, because a file system or the syntax of a
document decides it, have no text.
-/

namespace Interpose

/-- A failure as it is handed out. -/
structure Report where
  kind : String
  text? : Option String
  deriving DecidableEq, Repr, Inhabited

/-- Failures that can be reported. -/
class Reportable (ε : Type) where
  report : ε → Report

/-- The kind of a failure that passes another one on. -/
def passedOn (outer inner : String) : String := outer ++ "." ++ inner

/-! ### Class files -/

/-- The name of a descriptor error. -/
def DescriptorError.kind : DescriptorError → String
  | unexpected .. => "Unexpected"
  | truncated .. => "Truncated"
  | trailing .. => "Trailing"
  | misplacedVoid .. => "MisplacedVoid"

/-- The name of a decoding error. -/
def DecodeError.kind : DecodeError → String
  | unexpectedEnd .. => "UnexpectedEnd"
  | invalidUtf8 .. => "InvalidUtf8"
  | invalidOpcode .. => "InvalidOpcode"
  | invalidJumpTarget .. => "InvalidJumpTarget"
  | invalidTypeTag .. => "InvalidTypeTag"

/-- The name of a class file error. -/
def ClassFileError.kind : ClassFileError → String
  | decode cause => passedOn "DecodeError" cause.kind
  | invalidMagic .. => "InvalidMagic"
  | unsupportedVersion .. => "UnsupportedVersion"
  | checksumMismatch .. => "ChecksumMismatch"
  | trailingData .. => "TrailingData"

/-- The name of an assembly error. -/
def BuildError.kind : BuildError → String
  | unboundLabel .. => "UnboundLabel"
  | invalidDescriptor cause => passedOn "InvalidDescriptor" cause.kind

/-- The name of a verification error. -/
def VerifyError.kind : VerifyError → String
  | invalidDescriptor .. => "InvalidDescriptor"
  | decode _ cause => passedOn "Decode" cause.kind
  | missingCode .. => "MissingCode"
  | unexpectedCode .. => "UnexpectedCode"
  | tooFewLocals .. => "TooFewLocals"
  | invalidConstantRef .. => "InvalidConstantRef"
  | invalidLocalRef .. => "InvalidLocalRef"
  | stackUnderflow .. => "StackUnderflow"
  | stackMismatch .. => "StackMismatch"
  | returnMismatch .. => "ReturnMismatch"
  | fallOffEnd .. => "FallOffEnd"

/-- The name of a failed instrumentation. -/
def TransformError.kind : TransformError → String
  | decode cause => passedOn "Decode" cause.kind
  | code _ cause => passedOn "Code" cause.kind
  | descriptor _ cause => passedOn "Descriptor" cause.kind
  | build cause => passedOn "Build" cause.kind
  | invariantViolation .. => "InvariantViolation"

/-! ### Loading and running -/

/-- The name of a failed definition. -/
def DefineError.kind : DefineError → String
  | code _ cause => passedOn "Code" cause.kind
  | descriptor _ cause => passedOn "Descriptor" cause.kind

/-- The name of a failed load. -/
def LoadError.kind : LoadError → String
  | classNotFound .. => "ClassNotFound"
  | malformed _ cause => passedOn "Malformed" cause.kind
  | transform cause => passedOn "Transform" cause.kind
  | verify _ cause => passedOn "Verify" cause.kind
  | io .. => "Io"
  | link .. => "Link"

/-- The name of a failed dispatch. -/
def DispatchError.kind : DispatchError → String
  | directMethodNotFound .. => "DirectMethodNotFound"
  | missingReceiver .. => "MissingReceiver"
  | noHandler .. => "NoHandler"
  | invalidCallRecord .. => "InvalidCallRecord"

/-- The name of a failed execution. -/
def VmError.kind : VmError → String
  | thrown .. => "Thrown"
  | stackOverflow => "StackOverflow"
  | stackUnderflow => "StackUnderflow"
  | nullPointer => "NullPointer"
  | type .. => "TypeError"
  | noSuchMethod .. => "NoSuchMethod"
  | noSuchField .. => "NoSuchField"
  | unsatisfiedLink .. => "UnsatisfiedLink"
  | abstractMethod .. => "AbstractMethod"
  | classLoad cause => passedOn "ClassLoad" cause.kind
  | dispatch cause => passedOn "Dispatch" cause.kind
  | strictMode .. => "StrictModeViolation"

/-! ### Caches and configuration -/

/-- A cache error with its text, which failures of the file system and broken entries lack. -/
def CacheError.report : CacheError → Report
  | io _ => ⟨"Io", none⟩
  | truncated _ => ⟨"Truncated", none⟩
  | invalidName name => ⟨"InvalidName", (invalidName name).message⟩
  | checksumMismatch expected actual =>
    ⟨"ChecksumMismatch", (checksumMismatch expected actual).message⟩

/-- A configuration error, with a text where values make no sense. -/
def ConfigError.report (e : ConfigError) : Report :=
  ⟨match e with
    | io _ => "Io"
    | parse => "Parse"
    | zeroDepth | emptyReservedPrefix => "Invalid"
    | cache _ => "Cache", e.invalidMessage?⟩

instance : Reportable DescriptorError := ⟨fun e => ⟨e.kind, e.message⟩⟩
instance : Reportable DecodeError := ⟨fun e => ⟨e.kind, e.message⟩⟩
instance : Reportable ClassFileError := ⟨fun e => ⟨e.kind, e.message⟩⟩
instance : Reportable BuildError := ⟨fun e => ⟨e.kind, e.message⟩⟩
instance : Reportable VerifyError := ⟨fun e => ⟨e.kind, e.message⟩⟩
instance : Reportable TransformError := ⟨fun e => ⟨e.kind, e.message⟩⟩
instance : Reportable DefineError := ⟨fun e => ⟨e.kind, e.message⟩⟩
instance : Reportable LoadError := ⟨fun e => ⟨e.kind, e.message⟩⟩
instance : Reportable FileError := ⟨fun _ => ⟨"Io", none⟩⟩
instance : Reportable CacheError := ⟨CacheError.report⟩
instance : Reportable ConfigError := ⟨ConfigError.report⟩

end Interpose
