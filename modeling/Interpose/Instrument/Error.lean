import Interpose.Assembler
import Interpose.ClassFile.Codec
/-!
# Failures of instrumentation
-/

namespace Interpose

/-- Why a class cannot be instrumented. -/
inductive TransformError
  /-- The class's bytes are no class file. -/
  | decode (cause : ClassFileError)
  | code (method : String) (cause : DecodeError)
  | descriptor (member : String) (cause : DescriptorError)
  | build (cause : BuildError)
  /-- The class is not built the way instrumentation relies on. -/
  | invariantViolation (className method reason : String)
  deriving DecidableEq, Repr

namespace TransformError

/-- The report of a failed instrumentation. -/
def message : TransformError → String
  | decode cause => s!"Malformed class bytes: {cause.message}"
  | code method cause => s!"Undecodable code in {method}: {cause.message}"
  | descriptor member cause => s!"Bad descriptor on {member}: {cause.message}"
  | build cause => s!"Code generation failed: {cause.message}"
  | invariantViolation className method reason =>
    s!"Transformation invariant violated in {className}.{method}: {reason}"

end TransformError

end Interpose
