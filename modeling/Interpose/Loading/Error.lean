import Interpose.Class.Define
import Interpose.Instrument.Error
import Interpose.Loading.Resources
import Interpose.Verifier
/-!
# Failures of loading
-/

namespace Interpose

/-- Why a class does not fit in. -/
inductive LinkError
  /-- The class is on its own way to the root. -/
  | circular (name : String)
  /-- The bytes found under a name are those of another class. -/
  | misnamed (name actual : String)
  | define (cause : DefineError)
  deriving DecidableEq, Repr

/-- The report of a class that does not fit in. -/
def LinkError.message : LinkError → String
  | circular name => s!"circular class hierarchy through {name}"
  | misnamed name actual => s!"resource for {name} defines {actual}"
  | define cause => cause.message

/-- Why a class cannot be loaded. -/
inductive LoadError
  | classNotFound (name : String)
  | malformed (name : String) (cause : ClassFileError)
  | transform (cause : TransformError)
  | verify (name : String) (cause : VerifyError)
  | io (name : String) (cause : ReadFault)
  | link (cause : LinkError)
  deriving DecidableEq, Repr

/-- The report of a failed load. -/
def LoadError.message : LoadError → String
  | classNotFound name => s!"Class not found: {name}"
  | malformed name cause => s!"Malformed class {name}: {cause.message}"
  | transform cause => cause.message
  | verify name cause => s!"Verification of {name} failed: {cause.message}"
  | io name cause => s!"IO error loading {name}: {cause.message}"
  | link cause => s!"Link error: {cause.message}"

end Interpose
