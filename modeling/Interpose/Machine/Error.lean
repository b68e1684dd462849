import Interpose.Loading.Error
import Interpose.Value.Basic
/-!
# Failures of execution
-/

namespace Interpose

/-- The tables of the pool. -/
inductive PoolTable
  | string | cls | field | method
  deriving DecidableEq, Repr

/-- The word for a table of the pool. -/
def PoolTable.name : PoolTable → String
  | string => "string"
  | cls => "class"
  | field => "field"
  | method => "method"

/-- Why operands do not fit. -/
inductive TypeFault
  | mismatch (expected found : String)
  | arity (owner method : String) (expected found : Nat)
  /-- Control left the body at its end. -/
  | pastEnd (owner method : String)
  | localRange (slot : Nat)
  | badConstant (table : PoolTable) (index : Nat)
  | badDescriptor (cause : DescriptorError)
  | badTag (tag : Nat)
  deriving DecidableEq, Repr

/-- The report of operands that do not fit. -/
def TypeFault.message : TypeFault → String
  | mismatch expected found => s!"expected {expected}, found {found}"
  | arity owner method expected found =>
    s!"{owner}.{method} expects {expected} arguments, got {found}"
  | pastEnd owner method => s!"{owner}.{method} ran past the end of its code"
  | localRange slot => s!"local {slot} out of range"
  | badConstant table index => s!"invalid {table.name} constant {index}"
  | badDescriptor cause => s!"bad call descriptor: {cause.message}"
  | badTag tag => s!"invalid primitive tag {tag}"

/-- A method that is not there. -/
inductive MissingMethod
  | named (owner name descriptor : String)
  | position (owner : String) (index : Nat)
  | reported (text : String)
  deriving DecidableEq, Repr

/-- The report of a method that is not there. -/
def MissingMethod.message : MissingMethod → String
  | named owner name descriptor => owner ++ "." ++ name ++ descriptor
  | position owner index => s!"{owner}#{index}"
  | reported text => text

/-- A field that is not there. -/
inductive MissingField
  | named (owner name : String)
  | slot (owner : String) (index : Nat)
  | staticSlot (owner : String) (index : Nat)
  deriving DecidableEq, Repr

/-- The report of a field that is not there. -/
def MissingField.message : MissingField → String
  | named owner name => owner ++ "." ++ name
  | slot owner index => s!"slot {index} of {owner}"
  | staticSlot owner index => s!"{owner} static slot {index}"

/-- The parts of a call record. -/
inductive RecordPart
  | classToken | methodName | paramTypes | paramTypeName | arguments
  deriving DecidableEq, Repr

/-- The words for a part of a call record. -/
def RecordPart.name : RecordPart → String
  | classToken => "class token"
  | methodName => "method name"
  | paramTypes => "parameter types"
  | paramTypeName => "parameter type name"
  | arguments => "arguments"

/-- Why a call cannot be dispatched. -/
inductive DispatchError
  | directMethodNotFound (owner method : String) (paramTypes : List String)
  | missingReceiver (owner method : String)
  | noHandler (owner : String)
  | invalidCallRecord (part : RecordPart)
  deriving DecidableEq, Repr

/-- The report of a call that cannot be dispatched. -/
def DispatchError.message : DispatchError → String
  | directMethodNotFound owner method paramTypes =>
    "No direct method for " ++ owner ++ "." ++ method ++ "(" ++ ", ".intercalate paramTypes ++ ")"
  | missingReceiver owner method => s!"Call record for {owner}.{method} has no receiver"
  | noHandler owner => s!"No dispatch handler installed for {owner}"
  | invalidCallRecord part => s!"Invalid call record: {part.name}"

/-- Why execution fails. -/
inductive VmError
  /-- A value that was raised. -/
  | thrown (v : Value)
  | stackOverflow
  | stackUnderflow
  | nullPointer
  | type (cause : TypeFault)
  | noSuchMethod (missing : MissingMethod)
  | noSuchField (missing : MissingField)
  /-- A native method was executed. -/
  | unsatisfiedLink (owner method descriptor : String)
  | abstractMethod (owner method descriptor : String)
  | classLoad (cause : LoadError)
  | dispatch (cause : DispatchError)
  /-- A substitute that depends on the locale was to run under strict checking. -/
  | strictMode (owner method : String)
  deriving DecidableEq, Repr

/-- The report of a failed execution. A raised value is reported by its text. -/
def VmError.message (display : Value → String) : VmError → String
  | thrown v => "Uncaught failure: " ++ display v
  | stackOverflow => "Stack overflow"
  | stackUnderflow => "Stack underflow"
  | nullPointer => "Null pointer exception"
  | type cause => s!"Type error: {cause.message}"
  | noSuchMethod missing => s!"No such method: {missing.message}"
  | noSuchField missing => s!"No such field: {missing.message}"
  | unsatisfiedLink owner method descriptor =>
    "Unsatisfied link: " ++ owner ++ "." ++ method ++ descriptor
  | abstractMethod owner method descriptor =>
    "Abstract method invoked: " ++ owner ++ "." ++ method ++ descriptor
  | classLoad cause => cause.message
  | dispatch cause => cause.message
  | strictMode owner method => s!"Strict i18n violation: {owner}.{method} is not locale safe"

end Interpose
