import SqlGate.Operation

/-! What is refused, and the words of the refusal. -/

namespace SqlGate

/-- Why no statement comes out: the policy refuses it, now or for good, or the settings are of no
use. -/
inductive Refusal where
  | blocked (operation : Operation) (statement : String)
  /-- The same statement is let through once the caller confirms it. -/
  | confirmationRequired (operation : Operation) (statement : String)
  | invalidSettings (detail : String)
  | unsupportedDatabase (detail : String)
  deriving DecidableEq, Repr

/-- A refusal as a tool reports it to its caller. -/
inductive ToolError where
  | readOnlyViolation (text : String)
  | invalidArguments (text : String)
  deriving DecidableEq, Repr

namespace Refusal

def message : Refusal → String
  | .blocked operation statement =>
    operation.name ++ " is blocked: " ++ operation.description ++ ". Statement: " ++ statement
  | .confirmationRequired operation statement =>
    operation.name ++ " requires confirmation: " ++ operation.description ++
      ". Re-submit with confirm_unsafe=true to proceed. Statement: " ++ statement
  | .invalidSettings detail => "Invalid configuration: " ++ detail
  | .unsupportedDatabase detail => "Unsupported database: " ++ detail

/-- The operation behind a refusal by the policy. -/
def operation? : Refusal → Option Operation
  | .blocked operation _ | .confirmationRequired operation _ => some operation
  | .invalidSettings _ | .unsupportedDatabase _ => none

/-- Whether the same statement is let through once the caller confirms it. -/
def resolvedByConfirming : Refusal → Bool
  | .confirmationRequired _ _ => true
  | .blocked _ _ | .invalidSettings _ | .unsupportedDatabase _ => false

def toToolError (refusal : Refusal) : ToolError :=
  match refusal with
  | .blocked _ _ => .readOnlyViolation ("[SQL Guard] " ++ refusal.message)
  | .confirmationRequired _ _ => .invalidArguments ("[SQL Guard] " ++ refusal.message)
  | .invalidSettings _ => .invalidArguments ("[SQL Guard Config] " ++ refusal.message)
  | .unsupportedDatabase _ => .invalidArguments ("[Unsupported DB] " ++ refusal.message)

end Refusal

def ToolError.message : ToolError → String
  | .readOnlyViolation text => "Operation not supported in read-only mode: " ++ text
  | .invalidArguments text => "Invalid arguments: " ++ text

end SqlGate
