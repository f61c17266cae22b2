import SqlGate.Refusal
import SqlGate.Text.Runs

/-! The policies that statements are judged by, and the judgement. -/

namespace SqlGate

/-- How much is let through: `standard` lets reads, insertions and updates pass and asks for
confirmation of removals, `readOnly` lets reads pass and nothing else. -/
inductive Mode where
  | standard
  | readOnly
  deriving DecidableEq, Repr

namespace Mode

def all : List Mode :=
  [.standard, .readOnly]

/-- The name in requests, answers and messages. -/
def name : Mode → String
  | .standard => "standard"
  | .readOnly => "read_only"

/-- Reads the name of a mode, in any case and with blanks around it. -/
def parse (text : String) : Except Refusal Mode :=
  let written := String.ofList (asciiLower (trim text.toList))
  if written = "standard" then .ok .standard
  else if written ∈ ["read_only", "readonly", "read-only", "strict"] then .ok .readOnly
  else
    .error (.invalidSettings
      ("Unknown policy mode '" ++ written ++ "': must be 'standard' or 'read_only'"))

end Mode

/-- The judgement on a statement. -/
inductive Decision where
  | allowed
  | blocked (reason : Operation)
  | requiresConfirmation (reason : Operation)
  deriving DecidableEq, Repr

namespace Decision

def isAllowed (decision : Decision) : Bool :=
  decision = .allowed

def reason? : Decision → Option Operation
  | .allowed => none
  | .blocked reason | .requiresConfirmation reason => some reason

/-- Whether the same statement is allowed once the caller confirms it. -/
def resolvedByConfirming : Decision → Bool
  | .requiresConfirmation _ => true
  | .allowed | .blocked _ => false

/-- Nothing for an allowed statement, and the refusal of any other. -/
def toExcept (decision : Decision) (statement : String) : Except Refusal Unit :=
  match decision with
  | .allowed => .ok ()
  | .blocked reason => .error (.blocked reason statement)
  | .requiresConfirmation reason => .error (.confirmationRequired reason statement)

/-- The kind of decision, as answers name it. -/
def name : Decision → String
  | .allowed => "allowed"
  | .blocked _ => "blocked"
  | .requiresConfirmation _ => "requires_confirmation"

def label : Decision → String
  | .allowed => "Allowed"
  | .blocked reason => "Blocked \x7b reason: " ++ reason.label ++ " \x7d"
  | .requiresConfirmation reason => "RequiresConfirmation \x7b reason: " ++ reason.label ++ " \x7d"

end Decision

/-- Judges a classified statement. Confirmation speaks for removals only: nothing makes up for a
dangerous statement, and reads need none. -/
def authorize (classification : Classification) (confirmed : Bool) (mode : Mode) : Decision :=
  match classification.category, mode with
  | .readOnly, _ => .allowed
  | .dangerous, _ => .blocked classification.operation
  | _, .readOnly => .blocked classification.operation
  | .insert, .standard | .update, .standard => .allowed
  | .delete, .standard | .truncate, .standard =>
    if confirmed then .allowed else .requiresConfirmation classification.operation

end SqlGate
