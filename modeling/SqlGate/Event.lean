import SqlGate.Limit.Edit
import SqlGate.Verdict

/-! What a gate reports of its work while it is at it. -/

namespace SqlGate

inductive Level where
  | debug
  | info
  | warn
  deriving DecidableEq, Repr

def Level.name : Level → String
  | .debug => "debug"
  | .info => "info"
  | .warn => "warn"

inductive Event where
  /-- No setting says which engine is used. -/
  | assumedDatabase (database : Database)
  | classified (verdict : Verdict)
  /-- The decision, which does not allow the statement, on account of `reason`. -/
  | notAllowed (mode : Mode) (decision : Decision) (reason : Operation)
  | limited (outcome : Outcome)
  /-- A read was not limited; `excerpt` is how it begins. -/
  | notLimited (obstacle : Obstacle) (excerpt : String)
  | advised (count : Nat)
  deriving DecidableEq, Repr

namespace Event

def level : Event → Level
  | .assumedDatabase _ | .notAllowed _ _ _ => .info
  | .classified _ | .limited _ | .advised _ => .debug
  | .notLimited _ _ => .warn

def message : Event → String
  | .assumedDatabase database => "No database type configured, defaulting to " ++ database.title
  | .classified ⟨rule, ⟨category, operation⟩⟩ =>
    "Classified statement as " ++ category.title ++ " (" ++ operation.name ++ ") by rule " ++ rule.name
  | .notAllowed mode decision reason =>
    "Statement not allowed in " ++ mode.name ++ " mode: " ++ decision.label ++
      " (" ++ reason.description ++ ")"
  | .limited outcome => "Row limit applied (" ++ outcome.label ++ ")"
  | .notLimited obstacle excerpt =>
    "Row limit not applied, executing statement unchanged: " ++ obstacle.message ++
      " (" ++ excerpt ++ ")"
  | .advised count => s!"{count} advisories for statement"

end Event

end SqlGate
