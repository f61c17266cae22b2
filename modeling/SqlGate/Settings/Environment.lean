import SqlGate.Event
import SqlGate.Settings.Basic

/-! Settings from the variables of an environment. A variable that is not set leaves the usual value;
one that is set has to be of use, whatever may take its place later. -/

namespace SqlGate

/-- What is wrong with an environment. -/
inductive EnvironmentError where
  | noCount (variableName : String) (cause : NumeralError)
  | noMode (cause : Refusal)
  | noDatabase (cause : Refusal)
  /-- The connection URL does not tell the engine. -/
  | noDatabaseUrl (cause : Refusal)
  /-- The variables are of use one by one, but not together. -/
  | invalid (cause : Refusal)
  deriving DecidableEq, Repr

namespace EnvironmentError

/-- The messages from the outermost to the cause. -/
def chain : EnvironmentError → List String
  | .noCount variableName cause => [variableName ++ " must be a positive integer", cause.message]
  | .noMode cause => ["SQL_GUARD_MODE is invalid", cause.message]
  | .noDatabase cause => ["SQL_GUARD_DATABASE_TYPE is not a supported database", cause.message]
  | .noDatabaseUrl cause =>
    ["Failed to determine database type from DATABASE_DSN", cause.message]
  | .invalid cause => [cause.message]

/-- The refusal behind the error. -/
def refusal? : EnvironmentError → Option Refusal
  | .noCount _ _ => none
  | .noMode cause | .noDatabase cause | .noDatabaseUrl cause | .invalid cause => some cause

end EnvironmentError

namespace Settings

/-- The count in a variable, or the usual one where it is not set. -/
def countFrom (environment : String → Option String) (variableName : String) (usual : Nat) :
    Except EnvironmentError Nat :=
  match environment variableName with
  | none => .ok usual
  | some text => (readCount (trim text.toList)).mapError (.noCount variableName)

/-- The mode in its variable, or the usual one. -/
def modeFrom (environment : String → Option String) (usual : Mode) : Except EnvironmentError Mode :=
  match environment "SQL_GUARD_MODE" with
  | none => .ok usual
  | some text => (Mode.parse text).mapError .noMode

/-- The engine in its variable, or the one that the connection URL leads to, or the usual one. -/
def databaseFrom (environment : String → Option String) (usual : Database) :
    Except EnvironmentError Database :=
  match environment "SQL_GUARD_DATABASE_TYPE" with
  | some text => (Database.parse text).mapError .noDatabase
  | none =>
    match environment "DATABASE_DSN" with
    | some url => (Database.ofUrl url).mapError .noDatabaseUrl
    | none => .ok usual

/-- The settings that the variables of an environment make up, valid ones only. -/
def ofEnvironment (environment : String → Option String) : Except EnvironmentError Settings := do
  let usual : Settings := {}
  let ceiling ← countFrom environment "SQL_GUARD_MAX_ROWS_CEILING" usual.bounds.ceiling
  let usualRows ← countFrom environment "SQL_GUARD_DEFAULT_MAX_ROWS" usual.bounds.usual
  let mode ← modeFrom environment usual.mode
  let budget ← countFrom environment "SQL_GUARD_REWRITE_BUDGET_MS" usual.budget
  let maxBytes ← countFrom environment "SQL_GUARD_MAX_STATEMENT_BYTES" usual.maxBytes
  let database ← databaseFrom environment usual.database
  let settings : Settings := ⟨⟨ceiling, usualRows⟩, mode, database, budget, maxBytes⟩
  settings.validate.mapError .invalid
  return settings

/-- What is reported of settings that were read: the engine, if no variable tells it. -/
def environmentEvents (environment : String → Option String) : List Event :=
  if (environment "SQL_GUARD_DATABASE_TYPE").isNone && (environment "DATABASE_DSN").isNone then
    [.assumedDatabase ({} : Settings).database]
  else
    []

end Settings

end SqlGate
