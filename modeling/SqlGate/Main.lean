import SqlGate.CommandLine

/-! The program: evaluates one statement, from its arguments or its input, and prints the result. -/

namespace SqlGate.CommandLine

/-- The variables that settings are read from. -/
def variableNames : List String :=
  ["SQL_GUARD_MAX_ROWS_CEILING", "SQL_GUARD_DEFAULT_MAX_ROWS", "SQL_GUARD_MODE",
    "SQL_GUARD_REWRITE_BUDGET_MS", "SQL_GUARD_MAX_STATEMENT_BYTES", "SQL_GUARD_DATABASE_TYPE",
    "DATABASE_DSN"]

partial def readInput (input : IO.FS.Stream) (read : String) : IO String := do
  let line ← input.getLine
  if line.isEmpty then return read else readInput input (read ++ line)

/-- The input, where a run with these arguments comes to need it. -/
def inputFor (arguments : List String) (environment : String → Option String) : IO String := do
  match start arguments environment with
  | .ok (⟨none, _, _, _, _, _⟩, _) => readInput (← IO.getStdin) ""
  | _ => return ""

end SqlGate.CommandLine

def main (arguments : List String) : IO UInt32 := do
  let values ← SqlGate.CommandLine.variableNames.mapM fun name => return (name, ← IO.getEnv name)
  let environment := fun name => (values.lookup name).join
  let response :=
    SqlGate.CommandLine.run arguments environment
      (← SqlGate.CommandLine.inputFor arguments environment)
  IO.print response.output
  IO.eprint response.errors
  return response.exitCode.toUInt32
