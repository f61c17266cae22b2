import SqlGate.Document
import SqlGate.Gate

/-! How results are put into structured text. -/

namespace SqlGate

open Document

def Classification.fields (classification : Classification) : List (String × Document) :=
  [("category", text classification.category.name), ("tag", text classification.operation.name)]

def Decision.fields (decision : Decision) : List (String × Document) :=
  ("decision", text decision.name) ::
    (decision.reason?.map fun reason => ("reason", text reason.name)).toList

def Outcome.fields : Outcome → List (String × Document)
  | .notApplicable => [("action", text "not_applicable")]
  | .withinLimit existing => [("action", text "within_limit"), ("existing", number existing)]
  | .capped existing limit =>
    [("action", text "capped"), ("existing", number existing), ("limit", number limit)]
  | .inserted limit => [("action", text "inserted"), ("limit", number limit)]
  | .paginated offset limit =>
    [("action", text "paginated"), ("offset", number offset), ("limit", number limit)]
  | .fallback obstacle => [("action", text "fallback"), ("reason", text obstacle.message)]

/-- The field for what limiting came to; there is none where it was not tried. -/
def outcomeField (outcome : Option Outcome) : List (String × Document) :=
  (outcome.map fun outcome => ("rewrite", record outcome.fields)).toList

def warningsField (advisories : List Advisory) : String × Document :=
  ("warnings", list (advisories.map fun advisory => text advisory.message))

def Evaluation.fields (evaluation : Evaluation) : List (String × Document) :=
  [("classification", record evaluation.classification.fields),
    ("decision", record evaluation.decision.fields), ("statement", text evaluation.statement)] ++
    outcomeField evaluation.outcome ++ [warningsField evaluation.advisories]

def PreparedStatement.fields (prepared : PreparedStatement) : List (String × Document) :=
  [("sql", text prepared.sql), ("classification", record prepared.classification.fields)] ++
    outcomeField prepared.outcome ++ [warningsField prepared.advisories]

def optional (count : Option Nat) : Document :=
  match count with
  | some count => number count
  | none => null

def Request.fields (request : Request) : List (String × Document) :=
  [("sql", text request.sql), ("confirm_unsafe", flag request.confirmed),
    ("max_rows", optional request.maxRows), ("offset", optional request.offset),
    ("mode", match request.mode with
      | some mode => text mode.name
      | none => null)]

def RowBounds.fields (bounds : RowBounds) : List (String × Document) :=
  [("ceiling", number bounds.ceiling), ("default_limit", number bounds.usual)]

def Settings.fields (settings : Settings) : List (String × Document) :=
  [("max_rows_ceiling", number settings.bounds.ceiling),
    ("default_max_rows", number settings.bounds.usual), ("mode", text settings.mode.name),
    ("database_type", text settings.database.name), ("rewrite_budget_ms", number settings.budget),
    ("max_statement_bytes", number settings.maxBytes)]

end SqlGate
