import SqlGate.Advisory
import SqlGate.Event
import SqlGate.Settings.Basic

/-! The gate that statements pass on their way to a database: each one is classified, judged by the
policy, limited if it is a read that may pass, and commented on. -/

namespace SqlGate

/-- A statement as a caller hands it in, with what the caller asks for. -/
structure Request where
  sql : String
  /-- The caller confirms that rows may be taken away. -/
  confirmed : Bool := false
  maxRows : Option Nat := none
  offset : Option Nat := none
  /-- The policy to judge by, in place of the one of the gate. -/
  mode : Option Mode := none
  deriving DecidableEq, Repr

/-- All that a gate finds about a statement. -/
structure Evaluation where
  classification : Classification
  decision : Decision
  /-- The text to run: limited for reads that are allowed, and otherwise as it was handed in. -/
  statement : String
  /-- What limiting came to, where it was tried. -/
  outcome : Option Outcome
  advisories : List Advisory
  deriving DecidableEq, Repr

/-- A statement that may be run. -/
structure PreparedStatement where
  sql : String
  classification : Classification
  outcome : Option Outcome
  advisories : List Advisory
  deriving DecidableEq, Repr

namespace Evaluation

def isAllowed (evaluation : Evaluation) : Bool :=
  evaluation.decision.isAllowed

/-- The statement to run, or the refusal. -/
def toPrepared (evaluation : Evaluation) : Except Refusal PreparedStatement :=
  match evaluation.decision.toExcept evaluation.statement with
  | .error refusal => .error refusal
  | .ok () =>
    .ok ⟨evaluation.statement, evaluation.classification, evaluation.outcome, evaluation.advisories⟩

end Evaluation

/-- A gate: settings that are of use. -/
structure Gate where
  settings : Settings
  valid : settings.validate = .ok ()

namespace Gate

/-- The gate with the given settings, unless they are of no use. -/
def ofSettings (settings : Settings) : Except Refusal Gate :=
  match h : settings.validate with
  | .ok () => .ok ⟨settings, h⟩
  | .error refusal => .error refusal

theorem ofSettings_of_valid {settings : Settings} (h : settings.validate = .ok ()) :
    ofSettings settings = .ok ⟨settings, h⟩ := by
  unfold ofSettings
  split
  · rfl
  · next refusal hrefused =>
      rw [h] at hrefused
      cases hrefused

/-- The policy that a request is judged by. -/
def modeFor (gate : Gate) (request : Request) : Mode :=
  request.mode.getD gate.settings.mode

def verdict (gate : Gate) (request : Request) : Verdict :=
  verdictOn (gate.modeFor request) (normalForm request.sql.toList)

def judge (gate : Gate) (request : Request) (classification : Classification) : Decision :=
  authorize classification request.confirmed (gate.modeFor request)

def window (gate : Gate) (request : Request) : RowWindow :=
  gate.settings.bounds.window request.maxRows request.offset

/-- The statement of a request limited to its rows, if it is a read that may pass. -/
def limited? (gate : Gate) (request : Request) (classification : Classification) (timing : Timing := .atOnce) :
    Option Limited :=
  if (gate.judge request classification).isAllowed && classification.isReadOnly then
    some (gate.settings.limiter.apply classification.category request.sql.toList (gate.window request) timing)
  else
    none

/-- Finds out all about the statement of a request. -/
def evaluate (gate : Gate) (request : Request) (timing : Timing := .atOnce) : Evaluation :=
  let classification := (gate.verdict request).classification
  let limited := gate.limited? request classification timing
  { classification
    decision := gate.judge request classification
    statement := match limited with
      | some limited => String.ofList limited.text
      | none => request.sql
    outcome := limited.map (·.outcome)
    advisories := advise request.sql.toList classification request.offset }

/-- The statement of a request is limited, or it stays as it is and there is no outcome. -/
theorem evaluate_cases (gate : Gate) (request : Request) (timing : Timing) :
    (∃ limited, limited = gate.settings.limiter.apply (gate.verdict request).classification.category
        request.sql.toList (gate.window request) timing ∧
      (gate.evaluate request timing).statement = String.ofList limited.text ∧
      (gate.evaluate request timing).outcome = some limited.outcome) ∨
    ((gate.evaluate request timing).statement = request.sql ∧ (gate.evaluate request timing).outcome = none) := by
  cases hlimited : gate.limited? request (gate.verdict request).classification timing with
  | none =>
      right
      simp only [evaluate, hlimited, Option.map_none, and_self]
  | some limited =>
      left
      refine ⟨limited, ?_, by simp only [evaluate, hlimited], by simp only [evaluate, hlimited, Option.map_some]⟩
      unfold limited? at hlimited
      split at hlimited
      · exact (Option.some.inj hlimited).symm
      · cases hlimited

/-- The statement of a request, ready to run, or the refusal. -/
def prepare (gate : Gate) (request : Request) (timing : Timing := .atOnce) : Except Refusal PreparedStatement :=
  (gate.evaluate request timing).toPrepared

def limitEvents (request : Request) : Outcome → List Event
  | .notApplicable => []
  | .fallback obstacle => [.notLimited obstacle (String.ofList (request.sql.toList.take 50))]
  | outcome => [.limited outcome]

/-- What the gate reports while it evaluates a request. -/
def events (gate : Gate) (request : Request) (timing : Timing := .atOnce) : List Event :=
  let verdict := gate.verdict request
  let evaluation := gate.evaluate request timing
  let refused := match evaluation.decision.reason? with
    | some reason => [.notAllowed (gate.modeFor request) evaluation.decision reason]
    | none => []
  let limited := match evaluation.outcome with
    | some outcome => limitEvents request outcome
    | none => []
  let advised :=
    if evaluation.advisories.isEmpty then [] else [.advised evaluation.advisories.length]
  .classified verdict :: (refused ++ limited ++ advised)

end Gate

end SqlGate
