import SqlGate.Limit.Clause
import SqlGate.Limit.Timing
import SqlGate.Limit.Window

/-! What limiting a statement comes to: the edit of its text, the outcome that is reported, and the
obstacles on account of which it stays as it is. -/

namespace SqlGate

/-- The forms of a row limit that a limit cannot be read from. -/
inductive UnreadableLimit where
  /-- A paging word of SQL Server without a count. -/
  | paging
  | topPercent
  | topExpression
  /-- A paging or limit word of the other engines without a count. -/
  | limitOrPaging
  deriving DecidableEq, Repr

def UnreadableLimit.description : UnreadableLimit → String
  | .paging => "OFFSET/FETCH without a literal row count"
  | .topPercent => "TOP ... PERCENT"
  | .topExpression => "TOP with a non-literal row count"
  | .limitOrPaging => "LIMIT/OFFSET/FETCH without a literal row count"

/-- Why a statement is left as it is. -/
inductive Obstacle where
  | emptyStatement
  | noMainSelect
  | unreadableLimit (form : UnreadableLimit)
  | ambiguousQuoting (hazard : Hazard)
  | tooLarge (size most : Nat)
  | outOfTime (budget : Nat)
  | misalignedEdit
  deriving DecidableEq, Repr

def Obstacle.message : Obstacle → String
  | .emptyStatement => "statement is empty after removing comments"
  | .noMainSelect => "no top-level SELECT found"
  | .unreadableLimit form => "row limit clause is not a plain row count: " ++ form.description
  | .ambiguousQuoting hazard =>
    "quoting may be read differently by this database: " ++ hazard.description
  | .tooLarge size most => s!"statement is {size} bytes, above the {most} byte rewrite limit"
  | .outOfTime budget => "rewrite exceeded its " ++ Timing.label budget ++ " time budget"
  | .misalignedEdit => "edit position does not fall on a character boundary"

/-- What became of a statement that was to be limited. -/
inductive Outcome where
  /-- The statement is no read, and row limits are for reads. -/
  | notApplicable
  /-- The statement has a limit that is low enough. -/
  | withinLimit (existing : Nat)
  /-- The limit of the statement was lowered. -/
  | capped (existing limit : Nat)
  /-- A limit was added. -/
  | inserted (limit : Nat)
  /-- A limit was added together with an offset. -/
  | paginated (offset limit : Nat)
  /-- The statement could not be limited with certainty and is left as it is. -/
  | fallback (obstacle : Obstacle)
  deriving DecidableEq, Repr

namespace Outcome

/-- Whether the text of the statement was edited. -/
def isModified : Outcome → Bool
  | .capped _ _ | .inserted _ | .paginated _ _ => true
  | .notApplicable | .withinLimit _ | .fallback _ => false

/-- The number of rows that the statement is limited to, where it is known. -/
def effectiveLimit? : Outcome → Option Nat
  | .withinLimit existing => some existing
  | .capped _ limit | .inserted limit | .paginated _ limit => some limit
  | .notApplicable | .fallback _ => none

/-- The outcome in event messages. -/
def label : Outcome → String
  | .notApplicable => "NotApplicable"
  | .withinLimit existing => s!"WithinLimit \x7b existing: {existing} \x7d"
  | .capped existing limit => s!"Capped \x7b existing: {existing}, limit: {limit} \x7d"
  | .inserted limit => s!"Inserted \x7b limit: {limit} \x7d"
  | .paginated offset limit => s!"Paginated \x7b offset: {offset}, limit: {limit} \x7d"
  | .fallback obstacle => obstacle.message

end Outcome

/-- Puts `replacement` in the place of the bytes from `start` to `stop`. -/
structure Edit where
  start : Nat
  stop : Nat
  replacement : List Char
  deriving DecidableEq, Repr

namespace Edit

/-- The edit that adds a text at a place. -/
def insertion (offset : Nat) (text : String) : Edit :=
  ⟨offset, offset, text.toList⟩

/-- The edited text; `none` if the edit starts or stops inside a character or past the end. -/
def appliedTo? (edit : Edit) (text : List Char) : Option (List Char) := do
  let (before, rest) ← splitAtByte? edit.start text
  let (_, after) ← splitAtByte? (edit.stop - edit.start) rest
  return before ++ edit.replacement ++ after

end Edit

/-- A text as limiting leaves it, and the outcome. -/
structure Limited where
  text : List Char
  outcome : Outcome
  deriving DecidableEq, Repr

/-- What is to be done about a statement: an edit, unless its limit is low enough. -/
structure Plan where
  edit? : Option Edit
  outcome : Outcome
  deriving DecidableEq, Repr

def Plan.apply (plan : Plan) (text : List Char) : Except Obstacle Limited :=
  match plan.edit? with
  | none => .ok ⟨text, plan.outcome⟩
  | some edit =>
    match edit.appliedTo? text with
    | some edited => .ok ⟨edited, plan.outcome⟩
    | none => .error .misalignedEdit

end SqlGate
