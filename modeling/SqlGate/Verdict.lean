import SqlGate.Mode
import SqlGate.NormalForm

/-! What a statement is classified as. The rules are tried in order on its normal form, and the first
one that applies decides. A statement that no rule knows as harmless is dangerous. -/

namespace SqlGate

inductive Rule where
  | multipleStatements
  | dataModification
  | administrativeKeyword
  | selectFamily
  deriving DecidableEq, Repr

/-- The name in event messages. -/
def Rule.name : Rule → String
  | .multipleStatements => "multiple_statements"
  | .dataModification => "data_modification"
  | .administrativeKeyword => "administrative_keyword"
  | .selectFamily => "select_family"

/-- A classification and the rule that it follows from. -/
structure Verdict where
  rule : Rule
  classification : Classification
  deriving DecidableEq, Repr

/-- Whether a semicolon stands anywhere but at the end. -/
def isStacked (text : List Char) : Bool :=
  let separators := text.count ';'
  separators > 1 || (separators = 1 && text.getLast? ≠ some ';')

/-- The operations that change rows, in the order in which they decide, with their categories. -/
def modifications : List (Operation × Category) :=
  [(.truncate, .truncate), (.delete, .delete), (.insert, .insert), (.update, .update)]

/-- The keywords that no statement may have in a mode. -/
def Mode.administrative : Mode → List Operation
  | .standard =>
    [.drop, .create, .alter, .execute, .exec, .merge, .bulk, .grant, .revoke, .deny]
  | .readOnly =>
    [.drop, .create, .alter, .execute, .exec, .merge, .bulk, .grant, .revoke, .deny, .use, .set, .dbcc,
      .backup, .restore, .reconfigure]

/-- Finds the first operation of `modifications` that is a word of the text. -/
def modification? (text : List Char) : Option Classification :=
  (modifications.find? fun (operation, _) => hasWord operation.letters text).map
    fun (operation, category) => ⟨category, operation⟩

/-- Finds the leftmost administrative keyword. A spelling that folds to a keyword without being one,
such as with a Kelvin sign, has no operation of its own. -/
def administrative? (mode : Mode) (text : List Char) : Option Classification :=
  (firstWord? (mode.administrative.map Operation.letters) text).map fun keyword =>
    .dangerous ((Operation.ofKeyword? keyword).getD .nonSelectStatement)

/-- Whether the text begins with the select word, or with the word that introduces common table
expressions and has a select word later. -/
def isSelect (text : List Char) : Bool :=
  match leadingWord? text with
  | some word =>
    word = "SELECT".toList || (word = "WITH".toList && hasWord "SELECT".toList text)
  | none => false

def selectFamily (text : List Char) : Classification :=
  if !isSelect text then .dangerous .nonSelectStatement
  else if hasWord "INTO".toList text then .dangerous .selectInto
  else .readOnly

/-- The verdict on a normal form. -/
def verdictOn (mode : Mode) (text : List Char) : Verdict :=
  if isStacked text then ⟨.multipleStatements, .dangerous .multipleStatements⟩
  else
    match modification? text with
    | some classification => ⟨.dataModification, classification⟩
    | none =>
      match administrative? mode text with
      | some classification => ⟨.administrativeKeyword, classification⟩
      | none => ⟨.selectFamily, selectFamily text⟩

def classify (mode : Mode) (sql : List Char) : Classification :=
  (verdictOn mode (normalForm sql)).classification

end SqlGate
