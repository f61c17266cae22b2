import SqlGate.Outline
import SqlGate.Unicode.Upper

/-! The normal form of a statement, in which its keywords are looked up: no comments, single spaces,
capitals. It is for reading only and never run. -/

namespace SqlGate

open Unicode

/-- The statement with one space for each comment, so that the words beside it stay apart. Where the
first hazard is and after it, comments stay: what is a comment here may be code to some engine. -/
def stripComments (sql : List Char) : List Char :=
  let pieces := placedLexemes sql
  let trusted := match (Outline.ofPieces sql pieces).firstHazard? with
    | some (offset, _) => offset
    | none => byteLength sql
  pieces.flatMap fun (offset, lexeme) =>
    if lexeme.isComment && offset < trusted then [' '] else lexeme.text

/-- The statement without comments, single-spaced and in capitals. -/
def normalForm (sql : List Char) : List Char :=
  (singleSpaced (stripComments sql)).flatMap upper

/-- The word that a text begins with, if it begins with one. -/
def leadingWord? (text : List Char) : Option (List Char) :=
  match text.takeWhile fun c => isAlphanumeric c || c == '_' with
  | [] => none
  | word => some word

end SqlGate
