import SqlGate.Outline
import SqlGate.Text.Numeral

/-! The clauses that limit the rows of a query, read from its outline. Each reader spells out one
form of a clause from the place where its first word stands. -/

namespace SqlGate

/-- A row count written in a statement: the bytes that it takes up and its value. -/
structure WrittenCount where
  start : Nat
  stop : Nat
  value : Nat
  deriving DecidableEq, Repr

namespace WrittenCount

/-- The count that the digits between two places write. Digits of other scripts, and more of them
than a count has room for, stand for the largest one. -/
def ofDigits (digits : List Char) (first last : Cursor) : WrittenCount :=
  ⟨first.offset, last.offset, (readCount digits).toOption.getD maxCount⟩

end WrittenCount

namespace Cursor

def count? (c : Cursor) : Option (WrittenCount × Cursor) :=
  c.number?.map fun (digits, after) => (.ofDigits digits c after, after)

/-- Reads `FETCH NEXT n ROWS ONLY` for its count. -/
def fetchCount? (c : Cursor) : Option WrittenCount := do
  let c ← c.word? "FETCH".toList
  let c ← c.blanks?
  let c ← c.anyWord? ["NEXT".toList, "FIRST".toList]
  let c ← c.blanks?
  let (count, c) ← c.count?
  let c ← c.blanks?
  let c ← c.anyWord? ["ROWS".toList, "ROW".toList]
  let c ← c.blanks?
  let _ ← c.word? "ONLY".toList
  return count

/-- Reads `OFFSET n ROWS` and gives the place after it. -/
def offsetRows? (c : Cursor) : Option Cursor := do
  let c ← c.word? "OFFSET".toList
  let c ← c.blanks?
  let (_, c) ← c.number?
  let c ← c.blanks?
  c.anyWord? ["ROWS".toList, "ROW".toList]

/-- Reads `OFFSET n` and gives the place in front of it. -/
def bareOffset? (c : Cursor) : Option Cursor := do
  let after ← c.word? "OFFSET".toList
  let after ← after.blanks?
  let _ ← after.number?
  return c

/-- Reads the second number of `m, n`. -/
def secondCount? (c : Cursor) : Option WrittenCount := do
  let (_, c) ← c.number?
  let c ← c.blanks.char? ','
  let (count, _) ← c.blanks.count?
  return count

/-- Reads `LIMIT n`, or `LIMIT m, n` with an offset first, for its count. -/
def limitCount? (c : Cursor) : Option WrittenCount := do
  let c ← c.word? "LIMIT".toList
  let c ← c.blanks?
  c.secondCount? <|> c.count?.map (·.1)

def orderBy? (c : Cursor) : Option Cursor := do
  let c ← c.word? "ORDER".toList
  let c ← c.blanks?
  c.word? "BY".toList

def phrase? (c : Cursor) : List (List Char) → Option Cursor
  | [] => some c
  | [keyword] => c.word? keyword
  | keyword :: keywords => do
    let c ← c.word? keyword
    let c ← c.blanks?
    c.phrase? keywords

/-- What may stand after `FOR` in a clause that ends a query. -/
def forPhrases : List (List (List Char)) :=
  [["XML".toList], ["JSON".toList], ["BROWSE".toList], ["SHARE".toList], ["NO".toList, "KEY".toList],
    ["KEY".toList, "SHARE".toList]]

/-- Reads the opening of a clause that comes after the row limit: `FOR` with its purpose, `OPTION`
with a parenthesis, or `LOCK IN SHARE MODE`. Gives the place in front of it. -/
def trailingClause? (c : Cursor) : Option Cursor :=
  let purpose := do
    let after ← c.word? "FOR".toList
    let after ← after.blanks?
    forPhrases.findSome? after.phrase?
  let hints := do
    let after ← c.word? "OPTION".toList
    after.blanks.char? '('
  let lock := c.phrase? ["LOCK".toList, "IN".toList, "SHARE".toList, "MODE".toList]
  (purpose <|> hints <|> lock).map fun _ => c

def setQuantifier? (c : Cursor) : Option Cursor :=
  c.anyWord? ["DISTINCT".toList, "ALL".toList]

/-- Reads `SELECT` with its set quantifier, if it has one, and gives the place after them. -/
def selectHead? (c : Cursor) : Option Cursor := do
  let c ← c.letters? "SELECT".toList
  return (c.blanks?.bind setQuantifier?).getD c

/-- What the word `TOP` is followed by. -/
inductive TopForm where
  | rows (count : WrittenCount)
  | percent
  | notLiteral
  deriving DecidableEq, Repr

/-- Reads a row count in parentheses. -/
def parenthesizedCount? (c : Cursor) : Option (WrittenCount × Cursor) := do
  let c ← c.char? '('
  let (count, c) ← c.blanks.count?
  let c ← c.blanks.char? ')'
  return (count, c)

/-- Reads the digits of a row count, whatever follows them. -/
def leadingCount? (c : Cursor) : Option (WrittenCount × Cursor) :=
  c.digits?.map fun (digits, after) => (.ofDigits digits c after, after)

/-- Reads `TOP` after `SELECT` and its set quantifier. -/
def topForm? (c : Cursor) : Option TopForm := do
  let c ← c.letters? "SELECT".toList
  let c ← c.blanks?
  let c := (c.setQuantifier?.bind blanks?).getD c
  let c ← c.word? "TOP".toList
  match c.blanks.parenthesizedCount? <|> c.blanks.leadingCount? with
  | none => return .notLiteral
  | some (count, c) =>
    if (c.blanks?.bind (·.word? "PERCENT".toList)).isSome then return .percent
    else return .rows count

end Cursor

end SqlGate
