import SqlGate.Database
import SqlGate.Lexeme
import SqlGate.Unicode.Class

/-! Places where some engine quotes or comments otherwise than standard SQL, so that what the pieces
of a statement show as a quoted span or a comment may be code to that engine. -/

namespace SqlGate

open Unicode

/-- A construct that not every engine reads alike. -/
inductive Hazard where
  /-- A backslash in a quoted span, which may escape the character after it. -/
  | backslashEscape
  /-- A string between two tags such as `$body$`. -/
  | dollarQuote
  /-- A line comment after `#`, on a line with quoting or the opening of a block comment. -/
  | hashComment
  /-- A block comment whose body some engines run. -/
  | executableComment
  /-- Two dashes with no blank after them, which may be two minus signs. -/
  | bareDoubleDash
  /-- A block comment opened in a block comment, which may have to be closed twice. -/
  | nestedComment
  /-- Quoting or comment marks in square brackets, which may be no quotes themselves. -/
  | bracketQuoting
  deriving DecidableEq, Repr

namespace Hazard

/-- Whether the engine reads the construct otherwise. -/
def affects : Hazard → Database → Bool
  | .backslashEscape, database | .bracketQuoting, database =>
    database = .mySql || database = .mariaDb || database = .postgres
  | .dollarQuote, database => database = .postgres
  | .hashComment, database | .executableComment, database | .bareDoubleDash, database =>
    database = .mySql || database = .mariaDb
  | .nestedComment, database => database = .sqlServer || database = .postgres

/-- The name in answers. -/
def name : Hazard → String
  | .backslashEscape => "BackslashEscape"
  | .dollarQuote => "DollarQuote"
  | .hashComment => "HashComment"
  | .executableComment => "ExecutableComment"
  | .bareDoubleDash => "BareDoubleDash"
  | .nestedComment => "NestedComment"
  | .bracketQuoting => "BracketQuoting"

def description : Hazard → String
  | .backslashEscape => "backslash inside a quoted literal"
  | .dollarQuote => "dollar-quoted string"
  | .hashComment => "# comment on a line with quoting"
  | .executableComment => "executable /*! */ comment"
  | .bareDoubleDash => "-- without a following space"
  | .nestedComment => "nested block comment"
  | .bracketQuoting => "quoting inside [...]"

end Hazard

/-- Whether the two characters stand in the text, the second right after the first. -/
def hasPair (first second : Char) : List Char → Bool
  | c :: d :: rest => (c == first && d == second) || hasPair first second (d :: rest)
  | _ => false

/-- The hazard that a piece is by itself. -/
def Lexeme.hazard? : Lexeme → Option Hazard
  | .code _ => none
  | .quoted .bracket body =>
    if body.any (· ∈ [Quote.single.opening, Quote.double.opening, Quote.backtick.opening]) ||
        hasPair '-' '-' body || hasPair '/' '*' body then
      some .bracketQuoting
    else none
  | .quoted .backtick _ => none
  | .quoted _ body => if '\\' ∈ body then some .backslashEscape else none
  | .block body closed =>
    if ['!'].isPrefixOf body || ['M', '!'].isPrefixOf body then some .executableComment
    -- The mark that closes the comment counts too: its slash may open another one.
    else if hasPair '/' '*' (if closed then body ++ ['*', '/'] else body) then some .nestedComment
    else none
  | .line body => if body.head?.any fun c => !isBlank c then some .bareDoubleDash else none

/-- Reads the rest of a dollar sign's tag: a name of ASCII or nothing, and a dollar sign. Gives the
number of characters in the tag and the text after it. -/
def dollarTag? (text : List Char) : Option (Nat × List Char) :=
  let name := text.takeWhile fun c => c.isAlphanum || c == '_'
  match text.dropWhile fun c => c.isAlphanum || c == '_' with
  | '$' :: rest => if name.head?.any Char.isDigit then none else some (name.length + 1, rest)
  | _ => none

theorem length_dollarTag? {text rest : List Char} {size : Nat} (h : dollarTag? text = some (size, rest)) :
    rest.length < text.length := by
  dsimp only [dollarTag?] at h
  have := (List.dropWhile_sublist (fun c => Char.isAlphanum c || c == '_') (l := text)).length_le
  split at h
  · next after hafter =>
      split at h
      · cases h
      · obtain ⟨_, rfl⟩ := Prod.mk.inj (Option.some.inj h)
        rw [hafter, List.length_cons] at this
        omega
  · cases h

/-- The places of dollar tags in a text that starts at byte `offset`, after those in `found`, the
last one first. A dollar sign belongs to one tag only. -/
def dollarQuotesOnto (found : List Nat) (offset : Nat) : List Char → List Nat
  | [] => found.reverse
  | c :: rest =>
    if c = '$' then
      match _h : dollarTag? rest with
      | some (size, after) => dollarQuotesOnto (offset :: found) (offset + 1 + size) after
      | none => dollarQuotesOnto found (offset + 1) rest
    else
      dollarQuotesOnto found (offset + c.utf8Size) rest
termination_by text => text.length
decreasing_by
  · have := length_dollarTag? _h
    simp only [List.length_cons]
    omega
  all_goals simp

/-- Whether a line holds the opening of a quoted span or of a block comment. -/
def opensQuoting (line : List Char) : Bool :=
  line.any (fun c => (Quote.ofOpening? c).isSome) || hasPair '/' '*' line

/-- The places of `#` in code on whose line quoting follows, after those in `found`, the last one
first. The pieces make up `text`. -/
def hashCommentsOnto (found : List Nat) (text : List Char) : List (Nat × Lexeme) → List Nat
  | [] => found.reverse
  | (offset, lexeme) :: rest =>
    let found :=
      if lexeme = .code '#' && opensQuoting (text.takeWhile (· != '\n')) then offset :: found else found
    hashCommentsOnto found (text.drop lexeme.text.length) rest

end SqlGate
