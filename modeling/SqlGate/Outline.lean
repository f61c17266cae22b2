import SqlGate.Hazard
import SqlGate.Text.Cursor
import SqlGate.Text.Runs

/-! The outline of a statement: its text with comments and the bodies of quoted spans as spaces, byte
for byte, so that a word of the outline is code and stands at the same place in the statement. -/

namespace SqlGate

/-- The piece with nothing but its code left: the delimiters of a quoted span stay around spaces. -/
def Lexeme.blanked : Lexeme → List Char
  | .code c => [c]
  | .quoted quote body => quote.opening :: (spaces (byteLength body) ++ [quote.closing])
  | .block body closed => spaces (byteLength (Lexeme.block body closed).text)
  | .line body => spaces (byteLength (Lexeme.line body).text)

/-- Blanking a piece moves nothing that comes after it. -/
theorem Lexeme.byteLength_blanked (lexeme : Lexeme) :
    byteLength lexeme.blanked = byteLength lexeme.text := by
  cases lexeme <;>
    simp [blanked, text, Quote.utf8Size_opening, Quote.utf8Size_closing]

theorem Lexeme.byteLength_flatMap_blanked (pieces : List Lexeme) :
    byteLength (pieces.flatMap blanked) = byteLength (pieces.flatMap text) := by
  induction pieces with
  | nil => rfl
  | cons lexeme later ih =>
      rw [List.flatMap_cons, List.flatMap_cons, byteLength_append, byteLength_append, ih,
        byteLength_blanked]

/-- The number of parentheses open at each byte. A parenthesis counts as standing outside the pair
that it opens or closes, and one that closes nothing is passed over. -/
def nesting (text : List Char) : Array Nat :=
  (text.foldl read (0, #[])).2
where
  /-- Adds the bytes of one character to the depths so far. -/
  read : Nat × Array Nat → Char → Nat × Array Nat
    | (depth, depths), c =>
      if c = '(' then (depth + 1, depths.push depth)
      else if c = ')' then (depth - 1, depths.push (depth - 1))
      else (depth, depths ++ Array.replicate c.utf8Size depth)

theorem nesting.size_foldl (state : Nat × Array Nat) (text : List Char) :
    (text.foldl read state).2.size = state.2.size + byteLength text := by
  induction text generalizing state with
  | nil => rfl
  | cons c rest ih =>
      obtain ⟨depth, depths⟩ := state
      rw [List.foldl_cons, ih, byteLength_cons, ← Nat.add_assoc]
      congr 1
      by_cases hopen : c = '('
      · subst hopen
        simp [read]
        rfl
      · by_cases hclose : c = ')'
        · subst hclose
          simp [read]
          rfl
        · simp [read, hopen, hclose]

theorem size_nesting (text : List Char) : (nesting text).size = byteLength text := by
  rw [nesting, nesting.size_foldl]
  simp

/-- What is known of the structure of a statement: its outline, the depth of parentheses at each of
its bytes, and its hazards by place. -/
structure Outline where
  text : List Char
  depths : Array Nat
  hazards : List (Nat × Hazard)

namespace Outline

/-- The hazards of a statement, in order of place: those that a piece is by itself, and those that
only show in the code, which is given by its outline `text`. -/
def hazardsOf (sql : List Char) (pieces : List (Nat × Lexeme)) (text : List Char) :
    List (Nat × Hazard) :=
  let inPieces := pieces.filterMap fun (offset, lexeme) =>
    lexeme.hazard?.map fun hazard => (offset, hazard)
  let dollars := (dollarQuotesOnto [] 0 text).map fun offset => (offset, Hazard.dollarQuote)
  let hashes := (hashCommentsOnto [] sql pieces).map fun offset => (offset, Hazard.hashComment)
  (inPieces ++ dollars ++ hashes).mergeSort fun left right => left.1 ≤ right.1

def ofPieces (sql : List Char) (pieces : List (Nat × Lexeme)) : Outline :=
  let text := pieces.flatMap fun (_, lexeme) => lexeme.blanked
  ⟨text, nesting text, hazardsOf sql pieces text⟩

/-- The outline of a statement. -/
def of (sql : List Char) : Outline :=
  ofPieces sql (placedLexemes sql)

theorem text_of (sql : List Char) : (of sql).text = (lexemes sql).flatMap Lexeme.blanked := by
  rw [← map_snd_placedLexemes, List.flatMap_map]
  rfl

/-- The outline has a byte for each byte of the statement. -/
theorem byteLength_text_of (sql : List Char) : byteLength (of sql).text = byteLength sql := by
  rw [text_of, Lexeme.byteLength_flatMap_blanked, flatMap_text_lexemes]

theorem depths_of (sql : List Char) : (of sql).depths = nesting (of sql).text := rfl

/-- The number of parentheses open at a byte; none past the end. -/
def depthAt (outline : Outline) (offset : Nat) : Nat :=
  outline.depths.getD offset 0

def isTopLevel (outline : Outline) (offset : Nat) : Bool :=
  outline.depthAt offset = 0

/-- The hazard that comes first, with its place. -/
def firstHazard? (outline : Outline) : Option (Nat × Hazard) :=
  outline.hazards.head?

/-- The first hazard that the engine reads otherwise. -/
def hazardFor? (outline : Outline) (database : Database) : Option Hazard :=
  outline.hazards.findSome? fun (_, hazard) => if hazard.affects database then some hazard else none

/-- Whether the statement has no code and no quoted span. -/
def isBlank (outline : Outline) : Bool :=
  outline.text.all Unicode.isBlank

/-- The place after the code of the statement, in front of a semicolon that ends it and of the
blanks and comments around that. -/
def endOfCode (outline : Outline) : Nat :=
  let body := trimEnd outline.text
  byteLength (if body.getLast? = some ';' then trimEnd body.dropLast else body)

/-- The first value that `read` finds outside all parentheses, at byte `start` or a later one. -/
def findTopLevel? {α : Type} (outline : Outline) (start : Nat) (read : Cursor → Option α) : Option α :=
  (Cursor.start outline.text).find? fun c =>
    if start ≤ c.offset ∧ outline.isTopLevel c.offset then read c else none

end Outline

end SqlGate
