import SqlGate.Lexeme

/-! The pieces of a statement as Postgres reads them. Square brackets are code. A name between two
dollar signs opens a string that runs to the same tag. Block comments nest. In a string with the letter
E in front of it a backslash escapes the next character. A quoted span that nothing closes runs to the
end of the statement. -/

namespace SqlGate.Postgres

inductive Piece where
  | code (c : Char)
  | quoted (quote : Quote) (body : List Char)
  /-- A quoted span that nothing closes. -/
  | openQuoted (quote : Quote) (body : List Char)
  /-- A string between two tags. -/
  | tagged (tag body : List Char)
  /-- A string after a tag that nothing closes. -/
  | openTagged (tag body : List Char)
  /-- A block comment with the comments in it; one that nothing closes runs to the end. -/
  | block (body : List Char) (closed : Bool)
  | line (body : List Char)
  deriving DecidableEq, Repr

/-- A name with the dollar signs around it. -/
def mark (tag : List Char) : List Char :=
  '$' :: (tag ++ ['$'])

namespace Piece

/-- The piece as it stands in the statement. -/
def text : Piece → List Char
  | .code c => [c]
  | .quoted quote body => quote.opening :: (body ++ [quote.closing])
  | .openQuoted quote body => quote.opening :: body
  | .tagged tag body => mark tag ++ (body ++ mark tag)
  | .openTagged tag body => mark tag ++ body
  | .block body closed => '/' :: '*' :: (body ++ if closed then ['*', '/'] else [])
  | .line body => '-' :: '-' :: body

/-- Whether nothing in the piece is run: it is a comment, or a quoted span that never closes. -/
def isDead : Piece → Bool
  | .openQuoted _ _ | .openTagged _ _ | .block _ _ | .line _ => true
  | .code _ | .quoted _ _ | .tagged _ _ => false

theorem text_ne_nil (piece : Piece) : piece.text ≠ [] := by
  cases piece <;> simp [text, mark]

end Piece

/-- A character of a name. Beyond ASCII every character counts as a letter. -/
def isNameChar (c : Char) : Bool :=
  c.isAlphanum || c == '_' || 0x80 ≤ c.toNat

/-- Whether a text, given with its last character first, ends with the letter E as a word of its own. -/
def endsWithE (before : List Char) : Bool :=
  match before with
  | [] => false
  | c :: rest => (c == 'E' || c == 'e') && !rest.head?.any isNameChar

/-- Finds the delimiter that ends a quoted span; `body` is what has been read, the last character
first. -/
def closeQuoted? (escapes : Bool) (close : Char) (body : List Char) :
    List Char → Option (List Char × List Char)
  | [] => none
  | [c] => if c = close then some (body, []) else none
  | c :: d :: rest =>
    if escapes ∧ c = '\\' then closeQuoted? escapes close (d :: c :: body) rest
    else if c ≠ close then closeQuoted? escapes close (c :: body) (d :: rest)
    else if d = close then closeQuoted? escapes close (d :: c :: body) rest
    else some (body, d :: rest)

/-- Reads the rest of a tag after its first dollar sign. -/
def tag? (text : List Char) : Option (List Char × List Char) :=
  match text.dropWhile isNameChar with
  | '$' :: rest =>
    if (text.takeWhile isNameChar).head?.any Char.isDigit then none
    else some (text.takeWhile isNameChar, rest)
  | _ => none

/-- Finds the tag that ends a string. -/
def closeTagged? (tag body : List Char) : List Char → Option (List Char × List Char)
  | [] => none
  | c :: rest =>
    if (mark tag).isPrefixOf (c :: rest) then some (body, (c :: rest).drop (mark tag).length)
    else closeTagged? tag (c :: body) rest

/-- Finds the end of a block comment in which `depth` further ones are open. -/
def closeBlock (depth : Nat) (body : List Char) : List Char → List Char × Bool × List Char
  | [] => (body, false, [])
  | [c] => (c :: body, false, [])
  | c :: d :: rest =>
    if c = '*' ∧ d = '/' then
      match depth with
      | 0 => (body, true, rest)
      | depth + 1 => closeBlock depth (d :: c :: body) rest
    else if c = '/' ∧ d = '*' then closeBlock (depth + 1) (d :: c :: body) rest
    else closeBlock depth (c :: body) (d :: rest)

/-- The first piece of the text `c :: rest`, and what follows it. -/
def first (escapes : Bool) (c : Char) (rest : List Char) : Piece × List Char :=
  match Quote.ofOpening? c with
  | some .bracket => (.code c, rest)
  | some quote =>
    match closeQuoted? (escapes && quote = .single) quote.closing [] rest with
    | some (body, rest) => (.quoted quote body.reverse, rest)
    | none => (.openQuoted quote rest, [])
  | none =>
    match c, rest with
    | '$', rest =>
      match tag? rest with
      | some (tag, rest) =>
        match closeTagged? tag [] rest with
        | some (body, rest) => (.tagged tag body.reverse, rest)
        | none => (.openTagged tag rest, [])
      | none => (.code c, rest)
    | '/', '*' :: rest =>
      let (body, closed, rest) := closeBlock 0 [] rest
      (.block body.reverse closed, rest)
    | '-', '-' :: rest =>
      (.line (rest.takeWhile fun c => !Lexeme.endsLine c), rest.dropWhile fun c => !Lexeme.endsLine c)
    | _, rest => (.code c, rest)

theorem append_of_closeQuoted? {escapes : Bool} {close : Char} {body text found rest : List Char}
    (h : closeQuoted? escapes close body text = some (found, rest)) :
    found.reverse ++ close :: rest = body.reverse ++ text := by
  fun_induction closeQuoted? escapes close body text with
  | case1 => cases h
  | case2 =>
      obtain ⟨rfl, rfl⟩ := Prod.mk.inj (Option.some.inj h)
      rfl
  | case3 => cases h
  | case4 body c d rest _ ih => simpa using ih h
  | case5 body c d rest _ _ ih => simpa using ih h
  | case6 body c rest _ _ ih => simpa using ih h
  | case7 body c d rest _ hc =>
      obtain ⟨rfl, rfl⟩ := Prod.mk.inj (Option.some.inj h)
      rw [Decidable.not_not.mp hc]

theorem eq_append_of_tag? {text tag rest : List Char} (h : tag? text = some (tag, rest)) :
    text = tag ++ '$' :: rest := by
  unfold tag? at h
  split at h
  · next after hafter =>
      split at h
      · cases h
      · obtain ⟨rfl, rfl⟩ := Prod.mk.inj (Option.some.inj h)
        rw [← hafter, List.takeWhile_append_dropWhile]
  · cases h

theorem append_of_closeTagged? {tag body text found rest : List Char}
    (h : closeTagged? tag body text = some (found, rest)) :
    found.reverse ++ (mark tag ++ rest) = body.reverse ++ text := by
  fun_induction closeTagged? tag body text with
  | case1 => cases h
  | case2 body c after hprefix =>
      obtain ⟨rfl, rfl⟩ := Prod.mk.inj (Option.some.inj h)
      rw [List.isPrefixOf_iff_prefix] at hprefix
      rw [List.prefix_iff_eq_append.mp hprefix]
  | case3 body c after _ ih => simpa using ih h

theorem append_of_closeBlock {depth : Nat} {body text found rest : List Char} {closed : Bool}
    (h : closeBlock depth body text = (found, closed, rest)) :
    found.reverse ++ (if closed then ['*', '/'] else []) ++ rest = body.reverse ++ text := by
  fun_induction closeBlock depth body text with
  | case1 | case2 =>
      obtain ⟨rfl, rfl, rfl⟩ := by simpa only [Prod.mk.injEq] using h
      simp
  | case3 =>
      obtain ⟨rfl, rfl, rfl⟩ := by simpa only [Prod.mk.injEq] using h
      simp_all
  | case4 body c d rest _ depth ih => simpa using ih h
  | case5 depth body c d rest _ _ ih => simpa using ih h
  | case6 depth body c d rest _ _ ih => simpa using ih h

/-- The first piece and what follows it make up the text. -/
theorem text_first (escapes : Bool) (c : Char) (rest : List Char) :
    (first escapes c rest).1.text ++ (first escapes c rest).2 = c :: rest := by
  unfold first
  split
  · rfl
  · next quote _ hquote =>
      have hopen := Quote.opening_of_ofOpening? hquote
      split
      · next body after hclose =>
          have whole := append_of_closeQuoted? hclose
          simpa [Piece.text, hopen] using whole
      · simp [Piece.text, hopen]
  · split
    · split
      · next tag after htag =>
          have whole := eq_append_of_tag? htag
          split
          · next body later hclose =>
              have inner := append_of_closeTagged? hclose
              rw [List.reverse_nil, List.nil_append] at inner
              simp [Piece.text, mark, whole, ← inner]
          · simp [Piece.text, mark, whole]
      · rfl
    · next after _ =>
        have whole := append_of_closeBlock (Eq.refl (closeBlock 0 [] after))
        simpa [Piece.text] using whole
    · simp [Piece.text]
    · rfl

theorem length_first_lt (escapes : Bool) (c : Char) (rest : List Char) :
    (first escapes c rest).2.length < rest.length + 1 := by
  have whole := congrArg List.length (text_first escapes c rest)
  have hpos := List.length_pos_iff.mpr (Piece.text_ne_nil (first escapes c rest).1)
  rw [List.length_append, List.length_cons] at whole
  omega

/-- The pieces of a text in front of which `before` has been read, the last character first. -/
def piecesAfter (before : List Char) : List Char → List Piece
  | [] => []
  | c :: rest =>
    (first (endsWithE before) c rest).1 ::
      piecesAfter ((first (endsWithE before) c rest).1.text.reverse ++ before)
        (first (endsWithE before) c rest).2
termination_by text => text.length
decreasing_by exact length_first_lt _ c rest

/-- The pieces of a statement. -/
def pieces (sql : List Char) : List Piece :=
  piecesAfter [] sql

/-- The pieces joined together are the statement. -/
theorem flatMap_text_piecesAfter (before text : List Char) :
    (piecesAfter before text).flatMap Piece.text = text := by
  fun_induction piecesAfter before text with
  | case1 => rfl
  | case2 before c rest ih => rw [List.flatMap_cons, ih, text_first]

/-- Whether the bytes from `start` to `stop` lie in one piece that is a comment or a quoted span that
never closes. -/
def DeadBetween (sql : List Char) (start stop : Nat) : Prop :=
  ∃ front piece later, pieces sql = front ++ piece :: later ∧ piece.isDead = true ∧
    byteLength (front.flatMap Piece.text) ≤ start ∧
    stop ≤ byteLength (front.flatMap Piece.text) + byteLength piece.text

end SqlGate.Postgres
