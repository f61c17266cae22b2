import SqlGate.Text.Bytes

/-! The pieces of a statement as standard SQL quotes it: quoted spans, comments, and single
characters of code between them. A quoted span and a comment are each read as a whole, so an opening
quote hides a comment mark and the reverse. Joined again, the pieces give the statement. -/

namespace SqlGate

/-- The four ways to quote. The first is for strings, the others are for names. -/
inductive Quote where
  | single
  | double
  | backtick
  | bracket
  deriving DecidableEq, Repr

namespace Quote

def opening : Quote → Char
  | .single => '\x27'
  | .double => '\x22'
  | .backtick => '\x60'
  | .bracket => '['

def closing : Quote → Char
  | .single => '\x27'
  | .double => '\x22'
  | .backtick => '\x60'
  | .bracket => ']'

theorem utf8Size_opening (quote : Quote) : quote.opening.utf8Size = 1 := by
  cases quote <;> rfl

theorem utf8Size_closing (quote : Quote) : quote.closing.utf8Size = 1 := by
  cases quote <;> rfl

/-- The way of quoting that a character opens. -/
def ofOpening? (c : Char) : Option Quote :=
  [single, double, backtick, bracket].find? fun quote => quote.opening == c

theorem opening_of_ofOpening? {c : Char} {quote : Quote} (h : ofOpening? c = some quote) :
    quote.opening = c := by
  have found := List.find?_some h
  simpa using found

end Quote

/-- A piece of a statement. -/
inductive Lexeme where
  /-- A character outside quoted spans and comments. -/
  | code (c : Char)
  /-- A quoted span; its body is the text between the delimiters, as written. -/
  | quoted (quote : Quote) (body : List Char)
  /-- A block comment; one that nothing closes runs to the end of the statement. -/
  | block (body : List Char) (closed : Bool)
  /-- A comment after two dashes, without the end of its line. -/
  | line (body : List Char)
  deriving DecidableEq, Repr

namespace Lexeme

/-- The piece as it stands in the statement. -/
def text : Lexeme → List Char
  | .code c => [c]
  | .quoted quote body => quote.opening :: (body ++ [quote.closing])
  | .block body closed => '/' :: '*' :: (body ++ if closed then ['*', '/'] else [])
  | .line body => '-' :: '-' :: body

theorem text_ne_nil (lexeme : Lexeme) : lexeme.text ≠ [] := by
  cases lexeme <;> simp [text]

def isComment : Lexeme → Bool
  | .block _ _ | .line _ => true
  | .code _ | .quoted _ _ => false

/-- Finds the end of a quoted span whose opening delimiter has been read. A closing delimiter that
is written twice stands for itself and does not end the span, unless no single one follows: then the
span ends between the two of the last pair. `body` is what has been read, the last character first,
and `pair` the body and the rest at the last pair. -/
def closeQuoted? (close : Char) (body : List Char) (pair : Option (List Char × List Char)) :
    List Char → Option (List Char × List Char)
  | [] => pair
  | [c] => if c = close then some (body, []) else pair
  | c :: d :: rest =>
    if c ≠ close then closeQuoted? close (c :: body) pair (d :: rest)
    else if d ≠ close then some (body, d :: rest)
    else closeQuoted? close (d :: c :: body) (some (body, d :: rest)) rest

/-- What ends a block comment whose opening has been read: the body, the last character first,
whether it is closed, and the rest. -/
def closeBlock (body : List Char) : List Char → List Char × Bool × List Char
  | [] => (body, false, [])
  | [c] => (c :: body, false, [])
  | c :: d :: rest =>
    if c = '*' ∧ d = '/' then (body, true, rest) else closeBlock (c :: body) (d :: rest)

def endsLine (c : Char) : Bool :=
  c == '\r' || c == '\n'

/-- The first piece of the text `c :: rest`, and what follows it. -/
def first (c : Char) (rest : List Char) : Lexeme × List Char :=
  match Quote.ofOpening? c with
  | some quote =>
    match closeQuoted? quote.closing [] none rest with
    | some (body, rest) => (.quoted quote body.reverse, rest)
    | none => (.code c, rest)
  | none =>
    match c, rest with
    | '/', '*' :: rest =>
      let (body, closed, rest) := closeBlock [] rest
      (.block body.reverse closed, rest)
    | '-', '-' :: rest =>
      (.line (rest.takeWhile fun c => !endsLine c), rest.dropWhile fun c => !endsLine c)
    | _, _ => (.code c, rest)

theorem append_of_closeQuoted? {close : Char} {body : List Char} {pair : Option (List Char × List Char)}
    {text : List Char} {found rest whole : List Char} (hwhole : whole = body.reverse ++ text)
    (hpair : ∀ b r, pair = some (b, r) → b.reverse ++ close :: r = whole)
    (h : closeQuoted? close body pair text = some (found, rest)) :
    found.reverse ++ close :: rest = whole := by
  fun_induction closeQuoted? close body pair text with
  | case1 => exact hpair _ _ h
  | case2 =>
      obtain ⟨rfl, rfl⟩ := Prod.mk.inj (Option.some.inj h)
      simp_all
  | case3 => exact hpair _ _ h
  | case4 body pair c d rest hc ih => exact ih (by simp [hwhole]) hpair h
  | case5 =>
      obtain ⟨rfl, rfl⟩ := Prod.mk.inj (Option.some.inj h)
      simp_all
  | case6 body pair c d rest hc hd ih =>
      refine ih (by simp [hwhole]) ?_ h
      rintro _ _ ⟨rfl, rfl⟩
      simp_all

theorem append_of_closeBlock {body text found rest : List Char} {closed : Bool}
    (h : closeBlock body text = (found, closed, rest)) :
    found.reverse ++ (if closed then ['*', '/'] else []) ++ rest = body.reverse ++ text := by
  fun_induction closeBlock body text with
  | case1 | case2 =>
      obtain ⟨rfl, rfl, rfl⟩ := by simpa only [Prod.mk.injEq] using h
      simp
  | case3 =>
      obtain ⟨rfl, rfl, rfl⟩ := by simpa only [Prod.mk.injEq] using h
      simp_all
  | case4 body c d rest _ ih => simpa using ih h

/-- The first piece and what follows it make up the text. -/
theorem text_first (c : Char) (rest : List Char) :
    (first c rest).1.text ++ (first c rest).2 = c :: rest := by
  unfold first
  split
  · next quote hquote =>
      have hopen := Quote.opening_of_ofOpening? hquote
      split
      · next body after hclose =>
          have whole : body.reverse ++ quote.closing :: after = rest :=
            append_of_closeQuoted? (by simp) (by simp) hclose
          simp [text, hopen, whole]
      · rfl
  · split
    · next after hblock =>
        have whole := append_of_closeBlock (Eq.refl (closeBlock [] after))
        simpa [text] using whole
    · simp [text]
    · rfl

theorem length_first_lt (c : Char) (rest : List Char) : (first c rest).2.length < rest.length + 1 := by
  have whole := congrArg List.length (text_first c rest)
  have hpos := List.length_pos_iff.mpr (text_ne_nil (first c rest).1)
  rw [List.length_append, List.length_cons] at whole
  omega

/-- The pieces of a text in front of which `read` have been read, the last one first. -/
def readOnto (read : List Lexeme) : List Char → List Lexeme
  | [] => read
  | c :: rest => readOnto ((first c rest).1 :: read) (first c rest).2
termination_by text => text.length
decreasing_by exact length_first_lt c rest

theorem readOnto_eq_append (read : List Lexeme) (text : List Char) :
    readOnto read text = readOnto [] text ++ read := by
  induction hsize : text.length using Nat.strongRecOn generalizing read text with
  | ind size ih =>
      cases text with
      | nil => simp [readOnto]
      | cons c rest =>
          have hlt : (first c rest).2.length < size := by
            have := length_first_lt c rest
            rw [List.length_cons] at hsize
            omega
          rw [readOnto, readOnto, ih _ hlt _ _ rfl, ih _ hlt [_] _ rfl, List.append_assoc]
          rfl

end Lexeme

/-- The pieces of a statement. -/
def lexemes (sql : List Char) : List Lexeme :=
  (Lexeme.readOnto [] sql).reverse

@[simp] theorem lexemes_nil : lexemes [] = [] := by
  simp [lexemes, Lexeme.readOnto]

theorem lexemes_cons (c : Char) (rest : List Char) :
    lexemes (c :: rest) = (Lexeme.first c rest).1 :: lexemes (Lexeme.first c rest).2 := by
  rw [lexemes, Lexeme.readOnto, Lexeme.readOnto_eq_append, List.reverse_append, lexemes]
  rfl

/-- The pieces joined together are the statement. -/
theorem flatMap_text_lexemes (sql : List Char) : (lexemes sql).flatMap Lexeme.text = sql := by
  induction hsize : sql.length using Nat.strongRecOn generalizing sql with
  | ind size ih =>
      cases sql with
      | nil => simp
      | cons c rest =>
          have hlt : (Lexeme.first c rest).2.length < size := by
            have := Lexeme.length_first_lt c rest
            rw [List.length_cons] at hsize
            omega
          rw [lexemes_cons, List.flatMap_cons, ih _ hlt _ rfl, Lexeme.text_first]

/-- The pieces with the number of bytes in front of each, counted from `offset`, after those that
have been placed, the last one first. -/
def Lexeme.placeOnto (placed : List (Nat × Lexeme)) (offset : Nat) : List Lexeme → List (Nat × Lexeme)
  | [] => placed.reverse
  | lexeme :: rest => placeOnto ((offset, lexeme) :: placed) (offset + byteLength lexeme.text) rest

theorem Lexeme.map_snd_placeOnto (placed : List (Nat × Lexeme)) (offset : Nat) (rest : List Lexeme) :
    (placeOnto placed offset rest).map (·.2) = (placed.map (·.2)).reverse ++ rest := by
  induction rest generalizing placed offset with
  | nil => simp [placeOnto]
  | cons lexeme rest ih => simp [placeOnto, ih]

/-- The pieces of a statement with the number of bytes in front of each. -/
def placedLexemes (sql : List Char) : List (Nat × Lexeme) :=
  Lexeme.placeOnto [] 0 (lexemes sql)

theorem map_snd_placedLexemes (sql : List Char) : (placedLexemes sql).map (·.2) = lexemes sql := by
  simpa [placedLexemes] using Lexeme.map_snd_placeOnto [] 0 (lexemes sql)

end SqlGate
