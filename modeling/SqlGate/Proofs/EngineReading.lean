import SqlGate.Text.Bytes
import SqlGate.Lexeme

/-! How an engine takes a statement to pieces: one piece after the other, in a state that it keeps between
them. Whatever the engine, its pieces make up the statement, and what it runs of the statement is the text of
the pieces that are no comment and no quoted span left open. -/

namespace SqlGate.Engine

/-- What opens a comment to the end of a line. -/
inductive LineMark where
  | dashes
  | hash
  deriving DecidableEq, Repr

def LineMark.text : LineMark → List Char
  | .dashes => ['-', '-']
  | .hash => ['#']

inductive Piece where
  | code (c : Char)
  | quoted (quote : Quote) (body : List Char)
  /-- A quoted span that nothing closes. -/
  | openQuoted (quote : Quote) (body : List Char)
  /-- A block comment; one that nothing closes runs to the end. -/
  | block (body : List Char) (closed : Bool)
  | line (mark : LineMark) (body : List Char)
  deriving DecidableEq, Repr

namespace Piece

/-- The piece as it stands in the statement. -/
def text : Piece → List Char
  | .code c => [c]
  | .quoted quote body => quote.opening :: (body ++ [quote.closing])
  | .openQuoted quote body => quote.opening :: body
  | .block body closed => '/' :: '*' :: (body ++ if closed then ['*', '/'] else [])
  | .line mark body => mark.text ++ body

/-- Whether nothing in the piece is run: it is a comment, or a quoted span that never closes. -/
def isDead : Piece → Bool
  | .openQuoted _ _ | .block _ _ | .line _ _ => true
  | .code _ | .quoted _ _ => false

theorem text_ne_nil (piece : Piece) : piece.text ≠ [] := by
  cases piece with
  | line mark body => cases mark <;> exact List.cons_ne_nil _ _
  | code c => exact List.cons_ne_nil _ _
  | quoted quote body => exact List.cons_ne_nil _ _
  | openQuoted quote body => exact List.cons_ne_nil _ _
  | block body closed => exact List.cons_ne_nil _ _

/-- What is left of a piece where nothing stands but what is run. -/
def live (piece : Piece) : List Char :=
  if piece.isDead then [' '] else piece.text

end Piece

/-- The reading of an engine. In a state, `first` gives the first piece of the text `c :: rest`, the state after
it and what follows it. -/
structure Reading where
  State : Type
  start : State
  first : State → (c : Char) → (rest : List Char) → Piece × State × List Char
  /-- The first piece and what follows it make up the text. -/
  text_first : ∀ state c rest, (first state c rest).1.text ++ (first state c rest).2.2 = c :: rest

namespace Reading

variable (reading : Reading)

theorem length_first_lt (state : reading.State) (c : Char) (rest : List Char) :
    (reading.first state c rest).2.2.length < rest.length + 1 := by
  have whole := congrArg List.length (reading.text_first state c rest)
  have hpos := List.length_pos_iff.mpr (reading.first state c rest).1.text_ne_nil
  rw [List.length_append, List.length_cons] at whole
  omega

/-- The pieces of a text that is reached in a state. -/
def piecesFrom (state : reading.State) : List Char → List Piece
  | [] => []
  | c :: rest =>
    (reading.first state c rest).1 ::
      piecesFrom (reading.first state c rest).2.1 (reading.first state c rest).2.2
termination_by text => text.length
decreasing_by exact reading.length_first_lt state c rest

/-- The pieces of a statement. -/
def pieces (sql : List Char) : List Piece :=
  reading.piecesFrom reading.start sql

/-- Whether the bytes from `start` to `stop` lie in one piece that is a comment or a quoted span that never
closes. -/
def DeadBetween (sql : List Char) (start stop : Nat) : Prop :=
  ∃ front piece later, reading.pieces sql = front ++ piece :: later ∧ piece.isDead = true ∧
    byteLength (front.flatMap Piece.text) ≤ start ∧
    stop ≤ byteLength (front.flatMap Piece.text) + byteLength piece.text

/-- What the engine runs of a statement, with one space for each other piece. -/
def liveText (sql : List Char) : List Char :=
  (reading.pieces sql).flatMap Piece.live

/-- The pieces `read` are the first ones of the statement, and `rest` is left to be read in a state. -/
def ReadTo (sql : List Char) (read : List Piece) (state : reading.State) (rest : List Char) : Prop :=
  reading.pieces sql = read ++ reading.piecesFrom state rest

variable {reading : Reading} {state next : reading.State} {sql rest after : List Char} {c : Char} {piece : Piece}
  {read : List Piece}

@[simp] theorem piecesFrom_nil (state : reading.State) : reading.piecesFrom state [] = [] := by
  rw [piecesFrom]

theorem piecesFrom_of_first (h : reading.first state c rest = (piece, next, after)) :
    reading.piecesFrom state (c :: rest) = piece :: reading.piecesFrom next after := by
  rw [piecesFrom, h]

/-- The pieces joined together are the text. -/
theorem flatMap_text_piecesFrom (state : reading.State) (text : List Char) :
    (reading.piecesFrom state text).flatMap Piece.text = text := by
  fun_induction piecesFrom reading state text with
  | case1 => rfl
  | case2 state c rest ih => rw [List.flatMap_cons, ih, text_first]

theorem DeadBetween.mono {start stop start' stop' : Nat} (h : reading.DeadBetween sql start stop)
    (hstart : start ≤ start') (hstop : stop' ≤ stop) : reading.DeadBetween sql start' stop' := by
  obtain ⟨front, piece, later, hpieces, hdead, hle, hge⟩ := h
  exact ⟨front, piece, later, hpieces, hdead, Nat.le_trans hle hstart, Nat.le_trans hstop hge⟩

/-- A stretch that is longer than each comment and each quoted span left open lies in none of them. -/
theorem not_deadBetween_of_all {start stop : Nat}
    (h : (reading.pieces sql).all fun piece => !piece.isDead || byteLength piece.text < stop - start) :
    ¬reading.DeadBetween sql start stop := by
  rintro ⟨front, piece, later, hpieces, hdead, hstart, hstop⟩
  have hshort := List.all_eq_true.mp h piece (by rw [hpieces]; simp)
  rw [hdead, Bool.not_true, Bool.false_or, decide_eq_true_eq] at hshort
  omega

namespace ReadTo

theorem nil (sql : List Char) : reading.ReadTo sql [] reading.start sql := rfl

theorem eq_append (h : reading.ReadTo sql read state rest) : sql = read.flatMap Piece.text ++ rest := by
  rw [← flatMap_text_piecesFrom reading.start sql, ← pieces, h, List.flatMap_append, flatMap_text_piecesFrom]

theorem push (h : reading.ReadTo sql read state (c :: rest))
    (hfirst : reading.first state c rest = (piece, next, after)) :
    reading.ReadTo sql (read ++ [piece]) next after := by
  rw [ReadTo, h, piecesFrom_of_first hfirst, List.append_assoc]
  rfl

/-- A piece that has been read and is not run is dead. -/
theorem deadBetween (h : reading.ReadTo sql (read ++ [piece]) state rest) (hdead : piece.isDead = true) :
    reading.DeadBetween sql (byteLength (read.flatMap Piece.text))
      (byteLength (read.flatMap Piece.text) + byteLength piece.text) := by
  refine ⟨read, piece, reading.piecesFrom state rest, ?_, hdead, Nat.le_refl _, Nat.le_refl _⟩
  rw [h, List.append_assoc]
  rfl

/-- A piece that is not run and that nothing follows is dead to the end. -/
theorem deadBetween_end (h : reading.ReadTo sql (read ++ [piece]) state []) (hdead : piece.isDead = true) :
    reading.DeadBetween sql (byteLength (read.flatMap Piece.text)) (byteLength sql) := by
  have hsize := congrArg byteLength h.eq_append
  rw [List.append_nil, List.flatMap_append, byteLength_append, List.flatMap_singleton] at hsize
  rw [hsize]
  exact h.deadBetween hdead

end ReadTo

end Reading

end SqlGate.Engine
