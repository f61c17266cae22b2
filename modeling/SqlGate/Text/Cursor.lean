import SqlGate.Unicode.Class
import SqlGate.Text.Bytes

/-! A place in a text from which words, blanks and numbers are read. Each reader gives the place
after what it read, or nothing; a chain of readers spells out a clause. -/

namespace SqlGate

open Unicode

/-- A place in a text: the bytes before it, the character before it and the text after it. -/
structure Cursor where
  offset : Nat
  before : Option Char
  rest : List Char

namespace Cursor

/-- The place between two parts of a text. -/
def between (front rest : List Char) : Cursor :=
  ⟨byteLength front, front.getLast?, rest⟩

def start (text : List Char) : Cursor :=
  ⟨0, none, text⟩

theorem start_eq_between (text : List Char) : start text = between [] text := rfl

/-- The place after `read`, where the text goes on with `rest`. -/
def past (c : Cursor) (read rest : List Char) : Cursor :=
  ⟨c.offset + byteLength read, read.getLast?.or c.before, rest⟩

theorem past_between (front read rest after : List Char) :
    (between front rest).past read after = between (front ++ read) after := by
  simp [past, between, List.getLast?_append]

/-- The first value that `read` finds at this place or a later one. -/
def find? {α : Type} (read : Cursor → Option α) (c : Cursor) : Option α :=
  go c.offset c.before c.rest
where
  /-- The same from a place given by its parts, by recursion on the text after it. -/
  go (offset : Nat) (before : Option Char) : List Char → Option α
    | [] => read ⟨offset, before, []⟩
    | x :: rest =>
      match read ⟨offset, before, x :: rest⟩ with
      | some found => some found
      | none => go (offset + x.utf8Size) (some x) rest

theorem find?_between_nil {α : Type} (read : Cursor → Option α) (front : List Char) :
    (between front []).find? read = read (between front []) := rfl

theorem find?_between_cons {α : Type} (read : Cursor → Option α) (front : List Char) (x : Char)
    (rest : List Char) :
    (between front (x :: rest)).find? read =
      match read (between front (x :: rest)) with
      | some found => some found
      | none => (between (front ++ [x]) rest).find? read := by
  have hnext : between (front ++ [x]) rest = ⟨byteLength front + x.utf8Size, some x, rest⟩ := by
    simp [between]
  rw [hnext]
  rfl

/-- What is found stands somewhere in the text: the text can be cut where it is read. -/
theorem exists_of_find?_between {α : Type} {read : Cursor → Option α} {front rest : List Char} {found : α}
    (h : (between front rest).find? read = some found) :
    ∃ passed after, rest = passed ++ after ∧ read (between (front ++ passed) after) = some found := by
  induction rest generalizing front with
  | nil =>
      rw [find?_between_nil] at h
      exact ⟨[], [], rfl, by simpa using h⟩
  | cons x rest ih =>
      rw [find?_between_cons] at h
      cases hread : read (between front (x :: rest)) with
      | some value =>
          rw [hread] at h
          exact ⟨[], x :: rest, rfl, by simpa [hread] using h⟩
      | none =>
          rw [hread] at h
          obtain ⟨passed, after, hrest, hfound⟩ := ih h
          exact ⟨x :: passed, after, by rw [hrest]; rfl, by simpa using hfound⟩

/-- Nothing is found exactly where nothing can be read at any place of the text. -/
theorem find?_between_eq_none_iff {α : Type} {read : Cursor → Option α} {front rest : List Char} :
    (between front rest).find? read = none ↔
      ∀ passed after, rest = passed ++ after → read (between (front ++ passed) after) = none := by
  induction rest generalizing front with
  | nil =>
      rw [find?_between_nil]
      constructor
      · intro h passed after hrest
        obtain ⟨rfl, rfl⟩ := List.append_eq_nil_iff.mp hrest.symm
        simpa using h
      · intro h
        simpa using h [] [] rfl
  | cons x rest ih =>
      rw [find?_between_cons]
      constructor
      · intro h passed after hrest
        cases hread : read (between front (x :: rest)) with
        | some value => simp [hread] at h
        | none =>
            rw [hread] at h
            cases passed with
            | nil =>
                rw [List.nil_append] at hrest
                rw [List.append_nil, ← hrest, hread]
            | cons y passed =>
                obtain ⟨rfl, htail⟩ := List.cons.inj hrest
                simpa using ih.mp h passed after htail
      · intro h
        have hread : read (between front (x :: rest)) = none := by simpa using h [] (x :: rest) rfl
        rw [hread]
        refine ih.mpr ?_
        intro passed after hrest
        simpa using h (x :: passed) after (by rw [hrest]; rfl)

/-- Whether no word character stands right before the place. -/
def opensWord (c : Cursor) : Bool :=
  !c.before.any isWord

/-- Whether no word character stands right after the place. -/
def closesWord (c : Cursor) : Bool :=
  !c.rest.head?.any isWord

def skipWhile (p : Char → Bool) (c : Cursor) : Cursor :=
  c.past (c.rest.takeWhile p) (c.rest.dropWhile p)

def blanks (c : Cursor) : Cursor :=
  c.skipWhile isBlank

def blanks? (c : Cursor) : Option Cursor :=
  if c.rest.head?.any isBlank then some c.blanks else none

def char? (x : Char) (c : Cursor) : Option Cursor :=
  match c.rest with
  | [] => none
  | y :: rest => if y = x then some (c.past [y] rest) else none

/-- Whether `c` is the letter `capital` of ASCII in simple case folding, in which the long s is a
form of s and the Kelvin sign a form of k. -/
def foldsTo (capital c : Char) : Bool :=
  c.toUpper == capital || (capital == 'S' && c == '\u017F') || (capital == 'K' && c == '\u212A')

/-- Whether a text begins with the letters of a keyword, in any case. -/
def spells : List Char → List Char → Bool
  | [], _ => true
  | _ :: _, [] => false
  | capital :: keyword, c :: rest => foldsTo capital c && spells keyword rest

/-- Reads the letters of a keyword, in any case. -/
def letters? (keyword : List Char) (c : Cursor) : Option Cursor :=
  if spells keyword c.rest then
    some (c.past (c.rest.take keyword.length) (c.rest.drop keyword.length))
  else
    none

/-- Reads a keyword that is a word of its own. -/
def word? (keyword : List Char) (c : Cursor) : Option Cursor := do
  let after ← c.letters? keyword
  if c.opensWord && after.closesWord then some after else none

/-- Reads the first of the keywords that stands here as a word of its own. -/
def anyWord? (keywords : List (List Char)) (c : Cursor) : Option Cursor :=
  keywords.findSome? fun keyword => c.word? keyword

/-- Reads the longest stretch of digits, of any script. -/
def digits? (c : Cursor) : Option (List Char × Cursor) :=
  match c.rest.takeWhile isDigit with
  | [] => none
  | digits => some (digits, c.skipWhile isDigit)

/-- Reads digits that no other word character follows. -/
def number? (c : Cursor) : Option (List Char × Cursor) := do
  let (digits, after) ← c.digits?
  if after.closesWord then some (digits, after) else none

end Cursor

/-- Whether a text has the keyword as a word of its own. -/
def hasWord (keyword text : List Char) : Bool :=
  ((Cursor.start text).find? (·.word? keyword)).isSome

/-- The leftmost word of a text that is one of the keywords, as it is written there. -/
def firstWord? (keywords : List (List Char)) (text : List Char) : Option (List Char) :=
  (Cursor.start text).find? fun c =>
    keywords.findSome? fun keyword => (c.word? keyword).map fun _ => c.rest.take keyword.length

end SqlGate
