import SqlGate.Unicode.Class

/-! The parts that blanks divide a text into. -/

namespace SqlGate

open Unicode

/-- The longest stretches of characters of a class, in order. -/
def runs (p : Char → Bool) (text : List Char) : List (List Char) :=
  close (text.foldr (fun c later => if p c then (c :: later.1, later.2) else ([], close later)) ([], []))
where
  /-- Ends the stretch that is open, if there is one, in front of the later ones. -/
  close : List Char × List (List Char) → List (List Char)
    | ([], later) => later
    | (c :: run, later) => (c :: run) :: later

/-- The text without the blanks at its end. -/
def trimEnd (text : List Char) : List Char :=
  (text.reverse.dropWhile isBlank).reverse

/-- The text without the blanks at either end. -/
def trim (text : List Char) : List Char :=
  trimEnd (text.dropWhile isBlank)

/-- The text with each stretch of blanks between its words as one space, and none at its ends. -/
def singleSpaced (text : List Char) : List Char :=
  [' '].intercalate (runs (fun c => !isBlank c) text)

/-- Small letters for the capitals of ASCII; other characters stay. -/
def asciiLower (text : List Char) : List Char :=
  text.map Char.toLower

end SqlGate
