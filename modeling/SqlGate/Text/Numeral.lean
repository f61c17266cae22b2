/-! Numerals as settings and row counts write them: digits of ASCII, with one plus sign before them
allowed, for a count of at most 64 bits. -/

namespace SqlGate

/-- The largest count that is told apart from a larger one. -/
def maxCount : Nat := UInt64.size - 1

inductive NumeralError where
  | empty
  | invalidDigit
  | tooLarge
  deriving DecidableEq, Repr

def NumeralError.message : NumeralError → String
  | .empty => "cannot parse integer from empty string"
  | .invalidDigit => "invalid digit found in string"
  | .tooLarge => "number too large to fit in target type"

/-- Reads digits from the left onto a count, up to the first character that is no digit or takes the
count past the bound. -/
def readDigits (count : Nat) : List Char → Except NumeralError Nat
  | [] => .ok count
  | c :: rest =>
    if c.isDigit then
      let next := 10 * count + (c.toNat - '0'.toNat)
      if next ≤ maxCount then readDigits next rest else .error .tooLarge
    else
      .error .invalidDigit

/-- The count that a numeral stands for. -/
def readCount : List Char → Except NumeralError Nat
  | [] => .error .empty
  | ['+'] => .error .invalidDigit
  | '+' :: digits => readDigits 0 digits
  | digits => readDigits 0 digits

end SqlGate
