import SqlGate.Unicode.Alphabetic
import SqlGate.Unicode.Mark
import SqlGate.Unicode.Number

/-! The character classes that statements are read by: blanks, which separate words; word characters,
which words are made of; digits, which row counts are made of. Each class is spelled out for ASCII
and left to the property tables beyond it. The characters of words and of row counts are those of
version 16.0 of the standard, letters and numbers by themselves those of version 17.0: a character
that came in between ends a keyword, and yet belongs to the word that a statement begins with. -/

namespace SqlGate.Unicode

/-- The property White_Space. -/
def isBlank (c : Char) : Bool :=
  let code := c.toNat
  (0x9 ≤ code && code ≤ 0xD) || code == 0x20 || code == 0x85 || code == 0xA0 || code == 0x1680 ||
    (0x2000 ≤ code && code ≤ 0x200A) || code == 0x2028 || code == 0x2029 || code == 0x202F ||
    code == 0x205F || code == 0x3000

/-- The general category Decimal_Number, in version 16.0. -/
def isDigit (c : Char) : Bool :=
  if c.toNat < 0x80 then c.isDigit else decimalRanges.holds c

/-- The property Alphabetic, in version 17.0. -/
def isAlphabetic (c : Char) : Bool :=
  if c.toNat < 0x80 then c.isAlpha else alphabeticRanges.holds c || laterAlphabeticRanges.holds c

/-- The general category Number, in version 17.0. -/
def isNumeric (c : Char) : Bool :=
  if c.toNat < 0x80 then c.isDigit
  else decimalRanges.holds c || laterDecimalRanges.holds c || otherNumberRanges.holds c

/-- The property Alphabetic, or the general category Number. -/
def isAlphanumeric (c : Char) : Bool :=
  isAlphabetic c || isNumeric c

/-- The general category Connector_Punctuation. -/
def isConnector (c : Char) : Bool :=
  let code := c.toNat
  code == 0x5F || code == 0x203F || code == 0x2040 || code == 0x2054 || code == 0xFE33 ||
    code == 0xFE34 || (0xFE4D ≤ code && code ≤ 0xFE4F) || code == 0xFF3F

/-- The property Join_Control: the zero-width joiner and non-joiner. -/
def isJoinControl (c : Char) : Bool :=
  c.toNat == 0x200C || c.toNat == 0x200D

/-- A character that words are made of: Alphabetic, Mark, Decimal_Number, Connector_Punctuation or
Join_Control, in version 16.0. -/
def isWord (c : Char) : Bool :=
  if c.toNat < 0x80 then c.isAlphanum || c == '_'
  else
    alphabeticRanges.holds c || markRanges.holds c || decimalRanges.holds c || isConnector c ||
      isJoinControl c

end SqlGate.Unicode
