/-! Structured text: the values that reports are made of, and how they are laid out, one field to a
line and two spaces deeper at each level. -/

namespace SqlGate

/-- A value of a report. The fields of a record keep their order. -/
inductive Document where
  | null
  | flag (value : Bool)
  | number (value : Nat)
  | text (value : String)
  | list (items : List Document)
  | record (fields : List (String × Document))
  deriving Repr

namespace Document

/-- The digits of a number below 256 to base 16. -/
def hexByte (value : Nat) : List Char :=
  [Nat.digitChar (value / 16), Nat.digitChar (value % 16)]

/-- A character inside quotes. Quotes, backslashes and control characters are escaped. -/
def escape (c : Char) : List Char :=
  if c = '\x22' then ['\\', '\x22']
  else if c = '\\' then ['\\', '\\']
  else if c = '\x08' then ['\\', 'b']
  else if c = '\t' then ['\\', 't']
  else if c = '\n' then ['\\', 'n']
  else if c = '\x0C' then ['\\', 'f']
  else if c = '\r' then ['\\', 'r']
  else if c.toNat < 0x20 then ['\\', 'u', '0', '0'] ++ hexByte c.toNat
  else [c]

def quote (text : String) : String :=
  "\x22" ++ String.ofList (text.toList.flatMap escape) ++ "\x22"

/-- The beginning of a line at some depth. -/
def lineStart (depth : Nat) : String :=
  "\n" ++ String.ofList (List.replicate (2 * depth) ' ')

/-- Parts between two delimiters, each on a line of its own. -/
def enclose (depth : Nat) (opening closing : String) (parts : List String) : String :=
  if parts.isEmpty then opening ++ closing
  else
    opening ++ lineStart (depth + 1) ++ (("," ++ lineStart (depth + 1)).intercalate parts) ++
      lineStart depth ++ closing

mutual

/-- The value laid out at some depth. -/
def render (depth : Nat) : Document → String
  | null => "null"
  | flag value => if value then "true" else "false"
  | number value => toString value
  | text value => quote value
  | list items => enclose depth "[" "]" (renderItems (depth + 1) items)
  | record fields => enclose depth "\x7b" "\x7d" (renderFields (depth + 1) fields)

def renderItems (depth : Nat) : List Document → List String
  | [] => []
  | item :: items => render depth item :: renderItems depth items

def renderFields (depth : Nat) : List (String × Document) → List String
  | [] => []
  | (key, value) :: fields => (quote key ++ ": " ++ render depth value) :: renderFields depth fields

end

end Document

end SqlGate
