/-! Sets of code points, written as tables of closed ranges in increasing order. The tables of this
folder list the members of one character property each, ASCII included. -/

namespace SqlGate.Unicode

/-- Closed ranges of code points, disjoint and in increasing order. -/
abbrev RangeTable := Array (Nat × Nat)

/-- Whether one of the ranges with an index in `[low, high)` holds `code`. The order of the table
lets each step drop the half that cannot. -/
def RangeTable.searchBetween (table : RangeTable) (code low high : Nat) : Bool :=
  if low < high then
    let middle := (low + high) / 2
    match table[middle]? with
    | none => false
    | some (first, last) =>
      if code < first then searchBetween table code low middle
      else if last < code then searchBetween table code (middle + 1) high
      else true
  else
    false
termination_by high - low
decreasing_by all_goals omega

/-- Whether some range of the table holds the character. -/
def RangeTable.holds (table : RangeTable) (c : Char) : Bool :=
  table.searchBetween c.toNat 0 table.size

end SqlGate.Unicode
