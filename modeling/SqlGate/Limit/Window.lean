import SqlGate.Refusal

/-! How many rows a reader may ask for, and from which row on. -/

namespace SqlGate

/-- The bounds on the number of rows of one answer. -/
structure RowBounds where
  /-- The most that anyone is given. -/
  ceiling : Nat := 10000
  /-- What a caller is given who asks for no number. -/
  usual : Nat := 1000
  deriving DecidableEq, Repr

namespace RowBounds

/-- Refuses bounds that leave no row, or a usual number above the ceiling. -/
def validate (bounds : RowBounds) : Except Refusal Unit :=
  if bounds.ceiling = 0 then .error (.invalidSettings "row limit ceiling must be positive")
  else if bounds.usual = 0 then .error (.invalidSettings "default row limit must be positive")
  else if bounds.ceiling < bounds.usual then
    .error (.invalidSettings
      s!"default row limit {bounds.usual} exceeds ceiling {bounds.ceiling}")
  else .ok ()

theorem validate_eq_ok_iff {bounds : RowBounds} :
    bounds.validate = .ok () ↔ 0 < bounds.ceiling ∧ 0 < bounds.usual ∧ bounds.usual ≤ bounds.ceiling := by
  unfold validate
  split
  · next hzero => simp [hzero]
  · next hceiling =>
      split
      · next hzero => simp [hzero]
      · next husual =>
          split
          · next hlt => simp [hlt]
          · next hle =>
              simp [Nat.pos_of_ne_zero hceiling, Nat.pos_of_ne_zero husual, Nat.le_of_not_lt hle]

/-- The number of rows for a request: what it asks for or the usual number, at least one and at most
the ceiling. -/
def clamp (bounds : RowBounds) (requested : Option Nat) : Nat :=
  min (max 1 (requested.getD bounds.usual)) (max 1 bounds.ceiling)

end RowBounds

/-- The rows that a statement is to be limited to: `limit` of them, after the first `offset`. -/
structure RowWindow where
  limit : Nat
  offset : Nat
  deriving DecidableEq, Repr

/-- The window of a request within the bounds. -/
def RowBounds.window (bounds : RowBounds) (requested offset : Option Nat) : RowWindow :=
  ⟨bounds.clamp requested, offset.getD 0⟩

end SqlGate
