import SqlGate.Limit.Limiter
import SqlGate.Mode

/-! The settings of a gate. -/

namespace SqlGate

structure Settings where
  bounds : RowBounds := {}
  /-- The policy for requests that name none. -/
  mode : Mode := .standard
  database : Database := .sqlServer
  /-- The time for limiting one statement, in milliseconds. -/
  budget : Nat := (Limiter.usual database).budget
  /-- The size in bytes above which statements are not limited. -/
  maxBytes : Nat := (Limiter.usual database).maxBytes
  deriving DecidableEq, Repr

namespace Settings

def limiter (settings : Settings) : Limiter :=
  ⟨settings.database, settings.budget, settings.maxBytes⟩

/-- Refuses bounds on rows that are of no use, and a budget of no time. -/
def validate (settings : Settings) : Except Refusal Unit :=
  match settings.bounds.validate with
  | .error refusal => .error refusal
  | .ok () =>
    if settings.budget = 0 then .error (.invalidSettings "rewrite budget must be positive") else .ok ()

theorem validate_eq_ok_iff {settings : Settings} :
    settings.validate = .ok () ↔ settings.bounds.validate = .ok () ∧ 0 < settings.budget := by
  unfold validate
  split
  · next refusal hbounds => simp [hbounds]
  · next hbounds =>
      split
      · next hzero => simp [hzero]
      · next hbudget => simp [hbounds, Nat.pos_of_ne_zero hbudget]

end Settings

end SqlGate
