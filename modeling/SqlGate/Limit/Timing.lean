/-! The time that a pass over a statement takes. The clock is looked at twice during a pass, in front of the search for
clauses and in front of the edit, and a pass whose time is over by then is given up. What the clock shows is an input:
a pass is told of it, and what two passes have in common depends on what their clocks have in common. -/

namespace SqlGate

/-- The nanoseconds from the beginning of a pass to each of its looks at the clock. -/
structure Timing where
  search : Nat
  edit : Nat
  search_le_edit : search ≤ edit
  deriving DecidableEq, Repr

namespace Timing

/-- A pass that takes no time. -/
def atOnce : Timing :=
  ⟨0, 0, Nat.le_refl 0⟩

/-- Whether a budget in milliseconds is over after some nanoseconds. -/
def isOver (budget elapsed : Nat) : Bool :=
  budget * 1000000 ≤ elapsed

/-- A budget that is not over at any look at the clock. -/
def InTime (timing : Timing) (budget : Nat) : Prop :=
  timing.edit < budget * 1000000

instance (timing : Timing) (budget : Nat) : Decidable (timing.InTime budget) :=
  inferInstanceAs (Decidable (timing.edit < budget * 1000000))

/-- The clock of a pass that comes to its edit at once, when its search begins. -/
def atSearch (timing : Timing) : Timing :=
  ⟨timing.search, timing.search, Nat.le_refl _⟩

/-- Two passes find a budget over at the same looks at the clock. -/
structure Agrees (timing again : Timing) (budget : Nat) : Prop where
  search_eq : isOver budget timing.search = isOver budget again.search
  edit_eq : isOver budget timing.edit = isOver budget again.edit

variable {timing again : Timing} {budget : Nat}

theorem inTime_iff : timing.InTime budget ↔ isOver budget timing.edit = false := by
  rw [InTime, isOver, decide_eq_false_iff_not, Nat.not_le]

/-- A budget that is not over at the edit was not over at the search. -/
theorem InTime.isOver_search (h : timing.InTime budget) : isOver budget timing.search = false :=
  decide_eq_false (Nat.not_le.mpr (Nat.lt_of_le_of_lt timing.search_le_edit h))

theorem InTime.isOver_edit (h : timing.InTime budget) : isOver budget timing.edit = false :=
  inTime_iff.mp h

theorem Agrees.refl (timing : Timing) (budget : Nat) : timing.Agrees timing budget :=
  ⟨rfl, rfl⟩

theorem InTime.agrees (h : timing.InTime budget) (hagain : again.InTime budget) : timing.Agrees again budget :=
  ⟨h.isOver_search.trans hagain.isOver_search.symm, h.isOver_edit.trans hagain.isOver_edit.symm⟩

/-- A budget in milliseconds as messages give it: from one second on in seconds, with a fraction where one is left. -/
def label (budget : Nat) : String :=
  if budget = 0 then "0ns"
  else if budget < 1000 then s!"{budget}ms"
  else
    -- The digits of the thousandths, without the noughts at their end.
    let fraction := ((Nat.toDigits 10 (1000 + budget % 1000)).tail.reverse.dropWhile (· == '0')).reverse
    s!"{budget / 1000}" ++ String.ofList (if fraction.isEmpty then [] else '.' :: fraction) ++ "s"

example : label 0 = "0ns" ∧ label 50 = "50ms" ∧ label 2000 = "2s" ∧ label 61050 = "61.05s" := by
  decide +kernel

end Timing

end SqlGate
