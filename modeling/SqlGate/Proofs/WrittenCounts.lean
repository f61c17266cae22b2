import SqlGate.Proofs.RereadSlots

/-! A row count where it is written: digits that are a word of their own, behind blanks or a sign. Its bytes tell the
digits and the text on both sides of them. -/

namespace SqlGate

open Unicode

/-- Digits that are a word in front of a text. -/
structure Numeral (digits rest : List Char) : Prop where
  ne_nil : digits ≠ []
  number : IsNumber digits
  closes : ∀ c, rest.head? = some c → isWord c = false

section Counts

variable {front operand digits rest : List Char} {count : WrittenCount}

/-- The bytes of a count tell where a text is cut for its digits. -/
theorem WrittenCount.after_inj {text other more : List Char} (htext : front ++ (digits ++ rest) = other ++ (more ++ text))
    (h : WrittenCount.after front digits = .after other more) : front = other ∧ digits = more ∧ rest = text := by
  obtain ⟨rfl, hlater⟩ := eq_of_byteLength_eq htext (congrArg WrittenCount.start h)
  have hstop : byteLength (front ++ digits) = byteLength (front ++ more) := congrArg WrittenCount.stop h
  rw [byteLength_append, byteLength_append] at hstop
  obtain ⟨rfl, rfl⟩ := eq_of_byteLength_eq hlater (Nat.add_left_cancel hstop)
  exact ⟨rfl, rfl, rfl⟩

theorem Numeral.head (h : Numeral digits rest) (later : List Char) :
    ∃ c, (digits ++ later).head? = some c ∧ isDigit c = true :=
  ⟨digits.head h.ne_nil, by rw [List.head?_append_of_ne_nil _ h.ne_nil, List.head?_eq_some_head h.ne_nil],
    h.number _ (List.head_mem h.ne_nil)⟩

theorem Numeral.isDigit_eq_false (h : Numeral digits rest) : ∀ c, rest.head? = some c → isDigit c = false :=
  fun c hc => isDigit_eq_false_of_isWord_eq_false (h.closes c hc)

namespace Cursor

theorem count?_eq_some_iff {after : Cursor} : (between front operand).count? = some (count, after) ↔
    ∃ digits rest, operand = digits ++ rest ∧ Numeral digits rest ∧ count = .after front digits ∧
      after = between (front ++ digits) rest := by
  rw [count?, Option.map_eq_some_iff]
  constructor
  · rintro ⟨⟨digits, place⟩, hread, hpair⟩
    obtain ⟨rest, rfl, hne, hdigits, hcloses, rfl⟩ := number?_eq_some_iff.mp hread
    obtain ⟨rfl, rfl⟩ := Prod.mk.inj hpair
    exact ⟨digits, rest, rfl, ⟨hne, hdigits, hcloses⟩, rfl, rfl⟩
  · rintro ⟨digits, rest, rfl, hnumeral, rfl, rfl⟩
    exact ⟨_, number?_eq_some_iff.mpr ⟨rest, rfl, hnumeral.ne_nil, hnumeral.number, hnumeral.closes, rfl⟩, rfl⟩

/-- Blanks are passed over in front of what is none. -/
theorem blanks_eq {gap later : List Char} (hgap : ∀ c ∈ gap, isBlank c = true)
    (hstop : ∀ c, later.head? = some c → isBlank c = false) :
    (between front (gap ++ later)).blanks = between (front ++ gap) later :=
  skipWhile_of_stop hgap hstop

end Cursor

end Counts

end SqlGate
