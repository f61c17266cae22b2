import SqlGate.Proofs.Words

/-! Counts written in decimal: the digits are words of ASCII digits, and they are read as the count again. A text is read
as a count exactly where it writes one. -/

namespace SqlGate

open Unicode

theorem toList_toString (count : Nat) : (toString count).toList = Nat.toDigits 10 count := by
  rw [Nat.toString_eq_repr, Nat.toList_repr]

theorem isDigit_of_isDigit {c : Char} (h : c.isDigit = true) : isDigit c = true := by
  rw [isDigit, if_pos (toNat_lt_of_isDigit h), h]

theorem isDigit_of_mem_decimal {count : Nat} {c : Char} (h : c ∈ Nat.toDigits 10 count) : isDigit c = true :=
  isDigit_of_isDigit (Nat.isDigit_of_mem_toDigits (by decide) (by decide) h)

theorem le_ofDigitChars (digits : List Char) (count : Nat) : count ≤ Nat.ofDigitChars 10 digits count := by
  rw [Nat.ofDigitChars_eq_ofDigitChars_zero]
  have hpos : 0 < 10 ^ digits.length := Nat.pow_pos (by decide)
  have hle := Nat.le_mul_of_pos_left count hpos
  omega

/-- Digits of ASCII are read as the number that they write, as long as it is told apart. -/
theorem readDigits_of_le {digits : List Char} {count : Nat} (hdigits : ∀ c ∈ digits, c.isDigit = true)
    (hbound : Nat.ofDigitChars 10 digits count ≤ maxCount) :
    readDigits count digits = .ok (Nat.ofDigitChars 10 digits count) := by
  induction digits generalizing count with
  | nil => rfl
  | cons c digits ih =>
      rw [Nat.ofDigitChars_cons] at hbound ⊢
      have hnext : 10 * count + (c.toNat - '0'.toNat) ≤ maxCount := (le_ofDigitChars digits _).trans hbound
      rw [readDigits, if_pos (hdigits c List.mem_cons_self)]
      dsimp only
      rw [if_pos hnext]
      exact ih (fun d hd => hdigits d (List.mem_cons_of_mem c hd)) hbound

/-- Digits are read onto a count exactly where they all are digits of ASCII and write a number that is told apart. -/
theorem readDigits_eq_ok_iff {digits : List Char} {count value : Nat} (hcount : count ≤ maxCount) :
    readDigits count digits = .ok value ↔
      (∀ c ∈ digits, c.isDigit = true) ∧ Nat.ofDigitChars 10 digits count = value ∧ value ≤ maxCount := by
  constructor
  · intro h
    induction digits generalizing count with
    | nil =>
        obtain rfl : count = value := Except.ok.inj h
        exact ⟨fun c hc => absurd hc List.not_mem_nil, rfl, hcount⟩
    | cons c digits ih =>
        rw [readDigits] at h
        dsimp only at h
        split at h
        · next hdigit =>
            split at h
            · next hnext =>
                obtain ⟨hdigits, hvalue, hle⟩ := ih hnext h
                exact ⟨List.forall_mem_cons.mpr ⟨hdigit, hdigits⟩, (Nat.ofDigitChars_cons ..).trans hvalue, hle⟩
            · cases h
        · cases h
  · rintro ⟨hdigits, rfl, hle⟩
    exact readDigits_of_le hdigits hle

theorem readCount_cons {c : Char} (h : c ≠ '+') (rest : List Char) :
    readCount (c :: rest) = readDigits 0 (c :: rest) := by
  unfold readCount
  split
  · next heq => cases heq
  · next heq => exact absurd (List.cons.inj heq).1 h
  · next heq => exact absurd (List.cons.inj heq).1 h
  · rfl

theorem ne_plus_of_isDigit {c : Char} (h : c.isDigit = true) : c ≠ '+' := by
  rintro rfl
  exact absurd h (by decide)

/-- A text that writes a count as settings take it: digits of ASCII, with a plus sign in front of them or without one,
for a number that 64 bits have room for. -/
def WritesCount (text : List Char) (count : Nat) : Prop :=
  ∃ digits, (text = digits ∨ text = '+' :: digits) ∧ digits ≠ [] ∧ (∀ c ∈ digits, c.isDigit = true) ∧
    Nat.ofDigitChars 10 digits 0 = count ∧ count ≤ maxCount

theorem readCount_eq_ok_iff {text : List Char} {count : Nat} : readCount text = .ok count ↔ WritesCount text count := by
  constructor
  · intro h
    unfold readCount at h
    split at h
    · cases h
    · cases h
    · next digits hsign =>
        obtain ⟨hdigits, hvalue, hle⟩ := (readDigits_eq_ok_iff (Nat.zero_le _)).mp h
        exact ⟨digits, Or.inr rfl, fun hnil => hsign (hnil ▸ rfl), hdigits, hvalue, hle⟩
    · next hne hsign hplus =>
        obtain ⟨hdigits, hvalue, hle⟩ := (readDigits_eq_ok_iff (Nat.zero_le _)).mp h
        exact ⟨text, Or.inl rfl, hne, hdigits, hvalue, hle⟩
  · rintro ⟨digits, htext, hne, hdigits, hvalue⟩
    have hread : readDigits 0 digits = .ok count :=
      (readDigits_eq_ok_iff (Nat.zero_le _)).mpr ⟨hdigits, hvalue⟩
    obtain ⟨c, rest, rfl⟩ := List.exists_cons_of_ne_nil hne
    rcases htext with rfl | rfl
    · rw [readCount_cons (ne_plus_of_isDigit (hdigits c List.mem_cons_self)), hread]
    · exact hread

theorem readCount_decimal {count : Nat} (h : count ≤ maxCount) : readCount (Nat.toDigits 10 count) = .ok count :=
  readCount_eq_ok_iff.mpr ⟨_, Or.inl rfl, Nat.toDigits_ne_nil,
    fun _ hc => Nat.isDigit_of_mem_toDigits (by decide) (by decide) hc, Nat.ofDigitChars_ten_toDigits, h⟩

end SqlGate
