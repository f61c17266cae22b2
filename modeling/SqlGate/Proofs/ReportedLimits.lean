import SqlGate.Gate
import SqlGate.Proofs.LimitFrame

/-! What is reported of the rows of a statement. The number that a request is limited to lies within the bounds
of the gate, and the outcome agrees with the text that limiting leaves: a lowered count stood there with its value,
no more rows are reported than were allowed, and the text has changed exactly where that is reported. -/

namespace SqlGate

/-- The number of rows that digits stand for. Digits of other scripts, and more of them than 64 bits have room
for, stand for the largest number of 64 bits. -/
def writtenValue (digits : List Char) : Nat :=
  if digits.all Char.isDigit ∧ Nat.ofDigitChars 10 digits 0 ≤ maxCount then Nat.ofDigitChars 10 digits 0
  else maxCount

theorem writtenValue_le (digits : List Char) : writtenValue digits ≤ maxCount := by
  unfold writtenValue
  split
  · next h => exact h.2
  · exact le_rfl

theorem writtenValue_decimal {count : Nat} (h : count ≤ maxCount) : writtenValue (Nat.toDigits 10 count) = count := by
  have hdigits : (Nat.toDigits 10 count).all Char.isDigit = true :=
    List.all_eq_true.mpr fun c hc => Nat.isDigit_of_mem_toDigits (by decide) (by decide) hc
  rw [writtenValue, Nat.ofDigitChars_ten_toDigits, if_pos ⟨hdigits, h⟩]

/-- Digits that are not all of ASCII, and those that write too large a number, are read as no count. -/
theorem readDigits_getD {digits : List Char} {count : Nat} (hcount : count ≤ maxCount) :
    (readDigits count digits).toOption.getD maxCount =
      if digits.all Char.isDigit ∧ Nat.ofDigitChars 10 digits count ≤ maxCount then Nat.ofDigitChars 10 digits count
      else maxCount := by
  split
  · next h =>
      rw [readDigits_of_le (List.all_eq_true.mp h.1) h.2]
      rfl
  · next h =>
      cases hread : readDigits count digits with
      | error cause => rfl
      | ok value =>
          obtain ⟨hdigits, rfl, hle⟩ := (readDigits_eq_ok_iff hcount).mp hread
          exact absurd ⟨List.all_eq_true.mpr hdigits, hle⟩ h

/-- A count of digits has the value that they stand for. -/
theorem WrittenCount.value_eq_writtenValue (front : List Char) {digits : List Char}
    (hdigits : ∀ c ∈ digits, Unicode.isDigit c = true) (hne : digits ≠ []) :
    (WrittenCount.after front digits).value = writtenValue digits := by
  have hread : readCount digits = readDigits 0 digits := by
    obtain ⟨c, later, rfl⟩ := List.exists_cons_of_ne_nil hne
    refine readCount_cons ?_ later
    rintro rfl
    exact absurd (hdigits '+' List.mem_cons_self) (by decide)
  unfold writtenValue
  rw [after, ofDigits, hread, readDigits_getD (Nat.zero_le _)]

/-- A statement as limiting it to a window leaves it, with what is reported: the number of rows that stands in it
is low enough or lowered, or a clause with the limit is new. -/
inductive Reported (sql : List Char) (window : RowWindow) : Limited → Prop where
  | notApplicable : Reported sql window ⟨sql, .notApplicable⟩
  | fallback (obstacle : Obstacle) : Reported sql window ⟨sql, .fallback obstacle⟩
  | withinLimit {before digits after : List Char} (hsql : sql = before ++ (digits ++ after))
      (hrun : DigitRun before digits after) (hlow : writtenValue digits ≤ window.limit) :
      Reported sql window ⟨sql, .withinLimit (writtenValue digits)⟩
  | capped {before digits after : List Char} (hsql : sql = before ++ (digits ++ after))
      (hrun : DigitRun before digits after) (hhigh : window.limit < writtenValue digits) :
      Reported sql window
        ⟨before ++ (Nat.toDigits 10 window.limit ++ after), .capped (writtenValue digits) window.limit⟩
  | inserted {before clause after : List Char} (hsql : sql = before ++ after) (hne : clause ≠ []) :
      Reported sql window ⟨before ++ (clause ++ after), .inserted window.limit⟩
  | paginated {before clause after : List Char} (hsql : sql = before ++ after) (hne : clause ≠ [])
      (hoffset : 0 < window.offset) :
      Reported sql window ⟨before ++ (clause ++ after), .paginated window.offset window.limit⟩

theorem Slot.page_eq_of_atEnd {outline : Outline} {main : Cursor} {more less lead tail : List Char}
    {named page : Option Nat} {place : Nat} (h : clause place lead tail page = atEnd outline main more less named) :
    page = named := by
  rw [atEnd] at h
  split at h
  · exact (clause.inj h).2.2.2
  · exact (clause.inj h).2.2.2

/-- A clause that names an offset names the one that is asked for. -/
theorem SlotAt.offset_eq_of_page {sql lead tail : List Char} {main : Cursor} {place offset page : Nat} {top : Bool}
    (h : SlotAt sql main offset top (.clause place lead tail (some page))) : page = offset ∧ 0 < offset := by
  generalize hslot : Slot.clause place lead tail (some page) = slot at h
  cases h with
  | fetch hcount => cases hslot
  | offsetRows hfetch hoffset => cases hslot
  | top hpaging hcount => cases hslot
  | page hpaging htop hpos => exact ⟨Option.some.inj (Slot.page_eq_of_atEnd hslot), hpos⟩
  | head hpaging htop hzero hhead => cases hslot
  | limit hfetch hcount => cases hslot
  | bareOffset hfetch hlimit hoffset => cases hslot
  | pageLimit hpaging hpos => exact ⟨Option.some.inj (Slot.page_eq_of_atEnd hslot), hpos⟩
  | newLimit hpaging hzero => exact absurd (Slot.page_eq_of_atEnd hslot) nofun

namespace Limiter

variable {limiter : Limiter} {timing : Timing} {sql : List Char} {main : Cursor} {limit offset : Nat}
  {limited : Limited}

theorem reported_of_written {count : WrittenCount} (haccepts : limiter.Accepts timing sql main)
    (hslot : SlotAt sql main offset limiter.database.usesTop (.written count))
    (hlimit : limiter.limit sql ⟨limit, offset⟩ timing = .ok limited) : Reported sql ⟨limit, offset⟩ limited := by
  obtain ⟨front, digits, rest, hin⟩ := hslot.exists_countIn haccepts.mainSelect?_eq
  obtain ⟨left, right, hsite, hleft, hrun⟩ := hin.exists_digitRun
  rw [limit_written haccepts hslot hin.countAt.count_eq hsite hleft, hin.countAt.count_eq,
    WrittenCount.value_eq_writtenValue front hin.countAt.number hin.countAt.ne_nil] at hlimit
  rw [← Except.ok.inj hlimit]
  split
  · next hlow => exact .withinLimit hsite.eq_joined hrun hlow
  · next hhigh => exact .capped hsite.eq_joined hrun (Nat.lt_of_not_le hhigh)

theorem reported_of_clause {place : Nat} {lead tail : List Char} {page : Option Nat}
    (haccepts : limiter.Accepts timing sql main)
    (hslot : SlotAt sql main offset limiter.database.usesTop (.clause place lead tail page))
    (hlimit : limiter.limit sql ⟨limit, offset⟩ timing = .ok limited) : Reported sql ⟨limit, offset⟩ limited := by
  obtain ⟨front, rest, hgap⟩ := hslot.exists_gapAt haccepts.mainSelect?_eq
  obtain ⟨left, right, hsite, hleft, -⟩ := hgap.site
  have hplace : place = byteLength (left.flatMap Lexeme.blanked) := by rw [hleft, hgap.place_eq]
  have hne : lead ++ (Nat.toDigits 10 limit ++ tail) ≠ [] := (hgap.insertion limit).ne_nil
  rw [limit_clause haccepts hslot hsite hplace] at hlimit
  rw [← Except.ok.inj hlimit]
  cases page with
  | none => exact .inserted hsite.eq_joined hne
  | some page =>
      obtain ⟨rfl, hpos⟩ := hslot.offset_eq_of_page
      exact .paginated hsite.eq_joined hne hpos

theorem reported_apply (limiter : Limiter) (category : Category) (sql : List Char) (window : RowWindow)
    (timing : Timing) :
    Reported sql window (limiter.apply category sql window timing) := by
  obtain ⟨limit, offset⟩ := window
  rcases apply_cases limiter category sql ⟨limit, offset⟩ timing with hlimit | ⟨obstacle, hkept⟩ | hkept
  · obtain ⟨main, slot, haccepts, hslot, -⟩ := limit_eq_ok_iff.mp hlimit
    cases slot with
    | written count => exact reported_of_written haccepts hslot hlimit
    | clause place lead tail page => exact reported_of_clause haccepts hslot hlimit
  · rw [hkept]
    exact .fallback obstacle
  · rw [hkept]
    exact .notApplicable

end Limiter

/-- A lowered count is never written as it stood there, and a new clause is never empty. -/
theorem Reported.text_ne_iff {sql : List Char} {window : RowWindow} {limited : Limited}
    (h : Reported sql window limited) : limited.text ≠ sql ↔ limited.outcome.isModified = true := by
  cases h with
  | notApplicable => simp [Outcome.isModified]
  | fallback obstacle => simp [Outcome.isModified]
  | withinLimit hsql hrun hlow => simp [Outcome.isModified]
  | @capped before digits after hsql hrun hhigh =>
      refine iff_of_true (fun hsame => ?_) rfl
      rw [hsql] at hsame
      have hdigits := List.append_cancel_right (List.append_cancel_left hsame)
      have hvalue := writtenValue_decimal (hhigh.le.trans (writtenValue_le digits))
      rw [hdigits] at hvalue
      exact hhigh.ne' hvalue
  | inserted hsql hne =>
      refine iff_of_true (fun hsame => hne ?_) rfl
      rw [hsql] at hsame
      exact List.append_left_eq_self.mp (List.append_cancel_left hsame)
  | paginated hsql hne hoffset =>
      refine iff_of_true (fun hsame => hne ?_) rfl
      rw [hsql] at hsame
      exact List.append_left_eq_self.mp (List.append_cancel_left hsame)

/-- The outcome of a request that may be given `limit` rows tells the truth about the statement that is left. -/
structure Truthful (request : Request) (limit : Nat) (statement : String) (outcome : Outcome) : Prop where
  effectiveLimit_le : ∀ rows, outcome.effectiveLimit? = some rows → rows ≤ limit
  /-- A limit that is low enough is a number of the statement. -/
  of_withinLimit : ∀ existing, outcome = .withinLimit existing →
    ∃ before digits after, request.sql.toList = before ++ (digits ++ after) ∧ DigitRun before digits after ∧
      existing = writtenValue digits
  /-- A lowered limit was a higher number, and the new one stands in its place. -/
  of_capped : ∀ existing bound, outcome = .capped existing bound → bound = limit ∧ bound < existing ∧
    ∃ before digits after, request.sql.toList = before ++ (digits ++ after) ∧ DigitRun before digits after ∧
      existing = writtenValue digits ∧ statement.toList = before ++ (Nat.toDigits 10 bound ++ after)
  of_inserted : ∀ bound, outcome = .inserted bound → bound = limit
  of_paginated : ∀ start bound, outcome = .paginated start bound →
    bound = limit ∧ request.offset = some start ∧ 0 < start
  differs_iff : statement ≠ request.sql ↔ outcome.isModified = true

theorem Reported.truthful {request : Request} {limit : Nat} {limited : Limited}
    (h : Reported request.sql.toList ⟨limit, request.offset.getD 0⟩ limited) :
    Truthful request limit (String.ofList limited.text) limited.outcome where
  effectiveLimit_le rows hrows := by
    cases h with
    | notApplicable => cases hrows
    | fallback obstacle => cases hrows
    | withinLimit hsql hrun hlow => exact Option.some.inj hrows ▸ hlow
    | capped hsql hrun hhigh => exact (Option.some.inj hrows).ge
    | inserted hsql hne => exact (Option.some.inj hrows).ge
    | paginated hsql hne hoffset => exact (Option.some.inj hrows).ge
  of_withinLimit existing houtcome := by
    cases h with
    | withinLimit hsql hrun hlow => exact ⟨_, _, _, hsql, hrun, (Outcome.withinLimit.inj houtcome).symm⟩
    | _ => cases houtcome
  of_capped existing bound houtcome := by
    cases h with
    | capped hsql hrun hhigh =>
        obtain ⟨rfl, rfl⟩ := Outcome.capped.inj houtcome
        exact ⟨rfl, hhigh, _, _, _, hsql, hrun, rfl, String.toList_ofList⟩
    | _ => cases houtcome
  of_inserted bound houtcome := by
    cases h with
    | inserted hsql hne => exact (Outcome.inserted.inj houtcome).symm
    | _ => cases houtcome
  of_paginated start bound houtcome := by
    cases h with
    | paginated hsql hne hoffset =>
        obtain ⟨rfl, rfl⟩ := Outcome.paginated.inj houtcome
        cases hrequest : request.offset with
        | none => simp [hrequest] at hoffset
        | some start => exact ⟨rfl, rfl, by simpa [hrequest] using hoffset⟩
    | _ => cases houtcome
  differs_iff := by
    rw [← h.text_ne_iff, Ne, Ne, ← String.toList_inj, String.toList_ofList]

theorem RowBounds.clamp_pos (bounds : RowBounds) (requested : Option Nat) : 1 ≤ bounds.clamp requested :=
  Nat.le_min.mpr ⟨Nat.le_max_left _ _, Nat.le_max_left _ _⟩

theorem RowBounds.clamp_le {bounds : RowBounds} (h : bounds.validate = .ok ()) (requested : Option Nat) :
    bounds.clamp requested ≤ bounds.ceiling := by
  refine (Nat.min_le_right _ _).trans (Nat.max_le.mpr ⟨?_, le_rfl⟩)
  exact (validate_eq_ok_iff.mp h).1

theorem Gate.validate_bounds (gate : Gate) : gate.settings.bounds.validate = .ok () :=
  (Settings.validate_eq_ok_iff.mp gate.valid).1

/-- Every request is given at least one row and at most the ceiling. Where the statement is limited, the outcome
tells the truth about the statement that is left, and elsewhere that is the statement of the request. -/
theorem Gate.truthful_evaluate (gate : Gate) (request : Request) (timing : Timing) :
    1 ≤ gate.settings.bounds.clamp request.maxRows ∧
      gate.settings.bounds.clamp request.maxRows ≤ gate.settings.bounds.ceiling ∧
      (∀ outcome, (gate.evaluate request timing).outcome = some outcome →
        Truthful request (gate.settings.bounds.clamp request.maxRows) (gate.evaluate request timing).statement
          outcome) ∧
      ((gate.evaluate request timing).outcome = none → (gate.evaluate request timing).statement = request.sql) := by
  refine ⟨RowBounds.clamp_pos _ _, RowBounds.clamp_le gate.validate_bounds _, ?_⟩
  rcases gate.evaluate_cases request timing with ⟨limited, rfl, hstatement, houtcome⟩ | ⟨hstatement, houtcome⟩
  · rw [hstatement, houtcome]
    constructor
    · intro outcome hsame
      rw [← Option.some.inj hsame]
      exact (Limiter.reported_apply _ _ _ _ _).truthful
    · intro hnone
      cases hnone
  · rw [hstatement, houtcome]
    constructor
    · intro outcome hsame
      cases hsame
    · intro _
      rfl

end SqlGate
