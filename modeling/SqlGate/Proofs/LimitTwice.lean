import SqlGate.Proofs.Recapped
import SqlGate.Proofs.RereadSlots
import SqlGate.Proofs.SplicedHazards

/-! Limiting a statement twice comes to limiting it once to the smaller number. What the first pass has
written is the slot that the second pass finds, at the same place whatever the number is, so the second pass
lowers that number or leaves it. -/

namespace SqlGate

open Unicode

theorem WrittenCount.value_after (front : List Char) {count : Nat} (h : count ≤ maxCount) :
    (WrittenCount.after front (Nat.toDigits 10 count)).value = count := by
  rw [after, ofDigits, readCount_decimal h]
  rfl

namespace Site

variable {sql lead tail : List Char} {left right : List Lexeme}

theorem numbered (h : Site sql left [] right) (haround : Around lead tail) (limit : Nat) :
    Site (joined left (lead ++ (Nat.toDigits 10 limit ++ tail)) right) (left ++ lead.map Lexeme.code)
      (Nat.toDigits 10 limit) (tail.map Lexeme.code ++ right) where
  lexemes_eq := by
    rw [h.lexemes_joined (haround.all_numbered limit) (by simp)]
    simp
  settled piece hlast := by
    obtain ⟨front, rfl⟩ := List.getLast?_eq_some_iff.mp haround.last
    rw [List.map_append, ← List.append_assoc] at hlast
    obtain rfl : Lexeme.code ' ' = piece := by
      rw [List.map_singleton, List.getLast?_concat] at hlast
      exact Option.some.inj hlast
    rfl
  all_word _ hc := isWord_of_isDigit (isDigit_of_mem_decimal hc)

theorem joined_numbered (left right : List Lexeme) (lead tail : List Char) (limit : Nat) :
    joined (left ++ lead.map Lexeme.code) (Nat.toDigits 10 limit) (tail.map Lexeme.code ++ right) =
      joined left (lead ++ (Nat.toDigits 10 limit ++ tail)) right := by
  simp [joined]

theorem recounted {digits : List Char} (h : Site sql left digits right) (limit : Nat) :
    Site (joined left (Nat.toDigits 10 limit) right) left (Nat.toDigits 10 limit) right where
  lexemes_eq := h.lexemes_joined (fun _ hc => isClauseChar_of_mem_decimal hc) Nat.toDigits_ne_nil
  settled := h.settled
  all_word _ hc := isWord_of_isDigit (isDigit_of_mem_decimal hc)

end Site

namespace Limiter

variable {limiter : Limiter} {timing : Timing} {sql front digits rest lead tail : List Char} {main : Cursor}
  {offset : Nat} {left right : List Lexeme} {count : WrittenCount}

/-- The statement with the count of its slot lowered to the limit. -/
theorem limit_written (haccepts : limiter.Accepts timing sql main)
    (hslot : SlotAt sql main offset limiter.database.usesTop (.written count)) (hcount : count = .after front digits)
    (hsite : Site sql left digits right) (hfront : left.flatMap Lexeme.blanked = front) (limit : Nat) :
    limiter.limit sql ⟨limit, offset⟩ timing =
      .ok (if count.value ≤ limit then ⟨sql, .withinLimit count.value⟩
        else ⟨joined left (Nat.toDigits 10 limit) right, .capped count.value limit⟩) := by
  refine limit_eq_ok_iff.mpr ⟨main, _, haccepts, hslot, ?_⟩
  rw [Slot.plan, Plan.cap]
  split
  · rfl
  · have hedit : Edit.appliedTo? ⟨count.start, count.stop, (toString limit).toList⟩ sql =
        some (joined left (toString limit).toList right) := by
      refine hsite.appliedTo? ?_ ?_
      · rw [hcount, hfront]
        rfl
      · rw [hcount]
        exact byteLength_append front digits
    rw [Plan.apply]
    dsimp only
    rw [hedit, toList_toString]

/-- The statement with a new clause in its slot. -/
theorem limit_clause {place : Nat} {page : Option Nat} (haccepts : limiter.Accepts timing sql main)
    (hslot : SlotAt sql main offset limiter.database.usesTop (.clause place lead tail page))
    (hsite : Site sql left [] right) (hplace : place = byteLength (left.flatMap Lexeme.blanked)) (limit : Nat) :
    limiter.limit sql ⟨limit, offset⟩ timing =
      .ok ⟨joined left (lead ++ (Nat.toDigits 10 limit ++ tail)) right, Slot.outcome page limit⟩ := by
  refine limit_eq_ok_iff.mpr ⟨main, _, haccepts, hslot, ?_⟩
  have hedit : Edit.appliedTo? ⟨place, place, lead ++ (Nat.toDigits 10 limit ++ tail)⟩ sql =
      some (joined left (lead ++ (Nat.toDigits 10 limit ++ tail)) right) :=
    hsite.appliedTo? hplace rfl
  rw [Slot.plan, Plan.apply]
  dsimp only
  rw [hedit]

/-- A statement with a count can be limited there to any number, and then has the number in that place. -/
theorem exists_written (haccepts : limiter.Accepts timing sql main)
    (hslot : SlotAt sql main offset limiter.database.usesTop (.written count)) :
    ∃ left digits right, count = .after (left.flatMap Lexeme.blanked) digits ∧ Site sql left digits right ∧
      ∀ limit, byteLength (joined left (Nat.toDigits 10 limit) right) ≤ limiter.maxBytes →
        ∃ again, limiter.Accepts timing (joined left (Nat.toDigits 10 limit) right) again ∧
          SlotAt (joined left (Nat.toDigits 10 limit) right) again offset limiter.database.usesTop
            (.written (.after (left.flatMap Lexeme.blanked) (Nat.toDigits 10 limit))) := by
  obtain ⟨front, digits, rest, hin⟩ := hslot.exists_countIn haccepts.mainSelect?_eq
  obtain ⟨left, right, hsite, hleft, rfl⟩ := hin.site
  obtain ⟨before, gap, rfl, hne, rfl⟩ := hin.behind
  refine ⟨left, digits, right, by rw [hleft]; exact hin.countAt.count_eq, hsite, fun limit hsize => ?_⟩
  have hclause : ∀ c ∈ Nat.toDigits 10 limit, isClauseChar c = true := fun _ hc => isClauseChar_of_mem_decimal hc
  have hrecount := hin.countAt.recount limit
  have hsql := hin.countAt.eq_append
  have hagain := hsite.outline_joined hclause Nat.toDigits_ne_nil
  rw [hleft] at hagain ⊢
  rw [hin.countAt.count_eq] at hslot
  refine ⟨_, ⟨hsize, ?_, haccepts.inTime, hrecount.mainSelect? hsql hagain hne haccepts.mainSelect?_eq⟩,
    hrecount.slotAt hsql hagain hslot⟩
  refine hsite.hazardFor?_eq_none hclause Nat.toDigits_ne_nil (Or.inr ?_) haccepts.hazardFor?_eq_none
  rw [hleft]
  exact hin.countAt.edge

end Limiter

/-- Whether a query without a limit of its own selects from the word `PERCENT` on. A new `TOP` in front of
that word would be read as a share of the rows. -/
def Outline.listsPercent (outline : Outline) : Bool :=
  match outline.mainSelect? with
  | none => false
  | some main =>
    (outline.findTopLevel? main.offset (·.anyWord? pagingWords)).isNone && main.topForm?.isNone &&
      (main.selectHead?.bind fun after => after.blanks?.bind (·.word? "PERCENT".toList)).isSome

namespace Limiter

variable {limiter : Limiter} {sql lead tail : List Char} {main : Cursor} {place offset : Nat} {page : Option Nat}
  {count : WrittenCount}

/-- A statement with a slot for a clause can be limited there to any number, and then has that number for the
count of its slot. -/
theorem exists_clause (haccepts : limiter.Accepts timing sql main)
    (hslot : SlotAt sql main offset limiter.database.usesTop (.clause place lead tail page)) :
    ∃ left right, Around lead tail ∧ Site sql left [] right ∧ place = byteLength (left.flatMap Lexeme.blanked) ∧
      (openAfter 0 (Outline.of sql).text = 0 →
        ¬(limiter.database.usesTop = true ∧ (Outline.of sql).listsPercent = true) →
        ∀ limit, byteLength (joined left (lead ++ (Nat.toDigits 10 limit ++ tail)) right) ≤ limiter.maxBytes →
          ∃ again, limiter.Accepts timing (joined left (lead ++ (Nat.toDigits 10 limit ++ tail)) right) again ∧
            SlotAt (joined left (lead ++ (Nat.toDigits 10 limit ++ tail)) right) again offset
              limiter.database.usesTop
              (.written (.after (left.flatMap Lexeme.blanked ++ lead) (Nat.toDigits 10 limit)))) := by
  obtain ⟨front, rest, hgap⟩ := hslot.exists_gapAt haccepts.mainSelect?_eq
  obtain ⟨left, right, hsite, hleft, rfl⟩ := hgap.site
  obtain ⟨before, gap, rfl, hne, rfl⟩ := hgap.behind
  refine ⟨left, right, hgap.around, hsite, by rw [hleft]; exact hgap.place_eq, fun hclosed hform limit hsize => ?_⟩
  have hinsertion := hgap.insertion limit
  have hagain := hsite.outline_joined hinsertion.all_clause hinsertion.ne_nil
  rw [hleft] at hagain ⊢
  refine ⟨_, ⟨hsize, ?_, haccepts.inTime,
    hinsertion.mainSelect? hgap.eq_append hagain hne haccepts.mainSelect?_eq⟩,
    hslot.reread haccepts.mainSelect?_eq hgap (hgap.closed hclosed) hagain fun after htop hhead hpaging hnone => ?_⟩
  · exact hsite.hazardFor?_eq_none hinsertion.all_clause hinsertion.ne_nil (Or.inl hinsertion.space_mem)
      haccepts.hazardFor?_eq_none
  · by_contra hsome
    refine hform ⟨htop, ?_⟩
    obtain ⟨found, hfound⟩ := Option.ne_none_iff_exists'.mp hsome
    have hsearch : (Outline.of sql).findTopLevel?
        (Cursor.between before (gap ++ right.flatMap Lexeme.blanked)).offset (·.anyWord? pagingWords) = none := hpaging
    simp only [Outline.listsPercent, haccepts.mainSelect?_eq, hsearch, hnone, hhead, Option.bind_some, hfound]
    rfl

theorem run_of_not_slotAt
    (h : ¬∃ main slot, limiter.Accepts timing sql main ∧ SlotAt sql main offset limiter.database.usesTop slot)
    (limit : Nat) : (limiter.run sql ⟨limit, offset⟩ timing).text = sql ∧
      (limiter.run sql ⟨limit, offset⟩ timing).outcome.effectiveLimit? = none := by
  rw [Limiter.run]
  cases hlimit : limiter.limit sql ⟨limit, offset⟩ timing with
  | error obstacle => exact ⟨rfl, rfl⟩
  | ok limited =>
      obtain ⟨main, slot, haccepts, hslot, -⟩ := limit_eq_ok_iff.mp hlimit
      exact absurd ⟨main, slot, haccepts, hslot⟩ h

/-- Where a pass has left a number, a second pass lowers it or leaves it. -/
theorem run_numbered {first : Nat} (second : Nat) {left right : List Lexeme} {front : List Char}
    (hfirst : first ≤ maxCount) (haccepts : limiter.Accepts timing sql main)
    (hslot : SlotAt sql main offset limiter.database.usesTop (.written (.after front (Nat.toDigits 10 first))))
    (hsite : Site sql left (Nat.toDigits 10 first) right) (hfront : left.flatMap Lexeme.blanked = front) :
    (limiter.run sql ⟨second, offset⟩ timing).text = joined left (Nat.toDigits 10 (min first second)) right ∧
      (limiter.run sql ⟨second, offset⟩ timing).outcome.effectiveLimit? = some (min first second) := by
  rw [Limiter.run, limit_written haccepts hslot rfl hsite hfront, WrittenCount.value_after front hfirst]
  by_cases hle : first ≤ second
  · rw [if_pos hle, Nat.min_eq_left hle]
    exact ⟨hsite.eq_joined, rfl⟩
  · rw [if_neg hle, Nat.min_eq_right (Nat.le_of_not_le hle)]
    exact ⟨rfl, rfl⟩

/-- Two passes over a statement come to one pass with the smaller number: they leave the same text, and the second
one knows how many rows are left where the first one does. -/
structure ComesToOnePass (limiter : Limiter) (timing : Timing) (sql : List Char) (offset first second : Nat) :
    Prop where
  text_eq : (limiter.run (limiter.run sql ⟨first, offset⟩ timing).text ⟨second, offset⟩ timing).text =
    (limiter.run sql ⟨min first second, offset⟩ timing).text
  effectiveLimit?_eq : ∀ rows, (limiter.run sql ⟨first, offset⟩ timing).outcome.effectiveLimit? = some rows →
    (limiter.run (limiter.run sql ⟨first, offset⟩ timing).text ⟨second, offset⟩ timing).outcome.effectiveLimit? =
      some (min rows second)

section Passes

variable {first second : Nat}

theorem comesToOnePass_of_written (hfirst : first ≤ maxCount) (haccepts : limiter.Accepts timing sql main)
    (hslot : SlotAt sql main offset limiter.database.usesTop (.written count))
    (hsize : byteLength (limiter.run sql ⟨first, offset⟩ timing).text ≤ limiter.maxBytes) :
    limiter.ComesToOnePass timing sql offset first second := by
  obtain ⟨left, digits, right, hcount, hsite, hagain⟩ := exists_written haccepts hslot
  have hrun : ∀ limit, limiter.run sql ⟨limit, offset⟩ timing =
      if count.value ≤ limit then ⟨sql, .withinLimit count.value⟩
      else ⟨joined left (Nat.toDigits 10 limit) right, .capped count.value limit⟩ := by
    intro limit
    rw [Limiter.run, limit_written haccepts hslot hcount hsite rfl]
  by_cases hlow : count.value ≤ first
  · -- The first pass leaves the count, so the second one does what it would do alone.
    have hkeep : limiter.run sql ⟨first, offset⟩ timing = ⟨sql, .withinLimit count.value⟩ := by rw [hrun, if_pos hlow]
    by_cases hle : count.value ≤ second
    · constructor
      · rw [hkeep, hrun second, if_pos hle, hrun (min first second), if_pos (Nat.le_min.mpr ⟨hlow, hle⟩)]
      · intro rows hrows
        rw [hkeep] at hrows ⊢
        obtain rfl := Option.some.inj hrows
        rw [hrun second, if_pos hle]
        exact congrArg some (Nat.min_eq_left hle).symm
    · constructor
      · rw [hkeep, Nat.min_eq_right (by omega)]
      · intro rows hrows
        rw [hkeep] at hrows ⊢
        obtain rfl := Option.some.inj hrows
        rw [hrun second, if_neg hle]
        exact congrArg some (Nat.min_eq_right (Nat.le_of_not_le hle)).symm
  · have hlowered : limiter.run sql ⟨first, offset⟩ timing =
        ⟨joined left (Nat.toDigits 10 first) right, .capped count.value first⟩ := by rw [hrun, if_neg hlow]
    rw [hlowered] at hsize
    obtain ⟨again, hacceptsAgain, hslotAgain⟩ := hagain first hsize
    obtain ⟨htext, heffective⟩ := run_numbered second hfirst hacceptsAgain hslotAgain (hsite.recounted first) rfl
    have hmin : ¬count.value ≤ min first second := fun hle => hlow (Nat.le_trans hle (Nat.min_le_left _ _))
    constructor
    · rw [hlowered, htext, hrun (min first second), if_neg hmin]
    · intro rows hrows
      rw [hlowered] at hrows ⊢
      obtain rfl := Option.some.inj hrows
      exact heffective

theorem comesToOnePass_of_clause (hfirst : first ≤ maxCount) (haccepts : limiter.Accepts timing sql main)
    (hslot : SlotAt sql main offset limiter.database.usesTop (.clause place lead tail page))
    (hclosed : openAfter 0 (Outline.of sql).text = 0)
    (hform : ¬(limiter.database.usesTop = true ∧ (Outline.of sql).listsPercent = true))
    (hsize : byteLength (limiter.run sql ⟨first, offset⟩ timing).text ≤ limiter.maxBytes) :
    limiter.ComesToOnePass timing sql offset first second := by
  obtain ⟨left, right, haround, hsite, hplace, hagain⟩ := exists_clause haccepts hslot
  have hrun : ∀ limit, limiter.run sql ⟨limit, offset⟩ timing =
      ⟨joined left (lead ++ (Nat.toDigits 10 limit ++ tail)) right, Slot.outcome page limit⟩ := by
    intro limit
    rw [Limiter.run, limit_clause haccepts hslot hsite hplace]
  rw [hrun first] at hsize
  obtain ⟨again, hacceptsAgain, hslotAgain⟩ := hagain hclosed hform first hsize
  have hfront : (left ++ lead.map Lexeme.code).flatMap Lexeme.blanked = left.flatMap Lexeme.blanked ++ lead := by
    rw [List.flatMap_append, Lexeme.flatMap_blanked_code]
  obtain ⟨htext, heffective⟩ :=
    run_numbered second hfirst hacceptsAgain hslotAgain (hsite.numbered haround first) hfront
  constructor
  · rw [hrun first, htext, hrun (min first second)]
    exact Site.joined_numbered left right lead tail _
  · intro rows hrows
    rw [hrun first] at hrows ⊢
    obtain rfl : first = rows := by
      cases page with
      | none => exact Option.some.inj hrows
      | some page => exact Option.some.inj hrows
    exact heffective

theorem comesToOnePass_of_not_slotAt
    (h : ¬∃ main slot, limiter.Accepts timing sql main ∧ SlotAt sql main offset limiter.database.usesTop slot) :
    limiter.ComesToOnePass timing sql offset first second := by
  obtain ⟨htext, heffective⟩ := run_of_not_slotAt h first
  constructor
  · rw [htext, (run_of_not_slotAt h second).1, (run_of_not_slotAt h (min first second)).1]
  · intro rows hrows
    rw [heffective] at hrows
    cases hrows

theorem comesToOnePass (hfirst : first ≤ maxCount) (hclosed : openAfter 0 (Outline.of sql).text = 0)
    (hform : ¬(limiter.database.usesTop = true ∧ (Outline.of sql).listsPercent = true))
    (hsize : byteLength (limiter.run sql ⟨first, offset⟩ timing).text ≤ limiter.maxBytes) :
    limiter.ComesToOnePass timing sql offset first second := by
  by_cases hsome : ∃ main slot, limiter.Accepts timing sql main ∧ SlotAt sql main offset limiter.database.usesTop slot
  · obtain ⟨main, slot, haccepts, hslot⟩ := hsome
    cases slot with
    | written count => exact comesToOnePass_of_written hfirst haccepts hslot hsize
    | clause place lead tail page => exact comesToOnePass_of_clause hfirst haccepts hslot hclosed hform hsize
  · exact comesToOnePass_of_not_slotAt hsome

end Passes

end Limiter

/-- Limiting a read to one number of rows and then to another gives the same text as limiting it to the smaller
of the two, and where the first pass knows how many rows are left, the second knows it too. The exception is a
query of SQL Server without a limit that selects from the word `PERCENT` on. -/
theorem limitRows_limitRows {database : Database} {sql : List Char} {first second : Nat} {offset : Option Nat}
    {timing again once : Timing} (hfirst : 1 ≤ first) (hsecond : 1 ≤ second) (hmax : first ≤ maxCount)
    (htime : timing.InTime (Limiter.usual database).budget) (hagain : again.InTime (Limiter.usual database).budget)
    (honce : once.InTime (Limiter.usual database).budget) (hclosed : openAfter 0 (Outline.of sql).text = 0)
    (hsize : byteLength (limitRows .readOnly database first offset sql timing).text ≤
      (Limiter.usual database).maxBytes)
    (hform : ¬(database.usesTop = true ∧ (Outline.of sql).listsPercent = true)) :
    (limitRows .readOnly database second offset (limitRows .readOnly database first offset sql timing).text
        again).text = (limitRows .readOnly database (min first second) offset sql once).text ∧
      ∀ rows, (limitRows .readOnly database first offset sql timing).outcome.effectiveLimit? = some rows →
        (limitRows .readOnly database second offset (limitRows .readOnly database first offset sql timing).text
          again).outcome.effectiveLimit? = some (min rows second) := by
  -- Passes in time come to the same, so all of them may share the clock of the first.
  have hrows : ∀ {limit : Nat} {any : Timing} (text : List Char), 1 ≤ limit →
      any.InTime (Limiter.usual database).budget → limitRows .readOnly database limit offset text any =
        (Limiter.usual database).run text ⟨limit, offset.getD 0⟩ timing := by
    intro limit any text hlimit hany
    rw [limitRows, Limiter.apply_of_agrees (hany.agrees htime), Limiter.apply, if_pos rfl, Nat.max_eq_right hlimit]
  rw [hrows sql hfirst htime] at hsize ⊢
  rw [hrows _ hsecond hagain, hrows sql (Nat.le_min.mpr ⟨hfirst, hsecond⟩) honce]
  have hpasses : (Limiter.usual database).ComesToOnePass timing sql (offset.getD 0) first second :=
    Limiter.comesToOnePass hmax hclosed hform hsize
  exact ⟨hpasses.text_eq, hpasses.effectiveLimit?_eq⟩

/-- In front of a hint and a comment, for a page of ten rows and then of five. -/
theorem limitRows_limitRows_page :
    (limitRows .readOnly .sqlServer 5 (some 20)
      (limitRows .readOnly .sqlServer 10 (some 20)
        "SELECT a FROM t WHERE b IN (1, 2) OPTION (RECOMPILE) -- all".toList).text).text =
      ("SELECT a FROM t WHERE b IN (1, 2) ORDER BY (SELECT NULL) OFFSET 20 ROWS FETCH NEXT 5 ROWS ONLY " ++
        "OPTION (RECOMPILE) -- all").toList := by
  have htwice := (@limitRows_limitRows .sqlServer "SELECT a FROM t WHERE b IN (1, 2) OPTION (RECOMPILE) -- all".toList
    10 5 (some 20) .atOnce .atOnce .atOnce (by decide) (by decide) (by decide) (by decide) (by decide) (by decide)
    (by decide +kernel) (by decide +kernel) (by decide +kernel)).1
  rw [htwice]
  decide +kernel

end SqlGate
