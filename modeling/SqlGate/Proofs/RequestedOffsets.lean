import SqlGate.Proofs.Decisions
import SqlGate.Proofs.OneLimit
import SqlGate.Proofs.ReportedLimits
import SqlGate.Proofs.WholeResult

/-! What becomes of an offset that is asked for. The limiter writes it into a query that neither pages nor limits its
rows itself, and looks for clauses outside all parentheses and quoted spans. The remark that the offset was not written
goes by the word `OFFSET` anywhere in the normal form, so a word that stands in a quoted span or in an inner query
silences it. -/

namespace SqlGate

open Unicode

namespace Cursor

variable {front rest : List Char}

theorem topPhrase_of_topForm? {form : TopForm} (hselect : ((between front rest).word? "SELECT".toList).isSome)
    (h : (between front rest).topForm? = some form) : TopPhrase (front ++ rest) front := by
  have htop : isKeyword "TOP".toList = true := by decide
  obtain ⟨first, hletters, h⟩ := Option.bind_eq_some_iff.mp h
  obtain ⟨second, hblanks, h⟩ := Option.bind_eq_some_iff.mp h
  obtain ⟨last, hlast, -⟩ := Option.bind_eq_some_iff.mp h
  obtain ⟨word, later, rfl, hword, rfl⟩ := letters?_eq_some_iff.mp hletters
  obtain ⟨gap, tail, rfl, hne, hgap, -, rfl⟩ := blanks?_eq_some_iff.mp hblanks
  have hat : WordAt (front ++ (word ++ (gap ++ tail))) front word (gap ++ tail) :=
    ⟨rfl, hword.ne_nil (by decide), hword.isWord_of_mem (by decide),
      opens_of_phrase ((isSome_word?_iff (by decide)).mp hselect), isWord_of_head_blanks tail hne hgap⟩
  have hread : ∀ {place rest : List Char}, place ++ rest = front ++ (word ++ (gap ++ tail)) →
      (between place rest).word? "TOP".toList = some last →
        PhraseAt (front ++ (word ++ (gap ++ tail))) [Spelled "TOP".toList] place := by
    intro place rest htext hread
    rw [← htext]
    exact (isSome_word?_iff htop).mp (Option.isSome_of_mem hread)
  have hplace : front ++ word ++ gap = front ++ (word ++ gap) := List.append_assoc ..
  have hplain : (between (front ++ word ++ gap) tail).word? "TOP".toList = some last →
      TopPhrase (front ++ (word ++ (gap ++ tail))) front := by
    intro hlast
    have hphrase := hread (by simp) hlast
    rw [hplace] at hphrase
    exact Or.inl (.words hat hword hne hgap hphrase)
  cases hquantifier : (between (front ++ word ++ gap) tail).setQuantifier? with
  | none =>
      rw [hquantifier] at hlast
      exact hplain hlast
  | some quantifier =>
      rw [hquantifier, Option.bind_some] at hlast
      cases hspace : quantifier.blanks? with
      | none =>
          rw [hspace] at hlast
          exact hplain hlast
      | some third =>
          rw [hspace] at hlast
          have hkeys : ∀ keyword ∈ ["DISTINCT".toList, "ALL".toList], isKeyword keyword = true := by decide
          obtain ⟨keyword, hmem, hset⟩ := (anyWord?_eq_some_iff hkeys).mp hquantifier
          obtain ⟨middle, after, hatMiddle, hmiddle, rfl⟩ := (word?_eq_some_iff (hkeys keyword hmem)).mp hset
          obtain rfl := List.append_cancel_left hatMiddle.eq_append
          obtain ⟨space, tail, rfl, hneSpace, hblank, -, rfl⟩ := blanks?_eq_some_iff.mp hspace
          have hphrase := hread (by simp) hlast
          have htext : front ++ word ++ gap ++ (middle ++ (space ++ tail)) =
              front ++ (word ++ (gap ++ (middle ++ (space ++ tail)))) := by simp
          rw [htext, hplace] at hatMiddle
          rw [List.append_assoc (front ++ word ++ gap), hplace] at hphrase
          exact Or.inr (.words hat hword hne hgap (.words hatMiddle ⟨keyword, hmem, hmiddle⟩ hneSpace hblank hphrase))

end Cursor

namespace Outline

variable {sql : List Char} {main : Cursor}

theorem writesOffset_eq_false (hpages : (of sql).pages = false) (top : Bool) : (of sql).writesOffset top = false := by
  unfold writesOffset
  cases hmain : (of sql).mainSelect? with
  | none => rfl
  | some main =>
      rw [pages_eq_false_iff hmain] at hpages
      obtain ⟨-, hrows, hbare⟩ := paging_eq_none hpages
      dsimp only
      rw [hrows, hbare, Option.isSome_none, ite_self]

theorem topForm?_eq_none (hmain : (of sql).mainSelect? = some main) (hnone : ∀ front, ¬MainLimitAt sql true front) :
    main.topForm? = none := by
  by_contra hform
  obtain ⟨form, hform⟩ := Option.ne_none_iff_exists'.mp hform
  obtain ⟨front, rest, hcut, hphrase, rfl, -⟩ := mainSelect?_eq_some_iff.mp hmain
  rw [hcut.eq_append] at hphrase
  have htop := Cursor.topPhrase_of_topForm? ((Cursor.isSome_word?_iff (by decide)).mpr hphrase) hform
  rw [← hcut.eq_append] at htop
  exact hnone front ⟨.top hmain htop, rest, hcut.eq_append, hcut.depth_eq_zero⟩

theorem findTopLevel?_limitWords_eq_none (hmain : (of sql).mainSelect? = some main) (hpages : (of sql).pages = false)
    (hnone : ∀ front, ¬MainLimitAt sql false front) :
    (of sql).findTopLevel? main.offset (·.anyWord? limitWords) = none := by
  have hkeys : ∀ keyword ∈ limitWords, isKeyword keyword = true := by decide
  rw [pages_eq_false_iff hmain, findTopLevel?_eq_none_iff] at hpages
  rw [findTopLevel?_eq_none_iff]
  intro front rest hcut
  by_contra hfound
  obtain ⟨after, hafter⟩ := Option.ne_none_iff_exists'.mp hfound
  obtain ⟨keyword, hmem, hread⟩ := (Cursor.anyWord?_eq_some_iff hkeys).mp hafter
  have hcases : ∀ keyword ∈ limitWords, keyword ∈ pagingWords ∨ keyword ∈ limitingWords false := by decide
  rcases hcases keyword hmem with hpaging | hlimiting
  · exact Cursor.isSome_anyWord?_of_word? hpaging hread (hpages front rest hcut)
  · obtain ⟨word, later, hat, hspelled, -⟩ := (Cursor.word?_eq_some_iff (hkeys keyword hmem)).mp hread
    rw [← hcut.eq_append] at hat
    exact hnone front
      ⟨.word hmain hcut.start_le (.word hat ⟨keyword, hlimiting, hspelled⟩), rest, hcut.eq_append, hcut.depth_eq_zero⟩

end Outline

theorem SlotAt.exists_page {sql : List Char} {main : Cursor} {offset : Nat} {top : Bool} (hpos : 0 < offset)
    (hmain : (Outline.of sql).mainSelect? = some main) (hpages : (Outline.of sql).pages = false)
    (hnone : ∀ front, ¬MainLimitAt sql top front) :
    ∃ place lead tail, SlotAt sql main offset top (.clause place lead tail (some offset)) := by
  have hend : ∀ {lead tail : List Char}, SlotAt sql main offset top (.atEnd (.of sql) main lead tail (some offset)) →
      ∃ place lead tail, SlotAt sql main offset top (.clause place lead tail (some offset)) := by
    intro lead tail hslot
    unfold Slot.atEnd at hslot
    split at hslot
    · exact ⟨_, _, _, hslot⟩
    · exact ⟨_, _, _, hslot⟩
  cases top with
  | true =>
      exact hend (.page ((Outline.pages_eq_false_iff hmain).mp hpages) (Outline.topForm?_eq_none hmain hnone) hpos)
  | false => exact hend (.pageLimit (Outline.findTopLevel?_limitWords_eq_none hmain hpages hnone) hpos)

namespace Limiter

variable {limiter : Limiter} {timing : Timing} {sql : List Char} {limit offset : Nat}

theorem outcome_of_clause {main : Cursor} {place : Nat} {lead tail : List Char} {page : Option Nat}
    (haccepts : limiter.Accepts timing sql main)
    (hslot : SlotAt sql main offset limiter.database.usesTop (.clause place lead tail page)) (limit : Nat) :
    (limiter.apply .readOnly sql ⟨limit, offset⟩ timing).outcome = Slot.outcome page limit := by
  obtain ⟨front, rest, hgap⟩ := hslot.exists_gapAt haccepts.mainSelect?_eq
  obtain ⟨left, right, hsite, hleft, -⟩ := hgap.site
  rw [apply, if_pos rfl, run, limit_clause haccepts hslot hsite (by rw [hleft]; exact hgap.place_eq)]

/-- An offset is written into a query that does not page exactly where the limiter looks at it and nothing limits its
rows. -/
theorem outcome_eq_paginated_iff (hpos : 0 < offset) (hpages : (Outline.of sql).pages = false) :
    (∃ bound, (limiter.apply .readOnly sql ⟨limit, offset⟩ timing).outcome = .paginated offset bound) ↔
      (∃ main, limiter.Accepts timing sql main) ∧ ∀ front, ¬MainLimitAt sql limiter.database.usesTop front := by
  constructor
  · rintro ⟨bound, hpaginated⟩
    obtain ⟨main, place, lead, tail, page, haccepts, hslot, -⟩ := exists_clause_of_outcome (Or.inr hpaginated)
    refine ⟨⟨main, haccepts⟩, fun front => hslot.not_mainLimitAt haccepts.mainSelect?_eq fun hwrites => ?_⟩
    rw [Outline.writesOffset_eq_false hpages] at hwrites
    cases hwrites
  · rintro ⟨⟨main, haccepts⟩, hnone⟩
    obtain ⟨place, lead, tail, hslot⟩ := SlotAt.exists_page hpos haccepts.mainSelect?_eq hpages hnone
    exact ⟨limit, outcome_of_clause haccepts hslot limit⟩

end Limiter

theorem Advisory.onRows_of_isReadOnly {classification : Classification} (h : classification.isReadOnly = true)
    (text : List Char) : onRows text classification = [] := by
  obtain ⟨category, operation⟩ := classification
  obtain rfl : category = .readOnly := by simpa [Classification.isReadOnly] using h
  rfl

/-- The remark on an offset goes by the words of the normal form. -/
theorem manualPagination_mem_advise_iff {sql : List Char} {classification : Classification} {offset : Nat}
    (hread : classification.isReadOnly = true) (hpos : 0 < offset) :
    .manualPagination offset ∈ advise sql classification (some offset) ↔
      ¬∃ word ∈ runs isWord (normalForm sql), Spelled "OFFSET".toList word := by
  rw [← hasWord_iff (by decide), advise, if_pos hread, Advisory.onRows_of_isReadOnly hread, List.append_nil,
    Advisory.onResult]
  split
  · simp [hpos]
  · simp [hpos]

namespace Gate

variable {gate : Gate} {request : Request} {timing : Timing} {offset : Nat}

/-- An offset that is asked for is not dropped in silence: it is written into the statement, or remarked on, or the
statement pages through its rows itself. -/
def KeepsOffset (gate : Gate) (request : Request) (offset : Nat) (timing : Timing := .atOnce) : Prop :=
  (∃ limit, (gate.evaluate request timing).outcome = some (.paginated offset limit)) ∨
    .manualPagination offset ∈ (gate.evaluate request timing).advisories ∨ (Outline.of request.sql.toList).pages = true

theorem outcome_of_readOnly (hread : (gate.evaluate request timing).classification.category = .readOnly) :
    (gate.evaluate request timing).outcome =
      some (gate.settings.limiter.apply .readOnly request.sql.toList (gate.window request) timing).outcome := by
  change (gate.verdict request).classification.category = .readOnly at hread
  have hisRead : (gate.verdict request).classification.isReadOnly = true := by
    simpa [Classification.isReadOnly] using hread
  have hallowed : (gate.judge request (gate.verdict request).classification).isAllowed = true := by
    rw [judge, authorize_of_isReadOnly hisRead]
    rfl
  change (gate.limited? request (gate.verdict request).classification timing).map (·.outcome) = _
  rw [limited?, hallowed, hisRead, hread]
  rfl

/-- Where an offset is asked for a read it is kept, exactly unless the word `OFFSET` stands in the normal form and pages
through no row of the main query, and the limiter passes over the statement or finds a limit in it. -/
theorem keepsOffset_iff (hread : (gate.evaluate request timing).classification.category = .readOnly)
    (hoffset : request.offset = some offset) (hpos : 0 < offset) :
    gate.KeepsOffset request offset timing ↔
      ¬((∃ word ∈ runs isWord (normalForm request.sql.toList), Spelled "OFFSET".toList word) ∧
        (Outline.of request.sql.toList).pages = false ∧
        ((∀ main, ¬gate.settings.limiter.Accepts timing request.sql.toList main) ∨
          ∃ front, MainLimitAt request.sql.toList gate.settings.database.usesTop front)) := by
  have hadvised : .manualPagination offset ∈ (gate.evaluate request timing).advisories ↔
      ¬∃ word ∈ runs isWord (normalForm request.sql.toList), Spelled "OFFSET".toList word := by
    change .manualPagination offset ∈
      advise request.sql.toList (gate.evaluate request timing).classification request.offset ↔ _
    rw [hoffset]
    exact manualPagination_mem_advise_iff (by simpa [Classification.isReadOnly] using hread) hpos
  unfold KeepsOffset
  rw [hadvised]
  cases hpages : (Outline.of request.sql.toList).pages with
  | true => simp
  | false =>
      have hwritten := @Limiter.outcome_eq_paginated_iff gate.settings.limiter timing request.sql.toList
        (gate.window request).limit offset hpos hpages
      have hwindow : gate.window request = ⟨(gate.window request).limit, offset⟩ := by
        rw [window, hoffset]
        rfl
      rw [← hwindow] at hwritten
      have hpaginated : (∃ limit, (gate.evaluate request timing).outcome = some (.paginated offset limit)) ↔
          ¬((∀ main, ¬gate.settings.limiter.Accepts timing request.sql.toList main) ∨
            ∃ front, MainLimitAt request.sql.toList gate.settings.database.usesTop front) := by
        simp only [outcome_of_readOnly hread, Option.some.injEq]
        rw [not_or, not_forall_not, not_exists]
        exact hwritten
      rw [hpaginated, not_and_or, and_iff_right rfl, or_iff_left Bool.false_ne_true, or_comm]

/-- An offset for a query with a `TOP` of its own is remarked on. -/
theorem keepsOffset_iff_top : ∃ (gate : Gate) (request : Request),
    request.sql = "SELECT TOP 5 note FROM t WHERE note = 'off set'" ∧ request.offset = some 20 ∧
      (gate.evaluate request).classification.category = .readOnly ∧ gate.KeepsOffset request 20 := by
  let gate : Gate := ⟨{}, rfl⟩
  let request : Request := { sql := "SELECT TOP 5 note FROM t WHERE note = 'off set'", offset := some 20 }
  have hread : (gate.evaluate request).classification.category = .readOnly := by decide +kernel
  refine ⟨gate, request, rfl, rfl, hread, (keepsOffset_iff hread rfl (by decide)).mpr ?_⟩
  rintro ⟨hword, -⟩
  rw [← hasWord_iff (by decide)] at hword
  exact absurd hword (by decide +kernel)

/-- A word of a quoted span silences the remark, where a `TOP` keeps the offset from being written. -/
theorem not_keepsOffset_of_quoted : ∃ (gate : Gate) (request : Request),
    request.sql = "SELECT TOP 5 note FROM t WHERE note = 'offset'" ∧ request.offset = some 20 ∧
      (gate.evaluate request).isAllowed = true ∧ (gate.evaluate request).classification.category = .readOnly ∧
      (gate.evaluate request).outcome = some (.withinLimit 5) ∧ (gate.evaluate request).advisories = [] ∧
      ¬gate.KeepsOffset request 20 := by
  let gate : Gate := ⟨{}, rfl⟩
  let request : Request := { sql := "SELECT TOP 5 note FROM t WHERE note = 'offset'", offset := some 20 }
  have houtcome : (gate.evaluate request).outcome = some (.withinLimit 5) := by decide +kernel
  have hadvisories : (gate.evaluate request).advisories = [] := by decide +kernel
  refine ⟨gate, request, rfl, rfl, by decide +kernel, by decide +kernel, houtcome, hadvisories, ?_⟩
  rintro (⟨limit, hpaginated⟩ | hadvised | hpages)
  · rw [houtcome] at hpaginated
    cases hpaginated
  · rw [hadvisories] at hadvised
    cases hadvised
  · exact absurd hpages (by decide +kernel)

end Gate

end SqlGate
