import SqlGate.Proofs.Clauses

/-! Where the limit of a query is written, whatever its number is: in the place of a count, or in a new
clause. `SlotAt` lists the cases with all that the search has found and has not found in each one, and a
statement is limited exactly by way of a slot. -/

namespace SqlGate

/-- The place for a limit: a count that is there, or a clause with the words around the new count. A clause
that comes with an offset names it. -/
inductive Slot where
  | written (count : WrittenCount)
  | clause (place : Nat) (lead tail : List Char) (page : Option Nat)

namespace Slot

/-- What is reported of a new clause. -/
def outcome (page : Option Nat) (limit : Nat) : Outcome :=
  match page with
  | none => .inserted limit
  | some offset => .paginated offset limit

/-- The plan that writes the limit into the slot. -/
def plan (slot : Slot) (limit : Nat) : Plan :=
  match slot with
  | written count => .cap count limit
  | clause place lead tail page =>
    ⟨some ⟨place, place, lead ++ (Nat.toDigits 10 limit ++ tail)⟩, outcome page limit⟩

/-- The slot at the end of the main query, in front of a clause that has to come last. -/
def atEnd (outline : Outline) (main : Cursor) (lead tail : List Char) (page : Option Nat) : Slot :=
  match outline.findTopLevel? main.offset Cursor.trailingClause? with
  | some trailing => clause trailing.offset lead (tail ++ [' ']) page
  | none => clause outline.endOfCode (' ' :: lead) tail page

theorem atEnd_ne_written (outline : Outline) (main : Cursor) (lead tail : List Char) (page : Option Nat)
    (count : WrittenCount) : atEnd outline main lead tail page ≠ written count := by
  rw [atEnd]
  split
  · exact nofun
  · exact nofun

/-- The words in front of the count of a page of SQL Server. -/
def pageLead (outline : Outline) (main : Cursor) (offset : Nat) : List Char :=
  (if (outline.findTopLevel? main.offset Cursor.orderBy?).isSome then [] else "ORDER BY (SELECT NULL) ".toList) ++
    ("OFFSET ".toList ++ (Nat.toDigits 10 offset ++ " ROWS FETCH NEXT ".toList))

theorem pageLead_eq_append (outline : Outline) (main : Cursor) (offset : Nat) :
    ∃ words, (words = "OFFSET ".toList ∨ words = "ORDER BY (SELECT NULL) OFFSET ".toList) ∧
      pageLead outline main offset = words ++ (Nat.toDigits 10 offset ++ " ROWS FETCH NEXT ".toList) := by
  rw [pageLead]
  split
  · exact ⟨_, Or.inl rfl, rfl⟩
  · have hjoined : "ORDER BY (SELECT NULL) ".toList ++ "OFFSET ".toList = "ORDER BY (SELECT NULL) OFFSET ".toList := by
      decide
    refine ⟨_, Or.inr rfl, ?_⟩
    rw [← List.append_assoc, hjoined]

/-- Behind the end of the main query a clause begins with a space, in front of another clause it ends with one. -/
theorem atEnd_cases {outline : Outline} {main : Cursor} {more less lead tail : List Char} {named page : Option Nat}
    {place : Nat} (h : clause place lead tail page = atEnd outline main more less named) :
    (lead = more ∧ tail = less ++ [' ']) ∨ (lead = ' ' :: more ∧ tail = less) := by
  rw [atEnd] at h
  split at h
  · obtain ⟨-, rfl, rfl, -⟩ := clause.inj h
    exact Or.inl ⟨rfl, rfl⟩
  · obtain ⟨-, rfl, rfl, -⟩ := clause.inj h
    exact Or.inr ⟨rfl, rfl⟩

end Slot

/-- The words that page through the rows of SQL Server. -/
def pagingWords : List (List Char) :=
  ["OFFSET".toList, "FETCH".toList]

/-- The words that limit the rows of the other engines or page through them. -/
def limitWords : List (List Char) :=
  ["OFFSET".toList, "FETCH".toList, "LIMIT".toList]

/-- The slot of a query whose rows are to begin after `offset`, for engines with `TOP` and without. -/
inductive SlotAt (sql : List Char) (main : Cursor) (offset : Nat) : Bool → Slot → Prop where
  | fetch {top : Bool} {count : WrittenCount}
      (hcount : (Outline.of sql).findTopLevel? main.offset Cursor.fetchCount? = some count) :
      SlotAt sql main offset top (.written count)
  | offsetRows {after : Cursor}
      (hfetch : (Outline.of sql).findTopLevel? main.offset Cursor.fetchCount? = none)
      (hoffset : (Outline.of sql).findTopLevel? main.offset Cursor.offsetRows? = some after) :
      SlotAt sql main offset true (.clause after.offset " FETCH NEXT ".toList " ROWS ONLY".toList none)
  | top {count : WrittenCount}
      (hpaging : (Outline.of sql).findTopLevel? main.offset (·.anyWord? pagingWords) = none)
      (hcount : main.topForm? = some (.rows count)) : SlotAt sql main offset true (.written count)
  | page (hpaging : (Outline.of sql).findTopLevel? main.offset (·.anyWord? pagingWords) = none)
      (htop : main.topForm? = none) (hoffset : 0 < offset) :
      SlotAt sql main offset true
        (.atEnd (.of sql) main (Slot.pageLead (.of sql) main offset) " ROWS ONLY".toList offset)
  | head {after : Cursor}
      (hpaging : (Outline.of sql).findTopLevel? main.offset (·.anyWord? pagingWords) = none)
      (htop : main.topForm? = none) (hoffset : offset = 0) (hhead : main.selectHead? = some after) :
      SlotAt sql main offset true (.clause after.offset " TOP ".toList [] none)
  | limit {count : WrittenCount}
      (hfetch : (Outline.of sql).findTopLevel? main.offset Cursor.fetchCount? = none)
      (hcount : (Outline.of sql).findTopLevel? main.offset Cursor.limitCount? = some count) :
      SlotAt sql main offset false (.written count)
  | bareOffset {place : Cursor}
      (hfetch : (Outline.of sql).findTopLevel? main.offset Cursor.fetchCount? = none)
      (hlimit : (Outline.of sql).findTopLevel? main.offset Cursor.limitCount? = none)
      (hoffset : (Outline.of sql).findTopLevel? main.offset Cursor.bareOffset? = some place) :
      SlotAt sql main offset false (.clause place.offset "LIMIT ".toList [' '] none)
  | pageLimit (hpaging : (Outline.of sql).findTopLevel? main.offset (·.anyWord? limitWords) = none)
      (hoffset : 0 < offset) :
      SlotAt sql main offset false
        (.atEnd (.of sql) main "LIMIT ".toList (" OFFSET ".toList ++ Nat.toDigits 10 offset) offset)
  | newLimit (hpaging : (Outline.of sql).findTopLevel? main.offset (·.anyWord? limitWords) = none)
      (hoffset : offset = 0) : SlotAt sql main offset false (.atEnd (.of sql) main "LIMIT ".toList [] none)

namespace Cursor

variable {front rest : List Char}

theorem isSome_anyWord?_of_word? {keywords : List (List Char)} {keyword : List Char} (hmem : keyword ∈ keywords)
    {after : Cursor} (h : (between front rest).word? keyword = some after) :
    (between front rest).anyWord? keywords ≠ none := by
  rw [anyWord?, Ne, List.findSome?_eq_none_iff]
  intro hnone
  rw [hnone keyword hmem] at h
  cases h

theorem anyWord?_of_fetchCount? {keywords : List (List Char)} (hmem : "FETCH".toList ∈ keywords)
    {count : WrittenCount} (h : (between front rest).fetchCount? = some count) :
    (between front rest).anyWord? keywords ≠ none := by
  obtain ⟨c, hword, -⟩ := Option.bind_eq_some_iff.mp h
  exact isSome_anyWord?_of_word? hmem hword

theorem anyWord?_of_offsetRows? {keywords : List (List Char)} (hmem : "OFFSET".toList ∈ keywords)
    {after : Cursor} (h : (between front rest).offsetRows? = some after) :
    (between front rest).anyWord? keywords ≠ none := by
  obtain ⟨c, hword, -⟩ := Option.bind_eq_some_iff.mp h
  exact isSome_anyWord?_of_word? hmem hword

theorem anyWord?_of_limitCount? {keywords : List (List Char)} (hmem : "LIMIT".toList ∈ keywords)
    {count : WrittenCount} (h : (between front rest).limitCount? = some count) :
    (between front rest).anyWord? keywords ≠ none := by
  obtain ⟨c, hword, -⟩ := Option.bind_eq_some_iff.mp h
  exact isSome_anyWord?_of_word? hmem hword

theorem anyWord?_of_bareOffset? {keywords : List (List Char)} (hmem : "OFFSET".toList ∈ keywords)
    {after : Cursor} (h : (between front rest).bareOffset? = some after) :
    (between front rest).anyWord? keywords ≠ none := by
  obtain ⟨c, hword, -⟩ := Option.bind_eq_some_iff.mp h
  exact isSome_anyWord?_of_word? hmem hword

end Cursor

/-- A search finds nothing where none of the words is found that it begins with. -/
theorem Outline.findTopLevel?_eq_none_of_anyWord? {α : Type} {sql : List Char} {start : Nat}
    {keywords : List (List Char)} {read : Cursor → Option α}
    (h : (of sql).findTopLevel? start (·.anyWord? keywords) = none)
    (hread : ∀ front rest found, read (.between front rest) = some found →
      (Cursor.between front rest).anyWord? keywords ≠ none) : (of sql).findTopLevel? start read = none := by
  rw [findTopLevel?_eq_none_iff] at h ⊢
  intro front rest hcut
  by_contra hsome
  obtain ⟨found, hfound⟩ := Option.ne_none_iff_exists'.mp hsome
  exact hread front rest found hfound (h front rest hcut)

/-- Where no word is found that pages through rows, none of the forms is found that begin with one. -/
theorem Outline.paging_eq_none {sql : List Char} {start : Nat}
    (h : (of sql).findTopLevel? start (·.anyWord? pagingWords) = none) :
    (of sql).findTopLevel? start Cursor.fetchCount? = none ∧ (of sql).findTopLevel? start Cursor.offsetRows? = none ∧
      (of sql).findTopLevel? start Cursor.bareOffset? = none :=
  ⟨findTopLevel?_eq_none_of_anyWord? h fun _ _ _ => Cursor.anyWord?_of_fetchCount? (by decide),
    findTopLevel?_eq_none_of_anyWord? h fun _ _ _ => Cursor.anyWord?_of_offsetRows? (by decide),
    findTopLevel?_eq_none_of_anyWord? h fun _ _ _ => Cursor.anyWord?_of_bareOffset? (by decide)⟩

/-- Where no word is found that limits rows, none of the forms is found that begin with one. -/
theorem Outline.limiting_eq_none {sql : List Char} {start : Nat}
    (h : (of sql).findTopLevel? start (·.anyWord? limitWords) = none) :
    (of sql).findTopLevel? start Cursor.fetchCount? = none ∧ (of sql).findTopLevel? start Cursor.limitCount? = none ∧
      (of sql).findTopLevel? start Cursor.bareOffset? = none :=
  ⟨findTopLevel?_eq_none_of_anyWord? h fun _ _ _ => Cursor.anyWord?_of_fetchCount? (by decide),
    findTopLevel?_eq_none_of_anyWord? h fun _ _ _ => Cursor.anyWord?_of_limitCount? (by decide),
    findTopLevel?_eq_none_of_anyWord? h fun _ _ _ => Cursor.anyWord?_of_bareOffset? (by decide)⟩

namespace Plan

variable {sql : List Char} {main : Cursor} {limit offset : Nat} {plan : Plan}

theorem append_eq (outline : Outline) (main : Cursor) {clause : String} {lead tail : List Char}
    (page : Option Nat) (limit : Nat) (h : clause.toList = lead ++ (Nat.toDigits 10 limit ++ tail)) :
    append outline main clause (Slot.outcome page limit) = (Slot.atEnd outline main lead tail page).plan limit := by
  cases htrailing : outline.findTopLevel? main.offset Cursor.trailingClause? with
  | some trailing => simp [append, Slot.atEnd, Slot.plan, Edit.insertion, htrailing, h]
  | none => simp [append, Slot.atEnd, Slot.plan, Edit.insertion, htrailing, h]

theorem toList_page (outline : Outline) (main : Cursor) (limit offset : Nat) :
    ((if (outline.findTopLevel? main.offset Cursor.orderBy?).isSome then "" else "ORDER BY (SELECT NULL) ") ++
      s!"OFFSET {offset} ROWS FETCH NEXT {limit} ROWS ONLY").toList =
      Slot.pageLead outline main offset ++ (Nat.toDigits 10 limit ++ " ROWS ONLY".toList) := by
  rw [Slot.pageLead]
  split <;> simp [toString]

theorem exists_slot_of_ofTop (h : ofTop (.of sql) main ⟨limit, offset⟩ = .ok plan) :
    ∃ slot, SlotAt sql main offset true slot ∧ plan = slot.plan limit := by
  rw [ofTop] at h
  split at h
  · next count hfetch => exact ⟨_, .fetch hfetch, (Except.ok.inj h).symm⟩
  · next hfetch =>
      split at h
      · next after hoffset =>
          refine ⟨_, .offsetRows hfetch hoffset, ?_⟩
          rw [← Except.ok.inj h]
          simp [Slot.plan, Slot.outcome, Edit.insertion, toString]
      · next =>
          split at h
          · cases h
          · next hpaging =>
              have hnone := Option.not_isSome_iff_eq_none.mp hpaging
              split at h
              · next count htop => exact ⟨_, .top hnone htop, (Except.ok.inj h).symm⟩
              · cases h
              · cases h
              · next htop =>
                  split at h
                  · next hpos =>
                      refine ⟨_, .page hnone htop hpos, ?_⟩
                      rw [← Except.ok.inj h]
                      exact append_eq _ _ (some offset) limit (toList_page _ _ limit offset)
                  · next hpos =>
                      split at h
                      · next after hhead =>
                          refine ⟨_, .head hnone htop (Nat.eq_zero_of_not_pos hpos) hhead, ?_⟩
                          rw [← Except.ok.inj h]
                          simp [Slot.plan, Slot.outcome, Edit.insertion, toString]
                      · cases h

theorem ofTop_of_slotAt {slot : Slot} (h : SlotAt sql main offset true slot) :
    ofTop (.of sql) main ⟨limit, offset⟩ = .ok (slot.plan limit) := by
  rw [ofTop]
  cases h with
  | fetch hcount => simp only [hcount, Slot.plan]
  | offsetRows hfetch hoffset => simp [hfetch, hoffset, Slot.plan, Slot.outcome, Edit.insertion, toString]
  | top hpaging hcount =>
      obtain ⟨hfetch, hrows, -⟩ := Outline.paging_eq_none hpaging
      simp only [hfetch, hrows, hcount, Slot.plan]
      exact if_neg (Option.not_isSome_iff_eq_none.mpr hpaging)
  | page hpaging htop hpos =>
      obtain ⟨hfetch, hrows, -⟩ := Outline.paging_eq_none hpaging
      simp only [hfetch, hrows, htop, if_pos hpos]
      refine (if_neg (Option.not_isSome_iff_eq_none.mpr hpaging)).trans (congrArg Except.ok ?_)
      exact append_eq _ _ (some offset) limit (toList_page _ _ limit offset)
  | head hpaging htop hzero hhead =>
      obtain ⟨hfetch, hrows, -⟩ := Outline.paging_eq_none hpaging
      have hpos : ¬0 < offset := by omega
      simp only [hfetch, hrows, htop, if_neg hpos, hhead]
      refine (if_neg (Option.not_isSome_iff_eq_none.mpr hpaging)).trans (congrArg Except.ok ?_)
      simp [Slot.plan, Slot.outcome, Edit.insertion, toString]

theorem toList_limit (limit : Nat) :
    (s!"LIMIT {limit}").toList = "LIMIT ".toList ++ (Nat.toDigits 10 limit ++ []) := by
  simp [toString]

theorem toList_pageLimit (limit offset : Nat) : (s!"LIMIT {limit} OFFSET {offset}").toList =
    "LIMIT ".toList ++ (Nat.toDigits 10 limit ++ (" OFFSET ".toList ++ Nat.toDigits 10 offset)) := by
  simp [toString]

theorem exists_slot_of_ofLimit (h : ofLimit (.of sql) main ⟨limit, offset⟩ = .ok plan) :
    ∃ slot, SlotAt sql main offset false slot ∧ plan = slot.plan limit := by
  rw [ofLimit] at h
  split at h
  · next count hfetch => exact ⟨_, .fetch hfetch, (Except.ok.inj h).symm⟩
  · next hfetch =>
      split at h
      · next count hcount => exact ⟨_, .limit hfetch hcount, (Except.ok.inj h).symm⟩
      · next hnoLimit =>
          split at h
          · next place hoffset =>
              refine ⟨_, .bareOffset hfetch hnoLimit hoffset, ?_⟩
              rw [← Except.ok.inj h]
              simp [Slot.plan, Slot.outcome, Edit.insertion, toString]
          · next =>
              split at h
              · cases h
              · next hpaging =>
                  have hnone := Option.not_isSome_iff_eq_none.mp hpaging
                  split at h
                  · next hpos =>
                      refine ⟨_, .pageLimit hnone hpos, ?_⟩
                      rw [← Except.ok.inj h]
                      exact append_eq _ _ (some offset) limit (toList_pageLimit limit offset)
                  · next hpos =>
                      refine ⟨_, .newLimit hnone (Nat.eq_zero_of_not_pos hpos), ?_⟩
                      rw [← Except.ok.inj h]
                      exact append_eq _ _ none limit (toList_limit limit)

theorem ofLimit_of_slotAt {slot : Slot} (h : SlotAt sql main offset false slot) :
    ofLimit (.of sql) main ⟨limit, offset⟩ = .ok (slot.plan limit) := by
  rw [ofLimit]
  cases h with
  | fetch hcount => simp only [hcount, Slot.plan]
  | limit hfetch hcount => simp only [hfetch, hcount, Slot.plan]
  | bareOffset hfetch hlimit hoffset =>
      simp [hfetch, hlimit, hoffset, Slot.plan, Slot.outcome, Edit.insertion, toString]
  | pageLimit hpaging hpos =>
      obtain ⟨hfetch, hlimit, hbare⟩ := Outline.limiting_eq_none hpaging
      simp only [hfetch, hlimit, hbare, if_pos hpos]
      refine (if_neg (Option.not_isSome_iff_eq_none.mpr hpaging)).trans (congrArg Except.ok ?_)
      exact append_eq _ _ (some offset) limit (toList_pageLimit limit offset)
  | newLimit hpaging hzero =>
      obtain ⟨hfetch, hlimit, hbare⟩ := Outline.limiting_eq_none hpaging
      have hpos : ¬0 < offset := by omega
      simp only [hfetch, hlimit, hbare, if_neg hpos]
      refine (if_neg (Option.not_isSome_iff_eq_none.mpr hpaging)).trans (congrArg Except.ok ?_)
      exact append_eq _ _ none limit (toList_limit limit)

/-- The plans for a database are those that write the limit into a slot. -/
theorem forDatabase_eq_ok_iff {database : Database} :
    forDatabase database (.of sql) main ⟨limit, offset⟩ = .ok plan ↔
      ∃ slot, SlotAt sql main offset database.usesTop slot ∧ plan = slot.plan limit := by
  rw [forDatabase]
  constructor
  · intro h
    cases hdialect : database.usesTop with
    | true => exact exists_slot_of_ofTop (by simpa [hdialect] using h)
    | false => exact exists_slot_of_ofLimit (by simpa [hdialect] using h)
  · rintro ⟨slot, hslot, rfl⟩
    cases hdialect : database.usesTop with
    | true => exact ofTop_of_slotAt (hdialect ▸ hslot)
    | false => exact ofLimit_of_slotAt (hdialect ▸ hslot)

end Plan

/-- A statement that a limiter looks at and in time, with the place of its main select word. -/
structure Limiter.Accepts (limiter : Limiter) (timing : Timing) (sql : List Char) (main : Cursor) : Prop where
  size_le : byteLength sql ≤ limiter.maxBytes
  hazardFor?_eq_none : (Outline.of sql).hazardFor? limiter.database = none
  inTime : timing.InTime limiter.budget
  mainSelect?_eq : (Outline.of sql).mainSelect? = some main

/-- A statement is limited exactly where it has a slot for the limit and can be edited there. -/
theorem Limiter.limit_eq_ok_iff {limiter : Limiter} {timing : Timing} {sql : List Char} {limit offset : Nat}
    {limited : Limited} : limiter.limit sql ⟨limit, offset⟩ timing = .ok limited ↔
      ∃ main slot, limiter.Accepts timing sql main ∧ SlotAt sql main offset limiter.database.usesTop slot ∧
        (slot.plan limit).apply sql = .ok limited := by
  rw [Limiter.limit]
  constructor
  · intro h
    split at h
    · cases h
    · next hsize =>
        dsimp only at h
        split at h
        · cases h
        · split at h
          · cases h
          · next hhazard =>
              split at h
              · cases h
              · split at h
                · cases h
                · next main hmain =>
                    split at h
                    · cases h
                    · next plan hplan =>
                        split at h
                        · cases h
                        · next htime =>
                            obtain ⟨slot, hslot, rfl⟩ := Plan.forDatabase_eq_ok_iff.mp hplan
                            have hintime := Timing.inTime_iff.mpr (Bool.eq_false_iff.mpr htime)
                            exact ⟨main, slot, ⟨Nat.le_of_not_lt hsize, hhazard, hintime, hmain⟩, hslot, h⟩
  · rintro ⟨main, slot, haccepts, hslot, happly⟩
    have hplan : Plan.forDatabase limiter.database (.of sql) main ⟨limit, offset⟩ = .ok (slot.plan limit) :=
      Plan.forDatabase_eq_ok_iff.mpr ⟨slot, hslot, rfl⟩
    obtain ⟨front, rest, -, hselect, -⟩ := Outline.mainSelect?_eq_some_iff.mp haccepts.mainSelect?_eq
    obtain ⟨word, later, hat, -⟩ := hselect.exists_wordAt
    have hblank := Outline.isBlank_of_wordAt hat
    rw [if_neg (Nat.not_lt.mpr haccepts.size_le)]
    simp only [hblank, haccepts.hazardFor?_eq_none, haccepts.inTime.isOver_search, haccepts.inTime.isOver_edit,
      haccepts.mainSelect?_eq, hplan, happly, if_false, Bool.false_eq_true]

theorem Limiter.apply_cases (limiter : Limiter) (category : Category) (sql : List Char) (window : RowWindow)
    (timing : Timing) : limiter.limit sql window timing = .ok (limiter.apply category sql window timing) ∨
      (∃ obstacle, limiter.apply category sql window timing = ⟨sql, .fallback obstacle⟩) ∨
      limiter.apply category sql window timing = ⟨sql, .notApplicable⟩ := by
  unfold apply
  split
  · unfold run
    cases limiter.limit sql window timing with
    | ok limited => exact Or.inl rfl
    | error obstacle => exact Or.inr (Or.inl ⟨obstacle, rfl⟩)
  · exact Or.inr (Or.inr rfl)

theorem Limiter.limit_of_effectiveLimit? {limiter : Limiter} {category : Category} {sql : List Char}
    {window : RowWindow} {timing : Timing} {rows : Nat}
    (h : (limiter.apply category sql window timing).outcome.effectiveLimit? = some rows) :
    limiter.limit sql window timing = .ok (limiter.apply category sql window timing) := by
  rcases apply_cases limiter category sql window timing with hlimit | ⟨obstacle, hkept⟩ | hkept
  · exact hlimit
  · rw [hkept] at h
    cases h
  · rw [hkept] at h
    cases h

end SqlGate
