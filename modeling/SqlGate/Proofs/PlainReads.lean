import SqlGate.Proofs.RequestedOffsets

/-! Why a read may go out without a limit. A statement that the limiter looks at is given one wherever its main query
neither pages nor limits its rows; every fallback has a reason that the statement or the limiter shows. No clause that
is found lacks its count, and no place that the search finds lies inside a character. -/

namespace SqlGate

open Unicode

/-- The reasons for leaving a statement as it is. A limit that cannot be read is one only where the limiter looks at the
statement and the main query pages through its rows or limits them. -/
inductive Limiter.Reason (limiter : Limiter) (timing : Timing) (sql : List Char) : Obstacle → Prop where
  | tooLarge (hsize : limiter.maxBytes < byteLength sql) :
      Reason limiter timing sql (.tooLarge (byteLength sql) limiter.maxBytes)
  | emptyStatement (hblank : (Outline.of sql).isBlank = true) : Reason limiter timing sql .emptyStatement
  | ambiguousQuoting {hazard : Hazard} (hhazard : (Outline.of sql).hazardFor? limiter.database = some hazard) :
      Reason limiter timing sql (.ambiguousQuoting hazard)
  | outOfTime (hover : ¬timing.InTime limiter.budget) : Reason limiter timing sql (.outOfTime limiter.budget)
  | noMainSelect (hmain : (Outline.of sql).mainSelect? = none) : Reason limiter timing sql .noMainSelect
  | unreadableLimit {main : Cursor} {form : UnreadableLimit} (haccepts : limiter.Accepts timing.atSearch sql main)
      (hlimits : (Outline.of sql).pages = true ∨ ∃ front, MainLimitAt sql limiter.database.usesTop front) :
      Reason limiter timing sql (.unreadableLimit form)

/-- Wherever the words of a clause with a count stand in a text, its reader takes the count from there. -/
def Captures (text : List Char) (tokens : List (List Char → Prop)) (read : Cursor → Option WrittenCount) : Prop :=
  ∀ front rest, text = front ++ rest → PhraseAt text tokens front →
    ∃ count lead digits later, read (.between front rest) = some count ∧ CountAt text count (front ++ lead) digits later

/-- Whether a place is at the edge of a character, so that the text can be cut there. -/
def OnEdge (text : List Char) (place : Nat) : Prop :=
  (splitAtByte? place text).isSome

instance (text : List Char) (place : Nat) : Decidable (OnEdge text place) :=
  inferInstanceAs (Decidable ((splitAtByte? place text).isSome = true))

/-- The places that are found in the outline and cut at: those of number signs, that of the main select word, and those
of the edit that is planned. -/
structure Limiter.CutsOnEdges (limiter : Limiter) (sql : List Char) (window : RowWindow) : Prop where
  hash : ∀ front rest, (Outline.of sql).text = front ++ '#' :: rest → OnEdge sql (byteLength front)
  main : ∀ main, (Outline.of sql).mainSelect? = some main → OnEdge (Outline.of sql).text main.offset
  edit : ∀ main plan edit, (Outline.of sql).mainSelect? = some main →
    Plan.forDatabase limiter.database (.of sql) main window = .ok plan → plan.edit? = some edit →
      edit.start ≤ edit.stop ∧ OnEdge sql edit.start ∧ OnEdge sql edit.stop

theorem onEdge_append (left right : List Char) : OnEdge (left ++ right) (byteLength left) := by
  rw [OnEdge, splitAtByte?_append]
  rfl

section Captured

variable {text : List Char}

theorem captures_fetchCount? : Captures text Cursor.fetchPhrase Cursor.fetchCount? := by
  rintro front rest rfl hphrase
  obtain ⟨count, hcount⟩ := Option.isSome_iff_exists.mp (Cursor.isSome_fetchCount?_iff.mpr hphrase)
  obtain ⟨lead, digits, later, hat⟩ := Cursor.exists_countAt_of_fetchCount hcount
  exact ⟨count, lead, digits, later, hcount, hat⟩

theorem captures_limitCount? : Captures text Cursor.limitPhrase Cursor.limitCount? := by
  rintro front rest rfl hphrase
  obtain ⟨count, hcount⟩ := Option.isSome_iff_exists.mp (Cursor.isSome_limitCount?_iff.mpr hphrase)
  obtain ⟨lead, digits, later, hat⟩ := Cursor.exists_countAt_of_limitCount hcount
  exact ⟨count, lead, digits, later, hcount, hat⟩

end Captured

section Edges

variable {sql : List Char} {main : Cursor} {offset : Nat} {top : Bool}

theorem Site.onEdge {old : List Char} {left right : List Lexeme} (h : Site sql left old right) :
    OnEdge sql (byteLength (left.flatMap Lexeme.blanked)) ∧
      OnEdge sql (byteLength (left.flatMap Lexeme.blanked) + byteLength old) := by
  rw [Lexeme.byteLength_flatMap_blanked, ← byteLength_append, h.eq_joined, joined]
  refine ⟨onEdge_append _ _, ?_⟩
  rw [← List.append_assoc]
  exact onEdge_append _ _

theorem SlotAt.onEdge {slot : Slot} {limit : Nat} {edit : Edit} (h : SlotAt sql main offset top slot)
    (hmain : (Outline.of sql).mainSelect? = some main) (hedit : (slot.plan limit).edit? = some edit) :
    edit.start ≤ edit.stop ∧ OnEdge sql edit.start ∧ OnEdge sql edit.stop := by
  cases slot with
  | written count =>
      obtain ⟨front, digits, rest, hin⟩ := h.exists_countIn hmain
      obtain ⟨left, right, hsite, rfl, -⟩ := hin.site
      rw [Slot.plan, hin.countAt.count_eq, Plan.cap] at hedit
      split at hedit
      · cases hedit
      · obtain rfl := Option.some.inj hedit
        refine ⟨?_, hsite.onEdge.1, ?_⟩
        · change byteLength _ ≤ byteLength _
          rw [byteLength_append]
          exact Nat.le_add_right _ _
        · change OnEdge sql (byteLength _)
          rw [byteLength_append]
          exact hsite.onEdge.2
  | clause place lead tail page =>
      obtain ⟨front, rest, hgap⟩ := h.exists_gapAt hmain
      obtain ⟨left, right, hsite, rfl, -⟩ := hgap.site
      obtain rfl := hgap.place_eq
      obtain rfl := Option.some.inj hedit
      exact ⟨le_rfl, hsite.onEdge.1, hsite.onEdge.1⟩

theorem onEdge_of_hash {front rest : List Char} (h : (Outline.of sql).text = front ++ '#' :: rest) :
    OnEdge sql (byteLength front) := by
  rw [Outline.text_of] at h
  obtain ⟨left, right, hsql, rfl, -⟩ := Lexeme.exists_cut_of_showsCode
    ⟨by decide, fun quote => by cases quote <;> decide⟩ (fun quote => by cases quote <;> decide) h
  rw [Lexeme.byteLength_flatMap_blanked, ← flatMap_text_lexemes sql, hsql, List.flatMap_append]
  exact onEdge_append _ _

end Edges

/-- Nothing that is looked up in the outline is cut at inside a character. -/
theorem Limiter.cutsOnEdges (limiter : Limiter) (sql : List Char) (window : RowWindow) :
    limiter.CutsOnEdges sql window where
  hash _ _ h := onEdge_of_hash h
  main main hmain := by
    obtain ⟨front, rest, hcut, -, rfl, -⟩ := Outline.mainSelect?_eq_some_iff.mp hmain
    rw [hcut.eq_append]
    exact onEdge_append _ _
  edit main plan edit hmain hplan hedit := by
    obtain ⟨slot, hslot, rfl⟩ := Plan.forDatabase_eq_ok_iff.mp hplan
    exact hslot.onEdge hmain hedit

theorem Cursor.isSome_selectHead? {front rest : List Char} (h : ((between front rest).word? "SELECT".toList).isSome) :
    (between front rest).selectHead?.isSome := by
  obtain ⟨word, later, hat, hword⟩ := ((isSome_word?_iff (by decide)).mp h).exists_wordAt
  obtain rfl := List.append_cancel_left hat.eq_append
  rw [selectHead?, letters?_eq_some_iff.mpr ⟨word, later, rfl, hword, rfl⟩]
  rfl

namespace Plan

variable {database : Database} {outline : Outline} {main : Cursor} {window : RowWindow} {obstacle : Obstacle}

/-- A query has no plan only for a limit that cannot be read, apart from a place that no query begins at. -/
theorem cases_of_error (h : forDatabase database outline main window = .error obstacle) :
    (∃ form, obstacle = .unreadableLimit form) ∨ main.selectHead? = none := by
  rw [forDatabase] at h
  split at h
  · rw [ofTop] at h
    split at h
    · cases h
    · split at h
      · cases h
      · split at h
        · exact Or.inl ⟨_, (Except.error.inj h).symm⟩
        · split at h
          · cases h
          · exact Or.inl ⟨_, (Except.error.inj h).symm⟩
          · exact Or.inl ⟨_, (Except.error.inj h).symm⟩
          · split at h
            · cases h
            · split at h
              · cases h
              · next hhead => exact Or.inr hhead
  · rw [ofLimit] at h
    split at h
    · cases h
    · split at h
      · cases h
      · split at h
        · cases h
        · split at h
          · exact Or.inl ⟨_, (Except.error.inj h).symm⟩
          · split at h
            · cases h
            · cases h

end Plan

theorem SlotAt.exists_plain {sql : List Char} {main : Cursor} {top : Bool} (offset : Nat)
    (hmain : (Outline.of sql).mainSelect? = some main) (hpages : (Outline.of sql).pages = false)
    (hnone : ∀ front, ¬MainLimitAt sql top front) :
    ∃ place lead tail, SlotAt sql main offset top
      (.clause place lead tail (if offset = 0 then none else some offset)) := by
  by_cases hzero : offset = 0
  · rw [if_pos hzero]
    cases top with
    | true =>
        obtain ⟨front, rest, -, -, rfl, -⟩ := Outline.mainSelect?_eq_some_iff.mp hmain
        obtain ⟨after, hhead⟩ := Option.isSome_iff_exists.mp
          (Cursor.isSome_selectHead? (Outline.isSome_word?_of_mainSelect? hmain))
        exact ⟨_, _, _, .head ((Outline.pages_eq_false_iff hmain).mp hpages) (Outline.topForm?_eq_none hmain hnone)
          hzero hhead⟩
    | false =>
        have hslot := SlotAt.newLimit (Outline.findTopLevel?_limitWords_eq_none hmain hpages hnone) hzero
        unfold Slot.atEnd at hslot
        split at hslot
        · exact ⟨_, _, _, hslot⟩
        · exact ⟨_, _, _, hslot⟩
  · rw [if_neg hzero]
    exact exists_page (Nat.pos_of_ne_zero hzero) hmain hpages hnone

namespace Limiter

variable {limiter : Limiter} {timing : Timing} {sql : List Char} {main : Cursor} {window : RowWindow}
  {obstacle : Obstacle}

/-- A query that neither pages nor limits its rows is given a limit, with the offset that is asked for. -/
theorem outcome_of_plain (haccepts : limiter.Accepts timing sql main) (hpages : (Outline.of sql).pages = false)
    (hnone : ∀ front, ¬MainLimitAt sql limiter.database.usesTop front) (window : RowWindow) :
    (limiter.apply .readOnly sql window timing).outcome =
      if window.offset = 0 then .inserted window.limit else .paginated window.offset window.limit := by
  obtain ⟨limit, offset⟩ := window
  obtain ⟨place, lead, tail, hslot⟩ := SlotAt.exists_plain offset haccepts.mainSelect?_eq hpages hnone
  rw [outcome_of_clause haccepts hslot limit]
  dsimp only
  split
  · rfl
  · rfl

theorem exists_limit_of_plan {plan : Plan} (haccepts : limiter.Accepts timing sql main)
    (hplan : Plan.forDatabase limiter.database (.of sql) main window = .ok plan) :
    ∃ limited, limiter.limit sql window timing = .ok limited := by
  obtain ⟨limit, offset⟩ := window
  obtain ⟨slot, hslot, rfl⟩ := Plan.forDatabase_eq_ok_iff.mp hplan
  cases slot with
  | written count =>
      obtain ⟨front, digits, rest, hin⟩ := hslot.exists_countIn haccepts.mainSelect?_eq
      obtain ⟨left, right, hsite, hleft, -⟩ := hin.site
      exact ⟨_, limit_written haccepts hslot hin.countAt.count_eq hsite hleft limit⟩
  | clause place lead tail page =>
      obtain ⟨front, rest, hgap⟩ := hslot.exists_gapAt haccepts.mainSelect?_eq
      obtain ⟨left, right, hsite, hleft, -⟩ := hgap.site
      exact ⟨_, limit_clause haccepts hslot hsite (by rw [hleft]; exact hgap.place_eq) limit⟩

theorem limit_of_fallback {category : Category}
    (h : (limiter.apply category sql window timing).outcome = .fallback obstacle) :
    category = .readOnly ∧ limiter.limit sql window timing = .error obstacle := by
  rw [apply] at h
  split at h
  · next hread =>
      rw [run] at h
      split at h
      · next limited hlimit =>
          obtain ⟨limit, offset⟩ := window
          obtain ⟨main, slot, -, -, happly⟩ := limit_eq_ok_iff.mp hlimit
          have hplanned := (Plan.outcome_of_apply happly).symm.trans h
          cases slot with
          | written count =>
              rw [Slot.plan, Plan.cap] at hplanned
              split at hplanned
              · cases hplanned
              · cases hplanned
          | clause place lead tail page =>
              cases page with
              | none => cases hplanned
              | some page => cases hplanned
      · next reason hlimit =>
          obtain rfl := Outcome.fallback.inj h
          exact ⟨hread, hlimit⟩
  · cases h

/-- Without a plan the main query pages through its rows or limits them. -/
theorem reason_of_plan (haccepts : limiter.Accepts timing.atSearch sql main)
    (hplan : Plan.forDatabase limiter.database (.of sql) main window = .error obstacle) :
    limiter.Reason timing sql obstacle := by
  rcases Plan.cases_of_error hplan with ⟨form, rfl⟩ | hhead
  · refine .unreadableLimit haccepts ?_
    by_contra hplain
    rw [not_or, Bool.not_eq_true, not_exists] at hplain
    obtain ⟨limit, offset⟩ := window
    obtain ⟨place, lead, tail, hslot⟩ := SlotAt.exists_plain offset haccepts.mainSelect?_eq hplain.1 hplain.2
    have hok : Plan.forDatabase limiter.database (.of sql) main ⟨limit, offset⟩ = .ok _ :=
      Plan.forDatabase_eq_ok_iff.mpr ⟨_, hslot, rfl⟩
    rw [hplan] at hok
    cases hok
  · obtain ⟨front, rest, -, -, rfl, -⟩ := Outline.mainSelect?_eq_some_iff.mp haccepts.mainSelect?_eq
    have hsome := Cursor.isSome_selectHead? (Outline.isSome_word?_of_mainSelect? haccepts.mainSelect?_eq)
    rw [hhead] at hsome
    cases hsome

theorem reason_of_limit (h : limiter.limit sql window timing = .error obstacle) :
    limiter.Reason timing sql obstacle := by
  have hlimit := h
  rw [limit] at h
  split at h
  · next hsize =>
      obtain rfl := Except.error.inj h
      exact .tooLarge hsize
  · next hsize =>
      dsimp only at h
      split at h
      · next hblank =>
          obtain rfl := Except.error.inj h
          exact .emptyStatement hblank
      · split at h
        · next hazard hhazard =>
            obtain rfl := Except.error.inj h
            exact .ambiguousQuoting hhazard
        · next hhazard =>
            split at h
            · next hover =>
                obtain rfl := Except.error.inj h
                exact .outOfTime fun hintime => absurd (hintime.isOver_search.symm.trans hover) (by decide)
            · next hsearch =>
                split at h
                · next hmain =>
                    obtain rfl := Except.error.inj h
                    exact .noMainSelect hmain
                · next main hmain =>
                    have haccepts : ∀ {clock : Timing}, clock.InTime limiter.budget → limiter.Accepts clock sql main :=
                      fun hintime => ⟨Nat.le_of_not_lt hsize, hhazard, hintime, hmain⟩
                    split at h
                    · next reason hplan =>
                        obtain rfl := Except.error.inj h
                        exact reason_of_plan (haccepts (Timing.inTime_iff.mpr (Bool.eq_false_iff.mpr hsearch))) hplan
                    · next plan hplan =>
                        split at h
                        · next hover =>
                            obtain rfl := Except.error.inj h
                            exact .outOfTime fun hintime => absurd (hintime.isOver_edit.symm.trans hover) (by decide)
                        · next hedit =>
                            have hintime := Timing.inTime_iff.mpr (Bool.eq_false_iff.mpr hedit)
                            obtain ⟨limited, hok⟩ := exists_limit_of_plan (haccepts hintime) hplan
                            rw [hlimit] at hok
                            cases hok

/-- No reason is put in words that blame a clause for its count. -/
theorem Reason.message_ne (h : limiter.Reason timing sql obstacle) :
    obstacle.message ≠ "row limit clause is not a plain row count: row count not captured" := by
  cases h with
  | tooLarge hsize =>
      have hhead : (Obstacle.tooLarge (byteLength sql) limiter.maxBytes).message.toList.head? = some 's' := by
        unfold Obstacle.message
        dsimp only
        simp only [toString, String.toList_append, List.append_assoc]
        exact List.head?_append_of_ne_nil _ (by decide)
      intro hmessage
      rw [hmessage] at hhead
      exact absurd hhead (by decide)
  | emptyStatement hblank => decide +kernel
  | @ambiguousQuoting hazard hhazard => cases hazard <;> decide +kernel
  | outOfTime hover =>
      have hhead : (Obstacle.outOfTime limiter.budget).message.toList.take 2 = ['r', 'e'] := by
        unfold Obstacle.message
        dsimp only
        rw [String.toList_append, String.toList_append, List.append_assoc]
        exact List.take_append_of_le_length (by decide)
      intro hmessage
      rw [hmessage] at hhead
      exact absurd hhead (by decide)
  | noMainSelect hmain => decide +kernel
  | @unreadableLimit main form haccepts hlimits => cases form <;> decide +kernel

/-- A read that the limiter looks at, and whose main query neither pages nor limits its rows, is given a limit and the
offset that is asked for. Any read that falls back does so for a reason, which is never an edit inside a character nor a
clause without its count: counts are captured wherever their clauses stand, and all that is found lies between
characters. -/
theorem limited_or_reason (limiter : Limiter) (sql : List Char) (window : RowWindow) (timing : Timing) :
    (∀ main, limiter.Accepts timing sql main → (Outline.of sql).pages = false →
        (∀ front, ¬MainLimitAt sql limiter.database.usesTop front) →
        (limiter.apply .readOnly sql window timing).outcome =
          if window.offset = 0 then .inserted window.limit else .paginated window.offset window.limit) ∧
      (∀ category obstacle, (limiter.apply category sql window timing).outcome = .fallback obstacle →
        limiter.Reason timing sql obstacle ∧ obstacle ≠ .misalignedEdit ∧
          obstacle.message ≠ "row limit clause is not a plain row count: row count not captured") ∧
      Captures (Outline.of sql).text Cursor.fetchPhrase Cursor.fetchCount? ∧
      Captures (Outline.of sql).text Cursor.limitPhrase Cursor.limitCount? ∧
      limiter.CutsOnEdges sql window := by
  refine ⟨fun main haccepts hpages hnone => outcome_of_plain haccepts hpages hnone window, ?_, captures_fetchCount?,
    captures_limitCount?, limiter.cutsOnEdges sql window⟩
  intro category obstacle hfallback
  have hreason := reason_of_limit (limit_of_fallback hfallback).2
  refine ⟨hreason, ?_, hreason.message_ne⟩
  rintro rfl
  cases hreason

/-- A select word that begins with a long s, and letters of two bytes in front of a number sign. -/
theorem limited_or_reason_long_s : ∃ sql : List Char, sql = "ſELECT é FROM ü # x".toList ∧
    (∃ main, (usual .sqlServer).Accepts .atOnce sql main) ∧ (Outline.of sql).pages = false ∧
    (∀ front, ¬MainLimitAt sql true front) ∧
    ((usual .sqlServer).apply .readOnly sql ⟨100, 0⟩).outcome = .inserted 100 ∧
    OnEdge sql (byteLength "ſELECT é FROM ü ".toList) ∧
    ((usual .postgres).apply .readOnly "SELECT é LIMIT ALL".toList ⟨100, 0⟩).outcome =
      .fallback (.unreadableLimit .limitOrPaging) ∧
    (usual .postgres).Reason .atOnce "SELECT é LIMIT ALL".toList (.unreadableLimit .limitOrPaging) := by
  have hfound : (Outline.of "ſELECT é FROM ü # x".toList).mainSelect?.map (fun main => decide (main.topForm? = none)) =
      some true := by decide +kernel
  obtain ⟨main, hmain, htop⟩ := Option.map_eq_some_iff.mp hfound
  have haccepts : (usual .sqlServer).Accepts .atOnce "ſELECT é FROM ü # x".toList main :=
    ⟨by decide, by decide +kernel, by decide, hmain⟩
  have hpages : (Outline.of "ſELECT é FROM ü # x".toList).pages = false := by decide +kernel
  have hnone : ∀ front, ¬MainLimitAt "ſELECT é FROM ü # x".toList true front := fun front =>
    not_mainLimitAt_of_search hmain ((Outline.pages_eq_false_iff hmain).mp hpages) (by decide) (by decide)
      fun _ => of_decide_eq_true htop
  obtain ⟨hlimits, -, -, -, hcuts⟩ := limited_or_reason (usual .sqlServer) "ſELECT é FROM ü # x".toList ⟨100, 0⟩ .atOnce
  obtain ⟨-, hreasons, -⟩ := limited_or_reason (usual .postgres) "SELECT é LIMIT ALL".toList ⟨100, 0⟩ .atOnce
  have hfallback : ((usual .postgres).apply .readOnly "SELECT é LIMIT ALL".toList ⟨100, 0⟩).outcome =
      .fallback (.unreadableLimit .limitOrPaging) := by decide +kernel
  exact ⟨_, rfl, ⟨main, haccepts⟩, hpages, hnone, hlimits main haccepts hpages hnone,
    hcuts.hash _ " x".toList (by decide +kernel), hfallback, (hreasons _ _ hfallback).1⟩

end Limiter

end SqlGate
