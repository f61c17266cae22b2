import SqlGate.Proofs.LimitTwice

/-! How much of the result a `TOP` limits. It belongs to one select word, so it limits the whole result of a query
only if no other select word stands outside all parentheses. A query that is limited has such words where it had them
before: limiting looks at the first one and passes over the others, be they of a union or of a second statement. -/

namespace SqlGate

open Unicode

namespace Outline

/-- Whether a paging word stands outside all parentheses behind the main select word. -/
def pages (outline : Outline) : Bool :=
  match outline.mainSelect? with
  | none => false
  | some main => (outline.findTopLevel? main.offset (·.anyWord? pagingWords)).isSome

theorem pages_eq_false_iff {outline : Outline} {main : Cursor} (hmain : outline.mainSelect? = some main) :
    outline.pages = false ↔ outline.findTopLevel? main.offset (·.anyWord? pagingWords) = none := by
  unfold pages
  rw [hmain]
  dsimp only
  rw [Option.isSome_eq_false_iff, Option.isNone_iff_eq_none]

/-- Whether the main select word is the only select word outside all parentheses. -/
def selectsOnce (outline : Outline) : Bool :=
  match outline.mainSelect? with
  | none => false
  | some main => (outline.findTopLevel? (main.offset + 1) (·.word? "SELECT".toList)).isNone

/-- Whether a `TOP` limits the whole result to a number of rows: it is the `TOP` of the only query. -/
def TopBounds (outline : Outline) (rows : Nat) : Prop :=
  outline.selectsOnce = true ∧
    ∃ main count, outline.mainSelect? = some main ∧ main.topForm? = some (.rows count) ∧ count.value = rows

theorem topBounds_iff {outline : Outline} {main : Cursor} {form : Cursor.TopForm} {rows : Nat}
    (hmain : outline.mainSelect? = some main) (hform : main.topForm? = some form) :
    outline.TopBounds rows ↔ outline.selectsOnce = true ∧ ∃ count, form = .rows count ∧ count.value = rows := by
  unfold TopBounds
  rw [hmain]
  constructor
  · rintro ⟨honce, place, count, hplace, hcount, hvalue⟩
    obtain rfl := Option.some.inj hplace
    rw [hform] at hcount
    exact ⟨honce, count, Option.some.inj hcount, hvalue⟩
  · rintro ⟨honce, count, rfl, hvalue⟩
    exact ⟨honce, main, count, rfl, hform, hvalue⟩

theorem listsPercent_eq_false_of_topForm? {outline : Outline} {main : Cursor} {form : Cursor.TopForm}
    (hmain : outline.mainSelect? = some main) (hform : main.topForm? = some form) : outline.listsPercent = false := by
  unfold listsPercent
  rw [hmain]
  simp only [hform, Option.isNone_some, Bool.and_false, Bool.false_and]

theorem listsPercent_eq_of_selectHead? {outline : Outline} {main after : Cursor}
    (hmain : outline.mainSelect? = some main)
    (hpaging : outline.findTopLevel? main.offset (·.anyWord? pagingWords) = none) (htop : main.topForm? = none)
    (hhead : main.selectHead? = some after) :
    outline.listsPercent = (after.blanks?.bind (·.word? "PERCENT".toList)).isSome := by
  unfold listsPercent
  rw [hmain]
  simp only [hpaging, htop, hhead, Option.isNone_none, Bool.and_self, Bool.true_and, Option.bind_some]

end Outline

/-- Two statements whose main queries have other select words after them both or neither. -/
structure SameSelects (sql again : List Char) (main place : Cursor) : Prop where
  mainSelect?_eq : (Outline.of sql).mainSelect? = some main
  mainSelect?_again : (Outline.of again).mainSelect? = some place
  further_iff : (Outline.of again).findTopLevel? (place.offset + 1) (·.word? "SELECT".toList) = none ↔
    (Outline.of sql).findTopLevel? (main.offset + 1) (·.word? "SELECT".toList) = none

theorem SameSelects.selectsOnce_iff {sql again : List Char} {main place : Cursor}
    (h : SameSelects sql again main place) :
    (Outline.of again).selectsOnce = true ↔ (Outline.of sql).selectsOnce = true := by
  unfold Outline.selectsOnce
  rw [h.mainSelect?_eq, h.mainSelect?_again]
  dsimp only
  rw [Option.isNone_iff_eq_none, Option.isNone_iff_eq_none, h.further_iff]

theorem byteLength_succ_le {before gap : List Char} (hne : gap ≠ []) :
    byteLength before + 1 ≤ byteLength (before ++ gap) := by
  have hpos := byteLength_pos hne
  rw [byteLength_append]
  omega

theorem Recount.sameSelects {sql again before gap digits other rest : List Char}
    (h : Recount (before ++ gap) digits other rest) (hsql : (Outline.of sql).text = before ++ gap ++ (digits ++ rest))
    (hagain : (Outline.of again).text = before ++ gap ++ (other ++ rest)) (hne : gap ≠ [])
    (hmain : (Outline.of sql).mainSelect? = some (.between before (gap ++ (digits ++ rest)))) :
    SameSelects sql again (.between before (gap ++ (digits ++ rest))) (.between before (gap ++ (other ++ rest))) := by
  refine ⟨hmain, h.mainSelect? hsql hagain hne hmain, ?_⟩
  have hrel := h.findTopLevel? hsql hagain (byteLength_succ_le hne)
    (fun c place hc => h.readAlike.word? (by decide : isKeyword "SELECT".toList = true) hc)
    fun _ _ _ => Cursor.word?_of_isDigit (by decide)
  rw [← Option.isNone_iff_eq_none, ← Option.isNone_iff_eq_none, ← Option.not_isSome, ← Option.not_isSome]
  exact iff_of_eq (congrArg (fun found => (!found) = true) (rel_isSome hrel).symm)

namespace Insertion

variable {sql again left clause right before gap : List Char} {start : Nat}

/-- A word that stood outside all parentheses still does. -/
theorem search_eq_none_of_again (h : Insertion left clause right) (hsql : (Outline.of sql).text = left ++ right)
    (hagain : (Outline.of again).text = left ++ (clause ++ right)) {keyword : List Char}
    (hkey : isKeyword keyword = true) (hnone : (Outline.of again).findTopLevel? start (·.word? keyword) = none) :
    (Outline.of sql).findTopLevel? start (·.word? keyword) = none := by
  rw [Outline.findTopLevel?_eq_none_iff] at hnone ⊢
  rw [hagain] at hnone
  rw [hsql]
  have hfound : ∀ front rest word later, TopCut (left ++ (clause ++ right)) start front rest →
      WordAt (left ++ (clause ++ right)) front word later → Spelled keyword word → False := by
    intro front rest word later hcut hat hspelled
    rw [hcut.eq_append] at hat
    have hsome := (Cursor.isSome_word?_iff hkey).mpr (.word hat hspelled)
    rw [hnone front rest hcut] at hsome
    cases hsome
  intro front rest hcut
  by_contra hsome
  have hphrase := (Cursor.isSome_word?_iff hkey).mp (Option.isSome_iff_ne_none.mpr hsome)
  obtain ⟨word, later, hat, hspelled⟩ := hphrase.exists_wordAt
  rw [← hcut.eq_append] at hat
  rcases hat.of_append h.apart with ⟨tail, -, hleft⟩ | ⟨lead, rfl, hright⟩
  · -- In front of the clause the word stands where it stood.
    refine hfound front (word ++ (tail ++ (clause ++ right))) word _ ⟨?_, hcut.start_le, ?_⟩
      (hleft.append_left h.apart_rest) hspelled
    · rw [hleft.eq_append]
      simp only [List.append_assoc]
    · rw [← hcut.depth_eq_zero]
      have hrest : rest = word ++ later := List.append_cancel_left (hcut.eq_append.symm.trans hat.eq_append)
      apply depthBetween_congr rfl
      rw [hrest, List.head?_append_of_ne_nil _ hleft.ne_nil, List.head?_append_of_ne_nil _ hleft.ne_nil]
  · -- Behind it the word has moved by the clause, which leaves no parenthesis open.
    refine hfound (left ++ (clause ++ lead)) rest word later ⟨?_, ?_, ?_⟩
      ((hright.append_right h.apart_right).append_right h.apart_rest) hspelled
    · have htext := hcut.eq_append
      rw [List.append_assoc] at htext
      rw [List.append_cancel_left htext]
      simp only [List.append_assoc]
    · have hle := hcut.start_le
      rw [byteLength_append] at hle
      rw [byteLength_append, byteLength_append]
      omega
    · rw [← hcut.depth_eq_zero]
      exact depthBetween_congr (h.openAfter_eq lead) rfl

theorem sameSelects {first : List Char} (h : Insertion (before ++ gap) clause right) (hfirst : FirstWord clause first)
    (hsolid : ∃ c ∈ clause, isBlank c = false) (hwords : ∀ word ∈ runs isWord clause, ¬Spelled "SELECT".toList word)
    (hsql : (Outline.of sql).text = before ++ gap ++ right)
    (hagain : (Outline.of again).text = before ++ gap ++ (clause ++ right)) (hne : gap ≠ [])
    (hmain : (Outline.of sql).mainSelect? = some (.between before (gap ++ right))) :
    SameSelects sql again (.between before (gap ++ right)) (.between before (gap ++ (clause ++ right))) := by
  refine ⟨hmain, h.mainSelect? hsql hagain hne hmain, ?_, ?_⟩
  · exact h.search_eq_none_of_again hsql hagain (by decide)
  · exact h.search_eq_none hfirst hsolid hsql hagain (byteLength_succ_le hne)
      (fun _ _ => Cursor.isSome_word?_iff (by decide)) (List.forall_mem_nil _) hwords

end Insertion

theorem Plan.outcome_of_apply {plan : Plan} {text : List Char} {limited : Limited} (h : plan.apply text = .ok limited) :
    limited.outcome = plan.outcome := by
  unfold Plan.apply at h
  split at h
  · rw [← Except.ok.inj h]
  · split at h
    · rw [← Except.ok.inj h]
    · cases h

theorem Slot.outcome_atEnd (outline : Outline) (main : Cursor) (lead tail : List Char) (page : Option Nat) (limit : Nat) :
    ((atEnd outline main lead tail page).plan limit).outcome = outcome page limit := by
  unfold atEnd
  split
  · rfl
  · rfl

namespace Limiter

variable {limiter : Limiter} {timing : Timing} {sql : List Char} {main : Cursor} {limit offset rows : Nat}
  {limited : Limited}

/-- A count that is left or lowered belongs to the `TOP` of the main query. -/
theorem topBounds_of_written {count : WrittenCount} (haccepts : limiter.Accepts timing sql main)
    (htop : main.topForm? = some (.rows count))
    (hslot : SlotAt sql main offset limiter.database.usesTop (.written count)) (hmax : limit ≤ maxCount)
    (hlimit : limiter.limit sql ⟨limit, offset⟩ timing = .ok limited)
    (hknown : limited.outcome.effectiveLimit? = some rows) :
    (Outline.of limited.text).TopBounds rows ↔ (Outline.of sql).selectsOnce = true := by
  obtain ⟨front, digits, rest, hin⟩ := hslot.exists_countIn haccepts.mainSelect?_eq
  obtain ⟨left, right, hsite, hleft, rfl⟩ := hin.site
  obtain ⟨before, gap, rfl, hne, rfl⟩ := hin.behind
  have hmain := haccepts.mainSelect?_eq
  rw [limit_written haccepts hslot hin.countAt.count_eq hsite hleft] at hlimit
  rw [← Except.ok.inj hlimit] at hknown ⊢
  split at hknown
  · next hlow =>
      rw [if_pos hlow, Outline.topBounds_iff hmain htop]
      exact and_iff_left ⟨count, rfl, Option.some.inj hknown⟩
  · next hhigh =>
      obtain rfl := Option.some.inj hknown
      have hrecount := hin.countAt.recount limit
      have hsql := hin.countAt.eq_append
      have hclause : ∀ c ∈ Nat.toDigits 10 limit, isClauseChar c = true := fun _ hc => isClauseChar_of_mem_decimal hc
      have hagain := hsite.outline_joined hclause Nat.toDigits_ne_nil
      rw [hleft] at hagain
      have hsame := hrecount.sameSelects hsql hagain hne hmain
      rw [hin.countAt.count_eq] at htop
      rw [if_neg hhigh, Outline.topBounds_iff hsame.mainSelect?_again (hrecount.topForm?_again htop),
        hsame.selectsOnce_iff]
      exact and_iff_left ⟨_, rfl, WrittenCount.value_after _ hmax⟩

/-- A new `TOP` limits the main query, unless the word after it makes a share of the number. -/
theorem topBounds_of_head {after : Cursor} (haccepts : limiter.Accepts timing sql main)
    (hslot : SlotAt sql main offset limiter.database.usesTop (.clause after.offset " TOP ".toList [] none))
    (hpaging : (Outline.of sql).findTopLevel? main.offset (·.anyWord? pagingWords) = none)
    (htop : main.topForm? = none) (hhead : main.selectHead? = some after) (hmax : limit ≤ maxCount)
    (hlimit : limiter.limit sql ⟨limit, offset⟩ timing = .ok limited)
    (hknown : limited.outcome.effectiveLimit? = some rows) :
    (Outline.of limited.text).TopBounds rows ↔
      (Outline.of sql).selectsOnce = true ∧ (Outline.of sql).listsPercent = false := by
  obtain ⟨front, rest, hgap⟩ := hslot.exists_gapAt haccepts.mainSelect?_eq
  obtain ⟨left, right, hsite, hleft, rfl⟩ := hgap.site
  obtain ⟨before, gap, rfl, hne, rfl⟩ := hgap.behind
  have hmain := haccepts.mainSelect?_eq
  rw [limit_clause haccepts hslot hsite (by rw [hleft]; exact hgap.place_eq)] at hlimit
  rw [← Except.ok.inj hlimit] at hknown ⊢
  obtain rfl := Option.some.inj hknown
  have hinsertion := hgap.insertion limit
  have hagain := hsite.outline_joined hinsertion.all_clause hinsertion.ne_nil
  rw [hleft] at hagain
  have hsame := hinsertion.sameSelects (SlotAt.firstWord_top limit) (Around.solid _ _ limit)
    (fun word hword => (Lacks.numbered (by decide) hgap.around (by decide) (Lacks.nil ["SELECT".toList]) limit).not_spelled
      List.mem_cons_self word hword) hgap.eq_append hagain hne hmain
  have hform := SlotAt.topForm?_head (Outline.isSome_word?_of_mainSelect? hmain) hhead hgap limit
  rw [Outline.topBounds_iff hsame.mainSelect?_again hform, hsame.selectsOnce_iff,
    Outline.listsPercent_eq_of_selectHead? hmain hpaging htop hhead]
  apply and_congr_right'
  cases hpercent : (after.blanks?.bind (·.word? "PERCENT".toList)).isSome with
  | true => simp
  | false => simp [WrittenCount.value_after _ hmax]

/-- Where a number of rows is reported of a query of SQL Server that does not page, the `TOP` that is left there limits
the whole result to that number exactly if the main query was the only one, apart from a query whose new `TOP` comes
in front of the word `PERCENT`. -/
theorem topBounds_apply {category : Category} {window : RowWindow} (hdatabase : limiter.database = .sqlServer)
    (hmax : window.limit ≤ maxCount)
    (hknown : (limiter.apply category sql window timing).outcome.effectiveLimit? = some rows)
    (hpages : (Outline.of sql).pages = false)
    (hplain : ∀ start bound, (limiter.apply category sql window timing).outcome ≠ .paginated start bound) :
    (Outline.of (limiter.apply category sql window timing).text).TopBounds rows ↔
      (Outline.of sql).selectsOnce = true ∧ (Outline.of sql).listsPercent = false := by
  have hlimit := limit_of_effectiveLimit? hknown
  generalize limiter.apply category sql window timing = limited at hlimit hknown hplain ⊢
  obtain ⟨limit, offset⟩ := window
  obtain ⟨main, slot, haccepts, hslot, happly⟩ := limit_eq_ok_iff.mp hlimit
  have hmain := haccepts.mainSelect?_eq
  have htop : limiter.database.usesTop = true := by rw [hdatabase]; rfl
  have hpaging := (Outline.pages_eq_false_iff hmain).mp hpages
  have hkeep := hslot
  rw [htop] at hslot
  cases hslot with
  | fetch hcount =>
      rw [(Outline.paging_eq_none hpaging).1] at hcount
      cases hcount
  | offsetRows hfetch hoffset =>
      rw [(Outline.paging_eq_none hpaging).2.1] at hoffset
      cases hoffset
  | top _ hcount =>
      rw [topBounds_of_written haccepts hcount hkeep hmax hlimit hknown]
      exact (and_iff_left (Outline.listsPercent_eq_false_of_topForm? hmain hcount)).symm
  | page _ htopForm hpos =>
      refine absurd (Plan.outcome_of_apply happly) ?_
      rw [Slot.outcome_atEnd]
      exact hplain offset limit
  | head _ htopForm hzero hhead =>
      exact topBounds_of_head haccepts hkeep hpaging htopForm hhead hmax hlimit hknown

/-- A query in parentheses is no other query of the result. -/
theorem topBounds_apply_inner : ∃ sql : List Char, sql = "WITH q AS (SELECT 1 AS x) SELECT DISTINCT x FROM q".toList ∧
    ((usual .sqlServer).apply .readOnly sql ⟨100, 0⟩).outcome.effectiveLimit? = some 100 ∧
    (Outline.of sql).pages = false ∧ (Outline.of ((usual .sqlServer).apply .readOnly sql ⟨100, 0⟩).text).TopBounds 100 := by
  have hknown : ((usual .sqlServer).apply .readOnly "WITH q AS (SELECT 1 AS x) SELECT DISTINCT x FROM q".toList
      ⟨100, 0⟩).outcome = .inserted 100 := by decide +kernel
  have hpages : (Outline.of "WITH q AS (SELECT 1 AS x) SELECT DISTINCT x FROM q".toList).pages = false := by
    decide +kernel
  have heffective := congrArg Outcome.effectiveLimit? hknown
  have hbounds := topBounds_apply rfl (by decide) heffective hpages fun _ _ => hknown ▸ nofun
  exact ⟨_, rfl, heffective, hpages, hbounds.mpr ⟨by decide +kernel, by decide +kernel⟩⟩

/-- A `TOP` is put into the first query of a union, and its number is reported, although it does not limit the rows of
the second query. -/
theorem not_topBounds_of_union : ∃ sql : List Char, sql = "SELECT a FROM t UNION ALL SELECT b FROM u".toList ∧
    (usual .sqlServer).apply .readOnly sql ⟨100, 0⟩ =
      ⟨"SELECT TOP 100 a FROM t UNION ALL SELECT b FROM u".toList, .inserted 100⟩ ∧
    (Outline.of sql).pages = false ∧ (Outline.of sql).selectsOnce = false ∧
    ¬(Outline.of "SELECT TOP 100 a FROM t UNION ALL SELECT b FROM u".toList).TopBounds 100 := by
  refine ⟨_, rfl, by decide +kernel, by decide +kernel, by decide +kernel, ?_⟩
  rintro ⟨honce, -⟩
  exact absurd honce (by decide +kernel)

end Limiter

end SqlGate
