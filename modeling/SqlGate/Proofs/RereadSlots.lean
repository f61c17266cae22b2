import SqlGate.Proofs.Reread

/-! The slots of a statement with a new clause. Each kind of clause is found again where it was put, ahead of
everything else that the search looks for, and its number is the slot of the limit. -/

namespace SqlGate

open Unicode

theorem isNumber_decimal (count : Nat) : IsNumber (Nat.toDigits 10 count) :=
  fun _ hc => isDigit_of_mem_decimal hc

theorem runs_decimal (count : Nat) : runs isWord (Nat.toDigits 10 count) = [Nat.toDigits 10 count] :=
  runs_of_all Nat.toDigits_ne_nil fun _ hc => isWord_of_isDigit (isDigit_of_mem_decimal hc)

theorem not_spelled_decimal {keyword : List Char} (hkey : isKeyword keyword = true) (count : Nat) :
    ¬Spelled keyword (Nat.toDigits 10 count) := by
  intro hspelled
  obtain ⟨c, digits, hdigits⟩ := List.exists_cons_of_ne_nil (@Nat.toDigits_ne_nil count 10)
  have hc : c ∈ Nat.toDigits 10 count := by
    rw [hdigits]
    exact List.mem_cons_self
  have hdigit := isDigit_of_mem_decimal hc
  rw [hspelled.isDigit_eq_false hkey c hc] at hdigit
  cases hdigit

namespace Around

variable {lead tail : List Char}

theorem solid (lead tail : List Char) (limit : Nat) :
    ∃ c ∈ lead ++ (Nat.toDigits 10 limit ++ tail), isBlank c = false := by
  obtain ⟨c, digits, hdigits⟩ := List.exists_cons_of_ne_nil (@Nat.toDigits_ne_nil limit 10)
  have hc : c ∈ Nat.toDigits 10 limit := by
    rw [hdigits]
    exact List.mem_cons_self
  exact ⟨c, by simp [hc], isBlank_eq_false_of_isDigit (isDigit_of_mem_decimal hc)⟩

theorem apart_lead (h : Around lead tail) (text : List Char) : Apart lead text := by
  intro c d hc _ hword
  rw [h.last] at hc
  obtain rfl := Option.some.inj hc
  exact absurd hword (by decide)

theorem apart_tail (h : Around lead tail) (text : List Char) : Apart text tail := by
  intro c d _ hd _
  rw [h.next d hd]
  decide

end Around

section Lacks

variable {keywords : List (List Char)} {lead tail : List Char}

theorem lacks_decimal (hkeys : ∀ keyword ∈ keywords, isKeyword keyword = true) (count : Nat) :
    Lacks keywords (Nat.toDigits 10 count) := by
  intro word hmem
  rw [runs_decimal, List.mem_singleton] at hmem
  subst hmem
  rintro ⟨keyword, hkeyword, hspelled⟩
  exact not_spelled_decimal (hkeys keyword hkeyword) count hspelled

/-- A clause lacks words that are neither in front of its number nor behind it. -/
theorem Lacks.numbered (hkeys : ∀ keyword ∈ keywords, isKeyword keyword = true) (h : Around lead tail)
    (hlead : Lacks keywords lead) (htail : Lacks keywords tail) (limit : Nat) :
    Lacks keywords (lead ++ (Nat.toDigits 10 limit ++ tail)) :=
  hlead.append ((lacks_decimal hkeys limit).append htail (h.apart_tail _)) (h.apart_lead _)

end Lacks

/-- No word that a new clause begins with comes later in `FETCH NEXT n ROWS ONLY`. -/
theorem Cursor.not_fetchPhrase_tail {word : List Char}
    (h : word ∈ ["FETCH".toList, "LIMIT".toList, "ORDER".toList, "OFFSET".toList]) :
    ∀ later ∈ fetchPhrase.tail, ¬later word := by
  simp only [List.mem_cons, List.not_mem_nil, or_false] at h
  simp only [fetchPhrase, List.tail_cons, List.forall_mem_cons]
  rcases h with rfl | rfl | rfl | rfl
  · exact ⟨by decide, by decide, by decide, by decide, List.forall_mem_nil _⟩
  · exact ⟨by decide, by decide, by decide, by decide, List.forall_mem_nil _⟩
  · exact ⟨by decide, by decide, by decide, by decide, List.forall_mem_nil _⟩
  · exact ⟨by decide, by decide, by decide, by decide, List.forall_mem_nil _⟩

namespace GapAt

variable {sql again lead tail pre more front rest first : List Char} {main : Cursor} {place limit : Nat}

theorem start_le (h : GapAt sql main place lead tail front rest) : main.offset ≤ byteLength front := by
  obtain ⟨before, gap, hfront, -, hmain⟩ := h.behind
  rw [hmain, hfront, byteLength_append]
  exact Nat.le_add_right _ _

/-- No word follows a clause that ends with one. -/
theorem stops_of_getLast (h : GapAt sql main place lead tail front rest) (htail : tail = " ROWS ONLY".toList) :
    ∀ c, ([] ++ rest).head? = some c → isWord c = false := by
  rcases h.edge.cases with ⟨-, hstops⟩ | ⟨⟨more, hmore⟩, -⟩
  · exact hstops
  · have hlast := congrArg List.getLast? (htail.symm.trans hmore)
    rw [List.getLast?_concat] at hlast
    exact absurd hlast (by decide)

theorem depth_eq_zero (hclosed : openAfter 0 front = 0) (hpre : ∀ depth, openAfter depth pre = depth) {c : Char}
    (hc : c ≠ ')') : depthBetween (front ++ pre) (c :: rest) = 0 := by
  rw [depthBetween, if_neg hc, openAfter_append, hclosed, hpre]

/-- A new `FETCH` clause is the first one. -/
theorem fetchCount? (pre first : List Char) (h : GapAt sql main place lead tail front rest)
    (hclosed : openAfter 0 front = 0)
    (hagain : (Outline.of again).text = front ++ ((lead ++ (Nat.toDigits 10 limit ++ tail)) ++ rest))
    (hlead : lead = pre ++ "FETCH NEXT ".toList) (hmore : tail = " ROWS ONLY".toList ++ more)
    (hspace : pre.getLast? = some ' ') (hpre : ∀ depth, openAfter depth pre = depth)
    (hwords : Lacks ["FETCH".toList] pre)
    (hfirst : FirstWord (lead ++ (Nat.toDigits 10 limit ++ tail)) first)
    (hlater : ∀ later ∈ Cursor.fetchPhrase.tail, ¬later first)
    (hstop : ∀ c, (more ++ rest).head? = some c → isWord c = false)
    (hnone : (Outline.of sql).findTopLevel? main.offset Cursor.fetchCount? = none) :
    (Outline.of again).findTopLevel? main.offset Cursor.fetchCount? =
      some (.after (front ++ lead) (Nat.toDigits 10 limit)) := by
  have hlast : (front ++ pre).getLast? = some ' ' := by
    rw [List.getLast?_append, hspace]
    rfl
  have hopens : Opens (front ++ pre) := by
    intro c hc
    rw [hlast] at hc
    rw [← Option.some.inj hc]
    decide
  have hapart : Apart pre ("FETCH NEXT ".toList ++ (Nat.toDigits 10 limit ++ tail)) := by
    intro c d hc _ hword
    rw [hspace] at hc
    rw [← Option.some.inj hc] at hword
    exact absurd hword (by decide)
  have hclause : lead ++ (Nat.toDigits 10 limit ++ tail) =
      pre ++ ("FETCH NEXT ".toList ++ (Nat.toDigits 10 limit ++ tail)) := by
    rw [hlead, List.append_assoc]
  refine (h.insertion limit).search hfirst (Around.solid lead tail limit) h.eq_append hagain h.start_le
    (fun _ _ => Cursor.isSome_fetchCount?_iff) hlater hclause hapart (hwords.not_spelled (by decide)) hnone ?_ ?_
  · exact depth_eq_zero hclosed hpre (by decide)
  · have hread := Cursor.fetchCount?_self hopens Nat.toDigits_ne_nil (isNumber_decimal limit) hstop
    rw [hlead, hmore]
    simpa using hread

theorem wordAt_limit (limit : Nat) (hlead : lead = pre ++ "LIMIT ".toList) (hpre : pre = [] ∨ pre = [' ']) :
    WordAt (lead ++ (Nat.toDigits 10 limit ++ tail)) pre "LIMIT".toList (' ' :: (Nat.toDigits 10 limit ++ tail)) := by
  refine .of_keyword (by decide) (by rw [hlead]; simp) ?_ Cursor.isWord_of_head_space
  rcases hpre with rfl | rfl
  · exact Cursor.opens_nil
  · exact Cursor.opens_space []

theorem firstWord_limit (limit : Nat) (hlead : lead = pre ++ "LIMIT ".toList) (hpre : pre = [] ∨ pre = [' ']) :
    FirstWord (lead ++ (Nat.toDigits 10 limit ++ tail)) "LIMIT".toList := by
  refine firstWord_of_wordAt _ ?_ (wordAt_limit limit hlead hpre)
  rcases hpre with rfl | rfl
  · exact List.forall_mem_nil _
  · exact fun _ => isBlank_of_mem_space

/-- A new `LIMIT` clause is the first one. -/
theorem limitCount? (h : GapAt sql main place lead tail front rest) (hclosed : openAfter 0 front = 0)
    (hagain : (Outline.of again).text = front ++ ((lead ++ (Nat.toDigits 10 limit ++ tail)) ++ rest))
    (hlead : lead = pre ++ "LIMIT ".toList) (hpre : pre = [] ∨ pre = [' '])
    (hcomma : ((tail ++ rest).dropWhile isBlank).head? ≠ some ',')
    (hnone : (Outline.of sql).findTopLevel? main.offset Cursor.limitCount? = none) :
    (Outline.of again).findTopLevel? main.offset Cursor.limitCount? =
      some (.after (front ++ lead) (Nat.toDigits 10 limit)) := by
  have hopens : Opens (front ++ pre) := by
    rcases hpre with rfl | rfl
    · rw [List.append_nil]
      rcases h.edge.cases with ⟨⟨more, hmore⟩, -⟩ | ⟨-, hopens⟩
      · rw [hmore] at hlead
        exact absurd (List.cons.inj hlead).1 (by decide)
      · exact hopens
    · exact Cursor.opens_space front
  have hapart : Apart pre ("LIMIT ".toList ++ (Nat.toDigits 10 limit ++ tail)) := by
    intro c d hc _ hword
    have hat : WordAt (lead ++ (Nat.toDigits 10 limit ++ tail)) pre _ _ := wordAt_limit limit hlead hpre
    rw [hat.opens c hc] at hword
    cases hword
  have hclause : lead ++ (Nat.toDigits 10 limit ++ tail) =
      pre ++ ("LIMIT ".toList ++ (Nat.toDigits 10 limit ++ tail)) := by
    rw [hlead, List.append_assoc]
  have hwords : ∀ word ∈ runs isWord pre, ¬Spelled "LIMIT".toList word := by
    rcases hpre with rfl | rfl
    · exact List.forall_mem_nil _
    · exact List.forall_mem_nil _
  have hbalanced : ∀ depth, openAfter depth pre = depth := by
    rcases hpre with rfl | rfl
    · exact fun _ => rfl
    · exact fun _ => rfl
  have hnumber : ∀ later ∈ [IsNumber], ¬later "LIMIT".toList := by
    rw [List.forall_mem_singleton]
    decide
  refine (h.insertion limit).search (firstWord_limit limit hlead hpre) (Around.solid lead tail limit) h.eq_append hagain
    h.start_le (fun _ _ => Cursor.isSome_limitCount?_iff) hnumber hclause hapart hwords hnone ?_ ?_
  · exact depth_eq_zero hclosed hbalanced (by decide)
  · have hread := Cursor.limitCount?_self hopens Nat.toDigits_ne_nil (isNumber_decimal limit) h.stops hcomma
    rw [hlead]
    simpa using hread

/-- A new `LIMIT` clause brings no `FETCH` with it. -/
theorem fetchCount?_eq_none (h : GapAt sql main place lead tail front rest)
    (hagain : (Outline.of again).text = front ++ ((lead ++ (Nat.toDigits 10 limit ++ tail)) ++ rest))
    (hlead : lead = pre ++ "LIMIT ".toList) (hpre : pre = [] ∨ pre = [' '])
    (htail : Lacks ["FETCH".toList] tail)
    (hnone : (Outline.of sql).findTopLevel? main.offset Cursor.fetchCount? = none) :
    (Outline.of again).findTopLevel? main.offset Cursor.fetchCount? = none := by
  have hlater : ∀ later ∈ Cursor.fetchPhrase.tail, ¬later "LIMIT".toList :=
    Cursor.not_fetchPhrase_tail (by decide)
  have hleadLacks : Lacks ["FETCH".toList] lead := by
    rcases hpre with rfl | rfl
    · rw [hlead]
      decide
    · rw [hlead]
      decide
  exact (h.insertion limit).search_eq_none (firstWord_limit limit hlead hpre) (Around.solid lead tail limit)
    h.eq_append hagain h.start_le (fun _ _ => Cursor.isSome_fetchCount?_iff) hlater
    ((Lacks.numbered (by decide) h.around hleadLacks htail limit).not_spelled (by decide)) hnone

end GapAt

theorem eq_of_byteLength_eq {left right front rest : List Char} (h : left ++ right = front ++ rest)
    (hsize : byteLength left = byteLength front) : left = front ∧ right = rest := by
  obtain ⟨gap, hfront, hright⟩ := exists_gap_of_byteLength_le h (Nat.le_of_eq hsize)
  have hgap : gap = [] := by
    by_contra hne
    have hpos := byteLength_pos hne
    rw [hfront, byteLength_append] at hsize
    omega
  subst hgap
  exact ⟨by rw [hfront, List.append_nil], hright⟩

/-- The words in front of the count of a page: no `FETCH` but the last, and the first one is no part of a
`FETCH` clause. -/
theorem Slot.exists_pageLead (outline : Outline) (main : Cursor) (offset : Nat) :
    ∃ pre first tail, Slot.pageLead outline main offset = pre ++ "FETCH NEXT ".toList ∧ pre = first ++ ' ' :: tail ∧
      pre.getLast? = some ' ' ∧ (∀ depth, openAfter depth pre = depth) ∧
      Lacks ["FETCH".toList] pre ∧ (first = "ORDER".toList ∨ first = "OFFSET".toList) := by
  have hoffset : Lacks ["FETCH".toList] ("OFFSET ".toList ++ (Nat.toDigits 10 offset ++ " ROWS ".toList)) :=
    Lacks.numbered (by decide) (.of_all (by decide) (by decide) (fun _ => rfl) (fun _ => rfl) rfl rfl)
      (by decide) (by decide) offset
  have hlast : ∀ lead : List Char,
      (lead ++ ("OFFSET ".toList ++ (Nat.toDigits 10 offset ++ " ROWS ".toList))).getLast? = some ' ' := by
    intro lead
    rw [← List.append_assoc, ← List.append_assoc]
    exact List.getLast?_append_of_ne_nil _ (by decide)
  have hbalanced : ∀ depth,
      openAfter depth ("OFFSET ".toList ++ (Nat.toDigits 10 offset ++ " ROWS ".toList)) = depth := by
    intro depth
    rw [openAfter_append, openAfter_append, openAfter_decimal]
    rfl
  rw [Slot.pageLead]
  split
  · refine ⟨[] ++ ("OFFSET ".toList ++ (Nat.toDigits 10 offset ++ " ROWS ".toList)), "OFFSET".toList,
      Nat.toDigits 10 offset ++ " ROWS ".toList, ?_, rfl, hlast [], hbalanced, hoffset, Or.inr rfl⟩
    rw [List.append_assoc, List.append_assoc, List.append_assoc]
    rfl
  · refine ⟨"ORDER BY (SELECT NULL) ".toList ++ ("OFFSET ".toList ++ (Nat.toDigits 10 offset ++ " ROWS ".toList)),
      "ORDER".toList, "BY (SELECT NULL) ".toList ++ ("OFFSET ".toList ++ (Nat.toDigits 10 offset ++ " ROWS ".toList)),
      ?_, rfl, hlast _, ?_, ?_, Or.inl rfl⟩
    · rw [List.append_assoc, List.append_assoc, List.append_assoc]
      rfl
    · intro depth
      rw [openAfter_append]
      exact hbalanced depth
    · refine Lacks.append (by decide) hoffset fun c d hc _ hword => ?_
      obtain rfl : ' ' = c := Option.some.inj hc
      exact absurd hword (by decide)

/-- The clause of a page begins with other words than `FETCH` and has it in front of its number. -/
theorem Slot.exists_fetch_of_page {outline : Outline} {main : Cursor} {lead tail : List Char} {place offset : Nat}
    {page named : Option Nat} (h : Slot.clause place lead tail page =
      .atEnd outline main (Slot.pageLead outline main offset) " ROWS ONLY".toList named) :
    ∃ pre more first, lead = pre ++ "FETCH NEXT ".toList ∧ tail = " ROWS ONLY".toList ++ more ∧
      (more = [] ∨ more = [' ']) ∧ pre.getLast? = some ' ' ∧ (∀ depth, openAfter depth pre = depth) ∧
      Lacks ["FETCH".toList] pre ∧ (∀ limit, FirstWord (lead ++ (Nat.toDigits 10 limit ++ tail)) first) ∧
      (first = "ORDER".toList ∨ first = "OFFSET".toList) := by
  obtain ⟨pre, first, later, hlead, hpre, hspace, hbalanced, hlacks, hfirst⟩ := Slot.exists_pageLead outline main offset
  have hkey : isKeyword first = true := by
    rcases hfirst with rfl | rfl
    · rfl
    · rfl
  have hnumbered : ∀ (limit : Nat) (more : List Char),
      Slot.pageLead outline main offset ++ (Nat.toDigits 10 limit ++ more) =
        first ++ (' ' :: (later ++ ("FETCH NEXT ".toList ++ (Nat.toDigits 10 limit ++ more)))) := by
    intro limit more
    rw [hlead, hpre, List.append_assoc, List.append_assoc]
    rfl
  rcases Slot.atEnd_cases h with ⟨rfl, rfl⟩ | ⟨rfl, rfl⟩
  · refine ⟨pre, [' '], first, hlead, rfl, Or.inr rfl, hspace, hbalanced, hlacks, fun limit => ?_, hfirst⟩
    exact firstWord_of_wordAt [] (List.forall_mem_nil _)
      (.of_keyword hkey (hnumbered limit _) Cursor.opens_nil Cursor.isWord_of_head_space)
  · refine ⟨' ' :: pre, [], first, by rw [hlead]; rfl, (List.append_nil _).symm, Or.inl rfl, ?_, hbalanced,
      hlacks.cons_space, fun limit => ?_, hfirst⟩
    · rw [List.getLast?_cons, hspace]
      rfl
    · exact firstWord_of_wordAt [' '] (fun _ => isBlank_of_mem_space)
        (.of_keyword hkey (congrArg (' ' :: ·) (hnumbered limit _)) (Cursor.opens_space []) Cursor.isWord_of_head_space)

namespace SlotAt

variable {sql again lead tail front rest : List Char} {main : Cursor} {place offset limit : Nat} {page : Option Nat}

/-- No comma comes next after a new `LIMIT`, so its number is not read as an offset. -/
theorem head_ne_comma (h : SlotAt sql main offset false (.clause place lead tail page))
    (hmain : (Outline.of sql).mainSelect? = some main) (htext : (Outline.of sql).text = front ++ rest)
    (hplace : place = byteLength front) : ((tail ++ rest).dropWhile isBlank).head? ≠ some ',' := by
  have hword : ∀ {left right : List Char} {keywords : List (List Char)},
      TopCut (Outline.of sql).text main.offset left right → PhraseAt (left ++ right) [SpelledAny keywords] left →
        byteLength left = byteLength front → (([' '] ++ rest).dropWhile isBlank).head? ≠ some ',' := by
    intro left right keywords hcut hphrase hsize
    obtain ⟨-, rfl⟩ := eq_of_byteLength_eq (hcut.eq_append.symm.trans htext) hsize
    obtain ⟨word, later, hat, -⟩ := hphrase.exists_wordAt
    obtain ⟨c, hc, hcWord⟩ := hat.head_eq rfl
    obtain ⟨more, rfl⟩ := List.head?_eq_some_iff.mp hc
    rw [List.singleton_append, List.dropWhile_cons_of_pos (by decide), List.dropWhile_cons_of_neg]
    · intro hcomma
      obtain rfl := Option.some.inj hcomma
      exact absurd hcWord (by decide)
    · rw [isBlank_eq_false_of_isWord hcWord]
      decide
  generalize hslot : Slot.clause place lead tail page = slot at h
  cases h with
  | fetch hcount => cases hslot
  | limit hfetch hcount => cases hslot
  | bareOffset hfetch hlimit hoffset =>
      obtain ⟨rfl, rfl, rfl, -⟩ := Slot.clause.inj hslot
      obtain ⟨left, right, hcut, hread, -⟩ := Outline.findTopLevel?_eq_some_iff.mp hoffset
      obtain ⟨rfl, hphrase⟩ := Cursor.exists_wordAt_of_bareOffset hread
      exact hword hcut hphrase hplace
  | pageLimit hpaging hpos =>
      rcases Slot.atEnd_cases hslot with ⟨-, rfl⟩ | ⟨-, rfl⟩
      · exact fun hcomma => absurd (Option.some.inj hcomma) (by decide)
      · exact fun hcomma => absurd (Option.some.inj hcomma) (by decide)
  | newLimit hpaging hzero =>
      rw [Slot.atEnd] at hslot
      split at hslot
      · next trailing htrailing =>
          obtain ⟨rfl, -, rfl, -⟩ := Slot.clause.inj hslot
          obtain ⟨left, right, hcut, hread, -⟩ := Outline.findTopLevel?_eq_some_iff.mp htrailing
          obtain ⟨rfl, hphrase⟩ := Cursor.exists_wordAt_of_trailingClause hread
          exact hword hcut hphrase hplace
      · obtain ⟨rfl, -, rfl, -⟩ := Slot.clause.inj hslot
        obtain ⟨before, after, hcut, hphrase, -⟩ := Outline.mainSelect?_eq_some_iff.mp hmain
        obtain ⟨word, later, hat, -⟩ := hphrase.exists_wordAt
        obtain ⟨gap, last, hcode, hend, -, hlast⟩ := Outline.exists_endOfCode hat
        obtain ⟨-, rfl⟩ := eq_of_byteLength_eq (hcode.symm.trans htext) (hend.symm.trans hplace)
        intro hcomma
        have hmem := (List.dropWhile_sublist _).mem (List.mem_of_head? hcomma)
        exact absurd (hlast _ hmem) (by decide)

theorem isSome_anyWord?_iff {keywords : List (List Char)} (hkeys : ∀ keyword ∈ keywords, isKeyword keyword = true) :
    ((Cursor.between front rest).anyWord? keywords).isSome ↔ PhraseAt (front ++ rest) [SpelledAny keywords] front := by
  constructor
  · intro h
    obtain ⟨after, hread⟩ := Option.isSome_iff_exists.mp h
    obtain ⟨keyword, hmem, hword⟩ := (Cursor.anyWord?_eq_some_iff hkeys).mp hread
    obtain ⟨word, later, hat, hspelled, -⟩ := (Cursor.word?_eq_some_iff (hkeys keyword hmem)).mp hword
    exact .word hat ⟨keyword, hmem, hspelled⟩
  · intro h
    obtain ⟨word, later, hat, keyword, hmem, hspelled⟩ := h.exists_wordAt
    have hread := (Cursor.word?_eq_some_iff (hkeys keyword hmem)).mpr ⟨word, later, hat, hspelled, rfl⟩
    rw [(Cursor.anyWord?_eq_some_iff hkeys).mpr ⟨keyword, hmem, hread⟩]
    rfl

/-- The slot of a page is the count of its `FETCH` clause. -/
theorem reread_page (hpaging : (Outline.of sql).findTopLevel? main.offset (·.anyWord? pagingWords) = none)
    (hslot : Slot.clause place lead tail page =
      .atEnd (.of sql) main (Slot.pageLead (.of sql) main offset) " ROWS ONLY".toList offset)
    (hgap : GapAt sql main place lead tail front rest) (hclosed : openAfter 0 front = 0)
    (hagain : (Outline.of again).text = front ++ ((lead ++ (Nat.toDigits 10 limit ++ tail)) ++ rest)) :
    (Outline.of again).findTopLevel? main.offset Cursor.fetchCount? =
      some (.after (front ++ lead) (Nat.toDigits 10 limit)) := by
  obtain ⟨hnone, -⟩ := Outline.paging_eq_none hpaging
  obtain ⟨pre, more, first, hlead, htail, hmore, hspace, hbalanced, hlacks, hfirstWord, hfirst⟩ :=
    Slot.exists_fetch_of_page hslot
  have hlater : ∀ next ∈ Cursor.fetchPhrase.tail, ¬next first := by
    rcases hfirst with rfl | rfl
    · exact Cursor.not_fetchPhrase_tail (by decide)
    · exact Cursor.not_fetchPhrase_tail (by decide)
  refine hgap.fetchCount? pre first hclosed hagain hlead htail hspace hbalanced hlacks (hfirstWord limit) hlater ?_ hnone
  rcases hmore with rfl | rfl
  · rw [List.append_nil] at htail
    exact hgap.stops_of_getLast htail
  · exact Cursor.isWord_of_head_space

theorem firstWord_top (limit : Nat) : FirstWord (" TOP ".toList ++ (Nat.toDigits 10 limit ++ [])) "TOP".toList :=
  firstWord_of_wordAt [' '] (fun _ => isBlank_of_mem_space)
    (.of_keyword (by decide) rfl (Cursor.opens_space []) Cursor.isWord_of_head_space)

/-- A new `TOP` is the one of the query. -/
theorem topForm?_head {before gap : List Char} {after : Cursor}
    (hselect : ((Cursor.between before (gap ++ rest)).word? "SELECT".toList).isSome)
    (hhead : (Cursor.between before (gap ++ rest)).selectHead? = some after)
    (hgap : GapAt sql (.between before (gap ++ rest)) after.offset " TOP ".toList [] (before ++ gap) rest) (limit : Nat) :
    (Cursor.between before (gap ++ ((" TOP ".toList ++ (Nat.toDigits 10 limit ++ [])) ++ rest))).topForm? =
      some (if (after.blanks?.bind (·.word? "PERCENT".toList)).isSome then .percent
        else .rows (.after (before ++ gap ++ " TOP ".toList) (Nat.toDigits 10 limit))) := by
  obtain ⟨clause, later, hrest, rfl, htop⟩ :=
    Cursor.exists_topForm?_self hselect hhead Nat.toDigits_ne_nil (isNumber_decimal limit)
  have htext : before ++ clause ++ later = before ++ gap ++ rest := by
    rw [List.append_assoc, List.append_assoc, hrest]
  obtain ⟨hfront, rfl⟩ := eq_of_byteLength_eq htext hgap.place_eq
  obtain rfl := List.append_cancel_left hfront
  rw [List.append_nil, List.append_assoc]
  exact htop

/-- A new `TOP` brings no paging word with it. -/
theorem reread_head {before gap : List Char} {after : Cursor}
    (hpaging : (Outline.of sql).findTopLevel? (byteLength before) (·.anyWord? pagingWords) = none)
    (hselect : ((Cursor.between before (gap ++ rest)).word? "SELECT".toList).isSome)
    (hhead : (Cursor.between before (gap ++ rest)).selectHead? = some after)
    (hpercent : after.blanks?.bind (·.word? "PERCENT".toList) = none)
    (hgap : GapAt sql (.between before (gap ++ rest)) after.offset " TOP ".toList [] (before ++ gap) rest)
    (hagain : (Outline.of again).text =
      before ++ gap ++ ((" TOP ".toList ++ (Nat.toDigits 10 limit ++ [])) ++ rest)) :
    SlotAt again (.between before (gap ++ ((" TOP ".toList ++ (Nat.toDigits 10 limit ++ [])) ++ rest))) offset true
      (.written (.after (before ++ gap ++ " TOP ".toList) (Nat.toDigits 10 limit))) := by
  have hnone : (Outline.of again).findTopLevel? (byteLength before) (·.anyWord? pagingWords) = none :=
    (hgap.insertion limit).search_eq_none (firstWord_top limit) (Around.solid _ _ limit) hgap.eq_append hagain
      hgap.start_le (fun _ _ => isSome_anyWord?_iff (by decide)) (List.forall_mem_nil _)
      (Lacks.numbered (by decide) hgap.around (by decide) (Lacks.nil _) limit) hpaging
  refine .top hnone ((topForm?_head hselect hhead hgap limit).trans ?_)
  rw [hpercent]
  rfl

/-- The number of a new `FETCH` behind an offset is the count of that clause. -/
theorem reread_offsetRows (hfetch : (Outline.of sql).findTopLevel? main.offset Cursor.fetchCount? = none)
    (hgap : GapAt sql main place " FETCH NEXT ".toList " ROWS ONLY".toList front rest) (hclosed : openAfter 0 front = 0)
    (hagain : (Outline.of again).text =
      front ++ ((" FETCH NEXT ".toList ++ (Nat.toDigits 10 limit ++ " ROWS ONLY".toList)) ++ rest)) :
    (Outline.of again).findTopLevel? main.offset Cursor.fetchCount? =
      some (.after (front ++ " FETCH NEXT ".toList) (Nat.toDigits 10 limit)) := by
  have hat : WordAt (" FETCH NEXT ".toList ++ (Nat.toDigits 10 limit ++ " ROWS ONLY".toList)) [' '] "FETCH".toList
      (" NEXT ".toList ++ (Nat.toDigits 10 limit ++ " ROWS ONLY".toList)) :=
    .of_keyword (by decide) rfl (Cursor.opens_space []) Cursor.isWord_of_head_space
  have hlater : ∀ next ∈ Cursor.fetchPhrase.tail, ¬next "FETCH".toList := Cursor.not_fetchPhrase_tail (by decide)
  exact hgap.fetchCount? [' '] "FETCH".toList hclosed hagain rfl (List.append_nil _).symm rfl (fun _ => rfl)
    (List.forall_mem_nil _) (firstWord_of_wordAt _ (fun _ => isBlank_of_mem_space) hat) hlater
    (hgap.stops_of_getLast rfl) hfetch

/-- The number of a new `LIMIT` is the count of that clause, and there is no `FETCH` in front of it. -/
theorem reread_limit {pre : List Char} (h : SlotAt sql main offset false (.clause place lead tail page))
    (hmain : (Outline.of sql).mainSelect? = some main) (hgap : GapAt sql main place lead tail front rest)
    (hclosed : openAfter 0 front = 0)
    (hagain : (Outline.of again).text = front ++ ((lead ++ (Nat.toDigits 10 limit ++ tail)) ++ rest))
    (hlead : lead = pre ++ "LIMIT ".toList) (hpre : pre = [] ∨ pre = [' ']) (htail : Lacks ["FETCH".toList] tail)
    (hfetch : (Outline.of sql).findTopLevel? main.offset Cursor.fetchCount? = none)
    (hlimit : (Outline.of sql).findTopLevel? main.offset Cursor.limitCount? = none) :
    (Outline.of again).findTopLevel? main.offset Cursor.fetchCount? = none ∧
      (Outline.of again).findTopLevel? main.offset Cursor.limitCount? =
        some (.after (front ++ lead) (Nat.toDigits 10 limit)) := by
  have hcomma := h.head_ne_comma hmain hgap.eq_append hgap.place_eq
  exact ⟨hgap.fetchCount?_eq_none hagain hlead hpre htail hfetch,
    hgap.limitCount? hclosed hagain hlead hpre hcomma hlimit⟩

/-- So it is where the clause goes to the end of a query without a limit. -/
theorem reread_limit_atEnd {more : List Char} {named : Option Nat}
    (h : SlotAt sql main offset false (.clause place lead tail page))
    (hmain : (Outline.of sql).mainSelect? = some main) (hgap : GapAt sql main place lead tail front rest)
    (hclosed : openAfter 0 front = 0)
    (hagain : (Outline.of again).text = front ++ ((lead ++ (Nat.toDigits 10 limit ++ tail)) ++ rest))
    (hend : Slot.clause place lead tail page = .atEnd (.of sql) main "LIMIT ".toList more named)
    (hmore : Lacks ["FETCH".toList] more)
    (hpaging : (Outline.of sql).findTopLevel? main.offset (·.anyWord? limitWords) = none) :
    (Outline.of again).findTopLevel? main.offset Cursor.fetchCount? = none ∧
      (Outline.of again).findTopLevel? main.offset Cursor.limitCount? =
        some (.after (front ++ lead) (Nat.toDigits 10 limit)) := by
  obtain ⟨hfetch, hlimit, -⟩ := Outline.limiting_eq_none hpaging
  rcases Slot.atEnd_cases hend with ⟨hlead, htail⟩ | ⟨hlead, htail⟩
  · exact h.reread_limit hmain hgap hclosed hagain hlead (Or.inl rfl) (htail ▸ hmore.concat_space) hfetch hlimit
  · exact h.reread_limit hmain hgap hclosed hagain hlead (Or.inr rfl) (htail ▸ hmore) hfetch hlimit

/-- The number of a new clause is the slot of the limit when the statement is read again, unless a new `TOP`
comes in front of the word `PERCENT`. -/
theorem reread {before gap : List Char} {top : Bool}
    (h : SlotAt sql (.between before (gap ++ rest)) offset top (.clause place lead tail page))
    (hmain : (Outline.of sql).mainSelect? = some (.between before (gap ++ rest)))
    (hgap : GapAt sql (.between before (gap ++ rest)) place lead tail (before ++ gap) rest)
    (hclosed : openAfter 0 (before ++ gap) = 0)
    (hagain : (Outline.of again).text = before ++ gap ++ ((lead ++ (Nat.toDigits 10 limit ++ tail)) ++ rest))
    (hpercent : ∀ after, top = true → (Cursor.between before (gap ++ rest)).selectHead? = some after →
      (Outline.of sql).findTopLevel? (byteLength before) (·.anyWord? pagingWords) = none →
      (Cursor.between before (gap ++ rest)).topForm? = none → after.blanks?.bind (·.word? "PERCENT".toList) = none) :
    SlotAt again (.between before (gap ++ ((lead ++ (Nat.toDigits 10 limit ++ tail)) ++ rest))) offset top
      (.written (.after (before ++ gap ++ lead) (Nat.toDigits 10 limit))) := by
  have hkeep := h
  generalize hslot : Slot.clause place lead tail page = slot at h
  cases h with
  | fetch hcount => cases hslot
  | offsetRows hfetch hoffset =>
      obtain ⟨rfl, rfl, rfl, -⟩ := Slot.clause.inj hslot
      have hfound := reread_offsetRows hfetch hgap hclosed hagain
      exact .fetch hfound
  | top hpaging hcount => cases hslot
  | page hpaging htop hpos =>
      have hfound := reread_page hpaging hslot hgap hclosed hagain
      exact .fetch hfound
  | head hpaging htop hzero hhead =>
      obtain ⟨rfl, rfl, rfl, -⟩ := Slot.clause.inj hslot
      have hselect := Outline.isSome_word?_of_mainSelect? hmain
      exact reread_head hpaging hselect hhead (hpercent _ rfl hhead hpaging htop) hgap hagain
  | limit hfetch hcount => cases hslot
  | bareOffset hfetch hlimit hoffset =>
      obtain ⟨-, rfl, rfl, -⟩ := Slot.clause.inj hslot
      obtain ⟨hnone, hfound⟩ := hkeep.reread_limit hmain hgap hclosed hagain (List.nil_append _).symm (Or.inl rfl)
        (Lacks.nil _).cons_space hfetch hlimit
      exact .limit hnone hfound
  | pageLimit hpaging hpos =>
      have htail := Lacks.numbered (by decide : ∀ keyword ∈ ["FETCH".toList], isKeyword keyword = true) Around.offset
        (by decide) (Lacks.nil _) offset
      rw [List.append_nil] at htail
      obtain ⟨hnone, hfound⟩ := hkeep.reread_limit_atEnd hmain hgap hclosed hagain hslot htail hpaging
      exact .limit hnone hfound
  | newLimit hpaging hzero =>
      obtain ⟨hnone, hfound⟩ := hkeep.reread_limit_atEnd hmain hgap hclosed hagain hslot (Lacks.nil _) hpaging
      exact .limit hnone hfound

end SlotAt

end SqlGate
