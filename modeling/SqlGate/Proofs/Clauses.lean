import SqlGate.Proofs.Numerals
import SqlGate.Proofs.Recount
import SqlGate.Proofs.Phrases

/-! Where the clauses of a query stand in its outline: the digits of a row count, the end of an offset,
the words in front of which a clause is put, and the end of the code. -/

namespace SqlGate

open Unicode

/-- The digits of a count in a text, behind a character that is no part of a word nor of a tag. -/
structure CountAt (text : List Char) (count : WrittenCount) (front digits rest : List Char) : Prop where
  eq_append : text = front ++ (digits ++ rest)
  count_eq : count = .after front digits
  ne_nil : digits ≠ []
  number : IsNumber digits
  edge : ∃ c, front.getLast? = some c ∧ isWord c = false ∧ c ≠ '$'
  stops : ∀ c, rest.head? = some c → isDigit c = false

theorem edge_of_blanks {gap : List Char} (front : List Char) (hne : gap ≠ [])
    (hgap : ∀ c ∈ gap, isBlank c = true) :
    ∃ c, (front ++ gap).getLast? = some c ∧ isWord c = false ∧ c ≠ '$' := by
  have hblank := hgap _ (List.getLast_mem hne)
  refine ⟨gap.getLast hne, ?_, isWord_eq_false_of_isBlank hblank, ?_⟩
  · rw [List.getLast?_append_of_ne_nil _ hne, List.getLast?_eq_some_getLast hne]
  · intro heq
    rw [heq] at hblank
    cases hblank

theorem CountAt.recount {text front digits rest : List Char} {count : WrittenCount}
    (h : CountAt text count front digits rest) (limit : Nat) :
    Recount front digits (Nat.toDigits 10 limit) rest where
  digits_ne_nil := h.ne_nil
  other_ne_nil := Nat.toDigits_ne_nil
  isDigit_digits := h.number
  isDigit_other _ hc := isDigit_of_mem_decimal hc
  opens c hc := by
    obtain ⟨d, hd, hword, -⟩ := h.edge
    rw [hd] at hc
    rwa [← Option.some.inj hc]
  stops := h.stops

namespace Cursor

variable {front rest : List Char} {after : Cursor}

theorem word?_place {keyword : List Char} (hkey : isKeyword keyword = true)
    (h : (between front rest).word? keyword = some after) :
    ∃ word later, rest = word ++ later ∧ after = between (front ++ word) later := by
  obtain ⟨word, later, hat, -, rfl⟩ := (word?_eq_some_iff hkey).mp h
  exact ⟨word, later, List.append_cancel_left hat.eq_append, rfl⟩

theorem anyWord?_place {keywords : List (List Char)} (hkeys : ∀ keyword ∈ keywords, isKeyword keyword = true)
    (h : (between front rest).anyWord? keywords = some after) :
    ∃ word later, rest = word ++ later ∧ after = between (front ++ word) later := by
  obtain ⟨keyword, hmem, hread⟩ := (anyWord?_eq_some_iff hkeys).mp h
  exact word?_place (hkeys keyword hmem) hread

theorem blanks_place : ∃ gap later, rest = gap ++ later ∧ (∀ c ∈ gap, isBlank c = true) ∧
    (∀ c, later.head? = some c → isBlank c = false) ∧
    (between front rest).blanks = between (front ++ gap) later := by
  refine ⟨rest.takeWhile isBlank, rest.dropWhile isBlank, List.takeWhile_append_dropWhile.symm, ?_, ?_, ?_⟩
  · intro c hc
    exact List.mem_takeWhile_imp hc
  · intro c hc
    have hstop := List.head?_dropWhile_not isBlank rest
    rw [hc] at hstop
    simpa using hstop
  · exact skipWhile_between isBlank

theorem exists_countAt_of_number {digits : List Char} (h : (between front rest).number? = some (digits, after))
    (hedge : ∃ c, front.getLast? = some c ∧ isWord c = false ∧ c ≠ '$') :
    ∃ later, CountAt (front ++ rest) (.after front digits) front digits later ∧
      rest = digits ++ later ∧ after = between (front ++ digits) later := by
  obtain ⟨later, rfl, hne, hdigits, hcloses, rfl⟩ := number?_eq_some_iff.mp h
  exact ⟨later, ⟨rfl, rfl, hne, hdigits, hedge, fun c hc => isDigit_eq_false_of_isWord_eq_false (hcloses c hc)⟩,
    rfl, rfl⟩

theorem exists_countAt_of_count {count : WrittenCount} (h : (between front rest).count? = some (count, after))
    (hedge : ∃ c, front.getLast? = some c ∧ isWord c = false ∧ c ≠ '$') :
    ∃ digits later, CountAt (front ++ rest) count front digits later ∧
      rest = digits ++ later ∧ after = between (front ++ digits) later := by
  rw [count?, Option.map_eq_some_iff] at h
  obtain ⟨⟨digits, place⟩, hread, hpair⟩ := h
  obtain ⟨later, hat, hrest, hplace⟩ := exists_countAt_of_number hread hedge
  obtain ⟨rfl, rfl⟩ := Prod.mk.inj hpair
  refine ⟨digits, later, ?_, hrest, hplace⟩
  rw [hplace]
  exact hat

theorem exists_countAt_of_fetchCount {count : WrittenCount} (h : (between front rest).fetchCount? = some count) :
    ∃ lead digits later, CountAt (front ++ rest) count (front ++ lead) digits later := by
  obtain ⟨c, hword, h⟩ := Option.bind_eq_some_iff.mp h
  obtain ⟨first, later, rfl, rfl⟩ := word?_place (by decide) hword
  obtain ⟨c, hblanks, h⟩ := Option.bind_eq_some_iff.mp h
  obtain ⟨gap, later, rfl, -, -, -, rfl⟩ := blanks?_eq_some_iff.mp hblanks
  obtain ⟨c, hword, h⟩ := Option.bind_eq_some_iff.mp h
  obtain ⟨second, later, rfl, rfl⟩ := anyWord?_place (by decide) hword
  obtain ⟨c, hblanks, h⟩ := Option.bind_eq_some_iff.mp h
  obtain ⟨blanks, later, rfl, hne, hblank, -, rfl⟩ := blanks?_eq_some_iff.mp hblanks
  obtain ⟨⟨read, c⟩, hcount, h⟩ := Option.bind_eq_some_iff.mp h
  obtain ⟨digits, later, hat, rfl, rfl⟩ := exists_countAt_of_count hcount (edge_of_blanks _ hne hblank)
  obtain ⟨c, -, h⟩ := Option.bind_eq_some_iff.mp h
  obtain ⟨c, -, h⟩ := Option.bind_eq_some_iff.mp h
  obtain ⟨c, -, h⟩ := Option.bind_eq_some_iff.mp h
  obtain ⟨c, -, h⟩ := Option.bind_eq_some_iff.mp h
  obtain rfl := Option.some.inj h
  exact ⟨first ++ gap ++ second ++ blanks, digits, later, by simpa using hat⟩

theorem edge_of_char {x : Char} (hx : isWord x = false) (hne : x ≠ '$') {gap : List Char} (before : List Char)
    (hgap : ∀ c ∈ gap, isBlank c = true) :
    ∃ c, (before ++ [x] ++ gap).getLast? = some c ∧ isWord c = false ∧ c ≠ '$' := by
  by_cases hgapNil : gap = []
  · subst hgapNil
    exact ⟨x, by simp, hx, hne⟩
  · exact edge_of_blanks _ hgapNil hgap

theorem exists_countAt_of_limitCount {count : WrittenCount} (h : (between front rest).limitCount? = some count) :
    ∃ lead digits later, CountAt (front ++ rest) count (front ++ lead) digits later := by
  obtain ⟨c, hword, h⟩ := Option.bind_eq_some_iff.mp h
  obtain ⟨first, later, rfl, rfl⟩ := word?_place (by decide) hword
  obtain ⟨c, hblanks, h⟩ := Option.bind_eq_some_iff.mp h
  obtain ⟨gap, later, rfl, hne, hgap, -, rfl⟩ := blanks?_eq_some_iff.mp hblanks
  cases hsecond : (between (front ++ first ++ gap) later).secondCount? with
  | some found =>
      rw [hsecond] at h
      obtain rfl : found = count := Option.some.inj h
      obtain ⟨⟨skipped, c⟩, hnumber, hsecond⟩ := Option.bind_eq_some_iff.mp hsecond
      obtain ⟨tail, -, rfl, rfl⟩ := exists_countAt_of_number hnumber (edge_of_blanks _ hne hgap)
      obtain ⟨c, hcomma, hsecond⟩ := Option.bind_eq_some_iff.mp hsecond
      obtain ⟨blanks, tail, rfl, hblank, -, hplace⟩ := @blanks_place (front ++ first ++ gap ++ skipped) tail
      change (between (front ++ first ++ gap ++ skipped) (blanks ++ tail)).blanks.char? ',' = some c at hcomma
      rw [hplace] at hcomma
      obtain ⟨tail, rfl, rfl⟩ := char?_eq_some_iff.mp hcomma
      obtain ⟨more, tail, rfl, hmore, -, hplace⟩ :=
        @blanks_place (front ++ first ++ gap ++ skipped ++ blanks ++ [',']) tail
      rw [hplace] at hsecond
      obtain ⟨⟨read, c⟩, hcount, hsecond⟩ := Option.bind_eq_some_iff.mp hsecond
      obtain rfl : read = found := Option.some.inj hsecond
      obtain ⟨digits, tail, hat, rfl, -⟩ := exists_countAt_of_count hcount
        (edge_of_char (by decide) (by decide) _ hmore)
      exact ⟨first ++ gap ++ skipped ++ blanks ++ [','] ++ more, digits, tail, by simpa using hat⟩
  | none =>
      rw [hsecond] at h
      obtain ⟨⟨read, c⟩, hcount, hpair⟩ := Option.map_eq_some_iff.mp h
      obtain rfl : read = count := hpair
      obtain ⟨digits, tail, hat, rfl, -⟩ := exists_countAt_of_count hcount (edge_of_blanks _ hne hgap)
      exact ⟨first ++ gap, digits, tail, by simpa using hat⟩

theorem setQuantifier?_place : ∃ word later, rest = word ++ later ∧
    ((between front rest).setQuantifier?.bind blanks?).getD (between front rest) = between (front ++ word) later := by
  cases hread : (between front rest).setQuantifier?.bind blanks? with
  | none => exact ⟨[], rest, rfl, by rw [List.append_nil]; rfl⟩
  | some after =>
      obtain ⟨c, hquantifier, hblanks⟩ := Option.bind_eq_some_iff.mp hread
      obtain ⟨word, later, rfl, rfl⟩ := anyWord?_place (by decide) hquantifier
      obtain ⟨gap, later, rfl, -, -, -, rfl⟩ := blanks?_eq_some_iff.mp hblanks
      exact ⟨word ++ gap, later, by simp, by simp⟩

/-- What is written behind `TOP`, in parentheses or not. -/
theorem exists_countAt_behind_top {read : WrittenCount × Cursor} {word : List Char}
    (hat : WordAt (front ++ (word ++ rest)) front word rest)
    (h : ((between (front ++ word) rest).blanks.parenthesizedCount? <|>
      (between (front ++ word) rest).blanks.leadingCount?) = some read) :
    ∃ lead digits later, CountAt (front ++ word ++ rest) read.1 (front ++ word ++ lead) digits later := by
  obtain ⟨gap, later, hrest, hgap, -, hplace⟩ := @blanks_place (front ++ word) rest
  rw [hplace] at h
  cases hparens : (between (front ++ word ++ gap) later).parenthesizedCount? with
  | some found =>
      rw [hparens] at h
      obtain rfl : found = read := Option.some.inj h
      obtain ⟨c, hopen, hparens⟩ := Option.bind_eq_some_iff.mp hparens
      obtain ⟨tail, rfl, rfl⟩ := char?_eq_some_iff.mp hopen
      obtain ⟨blanks, tail, rfl, hblank, -, hplace⟩ := @blanks_place (front ++ word ++ gap ++ ['(']) tail
      rw [hplace] at hparens
      obtain ⟨⟨count, c⟩, hcount, hparens⟩ := Option.bind_eq_some_iff.mp hparens
      obtain ⟨c, -, hparens⟩ := Option.bind_eq_some_iff.mp hparens
      obtain rfl := Option.some.inj hparens
      obtain ⟨digits, tail, hfound, rfl, -⟩ := exists_countAt_of_count hcount
        (edge_of_char (by decide) (by decide) _ hblank)
      exact ⟨gap ++ ['('] ++ blanks, digits, tail, by simpa [hrest] using hfound⟩
  | none =>
      rw [hparens] at h
      obtain ⟨⟨digits, c⟩, hdigits, hpair⟩ := Option.map_eq_some_iff.mp h
      obtain ⟨tail, rfl, hne, hnumber, hstop, rfl⟩ := digits?_eq_some_iff.mp hdigits
      have hgapNe : gap ≠ [] := by
        rintro rfl
        have hhead : rest.head? = some (digits.head hne) := by
          rw [hrest, List.nil_append, List.head?_append_of_ne_nil _ hne, List.head?_eq_some_head hne]
        have hword := isWord_of_isDigit (hnumber _ (List.head_mem hne))
        rw [hat.closes _ hhead] at hword
        cases hword
      refine ⟨gap, digits, tail, ⟨by rw [hrest]; simp, ?_, hne, hnumber, edge_of_blanks _ hgapNe hgap, hstop⟩⟩
      rw [← hpair]
      rfl

theorem exists_countAt_of_topForm {count : WrittenCount} (h : (between front rest).topForm? = some (.rows count)) :
    ∃ lead digits later, CountAt (front ++ rest) count (front ++ lead) digits later := by
  obtain ⟨c, hselect, h⟩ := Option.bind_eq_some_iff.mp h
  obtain ⟨first, later, rfl, -, rfl⟩ := letters?_eq_some_iff.mp hselect
  obtain ⟨c, hblanks, h⟩ := Option.bind_eq_some_iff.mp h
  obtain ⟨gap, later, rfl, -, -, -, rfl⟩ := blanks?_eq_some_iff.mp hblanks
  obtain ⟨quantifier, later, rfl, hplace⟩ := @setQuantifier?_place (front ++ first ++ gap) later
  dsimp only at h
  rw [hplace] at h
  obtain ⟨c, htop, hform⟩ := Option.bind_eq_some_iff.mp h
  obtain ⟨word, later, hat, -, rfl⟩ := (word?_eq_some_iff (by decide)).mp htop
  obtain rfl := List.append_cancel_left hat.eq_append
  generalize hread : ((between (front ++ first ++ gap ++ quantifier ++ word) later).blanks.parenthesizedCount? <|>
    (between (front ++ first ++ gap ++ quantifier ++ word) later).blanks.leadingCount?) = read at hform
  cases read with
  | none => cases hform
  | some found =>
      obtain ⟨lead, digits, tail, hfound⟩ := exists_countAt_behind_top hat hread
      change (if _ then _ else _) = _ at hform
      split at hform
      · cases hform
      · obtain rfl : found.1 = count := TopForm.rows.inj (Option.some.inj hform)
        exact ⟨first ++ gap ++ quantifier ++ word ++ lead, digits, tail, by simpa using hfound⟩

/-- A clause from the beginning of one word to the end of another, without parentheses. -/
structure EndsAt (front clause rest : List Char) : Prop where
  head : ∃ c, clause.head? = some c ∧ isWord c = true
  last : ∃ c, clause.getLast? = some c ∧ isWord c = true
  stops : ∀ c, rest.head? = some c → isWord c = false
  plain : ∀ c ∈ clause, isWord c = true ∨ isBlank c = true

theorem EndsAt.openAfter_eq {clause : List Char} (h : EndsAt front clause rest) (depth : Nat) :
    openAfter depth clause = depth := by
  refine openAfter_of_notMem (fun hmem => ?_) (fun hmem => ?_) depth
  · rcases h.plain _ hmem with hword | hblank
    · exact absurd hword (by decide)
    · cases hblank
  · rcases h.plain _ hmem with hword | hblank
    · exact absurd hword (by decide)
    · cases hblank

theorem endsAt_of_wordAt {lead word : List Char} (hlead : ∀ c ∈ lead, isWord c = true ∨ isBlank c = true)
    (hhead : ∃ c, (lead ++ word).head? = some c ∧ isWord c = true) {text before : List Char}
    (hat : WordAt text before word rest) : EndsAt front (lead ++ word) rest where
  head := hhead
  last := by
    refine ⟨word.getLast hat.ne_nil, ?_, hat.all_word _ (List.getLast_mem hat.ne_nil)⟩
    rw [List.getLast?_append_of_ne_nil _ hat.ne_nil, List.getLast?_eq_some_getLast hat.ne_nil]
  stops := hat.closes
  plain c hc := by
    rcases List.mem_append.mp hc with hc | hc
    · exact hlead c hc
    · exact Or.inl (hat.all_word c hc)

theorem exists_endsAt_of_offsetRows (h : (between front rest).offsetRows? = some after) :
    ∃ clause later, rest = clause ++ later ∧ after = between (front ++ clause) later ∧
      EndsAt front clause later := by
  obtain ⟨c, hoffset, hlater⟩ := Option.bind_eq_some_iff.mp h
  obtain ⟨first, later, hat, -, rfl⟩ := (word?_eq_some_iff (by decide)).mp hoffset
  obtain rfl := List.append_cancel_left hat.eq_append
  obtain ⟨c, hblanks, hnumber⟩ := Option.bind_eq_some_iff.mp hlater
  obtain ⟨gap, later, rfl, hne, hgap, -, rfl⟩ := blanks?_eq_some_iff.mp hblanks
  obtain ⟨⟨digits, c⟩, hdigits, hrows⟩ := Option.bind_eq_some_iff.mp hnumber
  obtain ⟨later, rfl, -, hdigit, -, rfl⟩ := number?_eq_some_iff.mp hdigits
  obtain ⟨c, hblanks, hword⟩ := Option.bind_eq_some_iff.mp hrows
  obtain ⟨blanks, later, rfl, -, hblank, -, rfl⟩ := blanks?_eq_some_iff.mp hblanks
  have hkeys : ∀ keyword ∈ ["ROWS".toList, "ROW".toList], isKeyword keyword = true := by decide
  obtain ⟨keyword, hmem, hread⟩ := (anyWord?_eq_some_iff hkeys).mp hword
  obtain ⟨word, later, hatWord, -, rfl⟩ := (word?_eq_some_iff (hkeys keyword hmem)).mp hread
  obtain rfl := List.append_cancel_left hatWord.eq_append
  obtain ⟨x, tail, hfirst, hx⟩ := hat.exists_head
  have hhead : first.head? = some x := by
    rw [← List.head?_append_of_ne_nil _ hat.ne_nil, hfirst]
    rfl
  refine ⟨first ++ gap ++ digits ++ blanks ++ word, later, by simp, by simp,
    endsAt_of_wordAt (fun c hc => ?_) ⟨x, by simp [hhead], hx⟩ hatWord⟩
  simp only [List.mem_append] at hc
  rcases hc with ((hc | hc) | hc) | hc
  · exact Or.inl (hat.all_word c hc)
  · exact Or.inr (hgap c hc)
  · exact Or.inl (isWord_of_isDigit (hdigit c hc))
  · exact Or.inr (hblank c hc)

theorem exists_wordAt_of_bareOffset (h : (between front rest).bareOffset? = some after) :
    after = between front rest ∧ PhraseAt (front ++ rest) [SpelledAny ["OFFSET".toList]] front := by
  obtain ⟨c, hoffset, h⟩ := Option.bind_eq_some_iff.mp h
  obtain ⟨c, -, h⟩ := Option.bind_eq_some_iff.mp h
  obtain ⟨c, -, h⟩ := Option.bind_eq_some_iff.mp h
  obtain ⟨word, later, hat, hspelled, -⟩ := (word?_eq_some_iff (by decide)).mp hoffset
  exact ⟨(Option.some.inj h).symm, .word hat ⟨_, List.mem_singleton_self _, hspelled⟩⟩

/-- A clause that has to come last begins with one of three words. -/
theorem exists_wordAt_of_trailingClause (h : (between front rest).trailingClause? = some after) :
    after = between front rest ∧
      PhraseAt (front ++ rest) [SpelledAny ["FOR".toList, "OPTION".toList, "LOCK".toList]] front := by
  have hword : ∀ {keyword : List Char} {c : Cursor}, keyword ∈ ["FOR".toList, "OPTION".toList, "LOCK".toList] →
      isKeyword keyword = true → (between front rest).word? keyword = some c →
        PhraseAt (front ++ rest) [SpelledAny ["FOR".toList, "OPTION".toList, "LOCK".toList]] front := by
    intro keyword c hmem hkey hread
    obtain ⟨word, later, hat, hspelled, -⟩ := (word?_eq_some_iff hkey).mp hread
    exact .word hat ⟨keyword, hmem, hspelled⟩
  obtain ⟨c, hclause, hplace⟩ := Option.map_eq_some_iff.mp h
  refine ⟨hplace.symm, ?_⟩
  rw [Option.orElse_eq_orElse, Option.orElse_eq_or, Option.orElse_eq_or,
    Option.or_eq_some_iff, Option.or_eq_some_iff] at hclause
  rcases hclause with hpurpose | ⟨-, hhints | ⟨-, hlock⟩⟩
  · obtain ⟨c, hread, -⟩ := Option.bind_eq_some_iff.mp hpurpose
    exact hword (by decide) (by decide) hread
  · obtain ⟨c, hread, -⟩ := Option.bind_eq_some_iff.mp hhints
    exact hword (by decide) (by decide) hread
  · obtain ⟨c, hread, -⟩ := Option.bind_eq_some_iff.mp hlock
    exact hword (by decide) (by decide) hread

/-- The head of a query is `SELECT` alone or has a set quantifier behind it. -/
theorem selectHead?_cases (hselect : ((between front rest).word? "SELECT".toList).isSome)
    (h : (between front rest).selectHead? = some after) :
    ∃ word later, WordAt (front ++ rest) front word later ∧ Spelled "SELECT".toList word ∧
      ((after = between (front ++ word) later ∧
          (between (front ++ word) later).blanks?.bind setQuantifier? = none) ∨
        ∃ gap second tail, later = gap ++ (second ++ tail) ∧ gap ≠ [] ∧ (∀ c ∈ gap, isBlank c = true) ∧
          WordAt (front ++ word ++ gap ++ (second ++ tail)) (front ++ word ++ gap) second tail ∧
          SpelledAny ["DISTINCT".toList, "ALL".toList] second ∧ after = between (front ++ word ++ gap ++ second) tail) := by
  obtain ⟨word, later, hat, hword⟩ := ((isSome_word?_iff (by decide)).mp hselect).exists_wordAt
  obtain rfl := List.append_cancel_left hat.eq_append
  have hletters : (between front (word ++ later)).letters? "SELECT".toList = some (between (front ++ word) later) :=
    letters?_eq_some_iff.mpr ⟨word, later, rfl, hword, rfl⟩
  obtain ⟨c, hread, hplace⟩ := Option.bind_eq_some_iff.mp h
  rw [hletters] at hread
  obtain rfl := Option.some.inj hread
  obtain rfl := Option.some.inj hplace
  refine ⟨word, later, hat, hword, ?_⟩
  cases hquantifier : (between (front ++ word) later).blanks?.bind setQuantifier? with
  | none => exact Or.inl ⟨rfl, rfl⟩
  | some found =>
      obtain ⟨c, hblanks, hset⟩ := Option.bind_eq_some_iff.mp hquantifier
      obtain ⟨gap, tail, rfl, hne, hgap, -, rfl⟩ := blanks?_eq_some_iff.mp hblanks
      have hkeys : ∀ keyword ∈ ["DISTINCT".toList, "ALL".toList], isKeyword keyword = true := by decide
      obtain ⟨keyword, hmem, hset⟩ := (anyWord?_eq_some_iff hkeys).mp hset
      obtain ⟨second, last, hatSecond, hsecond, rfl⟩ := (word?_eq_some_iff (hkeys keyword hmem)).mp hset
      obtain rfl := List.append_cancel_left hatSecond.eq_append
      exact Or.inr ⟨gap, second, last, rfl, hne, hgap, hatSecond, ⟨keyword, hmem, hsecond⟩, rfl⟩

/-- The head of a query ends with a word: `SELECT`, `DISTINCT` or `ALL`. -/
theorem exists_endsAt_of_selectHead (hselect : ((between front rest).word? "SELECT".toList).isSome)
    (h : (between front rest).selectHead? = some after) :
    ∃ clause later, rest = clause ++ later ∧ after = between (front ++ clause) later ∧
      EndsAt front clause later := by
  obtain ⟨word, later, hat, -, hcases⟩ := selectHead?_cases hselect h
  have hhead : word.head? = some (word.head hat.ne_nil) ∧ isWord (word.head hat.ne_nil) = true :=
    ⟨List.head?_eq_some_head hat.ne_nil, hat.all_word _ (List.head_mem hat.ne_nil)⟩
  have hrest : rest = word ++ later := List.append_cancel_left hat.eq_append
  rcases hcases with ⟨rfl, -⟩ | ⟨gap, second, tail, rfl, -, hgap, hatSecond, -, rfl⟩
  · have hends : EndsAt front ([] ++ word) later := endsAt_of_wordAt (by simp) ⟨_, hhead⟩ hat
    exact ⟨word, later, hrest, rfl, hends⟩
  · refine ⟨word ++ gap ++ second, tail, by simp [hrest], by simp,
      endsAt_of_wordAt (fun c hc => ?_) ⟨_, by simp [hhead.1], hhead.2⟩ hatSecond⟩
    rcases List.mem_append.mp hc with hc | hc
    · exact Or.inl (hat.all_word c hc)
    · exact Or.inr (hgap c hc)

end Cursor

theorem trimEnd_append {front tail : List Char} (htail : ∀ c ∈ tail, isBlank c = true)
    (hfront : ∀ c, front.getLast? = some c → isBlank c = false) : trimEnd (front ++ tail) = front := by
  have hblank : ∀ c ∈ tail.reverse, isBlank c = true := fun c hc => htail c (List.mem_reverse.mp hc)
  have hstop : ∀ c, front.reverse.head? = some c → isBlank c = false := by
    intro c hc
    rw [List.head?_reverse] at hc
    exact hfront c hc
  rw [trimEnd, List.reverse_append, (Lexeme.takeWhile_append_of_stop hblank hstop).2, List.reverse_reverse]

theorem exists_trimEnd (text : List Char) :
    ∃ tail, text = trimEnd text ++ tail ∧ (∀ c ∈ tail, isBlank c = true) ∧
      ∀ c, (trimEnd text).getLast? = some c → isBlank c = false := by
  refine ⟨(text.reverse.takeWhile isBlank).reverse, ?_, ?_, ?_⟩
  · rw [trimEnd, ← List.reverse_append, List.takeWhile_append_dropWhile, List.reverse_reverse]
  · intro c hc
    exact List.mem_takeWhile_imp (List.mem_reverse.mp hc)
  · intro c hc
    rw [trimEnd, List.getLast?_reverse] at hc
    have hstop := List.head?_dropWhile_not isBlank text.reverse
    rw [hc] at hstop
    simpa using hstop

namespace Outline

variable {sql : List Char}

/-- The main query begins with the first select word outside all parentheses. -/
theorem mainSelect?_eq_some_iff {main : Cursor} : (of sql).mainSelect? = some main ↔
    ∃ front rest, TopCut (of sql).text 0 front rest ∧ PhraseAt (of sql).text [Spelled "SELECT".toList] front ∧
      main = .between front rest ∧ ∀ early late, TopCut (of sql).text 0 early late → early.length < front.length →
        ¬PhraseAt (of sql).text [Spelled "SELECT".toList] early := by
  have hread : ∀ front rest, TopCut (of sql).text 0 front rest →
      (((Cursor.between front rest).word? "SELECT".toList).isSome ↔
        PhraseAt (of sql).text [Spelled "SELECT".toList] front) := by
    intro front rest hcut
    rw [hcut.eq_append]
    exact Cursor.isSome_word?_iff (by decide)
  rw [mainSelect?, findTopLevel?_eq_some_iff]
  constructor
  · rintro ⟨front, rest, hcut, hfound, hearly⟩
    obtain ⟨after, hword, rfl⟩ := Option.map_eq_some_iff.mp hfound
    refine ⟨front, rest, hcut, (hread _ _ hcut).mp (Option.isSome_of_mem hword), rfl, fun early late hcutEarly hlt hphrase => ?_⟩
    have hnone := hearly early late hcutEarly hlt
    rw [Option.map_eq_none_iff] at hnone
    have hsome := (hread _ _ hcutEarly).mpr hphrase
    rw [hnone] at hsome
    cases hsome
  · rintro ⟨front, rest, hcut, hphrase, rfl, hearly⟩
    obtain ⟨after, hword⟩ := Option.isSome_iff_exists.mp ((hread _ _ hcut).mpr hphrase)
    refine ⟨front, rest, hcut, by rw [hword]; rfl, fun early late hcutEarly hlt => ?_⟩
    rw [Option.map_eq_none_iff]
    by_contra hsome
    exact hearly early late hcutEarly hlt ((hread _ _ hcutEarly).mp (Option.isSome_iff_ne_none.mpr hsome))

theorem isSome_word?_of_mainSelect? {main : Cursor} (h : (of sql).mainSelect? = some main) :
    (main.word? "SELECT".toList).isSome := by
  obtain ⟨front, rest, -, hread, -⟩ := findTopLevel?_eq_some_iff.mp h
  obtain ⟨after, hword, rfl⟩ := Option.map_eq_some_iff.mp hread
  exact Option.isSome_of_mem hword

theorem isBlank_of_wordAt {front word rest : List Char} (h : WordAt (of sql).text front word rest) :
    (of sql).isBlank = false := by
  obtain ⟨c, tail, hhead, hword⟩ := h.exists_head
  rw [isBlank, List.all_eq_false]
  refine ⟨c, ?_, by simp [isBlank_eq_false_of_isWord hword]⟩
  rw [h.eq_append, hhead]
  simp

/-- The code ends behind a character that is no blank, and only blanks and one semicolon at most follow. -/
theorem exists_cut_endOfCode (sql : List Char) :
    ∃ code later, (of sql).text = code ++ later ∧ (of sql).endOfCode = byteLength code ∧
      (∀ c, code.getLast? = some c → Unicode.isBlank c = false ∧ (c = ';' → ';' ∈ later)) ∧
      (∀ c ∈ later, Unicode.isBlank c = true ∨ c = ';') ∧ later.count ';' ≤ 1 := by
  have hnone : ∀ {gap : List Char}, (∀ c ∈ gap, Unicode.isBlank c = true) → gap.count ';' = 0 := by
    intro gap hgap
    refine List.count_eq_zero.mpr fun hmem => ?_
    exact absurd (hgap ';' hmem) (by decide)
  obtain ⟨tail, htext, htail, hlast⟩ := exists_trimEnd (of sql).text
  dsimp only [endOfCode]
  by_cases hsemicolon : (trimEnd (of sql).text).getLast? = some ';'
  · rw [if_pos hsemicolon]
    obtain ⟨before, hbefore⟩ := List.getLast?_eq_some_iff.mp hsemicolon
    obtain ⟨gap, hgap, hblank, hend⟩ := exists_trimEnd before
    rw [hbefore, List.dropLast_concat]
    refine ⟨trimEnd before, gap ++ (';' :: tail), ?_, rfl, fun c hc => ⟨hend c hc, fun _ => by simp⟩, fun c hc => ?_, ?_⟩
    · rw [htext, hbefore]
      conv_lhs => rw [hgap]
      simp
    · rcases List.mem_append.mp hc with hc | hc
      · exact Or.inl (hblank c hc)
      · rcases List.mem_cons.mp hc with rfl | hc
        · exact Or.inr rfl
        · exact Or.inl (htail c hc)
    · rw [List.count_append, List.count_cons_self, hnone hblank, hnone htail]
  · rw [if_neg hsemicolon]
    refine ⟨_, tail, htext, rfl, fun c hc => ⟨hlast c hc, ?_⟩, fun c hc => Or.inl (htail c hc), ?_⟩
    · rintro rfl
      exact absurd hc hsemicolon
    · rw [hnone htail]
      exact Nat.zero_le 1

/-- The end of the code stands behind every word, and only blanks and semicolons follow it. -/
theorem exists_endOfCode {front word rest : List Char} (h : WordAt (of sql).text front word rest) :
    ∃ gap later, (of sql).text = (front ++ (word ++ gap)) ++ later ∧
      (of sql).endOfCode = byteLength (front ++ (word ++ gap)) ∧
      (∃ c, (front ++ (word ++ gap)).getLast? = some c ∧ Unicode.isBlank c = false ∧ (c = ';' → ';' ∈ later)) ∧
      ∀ c ∈ later, Unicode.isBlank c = true ∨ c = ';' := by
  obtain ⟨code, later, htext, hend, hlast, hlater, -⟩ := exists_cut_endOfCode sql
  have hinside : ∃ gap, code = front ++ (word ++ gap) := by
    have hwhole : (front ++ word) ++ rest = code ++ later := by
      rw [List.append_assoc, ← h.eq_append, htext]
    rcases List.append_eq_append_iff.mp hwhole with ⟨gap, hcode, -⟩ | ⟨gap, hword, hrest⟩
    · exact ⟨gap, by rw [hcode, List.append_assoc]⟩
    · cases gap with
      | nil =>
          rw [List.append_nil] at hword
          exact ⟨[], by rw [← hword, List.append_nil]⟩
      | cons c gap =>
          have hlastWord : (front ++ word).getLast? = some (word.getLast h.ne_nil) := by
            rw [List.getLast?_append_of_ne_nil _ h.ne_nil, List.getLast?_eq_some_getLast h.ne_nil]
          rw [hword, List.getLast?_append_of_ne_nil _ (by simp)] at hlastWord
          have hisWord := h.all_word _ (List.getLast_mem h.ne_nil)
          have hmem : word.getLast h.ne_nil ∈ later := by
            rw [hrest]
            exact List.mem_append_left _ (List.mem_of_getLast? hlastWord)
          rcases hlater _ hmem with hblank | hsemicolon
          · rw [isWord_eq_false_of_isBlank hblank] at hisWord
            cases hisWord
          · rw [hsemicolon] at hisWord
            exact absurd hisWord (by decide)
  obtain ⟨gap, rfl⟩ := hinside
  refine ⟨gap, later, htext, hend, ?_, hlater⟩
  have hne : front ++ (word ++ gap) ≠ [] := by simp [h.ne_nil]
  exact ⟨_, List.getLast?_eq_some_getLast hne, hlast _ (List.getLast?_eq_some_getLast hne)⟩

end Outline

end SqlGate
