import SqlGate.Proofs.OneLimit
import SqlGate.Proofs.ReportedLimits
import SqlGate.Proofs.WholeResult
import SqlGate.Proofs.WrittenCounts

/-! What a `LIMIT` is taken to say. The number behind the word is read for the row count, or the second one of two
numbers with a comma between them, whatever comes after it: of an expression only the number that it begins with is
seen, and in front of a second operand that is no number the offset is taken. So what is read is the whole row count
exactly where the operand is a number, or two, and the clause ends behind it. -/

namespace SqlGate

open Unicode

/-- A number and a comma, with blanks between them and behind it or none. -/
def LeadsOffset (lead : List Char) : Prop :=
  ∃ first gap more, lead = first ++ (gap ++ (',' :: more)) ∧ first ≠ [] ∧ IsNumber first ∧
    (∀ c ∈ gap, isBlank c = true) ∧ ∀ c ∈ more, isBlank c = true

/-- The number of an operand that is read for a row count: the second one if there are two, else the first one. -/
structure TakesCount (operand lead digits rest : List Char) : Prop where
  eq_append : operand = lead ++ (digits ++ rest)
  numeral : Numeral digits rest
  leads : LeadsOffset lead ∨ lead = [] ∧
    ∀ other second after, operand = other ++ (second ++ after) → LeadsOffset other → ¬Numeral second after

/-- Whether nothing of the clause follows: the text ends, blanks aside, or goes on with a semicolon or with one of the
words that begin another clause. -/
def EndsClause (starters : List (List Char)) (text : List Char) : Prop :=
  text.dropWhile isBlank = [] ∨ (text.dropWhile isBlank).head? = some ';' ∨
    ∃ word after, WordAt (text.dropWhile isBlank) [] word after ∧ SpelledAny starters word

/-- Whether an operand is a number, or two with a comma between them, and nothing else. -/
def PlainOperand (starters : List (List Char)) (operand : List Char) : Prop :=
  ∃ lead digits rest, operand = lead ++ (digits ++ rest) ∧ (lead = [] ∨ LeadsOffset lead) ∧ Numeral digits rest ∧
    EndsClause starters rest

/-- The first `LIMIT` of the main query that a number follows: the text in front of it, the word with the blanks behind
it, and the text from the number on. -/
structure LimitClauseAt (sql : List Char) (main : Cursor) (front words operand : List Char) : Prop where
  mainSelect?_eq : (Outline.of sql).mainSelect? = some main
  topCut : TopCut (Outline.of sql).text main.offset front (words ++ operand)
  word : ∃ word gap, words = word ++ gap ∧ WordAt (Outline.of sql).text front word (gap ++ operand) ∧
    Spelled "LIMIT".toList word ∧ gap ≠ [] ∧ ∀ c ∈ gap, isBlank c = true
  phrase : PhraseAt (Outline.of sql).text Cursor.limitPhrase front
  first : ∀ early late, TopCut (Outline.of sql).text main.offset early late → early.length < front.length →
    ¬PhraseAt (Outline.of sql).text Cursor.limitPhrase early

/-- The digits of a statement that are read for the row count of its `LIMIT`, with the outline in front of them and
behind them. -/
def LimitRead (sql front digits rest : List Char) : Prop :=
  ∃ main before words operand lead, LimitClauseAt sql main before words operand ∧
    TakesCount operand lead digits rest ∧ front = before ++ (words ++ lead)

/-- Whether the operand of the `LIMIT` is a number, or two with a comma between them, and nothing else. -/
def PlainLimit (starters : List (List Char)) (sql : List Char) : Prop :=
  ∃ main front words operand, LimitClauseAt sql main front words operand ∧ PlainOperand starters operand

section Operands

variable {starters : List (List Char)} {front operand lead digits rest : List Char} {count : WrittenCount}

theorem EndsClause.head_cases (h : EndsClause starters rest) {gap more : List Char} {c : Char}
    (hrest : rest = gap ++ (c :: more)) (hgap : ∀ c ∈ gap, isBlank c = true) (hc : isBlank c = false) :
    c = ';' ∨ isWord c = true := by
  have hdrop : rest.dropWhile isBlank = c :: more := by
    rw [hrest]
    refine (Lexeme.takeWhile_append_of_stop hgap fun d hd => ?_).2
    obtain rfl := Option.some.inj hd
    exact hc
  unfold EndsClause at h
  rw [hdrop] at h
  rcases h with hnil | hsemicolon | ⟨word, after, hat, -⟩
  · cases hnil
  · exact Or.inl (Option.some.inj hsemicolon)
  · obtain ⟨d, hd, hword⟩ := hat.head_eq rfl
    obtain rfl := Option.some.inj hd
    exact Or.inr hword

theorem LeadsOffset.head (h : LeadsOffset lead) (later : List Char) :
    ∃ c, (lead ++ later).head? = some c ∧ isDigit c = true := by
  obtain ⟨first, gap, more, rfl, hne, hfirst, -⟩ := h
  refine ⟨first.head hne, ?_, hfirst _ (List.head_mem hne)⟩
  rw [List.append_assoc, List.head?_append_of_ne_nil _ hne, List.head?_eq_some_head hne]

theorem TakesCount.head (h : TakesCount operand lead digits rest) : ∃ c, operand.head? = some c ∧ isDigit c = true := by
  rw [h.eq_append]
  rcases h.leads with hlead | ⟨rfl, -⟩
  · exact hlead.head _
  · exact h.numeral.head rest

namespace Cursor

theorem secondCount?_eq_some_iff : (between front operand).secondCount? = some count ↔
    ∃ lead digits rest, operand = lead ++ (digits ++ rest) ∧ LeadsOffset lead ∧ Numeral digits rest ∧
      count = .after (front ++ lead) digits := by
  constructor
  · intro h
    obtain ⟨⟨first, c⟩, hnumber, h⟩ := Option.bind_eq_some_iff.mp h
    obtain ⟨later, rfl, hne, hfirst, -, rfl⟩ := number?_eq_some_iff.mp hnumber
    obtain ⟨c, hcomma, h⟩ := Option.bind_eq_some_iff.mp h
    obtain ⟨gap, later, rfl, hgap, -, hplace⟩ := @blanks_place (front ++ first) later
    change (between (front ++ first) (gap ++ later)).blanks.char? ',' = some c at hcomma
    rw [hplace] at hcomma
    obtain ⟨later, rfl, rfl⟩ := char?_eq_some_iff.mp hcomma
    obtain ⟨more, later, rfl, hmore, -, hplace⟩ := @blanks_place (front ++ first ++ gap ++ [',']) later
    rw [hplace] at h
    obtain ⟨⟨read, c⟩, hcount, hread⟩ := Option.bind_eq_some_iff.mp h
    obtain rfl : read = count := Option.some.inj hread
    obtain ⟨digits, rest, rfl, hnumeral, rfl, -⟩ := count?_eq_some_iff.mp hcount
    exact ⟨first ++ (gap ++ (',' :: more)), digits, rest, by simp, ⟨first, gap, more, rfl, hne, hfirst, hgap, hmore⟩,
      hnumeral, by simp⟩
  · rintro ⟨lead, digits, rest, rfl, ⟨first, gap, more, rfl, hne, hfirst, hgap, hmore⟩, hnumeral, rfl⟩
    have hcomma : ∀ c, (',' :: (more ++ (digits ++ rest))).head? = some c → isBlank c = false := by
      intro c hc
      obtain rfl := Option.some.inj hc
      rfl
    have hcloses : ∀ c, (gap ++ (',' :: (more ++ (digits ++ rest)))).head? = some c → isWord c = false := by
      intro c hc
      cases gap with
      | nil =>
          obtain rfl := Option.some.inj hc
          decide
      | cons d gap =>
          obtain rfl := Option.some.inj hc
          exact isWord_eq_false_of_isBlank (hgap _ List.mem_cons_self)
    have hoperand : first ++ (gap ++ (',' :: more)) ++ (digits ++ rest) =
        first ++ (gap ++ (',' :: (more ++ (digits ++ rest)))) := by simp
    have hplace : front ++ (first ++ (gap ++ (',' :: more))) = front ++ first ++ gap ++ [','] ++ more := by simp
    rw [hoperand, hplace]
    refine Option.bind_eq_some_iff.mpr ⟨_, number?_eq_some_iff.mpr ⟨_, rfl, hne, hfirst, hcloses, rfl⟩, ?_⟩
    refine Option.bind_eq_some_iff.mpr ⟨between (front ++ first ++ gap ++ [',']) (more ++ (digits ++ rest)), ?_, ?_⟩
    · rw [blanks_eq hgap hcomma]
      exact char?_eq_some_iff.mpr ⟨_, rfl, rfl⟩
    · rw [blanks_eq hmore (isBlank_of_head_digits hnumeral.ne_nil hnumeral.number)]
      exact Option.bind_eq_some_iff.mpr
        ⟨_, count?_eq_some_iff.mpr ⟨digits, rest, rfl, hnumeral, rfl, rfl⟩, rfl⟩

theorem operandCount?_eq_some_iff :
    ((between front operand).secondCount? <|> (between front operand).count?.map (·.1)) = some count ↔
      ∃ lead digits rest, TakesCount operand lead digits rest ∧ count = .after (front ++ lead) digits := by
  cases hsecond : (between front operand).secondCount? with
  | some found =>
      obtain ⟨lead, digits, rest, htext, hlead, hnumeral, rfl⟩ := secondCount?_eq_some_iff.mp hsecond
      constructor
      · intro h
        obtain rfl := Option.some.inj h
        exact ⟨lead, digits, rest, ⟨htext, hnumeral, Or.inl hlead⟩, rfl⟩
      · rintro ⟨other, second, after, htakes, rfl⟩
        rcases htakes.leads with hother | ⟨-, hnone⟩
        · rw [secondCount?_eq_some_iff.mpr ⟨other, second, after, htakes.eq_append, hother, htakes.numeral, rfl⟩] at hsecond
          rw [← Option.some.inj hsecond]
          rfl
        · exact absurd hnumeral (hnone lead digits rest htext hlead)
  | none =>
      have hnone : ∀ lead digits rest, operand = lead ++ (digits ++ rest) → LeadsOffset lead → ¬Numeral digits rest := by
        intro lead digits rest htext hlead hnumeral
        rw [secondCount?_eq_some_iff.mpr ⟨lead, digits, rest, htext, hlead, hnumeral, rfl⟩] at hsecond
        cases hsecond
      constructor
      · intro h
        obtain ⟨⟨read, place⟩, hcount, hread⟩ := Option.map_eq_some_iff.mp h
        obtain rfl : read = count := hread
        obtain ⟨digits, rest, htext, hnumeral, rfl, -⟩ := count?_eq_some_iff.mp hcount
        exact ⟨[], digits, rest, ⟨htext, hnumeral, Or.inr ⟨rfl, hnone⟩⟩, by rw [List.append_nil]⟩
      · rintro ⟨lead, digits, rest, htakes, rfl⟩
        rcases htakes.leads with hlead | ⟨rfl, -⟩
        · exact absurd htakes.numeral (hnone lead digits rest htakes.eq_append hlead)
        · refine Option.map_eq_some_iff.mpr ⟨_, count?_eq_some_iff.mpr
            ⟨digits, rest, htakes.eq_append, htakes.numeral, rfl, rfl⟩, ?_⟩
          rw [List.append_nil]

theorem limitCount?_eq_some_iff {text : List Char} : (between front text).limitCount? = some count ↔
    ∃ word gap operand lead digits rest, WordAt (front ++ text) front word (gap ++ operand) ∧
      Spelled "LIMIT".toList word ∧ gap ≠ [] ∧ (∀ c ∈ gap, isBlank c = true) ∧
      TakesCount operand lead digits rest ∧ count = .after (front ++ (word ++ (gap ++ lead))) digits := by
  constructor
  · intro h
    obtain ⟨c, hword, h⟩ := Option.bind_eq_some_iff.mp h
    obtain ⟨word, later, hat, hspelled, rfl⟩ := (word?_eq_some_iff (by decide)).mp hword
    obtain ⟨c, hblanks, h⟩ := Option.bind_eq_some_iff.mp h
    obtain ⟨gap, operand, rfl, hne, hgap, -, rfl⟩ := blanks?_eq_some_iff.mp hblanks
    obtain ⟨lead, digits, rest, htakes, rfl⟩ := operandCount?_eq_some_iff.mp h
    exact ⟨word, gap, operand, lead, digits, rest, hat, hspelled, hne, hgap, htakes, by simp⟩
  · rintro ⟨word, gap, operand, lead, digits, rest, hat, hspelled, hne, hgap, htakes, rfl⟩
    have hstop : ∀ c, operand.head? = some c → isBlank c = false := by
      intro c hc
      obtain ⟨d, hd, hdigit⟩ := htakes.head
      rw [hc] at hd
      obtain rfl := Option.some.inj hd
      exact isBlank_eq_false_of_isDigit hdigit
    refine Option.bind_eq_some_iff.mpr ⟨_, (word?_eq_some_iff (by decide)).mpr ⟨word, _, hat, hspelled, rfl⟩, ?_⟩
    refine Option.bind_eq_some_iff.mpr ⟨_, blanks?_eq_some_iff.mpr ⟨gap, operand, rfl, hne, hgap, hstop, rfl⟩, ?_⟩
    exact operandCount?_eq_some_iff.mpr ⟨lead, digits, rest, htakes, by simp⟩

end Cursor

theorem TakesCount.unique {other second after : List Char} (h : TakesCount operand lead digits rest)
    (hother : TakesCount operand other second after) : lead = other ∧ digits = second ∧ rest = after := by
  have hread := (@Cursor.operandCount?_eq_some_iff [] operand _).mpr ⟨lead, digits, rest, h, rfl⟩
  rw [(@Cursor.operandCount?_eq_some_iff [] operand _).mpr ⟨other, second, after, hother, rfl⟩] at hread
  exact WrittenCount.after_inj (h.eq_append.symm.trans hother.eq_append) (Option.some.inj hread).symm

theorem PlainOperand.exists_takesCount (h : PlainOperand starters operand) :
    ∃ lead digits rest, TakesCount operand lead digits rest ∧ EndsClause starters rest := by
  obtain ⟨lead, digits, rest, rfl, hlead, hnumeral, hends⟩ := h
  refine ⟨lead, digits, rest, ⟨rfl, hnumeral, ?_⟩, hends⟩
  rcases hlead with rfl | hlead
  · refine Or.inr ⟨rfl, ?_⟩
    rintro other second after hoperand ⟨first, gap, more, rfl, hne, hfirst, hgap, -⟩ -
    -- The clause would end in front of the comma.
    have hboth : digits ++ rest = first ++ (gap ++ (',' :: (more ++ (second ++ after)))) := by
      rw [List.nil_append] at hoperand
      rw [hoperand]
      simp
    have hstop : ∀ c, (gap ++ (',' :: (more ++ (second ++ after)))).head? = some c → isDigit c = false := by
      intro c hc
      cases gap with
      | nil =>
          obtain rfl := Option.some.inj hc
          decide
      | cons d gap =>
          obtain rfl := Option.some.inj hc
          exact isDigit_eq_false_of_isBlank (hgap _ List.mem_cons_self)
    have hdrop := congrArg (List.dropWhile isDigit) hboth
    rw [(Lexeme.takeWhile_append_of_stop hnumeral.number hnumeral.isDigit_eq_false).2,
      (Lexeme.takeWhile_append_of_stop hfirst hstop).2] at hdrop
    exact absurd (hends.head_cases hdrop hgap (by decide)) (by decide)
  · exact Or.inl hlead

theorem TakesCount.plainOperand_iff (h : TakesCount operand lead digits rest) :
    PlainOperand starters operand ↔ EndsClause starters rest := by
  constructor
  · intro hplain
    obtain ⟨other, second, after, htakes, hends⟩ := hplain.exists_takesCount
    obtain ⟨-, -, rfl⟩ := h.unique htakes
    exact hends
  · intro hends
    refine ⟨lead, digits, rest, h.eq_append, ?_, h.numeral, hends⟩
    rcases h.leads with hlead | ⟨hnil, -⟩
    · exact Or.inr hlead
    · exact Or.inl hnil

end Operands

section Clauses

variable {sql front operand lead digits rest : List Char} {main : Cursor} {count : WrittenCount}

/-- The number that a limit is read from is found first of all that are read. -/
theorem findTopLevel?_limitCount?_eq_some_iff (hmain : (Outline.of sql).mainSelect? = some main) :
    (Outline.of sql).findTopLevel? main.offset Cursor.limitCount? = some count ↔
      ∃ front digits rest, LimitRead sql front digits rest ∧ count = .after front digits := by
  rw [Outline.findTopLevel?_eq_some_iff]
  have hnone : ∀ {early late : List Char}, TopCut (Outline.of sql).text main.offset early late →
      ((Cursor.between early late).limitCount? = none ↔ ¬PhraseAt (Outline.of sql).text Cursor.limitPhrase early) := by
    intro early late hcut
    rw [← Option.not_isSome_iff_eq_none, Cursor.isSome_limitCount?_iff, ← hcut.eq_append]
  constructor
  · rintro ⟨before, text, hcut, hread, hearly⟩
    obtain ⟨word, gap, operand, lead, digits, rest, hat, hspelled, hne, hgap, htakes, rfl⟩ :=
      Cursor.limitCount?_eq_some_iff.mp hread
    obtain rfl : text = word ++ (gap ++ operand) := List.append_cancel_left hat.eq_append
    have hphrase := (Cursor.isSome_limitCount?_iff).mp (Option.isSome_of_mem hread)
    rw [← hcut.eq_append] at hphrase hat
    rw [← List.append_assoc word] at hcut
    refine ⟨before ++ (word ++ (gap ++ lead)), digits, rest,
      ⟨main, before, word ++ gap, operand, lead, ⟨hmain, hcut, ⟨word, gap, rfl, hat, hspelled, hne, hgap⟩,
        hphrase, fun early late hcut hlt => (hnone hcut).mp (hearly early late hcut hlt)⟩,
        htakes, by simp⟩, rfl⟩
  · rintro ⟨front, digits, rest, ⟨place, before, words, operand, lead, hclause, htakes, rfl⟩, rfl⟩
    obtain rfl : place = main := Option.some.inj (hclause.mainSelect?_eq.symm.trans hmain)
    obtain ⟨word, gap, rfl, hat, hspelled, hne, hgap⟩ := hclause.word
    have hcut := hclause.topCut
    refine ⟨before, _, hcut, Cursor.limitCount?_eq_some_iff.mpr
      ⟨word, gap, operand, lead, digits, rest, ?_, hspelled, hne, hgap, htakes, by simp⟩,
      fun early late hcut hlt => (hnone hcut).mpr (hclause.first early late hcut hlt)⟩
    rwa [← hcut.eq_append]

theorem LimitRead.eq_append (h : LimitRead sql front digits rest) :
    (Outline.of sql).text = front ++ (digits ++ rest) := by
  obtain ⟨main, before, words, operand, lead, hclause, htakes, rfl⟩ := h
  rw [hclause.topCut.eq_append, htakes.eq_append]
  simp

theorem LimitRead.unique {other second after : List Char} (h : LimitRead sql front digits rest)
    (hother : LimitRead sql other second after) : front = other ∧ digits = second ∧ rest = after := by
  obtain ⟨main, before, words, operand, lead, hclause, -⟩ := id h
  have hmain := hclause.mainSelect?_eq
  have hread := (findTopLevel?_limitCount?_eq_some_iff hmain).mpr ⟨front, digits, rest, h, rfl⟩
  rw [(findTopLevel?_limitCount?_eq_some_iff hmain).mpr ⟨other, second, after, hother, rfl⟩] at hread
  exact WrittenCount.after_inj (h.eq_append.symm.trans hother.eq_append) (Option.some.inj hread).symm

theorem LimitRead.of_findTopLevel? {start : Nat} (hmain : (Outline.of sql).mainSelect?.map (·.offset) = some start)
    (htext : (Outline.of sql).text = front ++ (digits ++ rest))
    (hfound : (Outline.of sql).findTopLevel? start Cursor.limitCount? = some (.after front digits)) :
    LimitRead sql front digits rest := by
  obtain ⟨main, hplace, rfl⟩ := Option.map_eq_some_iff.mp hmain
  obtain ⟨other, second, after, hread, hcount⟩ := (findTopLevel?_limitCount?_eq_some_iff hplace).mp hfound
  obtain ⟨rfl, rfl, rfl⟩ := WrittenCount.after_inj (htext.symm.trans hread.eq_append) hcount
  exact hread

/-- The clause ends behind the number that is read exactly where the operand is plain. -/
theorem LimitRead.endsClause_iff (h : LimitRead sql front digits rest) (starters : List (List Char)) :
    EndsClause starters rest ↔ PlainLimit starters sql := by
  constructor
  · intro hends
    obtain ⟨main, before, words, operand, lead, hclause, htakes, -⟩ := h
    exact ⟨main, before, words, operand, hclause, htakes.plainOperand_iff.mpr hends⟩
  · rintro ⟨main, before, words, operand, hclause, hplain⟩
    obtain ⟨lead, second, after, htakes, hends⟩ := hplain.exists_takesCount
    obtain ⟨-, -, rfl⟩ := h.unique ⟨main, before, words, operand, lead, hclause, htakes, rfl⟩
    exact hends

end Clauses

/-- Whether the words follow each other in the main query, outside all parentheses. -/
def MainPhrase (sql : List Char) (tokens : List (List Char → Prop)) : Prop :=
  ∃ main front rest, (Outline.of sql).mainSelect? = some main ∧ TopCut (Outline.of sql).text main.offset front rest ∧
    PhraseAt (Outline.of sql).text tokens front

namespace Cursor

def offsetPhrase : List (List Char → Prop) :=
  [Spelled "OFFSET".toList, IsNumber]

theorem isSome_bareOffset?_iff {front rest : List Char} :
    (between front rest).bareOffset?.isSome ↔ PhraseAt (front ++ rest) offsetPhrase front := by
  have hchain : Opens front → ((between front rest).bareOffset?.isSome ↔ PhraseAt (front ++ rest) offsetPhrase front) := by
    intro hopens
    refine isSome_blanks_iff (readsWord_word? (by decide)) (fun _ place later hplace => ?_) hopens
    exact isSome_last_iff readsWord_number? (fun _ => between front rest) hplace
  constructor
  · intro h
    exact (hchain (opens_of_bind_word? (by decide) h)).mp h
  · intro h
    exact (hchain (opens_of_phrase h)).mpr h

end Cursor

theorem findTopLevel?_eq_none_iff_mainPhrase {α : Type} {sql : List Char} {main : Cursor} {read : Cursor → Option α}
    {tokens : List (List Char → Prop)} (hmain : (Outline.of sql).mainSelect? = some main)
    (hread : ∀ front rest, (read (.between front rest)).isSome ↔ PhraseAt (front ++ rest) tokens front) :
    (Outline.of sql).findTopLevel? main.offset read = none ↔ ¬MainPhrase sql tokens := by
  rw [Outline.findTopLevel?_eq_none_iff]
  constructor
  · rintro hnone ⟨place, front, rest, hplace, hcut, hphrase⟩
    obtain rfl : main = place := Option.some.inj (hmain.symm.trans hplace)
    rw [hcut.eq_append] at hphrase
    have hsome := (hread front rest).mpr hphrase
    rw [hnone front rest hcut] at hsome
    cases hsome
  · intro hnone front rest hcut
    by_contra hsome
    have hphrase := (hread front rest).mp (Option.isSome_iff_ne_none.mpr hsome)
    rw [← hcut.eq_append] at hphrase
    exact hnone ⟨main, front, rest, hmain, hcut, hphrase⟩

namespace Limiter

variable {limiter : Limiter} {timing : Timing} {sql : List Char} {main : Cursor} {limit offset rows : Nat}
  {limited : Limited}

/-- The number that is left in a `LIMIT`, or written into it, is the one that is reported. -/
theorem exists_limitRead_of_slotAt {count : WrittenCount} (haccepts : limiter.Accepts timing sql main)
    (hslot : SlotAt sql main offset limiter.database.usesTop (.written count))
    (hfound : (Outline.of sql).findTopLevel? main.offset Cursor.limitCount? = some count)
    (hlimit : limiter.limit sql ⟨limit, offset⟩ timing = .ok limited)
    (hknown : limited.outcome.effectiveLimit? = some rows) :
    ∃ front digits written rest, LimitRead sql front digits rest ∧ LimitRead limited.text front written rest ∧
      writtenValue written = rows := by
  obtain ⟨front, digits, rest, hin⟩ := hslot.exists_countIn haccepts.mainSelect?_eq
  obtain ⟨left, right, hsite, hleft, rfl⟩ := hin.site
  have hmain := haccepts.mainSelect?_eq
  have hcount := hin.countAt.count_eq
  have hsql := hin.countAt.eq_append
  have hvalue : count.value = writtenValue digits := by
    rw [hcount, WrittenCount.value_eq_writtenValue front hin.countAt.number hin.countAt.ne_nil]
  rw [hcount] at hfound
  have hread : LimitRead sql front digits (right.flatMap Lexeme.blanked) :=
    .of_findTopLevel? (congrArg (Option.map (·.offset)) hmain) hsql hfound
  rw [limit_written haccepts hslot hcount hsite hleft] at hlimit
  rw [← Except.ok.inj hlimit] at hknown ⊢
  split at hknown
  · next hlow =>
      rw [if_pos hlow]
      obtain rfl := Option.some.inj hknown
      exact ⟨front, digits, digits, _, hread, hread, hvalue.symm⟩
  · next hhigh =>
      rw [if_neg hhigh]
      obtain rfl := Option.some.inj hknown
      obtain ⟨before, gap, rfl, hne, rfl⟩ := hin.behind
      have hrecount := hin.countAt.recount limit
      have hclause : ∀ c ∈ Nat.toDigits 10 limit, isClauseChar c = true := fun _ hc => isClauseChar_of_mem_decimal hc
      have hagain := hsite.outline_joined hclause Nat.toDigits_ne_nil
      rw [hleft] at hagain
      have hstart : byteLength before ≤ byteLength (before ++ gap) := by
        rw [byteLength_append]
        exact Nat.le_add_right _ _
      have hfoundAgain := hrecount.search hsql hagain hstart (fun _ _ => hrecount.readAlike.limitCount?)
        (fun _ _ _ => Cursor.limitCount?_of_isDigit) hfound
      refine ⟨before ++ gap, digits, Nat.toDigits 10 limit, _, hread,
        .of_findTopLevel? (congrArg (Option.map (·.offset)) (hrecount.mainSelect? hsql hagain hne hmain)) hagain
          hfoundAgain, writtenValue_decimal ?_⟩
      rw [hvalue] at hhigh
      exact (Nat.le_of_not_le hhigh).trans (writtenValue_le digits)

theorem limit_eq_bind (haccepts : limiter.Accepts timing sql main) (window : RowWindow) :
    limiter.limit sql window timing =
      (Plan.forDatabase limiter.database (.of sql) main window).bind fun plan => plan.apply sql := by
  obtain ⟨front, rest, -, hselect, -⟩ := Outline.mainSelect?_eq_some_iff.mp haccepts.mainSelect?_eq
  obtain ⟨word, later, hat, -⟩ := hselect.exists_wordAt
  rw [Limiter.limit, if_neg (Nat.not_lt.mpr haccepts.size_le)]
  simp only [Outline.isBlank_of_wordAt hat, haccepts.hazardFor?_eq_none, haccepts.inTime.isOver_search,
    haccepts.inTime.isOver_edit, haccepts.mainSelect?_eq, if_false, Bool.false_eq_true]
  cases Plan.forDatabase limiter.database (.of sql) main window with
  | ok plan => rfl
  | error obstacle => rfl

theorem exists_effectiveLimit?_of_slotAt {slot : Slot} (haccepts : limiter.Accepts timing sql main)
    (hslot : SlotAt sql main offset limiter.database.usesTop slot) (limit : Nat) :
    ∃ rows, (limiter.run sql ⟨limit, offset⟩ timing).outcome.effectiveLimit? = some rows := by
  cases slot with
  | written count =>
      obtain ⟨left, digits, right, hcount, hsite, -⟩ := exists_written haccepts hslot
      rw [run, limit_written haccepts hslot hcount hsite rfl]
      dsimp only
      split
      · exact ⟨_, rfl⟩
      · exact ⟨_, rfl⟩
  | clause place lead tail page =>
      obtain ⟨left, right, -, hsite, hplace, -⟩ := exists_clause haccepts hslot
      rw [run, limit_clause haccepts hslot hsite hplace]
      cases page with
      | none => exact ⟨_, rfl⟩
      | some page => exact ⟨_, rfl⟩

/-- Where a `LIMIT` stands, and no `FETCH` with a number, the statement is left as it is exactly if no number follows
the `LIMIT` and none follows an `OFFSET`. -/
theorem run_eq_fallback_iff (hdialect : limiter.database.usesTop = false) (haccepts : limiter.Accepts timing sql main)
    (hfetch : ¬MainPhrase sql Cursor.fetchPhrase) (hlimit : MainPhrase sql [Spelled "LIMIT".toList])
    (window : RowWindow) :
    limiter.run sql window timing = ⟨sql, .fallback (.unreadableLimit .limitOrPaging)⟩ ↔
      ¬MainPhrase sql Cursor.limitPhrase ∧ ¬MainPhrase sql Cursor.offsetPhrase := by
  have hmain := haccepts.mainSelect?_eq
  have hfetchNone := (findTopLevel?_eq_none_iff_mainPhrase hmain fun _ _ => Cursor.isSome_fetchCount?_iff).mpr hfetch
  rw [← findTopLevel?_eq_none_iff_mainPhrase hmain fun _ _ => Cursor.isSome_limitCount?_iff,
    ← findTopLevel?_eq_none_iff_mainPhrase hmain fun _ _ => Cursor.isSome_bareOffset?_iff]
  obtain ⟨limit, offset⟩ := window
  have hlimited : ∀ {slot : Slot}, SlotAt sql main offset false slot →
      limiter.run sql ⟨limit, offset⟩ timing ≠ ⟨sql, .fallback (.unreadableLimit .limitOrPaging)⟩ := by
    intro slot hslot hkept
    obtain ⟨rows, hrows⟩ := exists_effectiveLimit?_of_slotAt haccepts (hdialect ▸ hslot) limit
    rw [hkept] at hrows
    cases hrows
  constructor
  · intro hkept
    have hnone : (Outline.of sql).findTopLevel? main.offset Cursor.limitCount? = none := by
      rw [Option.eq_none_iff_forall_ne_some]
      exact fun count hcount => hlimited (.limit hfetchNone hcount) hkept
    refine ⟨hnone, ?_⟩
    rw [Option.eq_none_iff_forall_ne_some]
    exact fun place hplace => hlimited (.bareOffset hfetchNone hnone hplace) hkept
  · rintro ⟨hlimitNone, hoffsetNone⟩
    have hword : ((Outline.of sql).findTopLevel? main.offset
        (·.anyWord? ["OFFSET".toList, "FETCH".toList, "LIMIT".toList])).isSome = true := by
      rw [Option.isSome_iff_ne_none, ne_eq, findTopLevel?_eq_none_iff_mainPhrase hmain
        fun _ _ => SlotAt.isSome_anyWord?_iff (by decide), not_not]
      obtain ⟨place, front, rest, hplace, hcut, hphrase⟩ := hlimit
      obtain ⟨word, after, hat, hspelled⟩ := hphrase.exists_wordAt
      exact ⟨place, front, rest, hplace, hcut, .word hat ⟨_, by decide, hspelled⟩⟩
    have hplan : Plan.ofLimit (.of sql) main ⟨limit, offset⟩ = .error (.unreadableLimit .limitOrPaging) := by
      simp only [Plan.ofLimit, hfetchNone, hlimitNone, hoffsetNone, hword, if_true]
    rw [run, limit_eq_bind haccepts, Plan.forDatabase, hdialect, if_neg Bool.false_ne_true, hplan]
    rfl

/-- A `LIMIT` is read by the number behind it, or by the second one of two. The number that is reported stands in the
`LIMIT` of the text that is left, and it is the whole operand, with the end of the clause behind it, exactly where the
operand of the statement was a number, or two, and nothing else. A statement with a `LIMIT` is left as it is for want of
a number exactly where none follows the word, and none follows an `OFFSET`. -/
theorem limitRead_apply (hdialect : limiter.database.usesTop = false) (hfetch : ¬MainPhrase sql Cursor.fetchPhrase) :
    (∀ category window rows, ((limiter.apply category sql window timing).outcome = .withinLimit rows ∨
        ∃ existing, (limiter.apply category sql window timing).outcome = .capped existing rows) →
      ∃ front digits written rest, LimitRead sql front digits rest ∧
        LimitRead (limiter.apply category sql window timing).text front written rest ∧ writtenValue written = rows ∧
        ∀ starters, EndsClause starters rest ↔ PlainLimit starters sql) ∧
      ∀ main window, limiter.Accepts timing sql main → MainPhrase sql [Spelled "LIMIT".toList] →
        (limiter.apply .readOnly sql window timing = ⟨sql, .fallback (.unreadableLimit .limitOrPaging)⟩ ↔
          ¬MainPhrase sql Cursor.limitPhrase ∧ ¬MainPhrase sql Cursor.offsetPhrase) := by
  refine ⟨fun category window rows hrows => ?_, fun main window haccepts hlimit => ?_⟩
  · have hknown : (limiter.apply category sql window timing).outcome.effectiveLimit? = some rows := by
      rcases hrows with hrows | ⟨existing, hrows⟩
      · rw [hrows]
        rfl
      · rw [hrows]
        rfl
    have hlimit := limit_of_effectiveLimit? hknown
    generalize limiter.apply category sql window timing = limited at hlimit hknown hrows ⊢
    obtain ⟨limit, offset⟩ := window
    obtain ⟨main, slot, haccepts, hslot, happly⟩ := limit_eq_ok_iff.mp hlimit
    have houtcome := Plan.outcome_of_apply happly
    have hadded : ∀ {page : Option Nat}, limited.outcome ≠ Slot.outcome page limit := by
      intro page hpage
      rw [hpage] at hrows
      cases page <;> simp [Slot.outcome] at hrows
    have hkeep := hslot
    rw [hdialect] at hslot
    cases hslot with
    | fetch hcount =>
        have hnone := (findTopLevel?_eq_none_iff_mainPhrase haccepts.mainSelect?_eq
          fun _ _ => Cursor.isSome_fetchCount?_iff).mpr hfetch
        rw [hnone] at hcount
        cases hcount
    | limit _ hcount =>
        obtain ⟨front, digits, written, rest, hread, hagain, hvalue⟩ :=
          exists_limitRead_of_slotAt haccepts hkeep hcount hlimit hknown
        exact ⟨front, digits, written, rest, hread, hagain, hvalue, hread.endsClause_iff⟩
    | bareOffset => exact absurd houtcome (@hadded none)
    | pageLimit => exact absurd (houtcome.trans (Slot.outcome_atEnd _ _ _ _ _ _)) hadded
    | newLimit => exact absurd (houtcome.trans (Slot.outcome_atEnd _ _ _ _ _ _)) hadded
  · rw [apply, if_pos rfl]
    exact run_eq_fallback_iff hdialect haccepts hfetch hlimit window

/-- The second number of a plain operand is lowered. -/
theorem limitRead_apply_second : ∃ sql : List Char, sql = "SELECT a FROM t LIMIT 20, 10 ;".toList ∧
    (usual .mySql).database.usesTop = false ∧ ¬MainPhrase sql Cursor.fetchPhrase ∧
    (usual .mySql).apply .readOnly sql ⟨5, 0⟩ = ⟨"SELECT a FROM t LIMIT 20, 5 ;".toList, .capped 10 5⟩ ∧
    PlainLimit [] sql ∧ ∃ written, writtenValue written = 5 ∧
      LimitRead "SELECT a FROM t LIMIT 20, 5 ;".toList "SELECT a FROM t LIMIT 20, ".toList written " ;".toList := by
  have hmain : (Outline.of "SELECT a FROM t LIMIT 20, 10 ;".toList).mainSelect?.map (·.offset) = some 0 := by
    decide +kernel
  have hfetch : ¬MainPhrase "SELECT a FROM t LIMIT 20, 10 ;".toList Cursor.fetchPhrase := by
    obtain ⟨main, hmain, hstart⟩ := Option.map_eq_some_iff.mp hmain
    rw [← findTopLevel?_eq_none_iff_mainPhrase hmain fun _ _ => Cursor.isSome_fetchCount?_iff, hstart]
    decide +kernel
  have hlimited : (usual .mySql).apply .readOnly "SELECT a FROM t LIMIT 20, 10 ;".toList ⟨5, 0⟩ =
      ⟨"SELECT a FROM t LIMIT 20, 5 ;".toList, .capped 10 5⟩ := by
    decide +kernel
  have hread : LimitRead "SELECT a FROM t LIMIT 20, 10 ;".toList "SELECT a FROM t LIMIT 20, ".toList "10".toList
      " ;".toList :=
    .of_findTopLevel? hmain (by decide +kernel) (by decide +kernel)
  obtain ⟨front, digits, written, rest, hfirst, hsecond, hvalue, hends⟩ :=
    (@limitRead_apply (usual .mySql) .atOnce _ rfl hfetch).1 .readOnly ⟨5, 0⟩ 5
      (Or.inr ⟨10, congrArg Limited.outcome hlimited⟩)
  obtain ⟨rfl, -, rfl⟩ := hread.unique hfirst
  rw [hlimited] at hsecond
  exact ⟨_, rfl, rfl, hfetch, hlimited, (hends []).mp (Or.inr (Or.inl rfl)), written, hvalue, hsecond⟩

/-- Of a sum the first number is reported, although it is not the row count, and in front of a parameter the offset is
lowered for it. -/
theorem exists_limitRead_of_expression : ∃ sum page : List Char,
    sum = "SELECT * FROM t LIMIT 5 + 5".toList ∧ page = "SELECT * FROM t LIMIT 10, @n".toList ∧
    (usual .postgres).apply .readOnly sum ⟨100, 0⟩ = ⟨sum, .withinLimit 5⟩ ∧
    LimitRead sum "SELECT * FROM t LIMIT ".toList "5".toList " + 5".toList ∧
    (∀ starters, ¬EndsClause starters " + 5".toList) ∧
    (usual .mySql).apply .readOnly page ⟨5, 0⟩ = ⟨"SELECT * FROM t LIMIT 5, @n".toList, .capped 10 5⟩ ∧
    LimitRead "SELECT * FROM t LIMIT 5, @n".toList "SELECT * FROM t LIMIT ".toList "5".toList ", @n".toList ∧
    ∀ starters, ¬EndsClause starters ", @n".toList := by
  have hmainSum : (Outline.of "SELECT * FROM t LIMIT 5 + 5".toList).mainSelect?.map (·.offset) = some 0 := by
    decide +kernel
  have hmainPage : (Outline.of "SELECT * FROM t LIMIT 5, @n".toList).mainSelect?.map (·.offset) = some 0 := by
    decide +kernel
  refine ⟨_, _, rfl, rfl, by decide +kernel, .of_findTopLevel? hmainSum (by decide +kernel) (by decide +kernel),
    fun starters hends => ?_, by decide +kernel,
    .of_findTopLevel? hmainPage (by decide +kernel) (by decide +kernel), fun starters hends => ?_⟩
  · have hplus : " + 5".toList = [' '] ++ ('+' :: " 5".toList) := by decide
    exact absurd (hends.head_cases hplus (fun _ => isBlank_of_mem_space) (by decide)) (by decide)
  · have hcomma : ", @n".toList = [] ++ (',' :: " @n".toList) := by decide
    exact absurd (hends.head_cases hcomma (List.forall_mem_nil _) (by decide)) (by decide)

end Limiter

end SqlGate
