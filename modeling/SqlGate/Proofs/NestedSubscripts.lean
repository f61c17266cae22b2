import SqlGate.Proofs.Subscripts

/-! Code in which parentheses and square brackets nest. Where no two closing brackets stand in a row a bracketed span
ends at the first one, so it hides no more than the inside of one pair of brackets, and the outline shows Postgres every
word that limits the rows or pages through them. -/

namespace SqlGate

open Unicode

/-- Texts in which parentheses and square brackets are matched, after others that are open, the last one first. -/
inductive Nests : List Char → List Char → Prop where
  | nil : Nests [] []
  | opens {waiting rest : List Char} {c : Char} (hc : c = '(' ∨ c = '[') (h : Nests (c :: waiting) rest) :
      Nests waiting (c :: rest)
  | paren {waiting rest : List Char} (h : Nests waiting rest) : Nests ('(' :: waiting) (')' :: rest)
  | bracket {waiting rest : List Char} (h : Nests waiting rest) : Nests ('[' :: waiting) (']' :: rest)
  | other {waiting rest : List Char} {c : Char} (hc : c ∉ ['(', ')', '[', ']']) (h : Nests waiting rest) :
      Nests waiting (c :: rest)

/-- Reads a text from the left with the marks that are open. -/
def nests : List Char → List Char → Bool
  | waiting, [] => waiting.isEmpty
  | waiting, c :: rest =>
    if c = '(' ∨ c = '[' then nests (c :: waiting) rest
    else if c = ')' then waiting.head? = some '(' && nests waiting.tail rest
    else if c = ']' then waiting.head? = some '[' && nests waiting.tail rest
    else nests waiting rest

section Nesting

variable {text left right waiting : List Char} {count : Nat}

theorem nests_eq_true_iff : nests waiting text = true ↔ Nests waiting text := by
  constructor
  · intro h
    induction text generalizing waiting with
    | nil =>
        rw [nests, List.isEmpty_iff] at h
        exact h ▸ .nil
    | cons c rest ih =>
        rw [nests] at h
        split at h
        · next hopen => exact .opens hopen (ih h)
        · next hopen =>
            split at h
            · next hparen =>
                rw [Bool.and_eq_true, decide_eq_true_eq, List.head?_eq_some_iff] at h
                obtain ⟨⟨later, rfl⟩, hrest⟩ := h
                exact hparen ▸ .paren (ih hrest)
            · next hparen =>
                split at h
                · next hbracket =>
                    rw [Bool.and_eq_true, decide_eq_true_eq, List.head?_eq_some_iff] at h
                    obtain ⟨⟨later, rfl⟩, hrest⟩ := h
                    exact hbracket ▸ .bracket (ih hrest)
                · next hbracket => exact .other (by simp_all) (ih h)
  · intro h
    induction h with
    | nil => rfl
    | opens hc _ ih => rw [nests, if_pos hc, ih]
    | paren _ ih => simpa [nests] using ih
    | bracket _ ih => simpa [nests] using ih
    | other hc _ ih =>
        simp only [List.mem_cons, List.not_mem_nil, or_false, not_or] at hc
        rw [nests, if_neg (not_or.mpr ⟨hc.1, hc.2.2.1⟩), if_neg hc.2.1, if_neg hc.2.2.2, ih]

instance (waiting text : List Char) : Decidable (Nests waiting text) :=
  decidable_of_iff (nests waiting text = true) nests_eq_true_iff

theorem Lexeme.Doubled.hasPair {close : Char} (h : Doubled close text) (hmem : close ∈ text) :
    hasPair close close text = true := by
  induction h with
  | nil => cases hmem
  | @other c later hc _ ih =>
      have hlater := ih ((List.mem_cons.mp hmem).resolve_left (Ne.symm hc))
      exact hasPair_append_of_right [c] hlater
  | pair => exact hasPair_iff.mpr ⟨[], _, rfl⟩

theorem unmatched_append (opening closing : Char) (count : Nat) (left right : List Char) :
    unmatched opening closing count (left ++ right) =
      unmatched opening closing (unmatched opening closing count left) right :=
  List.foldl_append

theorem le_unmatched_of_notMem (h : ']' ∉ text) (count : Nat) : count ≤ unmatched '[' ']' count text := by
  induction text generalizing count with
  | nil => exact Nat.le_refl _
  | cons c text ih =>
      rw [List.mem_cons, not_or] at h
      rw [unmatched, List.foldl_cons, if_neg (Ne.symm h.1), ← unmatched]
      split
      · calc count ≤ count + 1 := Nat.le_succ count
          _ ≤ unmatched '[' ']' (count + 1) text := ih h.2 _
      · exact ih h.2 _

/-- Of the brackets open in front of a text those stay open that no bracket of the text matches. -/
theorem le_unmatched_add (count : Nat) (text : List Char) :
    count ≤ unmatched '[' ']' count text + unmatched ']' '[' 0 text.reverse := by
  induction text generalizing count with
  | nil => exact Nat.le_refl _
  | cons c text ih =>
      rw [List.reverse_cons, unmatched_append]
      rw [unmatched, List.foldl_cons, ← unmatched]
      change _ ≤ _ + (if c = ']' then _ + 1 else if c = '[' then _ - 1 else _)
      by_cases hopen : c = '['
      · subst hopen
        have hlater := ih (count + 1)
        rw [if_pos rfl, if_neg (by decide), if_pos rfl]
        omega
      · by_cases hclose : c = ']'
        · subst hclose
          have hlater := ih (count - 1)
          rw [if_neg (by decide), if_pos rfl, if_pos rfl]
          omega
        · rw [if_neg hopen, if_neg hclose, if_neg hclose, if_neg hopen]
          exact ih count

theorem Nests.exists_right (h : Nests waiting (left ++ right)) : ∃ later, Nests later right := by
  induction left generalizing waiting with
  | nil => exact ⟨waiting, h⟩
  | cons c left ih =>
      cases h with
      | opens _ h => exact ih h
      | paren h => exact ih h
      | bracket h => exact ih h
      | other _ h => exact ih h

theorem Nests.unmatched_eq_zero (h : Nests waiting text) : unmatched '[' ']' (waiting.count '[') text = 0 := by
  induction h with
  | nil => rfl
  | @opens waiting rest c hc _ ih =>
      rw [unmatched, List.foldl_cons, ← unmatched]
      rcases hc with rfl | rfl
      · simpa using ih
      · simpa using ih
  | paren _ ih =>
      rw [unmatched, List.foldl_cons, ← unmatched]
      simpa using ih
  | bracket _ ih =>
      rw [unmatched, List.foldl_cons, ← unmatched]
      simpa using ih
  | @other waiting rest c hc _ ih =>
      simp only [List.mem_cons, List.not_mem_nil, or_false, not_or] at hc
      rw [unmatched, List.foldl_cons, if_neg hc.2.2.1, if_neg hc.2.2.2, ← unmatched]
      exact ih

/-- What stands between a bracket and the first one that closes closes only parentheses that it opens. -/
theorem Nests.count_le {inner outer body rest : List Char} (h : Nests (inner ++ '[' :: outer) (body ++ ']' :: rest))
    (hbody : ']' ∉ body) : body.count ')' ≤ body.count '(' + inner.count '(' := by
  induction body generalizing inner with
  | nil => exact Nat.zero_le _
  | cons c body ih =>
      rw [List.mem_cons, not_or] at hbody
      generalize hwaiting : inner ++ '[' :: outer = waiting at h
      cases h with
      | opens hc h =>
          rw [← hwaiting] at h
          have hlater := @ih (c :: inner) h hbody.2
          rcases hc with rfl | rfl
          · simp at hlater ⊢
            omega
          · simpa using hlater
      | @paren waiting _ h =>
          cases inner with
          | nil => cases hwaiting
          | cons d inner =>
              obtain ⟨rfl, rfl⟩ := List.cons.inj hwaiting
              have hlater := ih h hbody.2
              simp at hlater ⊢
              omega
      | bracket => exact absurd rfl hbody.1
      | other hc h =>
          simp only [List.mem_cons, List.not_mem_nil, or_false, not_or] at hc
          rw [← hwaiting] at h
          rw [List.count_cons_of_ne hc.2.1, List.count_cons_of_ne hc.1]
          exact ih h hbody.2

end Nesting

section Plain

variable {sql front word rest : List Char}

theorem exists_body_of_isBracketed (hhazard : (Outline.of sql).hazardFor? .postgres = none)
    (hpair : hasPair ']' ']' (Subscript.outline sql) = false) {left right : List Lexeme} {piece : Lexeme}
    (hsql : lexemes sql = left ++ piece :: right) (hbracket : piece.isBracketed = true) :
    ∃ body, piece = .quoted .bracket body ∧ ']' ∉ body ∧
      Subscript.outline sql = left.flatMap Lexeme.opened ++ '[' :: (body ++ ']' :: right.flatMap Lexeme.opened) := by
  obtain ⟨body, rfl⟩ := Lexeme.exists_of_isBracketed hbracket
  have houtline : Subscript.outline sql =
      left.flatMap Lexeme.opened ++ '[' :: (body ++ ']' :: right.flatMap Lexeme.opened) := by
    rw [Subscript.outline_eq fun _ hmem => hazard?_bracket_eq_none hhazard hmem, hsql, List.flatMap_append,
      List.flatMap_cons, Lexeme.opened, if_pos hbracket, Lexeme.text, List.cons_append, List.append_assoc]
    rfl
  refine ⟨body, rfl, fun hmem => ?_, houtline⟩
  have hdoubled : Lexeme.Doubled ']' body := by
    obtain ⟨hreads, -⟩ := Lexeme.reads_of_lexemes_eq_cons (Lexeme.lexemes_of_eq_append hsql)
    generalize (Lexeme.quoted .bracket body :: right).flatMap Lexeme.text = whole at hreads
    cases hreads with
    | quoted _ hclose => exact hclose.1
  have hinner := hasPair_append_of_left (']' :: right.flatMap Lexeme.opened) (hdoubled.hasPair hmem)
  have hwhole := hasPair_append_of_right (left.flatMap Lexeme.opened ++ ['[']) hinner
  rw [List.append_assoc, List.singleton_append, ← houtline, hpair] at hwhole
  cases hwhole

theorem spansClosed_of_nests (hhazard : (Outline.of sql).hazardFor? .postgres = none)
    (hnests : Nests [] (Subscript.outline sql)) (hpair : hasPair ']' ']' (Subscript.outline sql) = false) (place : Nat) :
    SpansClosed sql place := by
  intro left piece right hsql hbracket _
  obtain ⟨body, rfl, hbody, houtline⟩ := exists_body_of_isBracketed hhazard hpair hsql hbracket
  rw [houtline] at hnests
  obtain ⟨waiting, hlater⟩ := hnests.exists_right
  have hinner : Nests ([] ++ '[' :: waiting) (body ++ ']' :: right.flatMap Lexeme.opened) := by
    cases hlater with
    | opens _ h => exact h
    | other hc => simp at hc
  have hle := hinner.count_le hbody
  simpa [Lexeme.text, Quote.opening, Quote.closing] using hle

theorem SpansOver.exists_open (h : SpansOver sql (byteLength front))
    (hhazard : (Outline.of sql).hazardFor? .postgres = none)
    (hpair : hasPair ']' ']' (Subscript.outline sql) = false) (htext : Subscript.outline sql = front ++ rest) :
    ∃ before inner, front = before ++ '[' :: inner ∧ ']' ∉ inner := by
  obtain ⟨left, piece, right, hsql, hbracket, hlt, hgt⟩ := h
  obtain ⟨body, rfl, hbody, houtline⟩ := exists_body_of_isBracketed hhazard hpair hsql hbracket
  rw [← Lexeme.byteLength_flatMap_opened] at hlt hgt
  obtain ⟨gap, rfl, hgap⟩ := exists_gap_of_byteLength_le (houtline.symm.trans htext) hlt.le
  rw [byteLength_append] at hlt hgt
  have hspan : gap ++ rest = (Lexeme.quoted .bracket body).text ++ right.flatMap Lexeme.opened := by
    rw [← hgap, Lexeme.text, List.cons_append, List.append_assoc]
    rfl
  obtain ⟨tail, htail, -⟩ := exists_gap_of_byteLength_le hspan (by omega)
  have hsize := congrArg byteLength htail
  rw [byteLength_append] at hsize
  have hgapNe : gap ≠ [] := by
    rintro rfl
    rw [byteLength_nil] at hlt
    omega
  have htailNe : tail ≠ [] := by
    rintro rfl
    rw [byteLength_nil] at hsize
    omega
  obtain ⟨c, inner, rfl⟩ := List.exists_cons_of_ne_nil hgapNe
  obtain ⟨more, last, rfl⟩ := tail.eq_nil_or_concat'.resolve_left htailNe
  have hopen : Quote.bracket.opening = c := (List.cons.inj htail).1
  have hinner : body ++ [Quote.bracket.closing] = inner ++ (more ++ [last]) := (List.cons.inj htail).2
  rw [← List.append_assoc] at hinner
  obtain ⟨rfl, -⟩ := List.append_inj' hinner rfl
  exact ⟨left.flatMap Lexeme.opened, inner, by rw [← hopen]; rfl, fun hmem => hbody (List.mem_append_left more hmem)⟩

/-- A bracketed span that ends at the first closing bracket goes on over no word outside all pairs of brackets: its
bracket is open at the word, and the code behind the word would have to close it. -/
theorem not_spansOver_of_nests (hhazard : (Outline.of sql).hazardFor? .postgres = none)
    (hnests : Nests [] (Subscript.outline sql)) (hpair : hasPair ']' ']' (Subscript.outline sql) = false)
    (hclause : ClauseWordAt (Subscript.outline sql) front word rest) : ¬SpansOver sql (byteLength front) := by
  intro hspans
  obtain ⟨before, inner, rfl, hinner⟩ := hspans.exists_open hhazard hpair hclause.wordAt.eq_append
  have hopen : 0 < unmatched '[' ']' 0 (before ++ '[' :: inner) := by
    rw [unmatched_append, unmatched, List.foldl_cons, if_pos rfl, ← unmatched]
    calc 0 < unmatched '[' ']' 0 before + 1 := Nat.succ_pos _
      _ ≤ unmatched '[' ']' (unmatched '[' ']' 0 before + 1) inner := le_unmatched_of_notMem hinner _
  have hclosed := hnests.unmatched_eq_zero
  rw [List.count_nil, hclause.wordAt.eq_append, unmatched_append] at hclosed
  have hle := le_unmatched_add (unmatched '[' ']' 0 (before ++ '[' :: inner)) (word ++ rest)
  rcases hclause.unmatched_eq_zero with hnone | hnone
  · omega
  · omega

theorem showsTopWord_of_nests (hhazard : (Outline.of sql).hazardFor? .postgres = none)
    (hnests : Nests [] (Subscript.outline sql)) (hpair : hasPair ']' ']' (Subscript.outline sql) = false)
    (hclause : ClauseWordAt (Subscript.outline sql) front word rest) : ShowsTopWord sql word (byteLength front) :=
  showsTopWord_of_spansClosed hhazard hclause.wordAt hclause.depth_eq_zero
    (not_spansOver_of_nests hhazard hnests hpair hclause) (spansClosed_of_nests hhazard hnests hpair _)

/-- A word that limits the rows or pages through them stands in the outline for Postgres exactly where no bracketed
span goes on over it, and outside all parentheses there where the spans in front of it close none. Both are so wherever
parentheses and brackets nest and no two closing brackets stand in a row. -/
theorem showsTopWord_iff (hhazard : (Outline.of sql).hazardFor? .postgres = none)
    (hclause : ClauseWordAt (Subscript.outline sql) front word rest) :
    (ShowsWord sql word (byteLength front) ↔ ¬SpansOver sql (byteLength front)) ∧
      (SpansClosed sql (byteLength front) →
        (ShowsTopWord sql word (byteLength front) ↔ ¬SpansOver sql (byteLength front))) ∧
      (Nests [] (Subscript.outline sql) → hasPair ']' ']' (Subscript.outline sql) = false →
        ShowsTopWord sql word (byteLength front)) := by
  refine ⟨showsWord_iff hhazard hclause.wordAt, fun hclosed => ⟨?_, fun hspans => ?_⟩, fun hnests hpair => ?_⟩
  · rintro ⟨before, after, hat, hplace, -⟩
    exact ShowsWord.not_spansOver ⟨before, after, hat, hplace⟩
  · exact showsTopWord_of_spansClosed hhazard hclause.wordAt hclause.depth_eq_zero hspans hclosed
  · exact showsTopWord_of_nests hhazard hnests hpair hclause

/-- A keyword between blanks in front of which every parenthesis and every bracket is matched. -/
theorem ClauseWordAt.of_matched {text keyword : List Char} (hkeyword : keyword ∈ limitWords)
    (htext : text = front ++ (keyword ++ rest)) (hfront : front.getLast? = some ' ') (hrest : rest.head? = some ' ')
    (hdepth : openAfter 0 front = 0) (hbrackets : unmatched '[' ']' 0 front = 0) :
    ClauseWordAt text front keyword rest := by
  have hkeys : ∀ keyword ∈ limitWords, isKeyword keyword = true := by decide
  have hkey := hkeys keyword hkeyword
  have hspelled := spelled_self hkey
  have hat : WordAt text front keyword rest := by
    refine ⟨htext, hspelled.ne_nil hkey, hspelled.isWord_of_mem hkey, fun c hc => ?_, fun c hc => ?_⟩
    · rw [hfront] at hc
      obtain rfl := Option.some.inj hc
      decide
    · rw [hrest] at hc
      obtain rfl := Option.some.inj hc
      decide
  exact ⟨hat, ⟨keyword, hkeyword, hspelled⟩, hat.depthBetween_eq.trans hdepth, Or.inl hbrackets⟩

/-- A subscript in parentheses, and one with a call in it. -/
theorem showsTopWord_iff_subscripts :
    (Outline.of "SELECT (a[1]), b[f(2)] FROM t LIMIT 5".toList).hazardFor? .postgres = none ∧
      ClauseWordAt (Subscript.outline "SELECT (a[1]), b[f(2)] FROM t LIMIT 5".toList)
        "SELECT (a[1]), b[f(2)] FROM t ".toList "LIMIT".toList " 5".toList ∧
      SpansClosed "SELECT (a[1]), b[f(2)] FROM t LIMIT 5".toList 30 ∧
      (ShowsTopWord "SELECT (a[1]), b[f(2)] FROM t LIMIT 5".toList "LIMIT".toList 30 ↔
        ¬SpansOver "SELECT (a[1]), b[f(2)] FROM t LIMIT 5".toList 30) ∧
      Nests [] (Subscript.outline "SELECT (a[1]), b[f(2)] FROM t LIMIT 5".toList) ∧
      hasPair ']' ']' (Subscript.outline "SELECT (a[1]), b[f(2)] FROM t LIMIT 5".toList) = false ∧
      ShowsTopWord "SELECT (a[1]), b[f(2)] FROM t LIMIT 5".toList "LIMIT".toList 30 := by
  have hhazard : (Outline.of "SELECT (a[1]), b[f(2)] FROM t LIMIT 5".toList).hazardFor? .postgres = none := by
    decide +kernel
  have hclause : ClauseWordAt (Subscript.outline "SELECT (a[1]), b[f(2)] FROM t LIMIT 5".toList)
      "SELECT (a[1]), b[f(2)] FROM t ".toList "LIMIT".toList " 5".toList :=
    .of_matched (by decide) (by decide +kernel) (by decide) (by decide) (by decide) (by decide)
  have hclosed : SpansClosed "SELECT (a[1]), b[f(2)] FROM t LIMIT 5".toList 30 :=
    spansClosed_of_all (by decide +kernel) 30
  have hnests : Nests [] (Subscript.outline "SELECT (a[1]), b[f(2)] FROM t LIMIT 5".toList) := by decide +kernel
  have hpair : hasPair ']' ']' (Subscript.outline "SELECT (a[1]), b[f(2)] FROM t LIMIT 5".toList) = false := by
    decide +kernel
  obtain ⟨-, hiff, hshows⟩ := showsTopWord_iff hhazard hclause
  exact ⟨hhazard, hclause, hclosed, hiff hclosed, hnests, hpair, hshows hnests hpair⟩

/-- Nested subscripts hide the end of a parenthesis in front of the word, and the word itself. -/
theorem exists_clauseWordAt_not_showsTopWord :
    ((Outline.of "SELECT (a[b[1]]), c[2] FROM t LIMIT 5".toList).hazardFor? .postgres = none ∧
      ClauseWordAt (Subscript.outline "SELECT (a[b[1]]), c[2] FROM t LIMIT 5".toList)
        "SELECT (a[b[1]]), c[2] FROM t ".toList "LIMIT".toList " 5".toList ∧
      ¬ShowsTopWord "SELECT (a[b[1]]), c[2] FROM t LIMIT 5".toList "LIMIT".toList 30) ∧
    ((Outline.of "SELECT a[b[1]] FROM t LIMIT 5 OFFSET (ARRAY[3])[1]".toList).hazardFor? .postgres = none ∧
      ClauseWordAt (Subscript.outline "SELECT a[b[1]] FROM t LIMIT 5 OFFSET (ARRAY[3])[1]".toList)
        "SELECT a[b[1]] FROM t ".toList "LIMIT".toList " 5 OFFSET (ARRAY[3])[1]".toList ∧
      ¬ShowsWord "SELECT a[b[1]] FROM t LIMIT 5 OFFSET (ARRAY[3])[1]".toList "LIMIT".toList 22) := by
  refine ⟨⟨by decide +kernel,
      .of_matched (by decide) (by decide +kernel) (by decide) (by decide) (by decide) (by decide), ?_⟩,
    by decide +kernel, .of_matched (by decide) (by decide +kernel) (by decide) (by decide) (by decide) (by decide), ?_⟩
  · rintro ⟨front, rest, hat, hplace, hdepth⟩
    have htext : (Outline.of "SELECT (a[b[1]]), c[2] FROM t LIMIT 5".toList).text =
        "SELECT (a[           ] FROM t ".toList ++ "LIMIT 5".toList := by decide +kernel
    obtain ⟨rfl, -⟩ := eq_of_byteLength_eq (hat.eq_append.symm.trans htext) hplace
    rw [hat.depthBetween_eq] at hdepth
    exact absurd hdepth (by decide)
  · intro hshows
    refine hshows.not_spansOver ⟨"SELECT a".toList.map .code,
      .quoted .bracket "b[1]] FROM t LIMIT 5 OFFSET (ARRAY[3".toList, [.code ')', .quoted .bracket "1".toList], ?_, rfl, ?_, ?_⟩
    · decide +kernel
    · decide +kernel
    · decide +kernel

end Plain

end SqlGate
