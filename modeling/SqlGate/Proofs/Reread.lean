import SqlGate.Proofs.Gaps
import SqlGate.Proofs.WordRuns

/-! A statement with a new clause, read again: the main query begins where it did, nothing is found in front
of the clause that was not there before, and the number of the clause is the slot of the limit. -/

namespace SqlGate

open Unicode

namespace Cursor

variable {front rest digits : List Char}

theorem opens_nil : Opens [] := by
  intro c hc
  cases hc

theorem opens_space (front : List Char) : Opens (front ++ [' ']) := by
  intro c hc
  rw [List.getLast?_concat] at hc
  rw [← Option.some.inj hc]
  decide

theorem word?_self {keyword : List Char} (hkey : isKeyword keyword = true) (hopens : Opens front)
    (hstop : ∀ c, rest.head? = some c → isWord c = false) :
    (between front (keyword ++ rest)).word? keyword = some (between (front ++ keyword) rest) := by
  exact (word?_eq_some_iff hkey).mpr
    ⟨keyword, rest, .of_keyword hkey rfl hopens hstop, spelled_self hkey, rfl⟩

theorem anyWord?_self {keywords : List (List Char)} (hkeys : ∀ keyword ∈ keywords, isKeyword keyword = true)
    (keyword : List Char) (hmem : keyword ∈ keywords) (hopens : Opens front)
    (hstop : ∀ c, rest.head? = some c → isWord c = false) :
    (between front (keyword ++ rest)).anyWord? keywords = some (between (front ++ keyword) rest) :=
  (anyWord?_eq_some_iff hkeys).mpr ⟨keyword, hmem, word?_self (hkeys keyword hmem) hopens hstop⟩

theorem blanks?_space (hstop : ∀ c, rest.head? = some c → isBlank c = false) :
    (between front (' ' :: rest)).blanks? = some (between (front ++ [' ']) rest) :=
  blanks?_eq_some_iff.mpr ⟨[' '], rest, rfl, by decide, fun _ => isBlank_of_mem_space, hstop, rfl⟩

theorem count?_self (hne : digits ≠ []) (hdigits : IsNumber digits)
    (hstop : ∀ c, rest.head? = some c → isWord c = false) :
    (between front (digits ++ rest)).count? = some (.after front digits, between (front ++ digits) rest) := by
  rw [count?, number?_eq_some_iff.mpr ⟨rest, rfl, hne, hdigits, hstop, rfl⟩]
  rfl

theorem isBlank_of_head_word (keyword : List Char) (hkey : isKeyword keyword = true) :
    ∀ c, (keyword ++ rest).head? = some c → isBlank c = false := by
  intro c hc
  rw [List.head?_append_of_ne_nil _ ((spelled_self hkey).ne_nil hkey)] at hc
  exact isBlank_eq_false_of_isWord (isWord_of_mem_keyword hkey c (List.mem_of_head? hc))

theorem isBlank_of_head_digits (hne : digits ≠ []) (hdigits : IsNumber digits) :
    ∀ c, (digits ++ rest).head? = some c → isBlank c = false := by
  intro c hc
  rw [List.head?_append_of_ne_nil _ hne] at hc
  exact isBlank_eq_false_of_isDigit (hdigits c (List.mem_of_head? hc))

theorem isWord_of_head_space : ∀ c, (' ' :: rest).head? = some c → isWord c = false := by
  intro c hc
  obtain rfl := Option.some.inj hc
  decide

/-- The clause with `FETCH` reads for its number. -/
theorem fetchCount?_self (hopens : Opens front) (hne : digits ≠ []) (hdigits : IsNumber digits)
    (hstop : ∀ c, rest.head? = some c → isWord c = false) :
    (between front ("FETCH NEXT ".toList ++ (digits ++ (" ROWS ONLY".toList ++ rest)))).fetchCount? =
      some (.after (front ++ "FETCH NEXT ".toList) digits) := by
  have hwords : front ++ "FETCH NEXT ".toList = front ++ "FETCH".toList ++ [' '] ++ "NEXT".toList ++ [' '] := by
    simp
  have htext : "FETCH NEXT ".toList ++ (digits ++ (" ROWS ONLY".toList ++ rest)) = "FETCH".toList ++ (' ' ::
      ("NEXT".toList ++ (' ' :: (digits ++ (' ' :: ("ROWS".toList ++ (' ' :: ("ONLY".toList ++ rest)))))))) := rfl
  rw [hwords, htext]
  refine Option.bind_eq_some_iff.mpr ⟨_, word?_self (by decide) hopens isWord_of_head_space, ?_⟩
  refine Option.bind_eq_some_iff.mpr ⟨_, blanks?_space (isBlank_of_head_word "NEXT".toList (by decide)), ?_⟩
  refine Option.bind_eq_some_iff.mpr ⟨_, anyWord?_self (by decide) "NEXT".toList (by decide)
    (opens_space _) isWord_of_head_space, ?_⟩
  refine Option.bind_eq_some_iff.mpr ⟨_, blanks?_space (isBlank_of_head_digits hne hdigits), ?_⟩
  refine Option.bind_eq_some_iff.mpr ⟨_, count?_self hne hdigits isWord_of_head_space, ?_⟩
  refine Option.bind_eq_some_iff.mpr ⟨_, blanks?_space (isBlank_of_head_word "ROWS".toList (by decide)), ?_⟩
  refine Option.bind_eq_some_iff.mpr ⟨_, anyWord?_self (by decide) "ROWS".toList (by decide)
    (opens_space _) isWord_of_head_space, ?_⟩
  refine Option.bind_eq_some_iff.mpr ⟨_, blanks?_space (isBlank_of_head_word "ONLY".toList (by decide)), ?_⟩
  exact Option.bind_eq_some_iff.mpr ⟨_, word?_self (by decide) (opens_space _) hstop, rfl⟩

/-- The clause with `LIMIT` reads for its number, unless a comma follows. -/
theorem limitCount?_self (hopens : Opens front) (hne : digits ≠ []) (hdigits : IsNumber digits)
    (hstop : ∀ c, rest.head? = some c → isWord c = false) (hcomma : (rest.dropWhile isBlank).head? ≠ some ',') :
    (between front ("LIMIT ".toList ++ (digits ++ rest))).limitCount? =
      some (.after (front ++ "LIMIT ".toList) digits) := by
  have hwords : front ++ "LIMIT ".toList = front ++ "LIMIT".toList ++ [' '] := by simp
  have htext : "LIMIT ".toList ++ (digits ++ rest) = "LIMIT".toList ++ (' ' :: (digits ++ rest)) := rfl
  rw [hwords, htext]
  refine Option.bind_eq_some_iff.mpr ⟨_, word?_self (by decide) hopens isWord_of_head_space, ?_⟩
  refine Option.bind_eq_some_iff.mpr ⟨_, blanks?_space (isBlank_of_head_digits hne hdigits), ?_⟩
  have hsecond : (between (front ++ "LIMIT".toList ++ [' ']) (digits ++ rest)).secondCount? = none := by
    by_contra hsome
    obtain ⟨found, hfound⟩ := Option.ne_none_iff_exists'.mp hsome
    obtain ⟨⟨read, c⟩, hnumber, hfound⟩ := Option.bind_eq_some_iff.mp hfound
    rw [number?_eq_some_iff.mpr ⟨rest, rfl, hne, hdigits, hstop, rfl⟩] at hnumber
    obtain ⟨rfl, rfl⟩ := Prod.mk.inj (Option.some.inj hnumber)
    obtain ⟨c, hchar, -⟩ := Option.bind_eq_some_iff.mp hfound
    change (between _ rest).blanks.char? ',' = some c at hchar
    rw [blanks, skipWhile_between] at hchar
    obtain ⟨tail, htail, -⟩ := char?_eq_some_iff.mp hchar
    rw [htail] at hcomma
    exact hcomma rfl
  rw [hsecond, count?_self hne hdigits hstop]
  rfl

/-- Whether blanks and a keyword follow does not depend on what is in front. -/
theorem isSome_blanks?_word?_congr {keyword : List Char} (hkey : isKeyword keyword = true) (front other rest : List Char) :
    ((between front rest).blanks?.bind (·.word? keyword)).isSome =
      ((between other rest).blanks?.bind (·.word? keyword)).isSome := by
  have hcarry : ∀ front other : List Char, ((between front rest).blanks?.bind (·.word? keyword)).isSome = true →
      ((between other rest).blanks?.bind (·.word? keyword)).isSome = true := by
    intro front other hsome
    obtain ⟨found, hfound⟩ := Option.isSome_iff_exists.mp hsome
    obtain ⟨c, hblanks, hword⟩ := Option.bind_eq_some_iff.mp hfound
    obtain ⟨gap, tail, rfl, hne, hgap, hstop, rfl⟩ := blanks?_eq_some_iff.mp hblanks
    obtain ⟨word, later, hat, hspelled, -⟩ := (word?_eq_some_iff hkey).mp hword
    obtain rfl := List.append_cancel_left hat.eq_append
    have hopens : Opens (other ++ gap) := opens_append_blanks other hne hgap
    have hread : (between (other ++ gap) (word ++ later)).word? keyword = some (between (other ++ gap ++ word) later) :=
      (word?_eq_some_iff hkey).mpr ⟨word, later, ⟨rfl, hat.ne_nil, hat.all_word, hopens, hat.closes⟩, hspelled, rfl⟩
    rw [blanks?_eq_some_iff.mpr ⟨gap, word ++ later, rfl, hne, hgap, hstop, rfl⟩, Option.bind_some, hread]
    rfl
  rw [Bool.eq_iff_iff]
  exact ⟨hcarry front other, hcarry other front⟩

theorem parenthesizedCount?_of_digits (hne : digits ≠ []) (hdigits : IsNumber digits) :
    (between front (digits ++ rest)).parenthesizedCount? = none := by
  rw [Option.eq_none_iff_forall_ne_some]
  rintro ⟨found, after⟩ hfound
  obtain ⟨c, hopen, -⟩ := Option.bind_eq_some_iff.mp hfound
  obtain ⟨later, htext, -⟩ := char?_eq_some_iff.mp hopen
  have hhead := congrArg List.head? htext
  rw [List.head?_append_of_ne_nil _ hne, List.head?_eq_some_head hne] at hhead
  have hdigit := hdigits _ (List.head_mem hne)
  rw [Option.some.inj hhead] at hdigit
  exact absurd hdigit (by decide)

/-- Behind the head of a query, a number after `TOP` reads for itself, or for a share where `PERCENT` follows. -/
theorem topForm?_of_head {head again : Cursor} (hletters : (between front rest).letters? "SELECT".toList = some head)
    (hblanks : head.blanks? = some again) {before later : List Char}
    (hquantifier : (again.setQuantifier?.bind blanks?).getD again =
      between (before ++ [' ']) ("TOP".toList ++ (' ' :: (digits ++ later))))
    (hne : digits ≠ []) (hdigits : IsNumber digits) (hstop : ∀ c, later.head? = some c → isWord c = false) :
    (between front rest).topForm? =
      some (if ((between before later).blanks?.bind (·.word? "PERCENT".toList)).isSome then .percent
        else .rows (.after (before ++ " TOP ".toList) digits)) := by
  have hplace : before ++ " TOP ".toList = before ++ [' '] ++ "TOP".toList ++ [' '] := by simp
  have hgap : (between (before ++ [' '] ++ "TOP".toList) (' ' :: (digits ++ later))).blanks =
      between (before ++ [' '] ++ "TOP".toList ++ [' ']) (digits ++ later) :=
    @skipWhile_of_stop _ isBlank [' '] (digits ++ later) (fun _ => isBlank_of_mem_space)
      (isBlank_of_head_digits hne hdigits)
  have hstopDigit : ∀ c, later.head? = some c → isDigit c = false :=
    fun c hc => isDigit_eq_false_of_isWord_eq_false (hstop c hc)
  have hcount : (between (before ++ [' '] ++ "TOP".toList ++ [' ']) (digits ++ later)).leadingCount? =
      some (.after (before ++ [' '] ++ "TOP".toList ++ [' ']) digits,
        between (before ++ [' '] ++ "TOP".toList ++ [' '] ++ digits) later) := by
    rw [leadingCount?, digits?_eq_some_iff.mpr ⟨later, rfl, hne, hdigits, hstopDigit, rfl⟩]
    rfl
  rw [hplace]
  refine Option.bind_eq_some_iff.mpr ⟨_, hletters, Option.bind_eq_some_iff.mpr ⟨_, hblanks, ?_⟩⟩
  dsimp only
  rw [hquantifier]
  refine Option.bind_eq_some_iff.mpr ⟨_, word?_self (by decide) (opens_space _) isWord_of_head_space, ?_⟩
  rw [hgap, parenthesizedCount?_of_digits hne hdigits, hcount]
  change (if ((between _ later).blanks?.bind (·.word? "PERCENT".toList)).isSome then _ else _) = _
  rw [isSome_blanks?_word?_congr (by decide) _ before]
  split
  · rfl
  · rfl

theorem setQuantifier?_eq_none {word later : List Char} (hat : WordAt (front ++ rest) front word later)
    (hword : Spelled "TOP".toList word) : (between front rest).setQuantifier? = none := by
  have hkeys : ∀ keyword ∈ ["DISTINCT".toList, "ALL".toList], isKeyword keyword = true := by decide
  by_contra hsome
  obtain ⟨found, hfound⟩ := Option.ne_none_iff_exists'.mp hsome
  obtain ⟨keyword, hmem, hread⟩ := (anyWord?_eq_some_iff hkeys).mp hfound
  obtain ⟨other, _, hatOther, hother, -⟩ := (word?_eq_some_iff (hkeys keyword hmem)).mp hread
  obtain ⟨rfl, -⟩ := hat.unique hatOther
  have hnone : "TOP".toList ∉ ["DISTINCT".toList, "ALL".toList] := by decide
  rw [hother.unique (hkeys keyword hmem) (by decide) hword] at hmem
  exact hnone hmem

/-- `TOP` with a number put right behind the word that begins a query. -/
theorem topForm?_behind_select {word later : List Char} (hat : WordAt (front ++ rest) front word later)
    (hspelled : Spelled "SELECT".toList word) (hne : digits ≠ []) (hdigits : IsNumber digits) :
    (between front (word ++ (" TOP ".toList ++ (digits ++ later)))).topForm? =
      some (if ((between (front ++ word) later).blanks?.bind (·.word? "PERCENT".toList)).isSome then .percent
        else .rows (.after (front ++ word ++ " TOP ".toList) digits)) := by
  have hletters : (between front (word ++ (" TOP ".toList ++ (digits ++ later)))).letters? "SELECT".toList =
      some (between (front ++ word) (" TOP ".toList ++ (digits ++ later))) :=
    letters?_eq_some_iff.mpr ⟨word, _, rfl, hspelled, rfl⟩
  have hblanks : (between (front ++ word) (' ' :: ("TOP".toList ++ (' ' :: (digits ++ later))))).blanks? =
      some (between (front ++ word ++ [' ']) ("TOP".toList ++ (' ' :: (digits ++ later)))) :=
    blanks?_space (isBlank_of_head_word _ (by decide))
  refine topForm?_of_head hletters hblanks ?_ hne hdigits hat.closes
  have hatTop : WordAt (front ++ word ++ [' '] ++ ("TOP".toList ++ (' ' :: (digits ++ later)))) (front ++ word ++ [' '])
      "TOP".toList (' ' :: (digits ++ later)) :=
    .of_keyword (by decide) rfl (opens_space _) isWord_of_head_space
  have hnone := setQuantifier?_eq_none hatTop (spelled_self (by decide))
  rw [hnone]
  rfl

/-- `TOP` with a number put behind the set quantifier of a query. -/
theorem topForm?_behind_quantifier {word gap second tail : List Char} (hspelled : Spelled "SELECT".toList word)
    (hgapNe : gap ≠ []) (hgap : ∀ c ∈ gap, isBlank c = true)
    (hatSecond : WordAt (front ++ word ++ gap ++ (second ++ tail)) (front ++ word ++ gap) second tail)
    (hsecond : SpelledAny ["DISTINCT".toList, "ALL".toList] second) (hne : digits ≠ []) (hdigits : IsNumber digits) :
    (between front (word ++ (gap ++ (second ++ (" TOP ".toList ++ (digits ++ tail)))))).topForm? =
      some (if ((between (front ++ word ++ gap ++ second) tail).blanks?.bind (·.word? "PERCENT".toList)).isSome
        then .percent else .rows (.after (front ++ word ++ gap ++ second ++ " TOP ".toList) digits)) := by
  have hletters : (between front (word ++ (gap ++ (second ++ (" TOP ".toList ++ (digits ++ tail)))))).letters?
      "SELECT".toList = some (between (front ++ word) (gap ++ (second ++ (" TOP ".toList ++ (digits ++ tail))))) :=
    letters?_eq_some_iff.mpr ⟨word, _, rfl, hspelled, rfl⟩
  have hblank : ∀ c, (second ++ (" TOP ".toList ++ (digits ++ tail))).head? = some c → isBlank c = false := by
    intro c hc
    rw [List.head?_append_of_ne_nil _ hatSecond.ne_nil] at hc
    exact isBlank_eq_false_of_isWord (hatSecond.all_word c (List.mem_of_head? hc))
  have hblanks : (between (front ++ word) (gap ++ (second ++ (" TOP ".toList ++ (digits ++ tail))))).blanks? =
      some (between (front ++ word ++ gap) (second ++ (" TOP ".toList ++ (digits ++ tail)))) :=
    blanks?_eq_some_iff.mpr ⟨gap, _, rfl, hgapNe, hgap, hblank, rfl⟩
  refine topForm?_of_head hletters hblanks ?_ hne hdigits hatSecond.closes
  obtain ⟨keyword, hmem, hspelledSecond⟩ := hsecond
  have hkeys : ∀ keyword ∈ ["DISTINCT".toList, "ALL".toList], isKeyword keyword = true := by decide
  have hword : (between (front ++ word ++ gap) (second ++ (" TOP ".toList ++ (digits ++ tail)))).word? keyword =
      some (between (front ++ word ++ gap ++ second) (" TOP ".toList ++ (digits ++ tail))) :=
    (word?_eq_some_iff (hkeys keyword hmem)).mpr ⟨second, _, ⟨rfl, hatSecond.ne_nil, hatSecond.all_word,
      hatSecond.opens, isWord_of_head_space⟩, hspelledSecond, rfl⟩
  rw [setQuantifier?, (anyWord?_eq_some_iff hkeys).mpr ⟨keyword, hmem, hword⟩, Option.bind_some]
  have hspace : (between (front ++ word ++ gap ++ second) (' ' :: ("TOP".toList ++ (' ' :: (digits ++ tail))))).blanks? =
      some (between (front ++ word ++ gap ++ second ++ [' ']) ("TOP".toList ++ (' ' :: (digits ++ tail)))) :=
    blanks?_space (isBlank_of_head_word _ (by decide))
  change (blanks? (between _ (' ' :: ("TOP".toList ++ (' ' :: (digits ++ tail)))))).getD _ = _
  rw [hspace]
  rfl

/-- `TOP` with a number put behind the head of a query reads for the number, or for a share where `PERCENT` follows. -/
theorem exists_topForm?_self {after : Cursor} (hselect : ((between front rest).word? "SELECT".toList).isSome)
    (hhead : (between front rest).selectHead? = some after) (hne : digits ≠ []) (hdigits : IsNumber digits) :
    ∃ clause later, rest = clause ++ later ∧ after = between (front ++ clause) later ∧
      (between front (clause ++ (" TOP ".toList ++ (digits ++ later)))).topForm? =
        some (if (after.blanks?.bind (·.word? "PERCENT".toList)).isSome then .percent
          else .rows (.after (front ++ clause ++ " TOP ".toList) digits)) := by
  obtain ⟨word, later, hat, hspelled, hcases⟩ := selectHead?_cases hselect hhead
  have hrest : rest = word ++ later := List.append_cancel_left hat.eq_append
  rcases hcases with ⟨rfl, -⟩ | ⟨gap, second, tail, rfl, hgapNe, hgap, hatSecond, hsecond, rfl⟩
  · exact ⟨word, later, hrest, rfl, topForm?_behind_select hat hspelled hne hdigits⟩
  · refine ⟨word ++ (gap ++ second), tail, by simp [hrest], by simp, ?_⟩
    have hplace : front ++ (word ++ (gap ++ second)) = front ++ word ++ gap ++ second := by simp
    rw [hplace, List.append_assoc word, List.append_assoc gap]
    exact topForm?_behind_quantifier hspelled hgapNe hgap hatSecond hsecond hne hdigits

end Cursor

theorem firstWord_of_wordAt {text first rest : List Char} (gap : List Char) (hgap : ∀ c ∈ gap, isBlank c = true)
    (hat : WordAt text gap first rest) : FirstWord text first := by
  intro front word after hatFront hfront
  have hstop : ∀ {front word rest : List Char}, WordAt text front word rest →
      ∀ c, (word ++ rest).head? = some c → isBlank c = false := by
    intro front word rest hat c hc
    obtain ⟨d, tail, hhead, hd⟩ := hat.exists_head
    rw [hhead] at hc
    obtain rfl := Option.some.inj hc
    exact isBlank_eq_false_of_isWord hd
  have hblanks := (Lexeme.takeWhile_append_of_stop hgap (hstop hat)).1
  have hother := (Lexeme.takeWhile_append_of_stop hfront (hstop hatFront)).1
  rw [← hatFront.eq_append, hat.eq_append, hblanks] at hother
  subst hother
  exact (hat.unique hatFront).1

namespace Insertion

variable {left clause right first pre more sql again : List Char} {condition : List Char → Prop}
  {tokens : List (List Char → Prop)} {start : Nat} {α : Type} {read : Cursor → Option α}

/-- A phrase that is found nowhere before begins inside the clause. -/
theorem exists_inside (h : Insertion left clause right) (hfirst : FirstWord clause first)
    (hsolid : ∃ c ∈ clause, isBlank c = false) (hsql : (Outline.of sql).text = left ++ right)
    (hstart : start ≤ byteLength left)
    (hread : ∀ front rest, (read (.between front rest)).isSome ↔ PhraseAt (front ++ rest) (condition :: tokens) front)
    (htail : ∀ later ∈ tokens, ¬later first) (hnone : (Outline.of sql).findTopLevel? start read = none)
    {early late : List Char} (hcut : TopCut (left ++ (clause ++ right)) start early late)
    (hphrase : PhraseAt (left ++ (clause ++ right)) (condition :: tokens) early) :
    ∃ lead word gap, early = left ++ lead ∧ WordAt clause lead word gap ∧ condition word := by
  have hbefore : ∀ front rest, TopCut (left ++ right) start front rest →
      PhraseAt (left ++ right) (condition :: tokens) front → False := by
    intro front rest hcutBefore hphraseBefore
    rw [hcutBefore.eq_append] at hphraseBefore
    have hsome := (hread front rest).mpr hphraseBefore
    rw [Outline.findTopLevel?_eq_none_iff, hsql] at hnone
    rw [hnone front rest hcutBefore] at hsome
    cases hsome
  rcases h.phrase_cases hfirst hsolid hstart hcut hphrase htail with
    ⟨gap, -, -, hcutLeft, hphraseLeft⟩ | hinside | ⟨gap, -, hcutRight, hphraseRight⟩
  · exact absurd hphraseLeft (hbefore _ _ hcutLeft)
  · exact hinside
  · exact absurd hphraseRight (hbefore _ _ hcutRight)

/-- What is found nowhere before, and begins with no word of the clause, is found nowhere. -/
theorem search_eq_none (h : Insertion left clause right) (hfirst : FirstWord clause first)
    (hsolid : ∃ c ∈ clause, isBlank c = false) (hsql : (Outline.of sql).text = left ++ right)
    (hagain : (Outline.of again).text = left ++ (clause ++ right)) (hstart : start ≤ byteLength left)
    (hread : ∀ front rest, (read (.between front rest)).isSome ↔ PhraseAt (front ++ rest) (condition :: tokens) front)
    (htail : ∀ later ∈ tokens, ¬later first) (hwords : ∀ word ∈ runs isWord clause, ¬condition word)
    (hnone : (Outline.of sql).findTopLevel? start read = none) :
    (Outline.of again).findTopLevel? start read = none := by
  rw [Outline.findTopLevel?_eq_none_iff, hagain]
  intro early late hcut
  by_contra hsome
  have hphrase := (hread early late).mp (Option.isSome_iff_ne_none.mpr hsome)
  rw [← hcut.eq_append] at hphrase
  obtain ⟨lead, word, gap, -, hat, hword⟩ :=
    h.exists_inside hfirst hsolid hsql hstart hread htail hnone hcut hphrase
  exact hwords word hat.mem_runs hword

/-- What is found nowhere before, and begins with no word of the clause up to a place, is found at that
place if it can be read there. -/
theorem search (h : Insertion left clause right) (hfirst : FirstWord clause first)
    (hsolid : ∃ c ∈ clause, isBlank c = false) (hsql : (Outline.of sql).text = left ++ right)
    (hagain : (Outline.of again).text = left ++ (clause ++ right)) (hstart : start ≤ byteLength left)
    (hread : ∀ front rest, (read (.between front rest)).isSome ↔ PhraseAt (front ++ rest) (condition :: tokens) front)
    (htail : ∀ later ∈ tokens, ¬later first) (hclause : clause = pre ++ more) (hapart : Apart pre more)
    (hwords : ∀ word ∈ runs isWord pre, ¬condition word)
    (hnone : (Outline.of sql).findTopLevel? start read = none)
    (hdepth : depthBetween (left ++ pre) (more ++ right) = 0) {found : α}
    (hfound : read (.between (left ++ pre) (more ++ right)) = some found) :
    (Outline.of again).findTopLevel? start read = some found := by
  refine Outline.findTopLevel?_eq_some_iff.mpr ⟨left ++ pre, more ++ right, ⟨?_, ?_, hdepth⟩, hfound, ?_⟩
  · rw [hagain, hclause]
    simp
  · rw [byteLength_append]
    exact Nat.le_trans hstart (Nat.le_add_right _ _)
  · rw [hagain]
    intro early late hcut hlt
    by_contra hsome
    have hphrase := (hread early late).mp (Option.isSome_iff_ne_none.mpr hsome)
    rw [← hcut.eq_append] at hphrase
    obtain ⟨lead, word, gap, rfl, hat, hword⟩ :=
      h.exists_inside hfirst hsolid hsql hstart hread htail hnone hcut hphrase
    rw [hclause] at hat
    rcases hat.of_append hapart with ⟨tail, -, hpre⟩ | ⟨tail, rfl, -⟩
    · exact hwords word hpre.mem_runs hword
    · simp only [List.length_append] at hlt
      omega

/-- The main query begins where it began before. -/
theorem mainSelect? {before gap : List Char} (h : Insertion (before ++ gap) clause right)
    (hsql : (Outline.of sql).text = before ++ gap ++ right)
    (hagain : (Outline.of again).text = before ++ gap ++ (clause ++ right)) (hne : gap ≠ [])
    (hmain : (Outline.of sql).mainSelect? = some (.between before (gap ++ right))) :
    (Outline.of again).mainSelect? = some (.between before (gap ++ (clause ++ right))) := by
  obtain ⟨front, rest, hcut, hphrase, hplace, hearly⟩ := Outline.mainSelect?_eq_some_iff.mp hmain
  have hrest : gap ++ right = rest := congrArg Cursor.rest hplace
  subst hrest
  have hfront : front = before := by
    have htext := hcut.eq_append
    rw [hsql, List.append_assoc] at htext
    exact (List.append_cancel_right htext).symm
  subst hfront
  have hsame : ∀ (early : List Char) {rest : List Char}, rest ≠ [] →
      (early ++ (rest ++ right)).head? = (early ++ (rest ++ (clause ++ right))).head? := by
    intro early rest hrest
    have hboth : early ++ rest ≠ [] := by simp [hrest]
    rw [← List.append_assoc, ← List.append_assoc, List.head?_append_of_ne_nil _ hboth,
      List.head?_append_of_ne_nil _ hboth]
  refine Outline.mainSelect?_eq_some_iff.mpr ⟨front, gap ++ (clause ++ right), ⟨?_, Nat.zero_le _, ?_⟩, ?_, rfl, ?_⟩
  · rw [hagain, List.append_assoc]
  · rw [← hcut.depth_eq_zero]
    exact depthBetween_congr rfl (hsame [] hne).symm
  · obtain ⟨word, after, hat, hspelled⟩ := hphrase.exists_wordAt
    rw [hsql] at hat
    rcases hat.of_append h.apart with ⟨tail, -, hleft⟩ | ⟨tail, hfront, -⟩
    · rw [hagain]
      exact .word (hleft.append_left h.apart_rest) hspelled
    · have hlength := congrArg List.length hfront
      have hpos := List.length_pos_iff.mpr hne
      simp only [List.length_append] at hlength
      omega
  · rw [hagain]
    intro early late hcutEarly hlt hphraseEarly
    have htext := hcutEarly.eq_append
    rw [List.append_assoc] at htext
    rcases List.append_eq_append_iff.mp htext with ⟨tail, hearlyLong, -⟩ | ⟨tail, rfl, rfl⟩
    · rw [hearlyLong, List.length_append] at hlt
      omega
    · obtain ⟨word, after, hat, hspelled⟩ := hphraseEarly.exists_wordAt
      have hleft : early ++ tail ++ gap = early ++ (tail ++ gap) := List.append_assoc ..
      obtain ⟨after, -, hatLeft⟩ := h.wordAt_left hat hleft (by simp [hne])
      refine hearly early (tail ++ (gap ++ right)) ⟨?_, Nat.zero_le _, ?_⟩ hlt ?_
      · rw [hsql]
        simp
      · rw [← hcutEarly.depth_eq_zero]
        exact depthBetween_congr rfl (hsame _ hne)
      · rw [hsql]
        exact .word (hatLeft.append_left h.apart) hspelled

end Insertion

end SqlGate
