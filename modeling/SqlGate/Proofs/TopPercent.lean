import SqlGate.Proofs.RequestedOffsets
import SqlGate.Proofs.WrittenCounts

/-! What follows the count of a `TOP`. A count with the word `PERCENT` behind it is a share of the rows. The word is
looked for behind blanks only, so one that is joined to the count is passed over, and a new `TOP` does not look at the
word it comes in front of. -/

namespace SqlGate

open Unicode

/-- The words of a query from `SELECT` to `TOP`, with a set quantifier between them or without. -/
def TopWords (words : List Char) : Prop :=
  ∃ select gap quantifier top, words = select ++ (gap ++ (quantifier ++ top)) ∧ Spelled "SELECT".toList select ∧
    gap ≠ [] ∧ (∀ c ∈ gap, isBlank c = true) ∧ Spelled "TOP".toList top ∧
    (quantifier = [] ∨ ∃ word space, quantifier = word ++ space ∧
      SpelledAny ["DISTINCT".toList, "ALL".toList] word ∧ space ≠ [] ∧ ∀ c ∈ space, isBlank c = true)

/-- What stands between `TOP` and its digits and between them and a text: blanks and nothing, or the two parentheses
with blanks at them. -/
inductive CountEdges : List Char → List Char → List Char → Prop where
  | bare {gap rest : List Char} (hne : gap ≠ []) (hgap : ∀ c ∈ gap, isBlank c = true)
      (hstop : ∀ c, rest.head? = some c → isDigit c = false) : CountEdges gap [] rest
  | enclosed {gap inner outer rest : List Char} (hgap : ∀ c ∈ gap, isBlank c = true)
      (hinner : ∀ c ∈ inner, isBlank c = true) (houter : ∀ c ∈ outer, isBlank c = true) :
      CountEdges (gap ++ ('(' :: inner)) (outer ++ [')']) rest

/-- The digits of the row count that stands behind the `TOP` of the main query, with the text in front of them, a
parenthesis behind them and the text after that. -/
def TopRead (sql front digits close rest : List Char) : Prop :=
  ∃ before words lead, (Outline.of sql).text = before ++ (words ++ (lead ++ (digits ++ (close ++ rest)))) ∧
    (Outline.of sql).mainSelect? = some (.between before (words ++ (lead ++ (digits ++ (close ++ rest))))) ∧
    TopWords words ∧ CountEdges lead close rest ∧ digits ≠ [] ∧ IsNumber digits ∧
    front = before ++ (words ++ lead)

/-- Whether a text begins with the word `PERCENT`, which nothing need be in front of. -/
def OpensPercent (text : List Char) : Prop :=
  ∃ word later, text = word ++ later ∧ Spelled "PERCENT".toList word ∧ ∀ c, later.head? = some c → isWord c = false

/-- Whether the word `PERCENT` comes next in a text, blanks aside. -/
def FollowedByPercent (text : List Char) : Prop :=
  OpensPercent (text.dropWhile isBlank)

/-- Whether the word `PERCENT` is joined to the count of the `TOP` in a statement. -/
def PercentJoined (sql : List Char) : Prop :=
  ∃ front digits close rest, TopRead sql front digits close rest ∧ OpensPercent rest

theorem TopWords.plain : TopWords "SELECT TOP".toList :=
  ⟨"SELECT".toList, [' '], [], "TOP".toList, rfl, spelled_self (by decide), by decide, fun _ => isBlank_of_mem_space,
    spelled_self (by decide), Or.inl rfl⟩

theorem CountEdges.spaces {rest : List Char} (hrest : rest.head? = some ' ') : CountEdges [' '] [] rest := by
  refine .bare (by decide) (fun _ => isBlank_of_mem_space) fun c hc => ?_
  rw [hrest] at hc
  obtain rfl := Option.some.inj hc
  decide

theorem OpensPercent.head {text : List Char} (h : OpensPercent text) : ∃ c, text.head? = some c ∧ isWord c = true := by
  obtain ⟨word, later, rfl, hword, -⟩ := h
  have hne := hword.ne_nil (by decide)
  refine ⟨word.head hne, ?_, hword.isWord_of_mem (by decide) _ (List.head_mem hne)⟩
  rw [List.head?_append_of_ne_nil _ hne, List.head?_eq_some_head hne]

namespace Cursor

/-- Reads `TOP` behind `SELECT` and its set quantifier, and the row count behind it, with the place after that. -/
def topCount? (c : Cursor) : Option (WrittenCount × Cursor) := do
  let c ← c.letters? "SELECT".toList
  let c ← c.blanks?
  let c := (c.setQuantifier?.bind blanks?).getD c
  let c ← c.word? "TOP".toList
  c.blanks.parenthesizedCount? <|> c.blanks.leadingCount?

variable {front text : List Char} {count : WrittenCount} {place : Cursor}

/-- A `TOP` has a number of rows where its count is read and no `PERCENT` behind blanks. -/
theorem topForm?_eq_rows_iff {c : Cursor} : c.topForm? = some (.rows count) ↔
    ∃ place, c.topCount? = some (count, place) ∧ place.blanks?.bind (·.word? "PERCENT".toList) = none := by
  unfold topForm? topCount?
  simp only [Option.bind_eq_bind, Option.bind_eq_some_iff]
  constructor
  · rintro ⟨first, hfirst, second, hsecond, third, hthird, h⟩
    split at h
    · cases h
    · next found place hread =>
        split at h
        · cases h
        · next hpercent =>
            obtain rfl := TopForm.rows.inj (Option.some.inj h)
            exact ⟨place, ⟨first, hfirst, second, hsecond, third, hthird, hread⟩, Option.not_isSome_iff_eq_none.mp hpercent⟩
  · rintro ⟨place, ⟨first, hfirst, second, hsecond, third, hthird, hread⟩, hpercent⟩
    refine ⟨first, hfirst, second, hsecond, third, hthird, ?_⟩
    rw [hread]
    dsimp only
    rw [hpercent]
    rfl

theorem topForm?_ne_none_of_topCount? {c : Cursor} (h : c.topCount? = some (count, place)) : c.topForm? ≠ none := by
  unfold topCount? at h
  simp only [Option.bind_eq_bind, Option.bind_eq_some_iff] at h
  obtain ⟨first, hfirst, second, hsecond, third, hthird, hread⟩ := h
  rw [topForm?, hfirst]
  dsimp only [Option.bind_eq_bind, Option.bind_some]
  rw [hsecond]
  dsimp only [Option.bind_some]
  rw [hthird]
  dsimp only [Option.bind_some]
  rw [hread]
  dsimp only
  split
  · exact Option.some_ne_none _
  · exact Option.some_ne_none _

theorem parenthesizedCount?_eq_some_iff : (between front text).parenthesizedCount? = some (count, place) ↔
    ∃ inner digits outer rest, text = ('(' :: inner) ++ (digits ++ ((outer ++ [')']) ++ rest)) ∧
      (∀ c ∈ inner, isBlank c = true) ∧ (∀ c ∈ outer, isBlank c = true) ∧ digits ≠ [] ∧ IsNumber digits ∧
      count = .after (front ++ ('(' :: inner)) digits ∧
      place = between (front ++ (('(' :: inner) ++ (digits ++ (outer ++ [')'])))) rest := by
  constructor
  · intro h
    obtain ⟨c, hopen, h⟩ := Option.bind_eq_some_iff.mp h
    obtain ⟨later, rfl, rfl⟩ := char?_eq_some_iff.mp hopen
    obtain ⟨inner, later, rfl, hinner, -, hplace⟩ := @blanks_place (front ++ ['(']) later
    rw [hplace] at h
    obtain ⟨⟨read, c⟩, hcount, h⟩ := Option.bind_eq_some_iff.mp h
    obtain ⟨digits, later, rfl, hnumeral, rfl, rfl⟩ := count?_eq_some_iff.mp hcount
    obtain ⟨outer, later, rfl, houter, -, hplace⟩ := @blanks_place (front ++ ['('] ++ inner ++ digits) later
    obtain ⟨c, hclose, h⟩ := Option.bind_eq_some_iff.mp h
    change (between (front ++ ['('] ++ inner ++ digits) (outer ++ later)).blanks.char? ')' = some c at hclose
    rw [hplace] at hclose
    obtain ⟨rest, rfl, rfl⟩ := char?_eq_some_iff.mp hclose
    obtain ⟨rfl, rfl⟩ := Prod.mk.inj (Option.some.inj h)
    exact ⟨inner, digits, outer, rest, by simp, hinner, houter, hnumeral.ne_nil, hnumeral.number, by simp, by simp⟩
  · rintro ⟨inner, digits, outer, rest, rfl, hinner, houter, hne, hdigits, rfl, rfl⟩
    have hclose : ∀ c, (')' :: rest).head? = some c → isBlank c = false := by
      intro c hc
      obtain rfl := Option.some.inj hc
      rfl
    have hnumeral : Numeral digits (outer ++ (')' :: rest)) := by
      refine ⟨hne, hdigits, fun c hc => ?_⟩
      cases outer with
      | nil =>
          obtain rfl := Option.some.inj hc
          decide
      | cons d outer =>
          obtain rfl := Option.some.inj hc
          exact isWord_eq_false_of_isBlank (houter _ List.mem_cons_self)
    have htext : ('(' :: inner) ++ (digits ++ ((outer ++ [')']) ++ rest)) =
        '(' :: (inner ++ (digits ++ (outer ++ (')' :: rest)))) := by simp
    have hopen : (between front ('(' :: (inner ++ (digits ++ (outer ++ (')' :: rest)))))).char? '(' =
        some (between (front ++ ['(']) (inner ++ (digits ++ (outer ++ (')' :: rest))))) :=
      char?_eq_some_iff.mpr ⟨_, rfl, rfl⟩
    have hcount : (between (front ++ ['('] ++ inner) (digits ++ (outer ++ (')' :: rest)))).count? =
        some (.after (front ++ ['('] ++ inner) digits, between (front ++ ['('] ++ inner ++ digits) (outer ++ (')' :: rest))) :=
      count?_eq_some_iff.mpr ⟨digits, _, rfl, hnumeral, rfl, rfl⟩
    have hend : (between (front ++ ['('] ++ inner ++ digits ++ outer) (')' :: rest)).char? ')' =
        some (between (front ++ ['('] ++ inner ++ digits ++ outer ++ [')']) rest) :=
      char?_eq_some_iff.mpr ⟨_, rfl, rfl⟩
    rw [htext, parenthesizedCount?, hopen]
    dsimp only [Option.bind_eq_bind, Option.bind_some]
    rw [blanks_eq hinner (isBlank_of_head_digits hne hdigits), hcount]
    dsimp only [Option.bind_some]
    rw [blanks_eq houter hclose, hend]
    simp

theorem behindTop_eq_some_iff (hcloses : ∀ c, text.head? = some c → isWord c = false) :
    ((between front text).blanks.parenthesizedCount? <|> (between front text).blanks.leadingCount?) =
        some (count, place) ↔
      ∃ lead digits close rest, text = lead ++ (digits ++ (close ++ rest)) ∧ CountEdges lead close rest ∧
        digits ≠ [] ∧ IsNumber digits ∧ count = .after (front ++ lead) digits ∧
        place = between (front ++ (lead ++ (digits ++ close))) rest := by
  constructor
  · intro h
    obtain ⟨gap, later, rfl, hgap, hstop, hplace⟩ := @blanks_place front text
    rw [hplace] at h
    cases hparens : (between (front ++ gap) later).parenthesizedCount? with
    | some found =>
        rw [hparens] at h
        obtain rfl := Option.some.inj h
        obtain ⟨inner, digits, outer, rest, rfl, hinner, houter, hne, hdigits, rfl, rfl⟩ :=
          parenthesizedCount?_eq_some_iff.mp hparens
        exact ⟨gap ++ ('(' :: inner), digits, outer ++ [')'], rest, by simp, .enclosed hgap hinner houter, hne, hdigits,
          by simp, by simp⟩
    | none =>
        rw [hparens] at h
        obtain ⟨⟨digits, c⟩, hdigits, hpair⟩ := Option.map_eq_some_iff.mp h
        obtain ⟨rest, rfl, hne, hnumber, hend, rfl⟩ := digits?_eq_some_iff.mp hdigits
        obtain ⟨rfl, rfl⟩ := Prod.mk.inj hpair
        have hgapNe : gap ≠ [] := by
          rintro rfl
          have hword := isWord_of_isDigit (hnumber _ (List.head_mem hne))
          rw [hcloses (digits.head hne) (by
            rw [List.nil_append, List.head?_append_of_ne_nil _ hne, List.head?_eq_some_head hne])] at hword
          cases hword
        exact ⟨gap, digits, [], rest, rfl, .bare hgapNe hgap hend, hne, hnumber, rfl, by simp⟩
  · rintro ⟨lead, digits, close, rest, rfl, hedges, hne, hdigits, rfl, rfl⟩
    cases hedges with
    | @bare gap rest hgapNe hgap hstop =>
        have hblanks : (between front (lead ++ (digits ++ ([] ++ rest)))).blanks = between (front ++ lead) (digits ++ rest) :=
          blanks_eq hgap (isBlank_of_head_digits hne hdigits)
        rw [hblanks, parenthesizedCount?_of_digits hne hdigits, leadingCount?, digits?_eq_some_iff.mpr ⟨rest, rfl, hne, hdigits, hstop, rfl⟩]
        simp [WrittenCount.after, WrittenCount.ofDigits, between]
    | @enclosed gap inner outer rest hgap hinner houter =>
        have hopen : ∀ c, (('(' :: inner) ++ (digits ++ ((outer ++ [')']) ++ rest))).head? = some c → isBlank c = false := by
          intro c hc
          obtain rfl := Option.some.inj hc
          rfl
        rw [List.append_assoc, blanks_eq hgap hopen,
          parenthesizedCount?_eq_some_iff.mpr ⟨inner, digits, outer, rest, rfl, hinner, houter, hne, hdigits, rfl, rfl⟩]
        simp

theorem exists_topWords (h : (between front text).topCount? = some (count, place)) :
    ∃ words later, text = words ++ later ∧ TopWords words ∧ (∀ c, later.head? = some c → isWord c = false) ∧
      ((between (front ++ words) later).blanks.parenthesizedCount? <|>
        (between (front ++ words) later).blanks.leadingCount?) = some (count, place) := by
  obtain ⟨c, hselect, h⟩ := Option.bind_eq_some_iff.mp h
  obtain ⟨select, later, rfl, hspelled, rfl⟩ := letters?_eq_some_iff.mp hselect
  obtain ⟨c, hblanks, h⟩ := Option.bind_eq_some_iff.mp h
  obtain ⟨gap, later, rfl, hne, hgap, -, rfl⟩ := blanks?_eq_some_iff.mp hblanks
  obtain ⟨c, htop, h⟩ := Option.bind_eq_some_iff.mp h
  have hbehind : ∀ {quantifier later : List Char},
      (between (front ++ select ++ gap ++ quantifier) later).word? "TOP".toList = some c →
      (quantifier = [] ∨ ∃ word space, quantifier = word ++ space ∧
        SpelledAny ["DISTINCT".toList, "ALL".toList] word ∧ space ≠ [] ∧ ∀ c ∈ space, isBlank c = true) →
      ∃ words rest, select ++ (gap ++ (quantifier ++ later)) = words ++ rest ∧ TopWords words ∧
        (∀ c, rest.head? = some c → isWord c = false) ∧ c = between (front ++ words) rest := by
    intro quantifier later htop hquantifier
    obtain ⟨top, rest, hat, hspelledTop, rfl⟩ := (word?_eq_some_iff (by decide)).mp htop
    obtain rfl : later = top ++ rest := List.append_cancel_left hat.eq_append
    exact ⟨select ++ (gap ++ (quantifier ++ top)), rest, by simp,
      ⟨select, gap, quantifier, top, rfl, hspelled, hne, hgap, hspelledTop, hquantifier⟩, hat.closes, by simp⟩
  have hfound : ∃ words rest, select ++ (gap ++ later) = words ++ rest ∧ TopWords words ∧
      (∀ c, rest.head? = some c → isWord c = false) ∧ c = between (front ++ words) rest := by
    cases hset : (between (front ++ select ++ gap) later).setQuantifier?.bind blanks? with
    | none =>
        rw [hset, Option.getD_none] at htop
        rw [← List.append_nil (front ++ select ++ gap)] at htop
        exact hbehind htop (Or.inl rfl)
    | some after =>
        rw [hset, Option.getD_some] at htop
        obtain ⟨second, hquantifier, hspace⟩ := Option.bind_eq_some_iff.mp hset
        have hkeys : ∀ keyword ∈ ["DISTINCT".toList, "ALL".toList], isKeyword keyword = true := by decide
        obtain ⟨keyword, hmem, hread⟩ := (anyWord?_eq_some_iff hkeys).mp hquantifier
        obtain ⟨word, tail, hat, hword, rfl⟩ := (word?_eq_some_iff (hkeys keyword hmem)).mp hread
        obtain rfl : later = word ++ tail := List.append_cancel_left hat.eq_append
        obtain ⟨space, tail, rfl, hneSpace, hspaceBlank, -, rfl⟩ := blanks?_eq_some_iff.mp hspace
        rw [List.append_assoc _ word space] at htop
        obtain ⟨words, rest, htext, hfound⟩ := hbehind htop
          (Or.inr ⟨word, space, rfl, ⟨keyword, hmem, hword⟩, hneSpace, hspaceBlank⟩)
        refine ⟨words, rest, ?_, hfound⟩
        rw [← htext, List.append_assoc word]
  obtain ⟨words, rest, htext, hwords, hcloses, rfl⟩ := hfound
  exact ⟨words, rest, htext, hwords, hcloses, h⟩

/-- A set quantifier with blanks behind it is passed over in front of `TOP`. -/
theorem setQuantifier?_getD {quantifier top later : List Char} (hopens : Opens front) (htop : Spelled "TOP".toList top)
    (hcloses : ∀ c, later.head? = some c → isWord c = false)
    (hquantifier : quantifier = [] ∨ ∃ word space, quantifier = word ++ space ∧
      SpelledAny ["DISTINCT".toList, "ALL".toList] word ∧ space ≠ [] ∧ ∀ c ∈ space, isBlank c = true) :
    ((between front (quantifier ++ (top ++ later))).setQuantifier?.bind blanks?).getD
        (between front (quantifier ++ (top ++ later))) = between (front ++ quantifier) (top ++ later) ∧
      Opens (front ++ quantifier) := by
  have hkey : isKeyword "TOP".toList = true := by decide
  rcases hquantifier with rfl | ⟨word, space, rfl, ⟨keyword, hmem, hword⟩, hne, hspace⟩
  · have hat : WordAt (front ++ (top ++ later)) front top later :=
      ⟨rfl, htop.ne_nil hkey, htop.isWord_of_mem hkey, hopens, hcloses⟩
    rw [List.nil_append, List.append_nil, setQuantifier?_eq_none hat htop]
    exact ⟨rfl, hopens⟩
  · have hkeys : ∀ keyword ∈ ["DISTINCT".toList, "ALL".toList], isKeyword keyword = true := by decide
    have hat : WordAt (front ++ (word ++ (space ++ (top ++ later)))) front word (space ++ (top ++ later)) :=
      ⟨rfl, hword.ne_nil (hkeys keyword hmem), hword.isWord_of_mem (hkeys keyword hmem), hopens,
        isWord_of_head_blanks _ hne hspace⟩
    have hquantified : (between front (word ++ (space ++ (top ++ later)))).setQuantifier? =
        some (between (front ++ word) (space ++ (top ++ later))) :=
      (anyWord?_eq_some_iff hkeys).mpr ⟨keyword, hmem,
        (word?_eq_some_iff (hkeys keyword hmem)).mpr ⟨word, _, hat, hword, rfl⟩⟩
    have hspaced : (between (front ++ word) (space ++ (top ++ later))).blanks? =
        some (between (front ++ word ++ space) (top ++ later)) :=
      blanks?_eq_some_iff.mpr ⟨space, _, rfl, hne, hspace, htop.isBlank_of_head hkey later, rfl⟩
    rw [List.append_assoc word, hquantified, Option.bind_some, hspaced, Option.getD_some, ← List.append_assoc]
    exact ⟨rfl, opens_append_blanks _ hne hspace⟩

theorem topCount?_of_topWords {words later : List Char} (hwords : TopWords words)
    (hcloses : ∀ c, later.head? = some c → isWord c = false) :
    (between front (words ++ later)).topCount? = ((between (front ++ words) later).blanks.parenthesizedCount? <|>
      (between (front ++ words) later).blanks.leadingCount?) := by
  obtain ⟨select, gap, quantifier, top, rfl, hselect, hne, hgap, htop, hquantifier⟩ := hwords
  have hkey : isKeyword "TOP".toList = true := by decide
  have htext : select ++ (gap ++ (quantifier ++ top)) ++ later = select ++ (gap ++ (quantifier ++ (top ++ later))) := by
    simp
  have hplace : front ++ (select ++ (gap ++ (quantifier ++ top))) = front ++ select ++ gap ++ quantifier ++ top := by
    simp
  have hletters : (between front (select ++ (gap ++ (quantifier ++ (top ++ later))))).letters? "SELECT".toList =
      some (between (front ++ select) (gap ++ (quantifier ++ (top ++ later)))) :=
    letters?_eq_some_iff.mpr ⟨select, _, rfl, hselect, rfl⟩
  have hstop : ∀ c, (quantifier ++ (top ++ later)).head? = some c → isBlank c = false := by
    rcases hquantifier with rfl | ⟨word, space, rfl, ⟨keyword, hmem, hword⟩, -⟩
    · exact htop.isBlank_of_head hkey later
    · have hkeys : ∀ keyword ∈ ["DISTINCT".toList, "ALL".toList], isKeyword keyword = true := by decide
      rw [List.append_assoc]
      exact hword.isBlank_of_head (hkeys keyword hmem) _
  have hblanks : (between (front ++ select) (gap ++ (quantifier ++ (top ++ later)))).blanks? =
      some (between (front ++ select ++ gap) (quantifier ++ (top ++ later))) :=
    blanks?_eq_some_iff.mpr ⟨gap, _, rfl, hne, hgap, hstop, rfl⟩
  obtain ⟨hset, hopens⟩ := setQuantifier?_getD (opens_append_blanks (front ++ select) hne hgap) htop hcloses hquantifier
  have hread : (between (front ++ select ++ gap ++ quantifier) (top ++ later)).word? "TOP".toList =
      some (between (front ++ select ++ gap ++ quantifier ++ top) later) :=
    (word?_eq_some_iff hkey).mpr ⟨top, later,
      ⟨rfl, htop.ne_nil hkey, htop.isWord_of_mem hkey, hopens, hcloses⟩, htop, rfl⟩
  rw [htext, hplace, topCount?, hletters]
  dsimp only [Option.bind_eq_bind, Option.bind_some]
  rw [hblanks]
  dsimp only [Option.bind_some]
  rw [hset, hread]
  rfl

theorem exists_topWords_of_selectHead {after : Cursor} (hselect : ((between front text).word? "SELECT".toList).isSome)
    (h : (between front text).selectHead? = some after) :
    ∃ clause later, text = clause ++ later ∧ after = between (front ++ clause) later ∧
      TopWords (clause ++ " TOP".toList) := by
  have htop : Spelled "TOP".toList "TOP".toList := spelled_self (by decide)
  obtain ⟨word, later, hat, hspelled, hcases⟩ := selectHead?_cases hselect h
  obtain rfl : text = word ++ later := List.append_cancel_left hat.eq_append
  rcases hcases with ⟨rfl, -⟩ | ⟨gap, second, tail, rfl, hne, hgap, -, hsecond, rfl⟩
  · exact ⟨word, later, rfl, rfl, word, [' '], [], "TOP".toList, rfl, hspelled, by decide, fun _ => isBlank_of_mem_space,
      htop, Or.inl rfl⟩
  · refine ⟨word ++ (gap ++ second), tail, by simp, by simp, word, gap, second ++ [' '], "TOP".toList, by simp, hspelled,
      hne, hgap, htop, Or.inr ⟨second, [' '], rfl, hsecond, by decide, fun _ => isBlank_of_mem_space⟩⟩

theorem followedByPercent_iff (front text : List Char) : FollowedByPercent text ↔
    OpensPercent text ∨ ((between front text).blanks?.bind (·.word? "PERCENT".toList)).isSome = true := by
  have hkey : isKeyword "PERCENT".toList = true := by decide
  have hsolid : ∀ {later : List Char}, OpensPercent later → ∀ c, later.head? = some c → isBlank c = false := by
    intro later hopens c hc
    obtain ⟨d, hd, hword⟩ := hopens.head
    obtain rfl := Option.some.inj (hc.symm.trans hd)
    exact isBlank_eq_false_of_isWord hword
  constructor
  · intro h
    by_cases hgap : text.takeWhile isBlank = []
    · have hdrop := @List.takeWhile_append_dropWhile _ isBlank text
      rw [hgap, List.nil_append] at hdrop
      refine Or.inl ?_
      rw [← hdrop]
      exact h
    · refine Or.inr ?_
      have hblanks : (between front text).blanks? =
          some (between (front ++ text.takeWhile isBlank) (text.dropWhile isBlank)) :=
        blanks?_eq_some_iff.mpr ⟨_, _, List.takeWhile_append_dropWhile.symm, hgap, fun _ => List.mem_takeWhile_imp,
          hsolid h, rfl⟩
      obtain ⟨word, later, htext, hword, hcloses⟩ := h
      have hopens : Opens (front ++ text.takeWhile isBlank) :=
        opens_append_blanks front hgap fun _ => List.mem_takeWhile_imp
      rw [hblanks, Option.bind_some, isSome_word?_iff hkey, htext]
      exact .word ⟨rfl, hword.ne_nil hkey, hword.isWord_of_mem hkey, hopens, hcloses⟩ hword
  · rintro (h | h)
    · have hdrop := (Lexeme.takeWhile_append_of_stop (List.forall_mem_nil _) (hsolid h)).2
      rw [List.nil_append] at hdrop
      rw [FollowedByPercent, hdrop]
      exact h
    · obtain ⟨found, hfound⟩ := Option.isSome_iff_exists.mp h
      obtain ⟨c, hblanks, hread⟩ := Option.bind_eq_some_iff.mp hfound
      obtain ⟨gap, rest, rfl, -, hgap, hstop, rfl⟩ := blanks?_eq_some_iff.mp hblanks
      obtain ⟨word, later, hat, hword, -⟩ := (word?_eq_some_iff hkey).mp hread
      rw [FollowedByPercent, (Lexeme.takeWhile_append_of_stop hgap hstop).2]
      exact ⟨word, later, List.append_cancel_left hat.eq_append, hword, hat.closes⟩

end Cursor

namespace TopRead

variable {sql front digits close rest : List Char} {main place : Cursor} {count : WrittenCount}

theorem eq_append (h : TopRead sql front digits close rest) :
    (Outline.of sql).text = front ++ (digits ++ (close ++ rest)) := by
  obtain ⟨before, words, lead, htext, -, -, -, -, -, rfl⟩ := h
  rw [htext]
  simp

theorem topCount?_eq (h : TopRead sql front digits close rest) (hmain : (Outline.of sql).mainSelect? = some main) :
    main.topCount? = some (.after front digits, .between (front ++ (digits ++ close)) rest) := by
  obtain ⟨before, words, lead, -, hselect, hwords, hedges, hne, hdigits, rfl⟩ := h
  obtain rfl := Option.some.inj (hmain.symm.trans hselect)
  have hcloses : ∀ c, (lead ++ (digits ++ (close ++ rest))).head? = some c → isWord c = false := by
    intro c hc
    cases hedges with
    | bare hgapNe hgap hstop => exact isWord_of_head_blanks _ hgapNe hgap c hc
    | @enclosed gap inner outer _ hgap hinner houter =>
        cases gap with
        | nil =>
            obtain rfl := Option.some.inj hc
            decide
        | cons d gap =>
            obtain rfl := Option.some.inj hc
            exact isWord_eq_false_of_isBlank (hgap _ List.mem_cons_self)
  rw [Cursor.topCount?_of_topWords hwords hcloses, (Cursor.behindTop_eq_some_iff hcloses).mpr
    ⟨lead, digits, close, rest, rfl, hedges, hne, hdigits, rfl, rfl⟩]
  simp

theorem of_topCount? (hmain : (Outline.of sql).mainSelect? = some main) (h : main.topCount? = some (count, place)) :
    ∃ front digits close rest, TopRead sql front digits close rest ∧ count = .after front digits ∧
      place = .between (front ++ (digits ++ close)) rest := by
  obtain ⟨before, text, hcut, -, rfl, -⟩ := Outline.mainSelect?_eq_some_iff.mp hmain
  obtain ⟨words, later, rfl, hwords, hcloses, hbehind⟩ := Cursor.exists_topWords h
  obtain ⟨lead, digits, close, rest, rfl, hedges, hne, hdigits, rfl, rfl⟩ :=
    (Cursor.behindTop_eq_some_iff hcloses).mp hbehind
  exact ⟨before ++ (words ++ lead), digits, close, rest,
    ⟨before, words, lead, hcut.eq_append, hmain, hwords, hedges, hne, hdigits, rfl⟩, by simp, by simp⟩

theorem unique {other second more after : List Char} (h : TopRead sql front digits close rest)
    (hother : TopRead sql other second more after) :
    front = other ∧ digits = second ∧ close = more ∧ rest = after := by
  obtain ⟨before, words, lead, -, hmain, -⟩ := id h
  have hread := h.topCount?_eq hmain
  rw [hother.topCount?_eq hmain] at hread
  obtain ⟨hcount, hplace⟩ := Prod.mk.inj (Option.some.inj hread)
  obtain ⟨rfl, rfl, hclose⟩ :=
    WrittenCount.after_inj (h.eq_append.symm.trans hother.eq_append) hcount.symm
  obtain rfl : after = rest := congrArg Cursor.rest hplace
  exact ⟨rfl, rfl, List.append_cancel_right hclose, rfl⟩

theorem of_begins {words lead : List Char} (hplace : (Outline.of sql).mainSelect?.map (·.offset) = some 0)
    (htext : (Outline.of sql).text = words ++ (lead ++ (digits ++ (close ++ rest)))) (hwords : TopWords words)
    (hedges : CountEdges lead close rest) (hne : digits ≠ []) (hdigits : IsNumber digits) :
    TopRead sql (words ++ lead) digits close rest := by
  obtain ⟨main, hmain, hstart⟩ := Option.map_eq_some_iff.mp hplace
  obtain ⟨front, later, hcut, -, rfl, -⟩ := Outline.mainSelect?_eq_some_iff.mp hmain
  rw [← List.nil_append (words ++ _)] at htext
  obtain ⟨rfl, rfl⟩ := eq_of_byteLength_eq (hcut.eq_append.symm.trans htext) hstart
  exact ⟨[], words, lead, htext, hmain, hwords, hedges, hne, hdigits, rfl⟩

theorem recount {again before gap written : List Char} (h : TopRead sql (before ++ gap) digits close rest)
    (hmain : (Outline.of sql).mainSelect? = some (.between before (gap ++ (digits ++ (close ++ rest)))))
    (hagain : (Outline.of again).text = before ++ gap ++ (written ++ (close ++ rest)))
    (hmainAgain : (Outline.of again).mainSelect? = some (.between before (gap ++ (written ++ (close ++ rest)))))
    (hne : written ≠ []) (hwritten : IsNumber written) : TopRead again (before ++ gap) written close rest := by
  obtain ⟨early, words, lead, -, hselect, hwords, hedges, -, -, hfront⟩ := h
  have hrest : gap ++ (digits ++ (close ++ rest)) = words ++ (lead ++ (digits ++ (close ++ rest))) :=
    congrArg Cursor.rest (Option.some.inj (hmain.symm.trans hselect))
  rw [← List.append_assoc words] at hrest
  obtain rfl := List.append_cancel_right hrest
  obtain rfl := List.append_cancel_right hfront
  exact ⟨before, words, lead, by rw [hagain]; simp, by rw [hmainAgain, List.append_assoc], hwords, hedges, hne, hwritten, rfl⟩

end TopRead

namespace Limiter

variable {limiter : Limiter} {timing : Timing} {sql : List Char} {main : Cursor} {limit offset rows : Nat}
  {limited : Limited}

/-- A count that is left or lowered has `PERCENT` behind it exactly if it was joined to the count. -/
theorem exists_topRead_of_written {count : WrittenCount} (haccepts : limiter.Accepts timing sql main)
    (htop : main.topForm? = some (.rows count))
    (hslot : SlotAt sql main offset limiter.database.usesTop (.written count))
    (hlimit : limiter.limit sql ⟨limit, offset⟩ timing = .ok limited) :
    ∃ front digits close rest, TopRead limited.text front digits close rest ∧
      (FollowedByPercent rest ↔ PercentJoined sql) := by
  have hmain := haccepts.mainSelect?_eq
  obtain ⟨place, htopCount, hpercent⟩ := Cursor.topForm?_eq_rows_iff.mp htop
  obtain ⟨front, digits, close, rest, hread, hcount, rfl⟩ := TopRead.of_topCount? hmain htopCount
  have hjoined : FollowedByPercent rest ↔ PercentJoined sql := by
    rw [Cursor.followedByPercent_iff (front ++ (digits ++ close)), hpercent, Option.isSome_none,
      or_iff_left Bool.false_ne_true]
    constructor
    · exact fun hopens => ⟨front, digits, close, rest, hread, hopens⟩
    · rintro ⟨other, second, more, after, hother, hopens⟩
      obtain ⟨-, -, -, rfl⟩ := hread.unique hother
      exact hopens
  obtain ⟨other, second, later, hin⟩ := hslot.exists_countIn hmain
  obtain ⟨rfl, rfl, rfl⟩ := WrittenCount.after_inj (hread.eq_append.symm.trans hin.countAt.eq_append)
    (hcount.symm.trans hin.countAt.count_eq)
  obtain ⟨left, right, hsite, hleft, hright⟩ := hin.site
  rw [limit_written haccepts hslot hcount hsite hleft] at hlimit
  rw [← Except.ok.inj hlimit]
  split
  · exact ⟨_, _, _, _, hread, hjoined⟩
  · obtain ⟨before, gap, rfl, hne, rfl⟩ := hin.behind
    have hrecount := hin.countAt.recount limit
    have hclause : ∀ c ∈ Nat.toDigits 10 limit, isClauseChar c = true := fun _ hc => isClauseChar_of_mem_decimal hc
    have hagain := hsite.outline_joined hclause Nat.toDigits_ne_nil
    rw [hleft, hright] at hagain
    have hmainAgain := hrecount.mainSelect? hin.countAt.eq_append hagain hne hmain
    exact ⟨_, _, _, _, hread.recount hmain hagain hmainAgain Nat.toDigits_ne_nil (isNumber_decimal limit), hjoined⟩

/-- A new `TOP` has `PERCENT` behind it exactly if the query selects from that word on. -/
theorem exists_topRead_of_head {after : Cursor} (haccepts : limiter.Accepts timing sql main)
    (hslot : SlotAt sql main offset limiter.database.usesTop (.clause after.offset " TOP ".toList [] none))
    (hpaging : (Outline.of sql).findTopLevel? main.offset (·.anyWord? pagingWords) = none)
    (htop : main.topForm? = none) (hhead : main.selectHead? = some after)
    (hlimit : limiter.limit sql ⟨limit, offset⟩ timing = .ok limited) :
    ∃ front digits close rest, TopRead limited.text front digits close rest ∧
      (FollowedByPercent rest ↔ (Outline.of sql).listsPercent = true) := by
  have hmain := haccepts.mainSelect?_eq
  obtain ⟨front, rest, hgap⟩ := hslot.exists_gapAt hmain
  obtain ⟨left, right, hsite, hleft, rfl⟩ := hgap.site
  obtain ⟨before, gap, rfl, hne, rfl⟩ := hgap.behind
  have hinsertion := hgap.insertion limit
  have hagain := hsite.outline_joined hinsertion.all_clause hinsertion.ne_nil
  rw [hleft] at hagain
  have hmainAgain := hinsertion.mainSelect? hgap.eq_append hagain hne hmain
  have hselect := Outline.isSome_word?_of_mainSelect? hmain
  obtain ⟨clause, later, htext, rfl, hwords⟩ := Cursor.exists_topWords_of_selectHead hselect hhead
  obtain ⟨hclause, rfl⟩ : before ++ gap = before ++ clause ∧ right.flatMap Lexeme.blanked = later := by
    refine eq_of_byteLength_eq ?_ hgap.place_eq.symm
    rw [List.append_assoc, htext, List.append_assoc]
  obtain rfl := List.append_cancel_left hclause
  rw [limit_clause haccepts hslot hsite (by rw [hleft]; exact hgap.place_eq)] at hlimit
  rw [← Except.ok.inj hlimit]
  refine ⟨before ++ (gap ++ " TOP".toList ++ [' ']), Nat.toDigits 10 limit, [], right.flatMap Lexeme.blanked,
    ⟨before, gap ++ " TOP".toList, [' '], ?_, ?_, hwords, ?_, Nat.toDigits_ne_nil, isNumber_decimal limit, rfl⟩, ?_⟩
  · rw [hagain]
    simp
  · rw [hmainAgain]
    simp
  · exact .bare (by decide) (fun _ => isBlank_of_mem_space)
      fun c hc => isDigit_eq_false_of_isWord_eq_false (hgap.stops c hc)
  · rw [Cursor.followedByPercent_iff (before ++ gap),
      Outline.listsPercent_eq_of_selectHead? hmain hpaging htop hhead]
    apply or_iff_right
    intro hopens
    obtain ⟨c, hc, hword⟩ := hopens.head
    rw [hgap.stops c hc] at hword
    cases hword

/-- Where a number of rows is reported of a query of SQL Server that does not page, it is the count of its `TOP`. The
word `PERCENT` follows that count exactly if it was joined to it, or if a new `TOP` came in front of it. -/
theorem topRead_apply {category : Category} {window : RowWindow} (hdatabase : limiter.database = .sqlServer)
    (hknown : (limiter.apply category sql window timing).outcome.effectiveLimit? = some rows)
    (hpages : (Outline.of sql).pages = false)
    (hplain : ∀ start bound, (limiter.apply category sql window timing).outcome ≠ .paginated start bound) :
    ∃ front digits close rest, TopRead (limiter.apply category sql window timing).text front digits close rest ∧
      (FollowedByPercent rest ↔ PercentJoined sql ∨ (Outline.of sql).listsPercent = true) := by
  have hlimit := limit_of_effectiveLimit? hknown
  generalize limiter.apply category sql window timing = limited at hlimit hknown hplain ⊢
  obtain ⟨limit, offset⟩ := window
  obtain ⟨main, slot, haccepts, hslot, happly⟩ := limit_eq_ok_iff.mp hlimit
  have hmain := haccepts.mainSelect?_eq
  have hpaging := (Outline.pages_eq_false_iff hmain).mp hpages
  have htop : limiter.database.usesTop = true := by rw [hdatabase]; rfl
  have hkeep := hslot
  rw [htop] at hslot
  cases hslot with
  | fetch hcount =>
      rw [(Outline.paging_eq_none hpaging).1] at hcount
      cases hcount
  | offsetRows hfetch hoffset =>
      rw [(Outline.paging_eq_none hpaging).2.1] at hoffset
      cases hoffset
  | top _ hcount =>
      obtain ⟨front, digits, close, rest, hread, hpercent⟩ := exists_topRead_of_written haccepts hcount hkeep hlimit
      refine ⟨front, digits, close, rest, hread, hpercent.trans ?_⟩
      rw [Outline.listsPercent_eq_false_of_topForm? hmain hcount]
      exact (or_iff_left Bool.false_ne_true).symm
  | page _ htopForm hpos =>
      refine absurd (Plan.outcome_of_apply happly) ?_
      rw [Slot.outcome_atEnd]
      exact hplain offset limit
  | head _ htopForm hzero hhead =>
      obtain ⟨front, digits, close, rest, hread, hpercent⟩ :=
        exists_topRead_of_head haccepts hkeep hpaging htopForm hhead hlimit
      refine ⟨front, digits, close, rest, hread, hpercent.trans (or_iff_right ?_).symm⟩
      rintro ⟨other, second, more, after, hother, -⟩
      exact Cursor.topForm?_ne_none_of_topCount? (hother.topCount?_eq hmain) htopForm

/-- A longer word behind a `TOP` makes no share of its count. -/
theorem topRead_apply_column : ∃ sql : List Char, sql = "SELECT TOP 50 percent_done FROM t".toList ∧
    (usual .sqlServer).database = .sqlServer ∧
    (usual .sqlServer).apply .readOnly sql ⟨10, 0⟩ = ⟨"SELECT TOP 10 percent_done FROM t".toList, .capped 50 10⟩ ∧
    (Outline.of sql).pages = false ∧
    ∃ front digits close rest, TopRead "SELECT TOP 10 percent_done FROM t".toList front digits close rest ∧
      ¬FollowedByPercent rest := by
  have hlimited : (usual .sqlServer).apply .readOnly "SELECT TOP 50 percent_done FROM t".toList ⟨10, 0⟩ =
      ⟨"SELECT TOP 10 percent_done FROM t".toList, .capped 50 10⟩ := by
    decide +kernel
  have hpages : (Outline.of "SELECT TOP 50 percent_done FROM t".toList).pages = false := by decide +kernel
  have hlists : (Outline.of "SELECT TOP 50 percent_done FROM t".toList).listsPercent = false := by decide +kernel
  have hinput : TopRead "SELECT TOP 50 percent_done FROM t".toList ("SELECT TOP".toList ++ [' ']) "50".toList []
      " percent_done FROM t".toList :=
    .of_begins (by decide +kernel) (by decide +kernel) TopWords.plain (.spaces rfl) (by decide) (by decide)
  have hplain : ∀ start bound, ((usual .sqlServer).apply .readOnly "SELECT TOP 50 percent_done FROM t".toList
      ⟨10, 0⟩).outcome ≠ .paginated start bound := fun _ _ => hlimited ▸ nofun
  obtain ⟨front, digits, close, rest, hread, hpercent⟩ := @topRead_apply (usual .sqlServer) .atOnce
    "SELECT TOP 50 percent_done FROM t".toList 10 .readOnly ⟨10, 0⟩ rfl (congrArg (·.outcome.effectiveLimit?) hlimited)
    hpages hplain
  rw [hlimited] at hread
  refine ⟨_, rfl, rfl, hlimited, hpages, front, digits, close, rest, hread, fun hfollowed => ?_⟩
  rcases hpercent.mp hfollowed with ⟨other, second, more, after, hother, hopens⟩ | hpercent
  · obtain ⟨-, -, -, rfl⟩ := hinput.unique hother
    obtain ⟨c, hc, hword⟩ := hopens.head
    obtain rfl := Option.some.inj hc
    exact absurd hword (by decide)
  · rw [hlists] at hpercent
    cases hpercent

/-- A `PERCENT` that is joined to the parenthesis of the count is passed over, and a new `TOP` comes in front of a column
of that name: both are shares of the rows that are reported as row counts. -/
theorem exists_followedByPercent : ∃ joined listed : List Char,
    joined = "SELECT TOP (50)PERCENT * FROM t".toList ∧ listed = "SELECT percent FROM t".toList ∧
    (usual .sqlServer).apply .readOnly joined ⟨100, 0⟩ = ⟨joined, .withinLimit 50⟩ ∧
    TopRead joined "SELECT TOP (".toList "50".toList ")".toList "PERCENT * FROM t".toList ∧
    FollowedByPercent "PERCENT * FROM t".toList ∧
    (usual .sqlServer).apply .readOnly listed ⟨100, 0⟩ = ⟨"SELECT TOP 100 percent FROM t".toList, .inserted 100⟩ ∧
    TopRead "SELECT TOP 100 percent FROM t".toList "SELECT TOP ".toList "100".toList [] " percent FROM t".toList ∧
    FollowedByPercent " percent FROM t".toList := by
  have hjoined : TopRead "SELECT TOP (50)PERCENT * FROM t".toList ("SELECT TOP".toList ++ " (".toList) "50".toList
      ")".toList "PERCENT * FROM t".toList :=
    .of_begins (by decide +kernel) (by decide +kernel) TopWords.plain
      (@CountEdges.enclosed [' '] [] [] _ (fun _ => isBlank_of_mem_space) (List.forall_mem_nil _) (List.forall_mem_nil _))
      (by decide) (by decide)
  have hlisted : TopRead "SELECT TOP 100 percent FROM t".toList ("SELECT TOP".toList ++ [' ']) "100".toList []
      " percent FROM t".toList :=
    .of_begins (by decide +kernel) (by decide +kernel) TopWords.plain (.spaces rfl) (by decide) (by decide)
  refine ⟨_, _, rfl, rfl, by decide +kernel, hjoined, ?_, by decide +kernel, hlisted, ?_⟩
  · exact ⟨"PERCENT".toList, " * FROM t".toList, by decide, by decide, Cursor.isWord_of_head_space⟩
  · exact ⟨"percent".toList, " FROM t".toList, by decide, by decide, Cursor.isWord_of_head_space⟩

end Limiter

end SqlGate
