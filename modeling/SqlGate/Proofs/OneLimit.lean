import SqlGate.Proofs.LimitTwice

/-! How many clauses limit the rows of a query that has been given one. A clause is added where the main query
has none, apart from queries that write their offset as a number: there a limit that is no number is passed
over, and the query ends up with two. -/

namespace SqlGate

open Unicode

/-- The words that begin a clause that limits the rows, apart from `TOP`. -/
def limitingWords (top : Bool) : List (List Char) :=
  if top then ["FETCH".toList] else ["FETCH".toList, "LIMIT".toList]

/-- Whether the text goes on with `SELECT TOP` behind `front`, with a set quantifier between them or without. -/
def TopPhrase (text front : List Char) : Prop :=
  PhraseAt text [Spelled "SELECT".toList, Spelled "TOP".toList] front ∨
    PhraseAt text [Spelled "SELECT".toList, SpelledAny ["DISTINCT".toList, "ALL".toList], Spelled "TOP".toList] front

/-- A clause that limits the rows begins behind `front`, for engines with `TOP` and without: at one of its words,
from the main select word on, or at the main select word that `TOP` belongs to. -/
inductive LimitAt (sql : List Char) : Bool → List Char → Prop where
  | word {top : Bool} {main : Cursor} {front : List Char} (hmain : (Outline.of sql).mainSelect? = some main)
      (hstart : main.offset ≤ byteLength front)
      (hword : PhraseAt (Outline.of sql).text [SpelledAny (limitingWords top)] front) : LimitAt sql top front
  | top {front rest : List Char} (hmain : (Outline.of sql).mainSelect? = some (.between front rest))
      (htop : TopPhrase (Outline.of sql).text front) : LimitAt sql true front

/-- A clause that limits the rows of the main query: it stands outside all parentheses. -/
structure MainLimitAt (sql : List Char) (top : Bool) (front : List Char) : Prop where
  limitAt : LimitAt sql top front
  outside : ∃ rest, (Outline.of sql).text = front ++ rest ∧ depthBetween front rest = 0

/-- Whether one clause limits the rows of the main query: none but this one, which stands outside all parentheses
if the statement leaves none of them open. -/
def LimitedOnce (sql : List Char) (top : Bool) : Prop :=
  ∃ front, LimitAt sql top front ∧ (openAfter 0 (Outline.of sql).text = 0 → MainLimitAt sql top front) ∧
    ∀ other, MainLimitAt sql top other → other = front

/-- Whether the main query writes its offset as a number. -/
def Outline.writesOffset (outline : Outline) (top : Bool) : Bool :=
  match outline.mainSelect? with
  | none => false
  | some main =>
    if top then (outline.findTopLevel? main.offset Cursor.offsetRows?).isSome
    else (outline.findTopLevel? main.offset Cursor.bareOffset?).isSome

section Top

variable {text front rest : List Char} {condition next : List Char → Prop} {tokens : List (List Char → Prop)}

theorem PhraseAt.exists_words (h : PhraseAt text (condition :: next :: tokens) front) :
    ∃ word gap rest, WordAt text front word (gap ++ rest) ∧ condition word ∧ gap ≠ [] ∧
      (∀ c ∈ gap, isBlank c = true) ∧ (∀ c, rest.head? = some c → isBlank c = false) ∧
      PhraseAt text (next :: tokens) (front ++ (word ++ gap)) := by
  cases h with
  | @words _ _ _ _ word gap rest hat hword hne hgap hlater =>
      refine ⟨word, gap, rest, hat, hword, hne, hgap, fun c hc => ?_, hlater⟩
      obtain ⟨other, after, hatNext, -⟩ := hlater.exists_wordAt
      have htext : text = front ++ (word ++ gap) ++ rest := by
        rw [hat.eq_append]
        simp
      obtain ⟨d, hd, hdWord⟩ := hatNext.head_eq htext
      rw [hc] at hd
      obtain rfl := Option.some.inj hd
      exact isBlank_eq_false_of_isWord hdWord

theorem PhraseAt.before_top {word : List Char} (hat : WordAt text front word (' ' :: ("TOP".toList ++ (' ' :: rest))))
    (hword : condition word) : PhraseAt text [condition, Spelled "TOP".toList] front := by
  have hnext : WordAt text (front ++ (word ++ [' '])) "TOP".toList (' ' :: rest) := by
    refine .of_keyword (by decide) (by rw [hat.eq_append]; simp) ?_ Cursor.isWord_of_head_space
    rw [← List.append_assoc]
    exact Cursor.opens_space _
  exact .words hat hword (by decide) (fun _ => isBlank_of_mem_space) (.word hnext (spelled_self (by decide)))

namespace Cursor

theorem isSome_topForm?_of_steps {first second third : Cursor}
    (hletters : (between front rest).letters? "SELECT".toList = some first) (hblanks : first.blanks? = some second)
    (hquantifier : (second.setQuantifier?.bind blanks?).getD second = third)
    (htop : (third.word? "TOP".toList).isSome) : (between front rest).topForm?.isSome := by
  obtain ⟨after, hafter⟩ := Option.isSome_iff_exists.mp htop
  rw [topForm?, hletters]
  dsimp only [Option.bind_eq_bind, Option.bind_some]
  rw [hblanks]
  dsimp only [Option.bind_some]
  rw [hquantifier, hafter]
  dsimp only [Option.bind_some]
  split
  · rfl
  · split
    · rfl
    · rfl

theorem isSome_topForm?_of_topPhrase (h : TopPhrase (front ++ rest) front) : (between front rest).topForm?.isSome := by
  have hread : ∀ {place later : List Char} {keyword : List Char}, isKeyword keyword = true →
      PhraseAt (front ++ rest) [Spelled keyword] place → front ++ rest = place ++ later →
        ((between place later).word? keyword).isSome := by
    intro place later keyword hkey hphrase htext
    rw [htext] at hphrase
    exact (isSome_word?_iff hkey).mpr hphrase
  rcases h with h | h
  · obtain ⟨word, gap, later, hat, hword, hne, hgap, hstop, hlater⟩ := h.exists_words
    obtain rfl := List.append_cancel_left hat.eq_append
    have hplace : front ++ (word ++ gap) = front ++ word ++ gap := (List.append_assoc ..).symm
    have htext : front ++ (word ++ (gap ++ later)) = front ++ word ++ gap ++ later := by simp
    rw [hplace] at hlater
    obtain ⟨top, after, hatTop, htop⟩ := hlater.exists_wordAt
    rw [htext] at hatTop
    refine isSome_topForm?_of_steps (letters?_eq_some_iff.mpr ⟨word, _, rfl, hword, rfl⟩)
      (blanks?_eq_some_iff.mpr ⟨gap, later, rfl, hne, hgap, hstop, rfl⟩) ?_ (hread (by decide) hlater htext)
    rw [setQuantifier?_eq_none hatTop htop]
    rfl
  · obtain ⟨word, gap, later, hat, hword, hne, hgap, hstop, hnext⟩ := h.exists_words
    obtain rfl := List.append_cancel_left hat.eq_append
    obtain ⟨second, space, tail, hatSecond, hsecond, hneSpace, hspace, hstopTail, hlater⟩ := hnext.exists_words
    have hplace : front ++ (word ++ gap) = front ++ word ++ gap := (List.append_assoc ..).symm
    have htext : front ++ (word ++ (gap ++ later)) = front ++ word ++ gap ++ later := by simp
    rw [hplace, htext] at hatSecond
    obtain rfl := List.append_cancel_left hatSecond.eq_append
    have hkeys : ∀ keyword ∈ ["DISTINCT".toList, "ALL".toList], isKeyword keyword = true := by decide
    obtain ⟨keyword, hmem, hspelled⟩ := hsecond
    have hset : (between (front ++ word ++ gap) (second ++ (space ++ tail))).setQuantifier? =
        some (between (front ++ word ++ gap ++ second) (space ++ tail)) :=
      (anyWord?_eq_some_iff hkeys).mpr ⟨keyword, hmem, (word?_eq_some_iff (hkeys keyword hmem)).mpr
        ⟨second, space ++ tail, hatSecond, hspelled, rfl⟩⟩
    have hblanks : (between (front ++ word ++ gap ++ second) (space ++ tail)).blanks? =
        some (between (front ++ word ++ gap ++ second ++ space) tail) :=
      blanks?_eq_some_iff.mpr ⟨space, tail, rfl, hneSpace, hspace, hstopTail, rfl⟩
    have hlast : ((between (front ++ word ++ gap ++ second ++ space) tail).word? "TOP".toList).isSome := by
      refine hread (by decide) ?_ (by simp)
      simpa using hlater
    refine isSome_topForm?_of_steps (letters?_eq_some_iff.mpr ⟨word, _, rfl, hword, rfl⟩)
      (blanks?_eq_some_iff.mpr ⟨gap, _, rfl, hne, hgap, hstop, rfl⟩) ?_ hlast
    rw [hset, Option.bind_some, hblanks]
    rfl

end Cursor

end Top

/-- The parts of a new clause around the one word that begins it, and its first word, which goes on no `TOP`. -/
structure LimitClause (top : Bool) (clause pre keyword post first : List Char) : Prop where
  eq_append : clause = pre ++ (keyword ++ post)
  mem : keyword ∈ limitingWords top
  opens : Opens pre
  stops : ∀ c, post.head? = some c → isWord c = false
  balanced : ∀ depth, openAfter depth pre = depth
  lacks_pre : Lacks (limitingWords top) pre
  lacks_post : Lacks (limitingWords top) post
  firstWord : FirstWord clause first
  first_ne : ¬SpelledAny ["TOP".toList, "DISTINCT".toList, "ALL".toList] first

theorem isKeyword_of_mem_limitingWords {top : Bool} : ∀ keyword ∈ limitingWords top, isKeyword keyword = true := by
  cases top with
  | false => decide
  | true => decide

namespace LimitClause

variable {lead tail pre first clause keyword post : List Char} {top : Bool}

theorem fetch (haround : Around lead tail) (hlead : lead = pre ++ "FETCH NEXT ".toList)
    (htail : Lacks ["FETCH".toList] tail) (hspace : pre.getLast? = some ' ')
    (hbalanced : ∀ depth, openAfter depth pre = depth) (hlacks : Lacks ["FETCH".toList] pre) (limit : Nat)
    (hfirst : FirstWord (lead ++ (Nat.toDigits 10 limit ++ tail)) first)
    (hne : ¬SpelledAny ["TOP".toList, "DISTINCT".toList, "ALL".toList] first) :
    LimitClause true (lead ++ (Nat.toDigits 10 limit ++ tail)) pre "FETCH".toList
      (" NEXT ".toList ++ (Nat.toDigits 10 limit ++ tail)) first where
  eq_append := by
    rw [hlead, List.append_assoc]
    rfl
  mem := by decide
  opens c hc := by
    rw [hspace] at hc
    obtain rfl := Option.some.inj hc
    decide
  stops := Cursor.isWord_of_head_space
  balanced := hbalanced
  lacks_pre := hlacks
  lacks_post := by
    have hnext : Around " NEXT ".toList tail :=
      ⟨List.all_eq_true.mp (by decide), haround.all_tail, fun _ => rfl, haround.balanced_tail, rfl, haround.next⟩
    exact Lacks.numbered (by decide) hnext (by decide) htail limit
  firstWord := hfirst
  first_ne := hne

theorem limit (haround : Around lead tail) (hlead : lead = pre ++ "LIMIT ".toList) (hpre : pre = [] ∨ pre = [' '])
    (htail : Lacks (limitingWords false) tail) (limit : Nat) :
    LimitClause false (lead ++ (Nat.toDigits 10 limit ++ tail)) pre "LIMIT".toList
      (' ' :: (Nat.toDigits 10 limit ++ tail)) "LIMIT".toList where
  eq_append := (GapAt.wordAt_limit limit hlead hpre).eq_append
  mem := by decide
  opens := (@GapAt.wordAt_limit lead tail pre limit hlead hpre).opens
  stops := Cursor.isWord_of_head_space
  balanced := by
    rcases hpre with rfl | rfl
    · exact fun _ => rfl
    · exact fun _ => rfl
  lacks_pre := by
    rcases hpre with rfl | rfl
    · exact Lacks.nil _
    · exact (Lacks.nil _).cons_space
  lacks_post :=
    ((lacks_decimal isKeyword_of_mem_limitingWords limit).append htail (haround.apart_tail _)).cons_space
  firstWord := GapAt.firstWord_limit limit hlead hpre
  first_ne := by decide

theorem wordAt (h : LimitClause top clause pre keyword post first) : WordAt clause pre keyword post :=
  have hspelled := spelled_self (isKeyword_of_mem_limitingWords keyword h.mem)
  ⟨h.eq_append, hspelled.ne_nil (isKeyword_of_mem_limitingWords keyword h.mem),
    hspelled.isWord_of_mem (isKeyword_of_mem_limitingWords keyword h.mem), h.opens, h.stops⟩

theorem front_eq (h : LimitClause top clause pre keyword post first) {front word rest : List Char}
    (hat : WordAt clause front word rest) (hword : SpelledAny (limitingWords top) word) : front = pre := by
  have hself := h.wordAt
  have hapart : Apart pre (keyword ++ post) := by
    intro c d hc _ hcWord
    rw [h.opens c hc] at hcWord
    cases hcWord
  rw [h.eq_append] at hat
  rcases hat.of_append hapart with ⟨gap, -, hpre⟩ | ⟨gap, rfl, hlater⟩
  · exact absurd hword (h.lacks_pre word hpre.mem_runs)
  · rcases hlater.of_append fun c d _ hd _ => h.stops d hd with ⟨tail, -, hkeyword⟩ | ⟨tail, -, hpost⟩
    · cases hlast : gap.getLast? with
      | none => rw [List.getLast?_eq_none_iff.mp hlast, List.append_nil]
      | some c =>
          have hmem : c ∈ keyword := by
            rw [hkeyword.eq_append]
            exact List.mem_append_left _ (List.mem_of_getLast? hlast)
          have hcWord := hkeyword.opens c hlast
          rw [hself.all_word c hmem] at hcWord
          cases hcWord
    · exact absurd hword (h.lacks_post word hpost.mem_runs)

end LimitClause

namespace SlotAt

variable {sql lead tail front rest : List Char} {main : Cursor} {place offset : Nat} {page : Option Nat} {top : Bool}

theorem limitClause_cases (h : SlotAt sql main offset top (.clause place lead tail page)) (haround : Around lead tail)
    (limit : Nat) :
    (∃ after, top = true ∧ lead = " TOP ".toList ∧ tail = [] ∧ main.selectHead? = some after ∧ place = after.offset) ∨
      ∃ pre keyword post first, LimitClause top (lead ++ (Nat.toDigits 10 limit ++ tail)) pre keyword post first := by
  generalize hslot : Slot.clause place lead tail page = slot at h
  have hend : ∀ {more : List Char} {named : Option Nat},
      Slot.clause place lead tail page = .atEnd (.of sql) main "LIMIT ".toList more named →
        Lacks (limitingWords false) more →
          ∃ pre keyword post first, LimitClause false (lead ++ (Nat.toDigits 10 limit ++ tail)) pre keyword post first := by
    intro more named hend hmore
    rcases Slot.atEnd_cases hend with ⟨rfl, rfl⟩ | ⟨rfl, rfl⟩
    · exact ⟨[], _, _, _, .limit haround rfl (Or.inl rfl) hmore.concat_space limit⟩
    · exact ⟨[' '], _, _, _, .limit haround rfl (Or.inr rfl) hmore limit⟩
  cases h with
  | fetch hcount => cases hslot
  | offsetRows hfetch hoffset =>
      obtain ⟨-, rfl, rfl, -⟩ := Slot.clause.inj hslot
      have hat : WordAt (" FETCH NEXT ".toList ++ (Nat.toDigits 10 limit ++ " ROWS ONLY".toList)) [' '] "FETCH".toList
          (" NEXT ".toList ++ (Nat.toDigits 10 limit ++ " ROWS ONLY".toList)) :=
        .of_keyword (by decide) rfl (Cursor.opens_space []) Cursor.isWord_of_head_space
      exact Or.inr ⟨[' '], _, _, _, .fetch haround rfl (by decide) rfl (fun _ => rfl) (Lacks.nil _).cons_space
        limit (firstWord_of_wordAt _ (fun _ => isBlank_of_mem_space) hat) (by decide)⟩
  | top hpaging hcount => cases hslot
  | page hpaging htop hpos =>
      obtain ⟨pre, more, first, hlead, htail, hmore, hspace, hbalanced, hlacks, hfirstWord, hfirst⟩ :=
        Slot.exists_fetch_of_page hslot
      have htailLacks : Lacks ["FETCH".toList] tail := by
        rw [htail]
        rcases hmore with rfl | rfl
        · decide
        · decide
      have hne : ¬SpelledAny ["TOP".toList, "DISTINCT".toList, "ALL".toList] first := by
        rcases hfirst with rfl | rfl
        · decide
        · decide
      exact Or.inr ⟨pre, _, _, first,
        .fetch haround hlead htailLacks hspace hbalanced hlacks limit (hfirstWord limit) hne⟩
  | head hpaging htop hzero hhead =>
      obtain ⟨rfl, rfl, rfl, -⟩ := Slot.clause.inj hslot
      exact Or.inl ⟨_, rfl, rfl, rfl, hhead, rfl⟩
  | limit hfetch hcount => cases hslot
  | bareOffset hfetch hlimit hoffset =>
      obtain ⟨-, rfl, rfl, -⟩ := Slot.clause.inj hslot
      exact Or.inr ⟨[], _, _, _, .limit haround rfl (Or.inl rfl) (Lacks.nil _).cons_space limit⟩
  | pageLimit hpaging hpos =>
      have hlacks := Lacks.numbered (@isKeyword_of_mem_limitingWords false) .offset (by decide) (Lacks.nil _) offset
      rw [List.append_nil] at hlacks
      exact Or.inr (hend hslot hlacks)
  | newLimit hpaging hzero => exact Or.inr (hend hslot (Lacks.nil _))

end SlotAt

section Main

variable {sql again lead tail front rest : List Char} {main : Cursor} {place offset limit : Nat}
  {page : Option Nat} {top : Bool}

theorem Outline.depth_of_mainSelect? (hmain : (Outline.of sql).mainSelect? = some (.between front rest))
    {later : List Char} (htext : (Outline.of sql).text = front ++ later) :
    later = rest ∧ depthBetween front rest = 0 := by
  obtain ⟨early, late, hcut, -, hplace, -⟩ := Outline.mainSelect?_eq_some_iff.mp hmain
  have hsize : byteLength front = byteLength early := congrArg Cursor.offset hplace
  have hrest : rest = late := congrArg Cursor.rest hplace
  obtain ⟨rfl, rfl⟩ := eq_of_byteLength_eq (htext.symm.trans hcut.eq_append) hsize
  exact ⟨hrest.symm, hrest ▸ hcut.depth_eq_zero⟩

/-- Where a search for words finds nothing, and no `TOP` is read, nothing limits the main query. -/
theorem not_mainLimitAt_of_search {keywords : List (List Char)} (hmain : (Outline.of sql).mainSelect? = some main)
    (hpaging : (Outline.of sql).findTopLevel? main.offset (·.anyWord? keywords) = none)
    (hkeys : ∀ keyword ∈ keywords, isKeyword keyword = true) (hsub : ∀ keyword ∈ limitingWords top, keyword ∈ keywords)
    (htop : top = true → main.topForm? = none) : ¬MainLimitAt sql top front := by
  rintro ⟨hlimit, later, htext, hdepth⟩
  cases hlimit with
  | word hsame hstart hword =>
      obtain rfl := Option.some.inj (hmain.symm.trans hsame)
      obtain ⟨word, after, hat, keyword, hmem, hspelled⟩ := hword.exists_wordAt
      rw [htext] at hat
      have hsome := (SlotAt.isSome_anyWord?_iff hkeys).mpr (.word hat ⟨keyword, hsub keyword hmem, hspelled⟩)
      rw [Outline.findTopLevel?_eq_none_iff] at hpaging
      rw [hpaging front later ⟨htext, hstart, hdepth⟩] at hsome
      cases hsome
  | @top _ rest hsame hphrase =>
      obtain rfl := Option.some.inj (hmain.symm.trans hsame)
      obtain ⟨rfl, -⟩ := Outline.depth_of_mainSelect? hsame htext
      rw [htext] at hphrase
      have hsome := Cursor.isSome_topForm?_of_topPhrase hphrase
      rw [htop rfl] at hsome
      cases hsome

/-- A clause is added where nothing limits the main query, or next to an offset that is written as a number. -/
theorem SlotAt.not_mainLimitAt (h : SlotAt sql main offset top (.clause place lead tail page))
    (hmain : (Outline.of sql).mainSelect? = some main)
    (hoffset : (Outline.of sql).writesOffset top = true → ¬MainLimitAt sql top front) : ¬MainLimitAt sql top front := by
  generalize hslot : Slot.clause place lead tail page = slot at h
  cases h with
  | fetch hcount => cases hslot
  | offsetRows hfetch hfound => exact hoffset (by simp [Outline.writesOffset, hmain, hfound])
  | top hpaging hcount => cases hslot
  | page hpaging htop hpos =>
      exact not_mainLimitAt_of_search hmain hpaging (by decide) (by decide) fun _ => htop
  | head hpaging htop hzero hhead =>
      exact not_mainLimitAt_of_search hmain hpaging (by decide) (by decide) fun _ => htop
  | limit hfetch hcount => cases hslot
  | bareOffset hfetch hlimit hfound => exact hoffset (by simp [Outline.writesOffset, hmain, hfound])
  | pageLimit hpaging hpos => exact not_mainLimitAt_of_search hmain hpaging (by decide) (by decide) nofun
  | newLimit hpaging hzero => exact not_mainLimitAt_of_search hmain hpaging (by decide) (by decide) nofun

end Main

/-- A statement with a clause put in behind the main select word, where nothing limited the main query before. -/
structure Added (sql again : List Char) (top : Bool) (before gap clause rest : List Char) : Prop where
  insertion : Insertion (before ++ gap) clause rest
  solid : ∃ c ∈ clause, isBlank c = false
  text_eq : (Outline.of sql).text = before ++ gap ++ rest
  text_again : (Outline.of again).text = before ++ gap ++ (clause ++ rest)
  main_eq : (Outline.of sql).mainSelect? = some (.between before (gap ++ rest))
  gap_ne_nil : gap ≠ []
  none_before : ∀ front, ¬MainLimitAt sql top front
  closed : openAfter 0 (Outline.of sql).text = 0 → openAfter 0 (before ++ gap) = 0

namespace Added

variable {sql again before gap clause rest pre keyword post first other : List Char} {top : Bool}

theorem main_again (h : Added sql again top before gap clause rest) :
    (Outline.of again).mainSelect? = some (.between before (gap ++ (clause ++ rest))) :=
  h.insertion.mainSelect? h.text_eq h.text_again h.gap_ne_nil h.main_eq

/-- What limits the main query now begins in the clause or is a `TOP` of the main select word. -/
theorem cases (h : Added sql again top before gap clause rest) (hfirst : FirstWord clause first)
    (hlimit : MainLimitAt again top other) :
    (∃ lead word tail, other = before ++ gap ++ lead ∧ WordAt clause lead word tail ∧
        SpelledAny (limitingWords top) word) ∨
      (other = before ∧ top = true ∧ TopPhrase (Outline.of again).text other) := by
  obtain ⟨hlimit, later, htext, hdepth⟩ := hlimit
  cases hlimit with
  | word hsame hstart hword =>
      left
      obtain rfl := Option.some.inj (h.main_again.symm.trans hsame)
      change byteLength before ≤ byteLength other at hstart
      have hle : byteLength before ≤ byteLength (before ++ gap) := by
        rw [byteLength_append]
        exact Nat.le_add_right _ _
      have hback : ∀ {early late : List Char}, TopCut (before ++ gap ++ rest) (byteLength before) early late →
          PhraseAt (before ++ gap ++ rest) [SpelledAny (limitingWords top)] early → False := by
        intro early late hcut hphrase
        rw [← h.text_eq] at hcut hphrase
        exact h.none_before early ⟨.word h.main_eq hcut.start_le hphrase, late, hcut.eq_append, hcut.depth_eq_zero⟩
      rw [h.text_again] at htext hword
      rcases h.insertion.phrase_cases hfirst h.solid hle ⟨htext, hstart, hdepth⟩ hword nofun with
        ⟨gap, -, -, hcut, hphrase⟩ | hinside | ⟨gap, -, hcut, hphrase⟩
      · exact absurd hphrase (hback hcut)
      · exact hinside
      · exact absurd hphrase (hback hcut)
  | @top _ _ hsame hphrase =>
      refine Or.inr ⟨?_, rfl, hphrase⟩
      have hsize := congrArg Cursor.offset (Option.some.inj (h.main_again.symm.trans hsame))
      rw [h.text_again, List.append_assoc] at htext
      exact (eq_of_byteLength_eq htext hsize).1.symm

/-- No `TOP` of the main select word comes up where the clause begins with another word. -/
theorem not_topPhrase (h : Added sql again true before gap clause rest) (hfirst : FirstWord clause first)
    (hne : ¬SpelledAny ["TOP".toList, "DISTINCT".toList, "ALL".toList] first) :
    ¬TopPhrase (Outline.of again).text before := by
  have hback : ∀ {tokens : List (List Char → Prop)}, (∀ condition ∈ tokens.tail, ¬condition first) →
      PhraseAt (Outline.of again).text tokens before → PhraseAt (Outline.of sql).text tokens before := by
    intro tokens htail hphrase
    rw [h.text_eq]
    exact hphrase.of_left h.insertion hfirst h.solid h.text_again htail ⟨gap, rfl, h.gap_ne_nil⟩
  have htop : ¬Spelled "TOP".toList first := fun hspelled => hne ⟨_, by decide, hspelled⟩
  have hquantifier : ¬SpelledAny ["DISTINCT".toList, "ALL".toList] first := by
    rintro ⟨keyword, hmem, hspelled⟩
    exact hne ⟨keyword, List.mem_cons_of_mem _ hmem, hspelled⟩
  intro hphrase
  have hdepth := (Outline.depth_of_mainSelect? h.main_eq (h.text_eq.trans (List.append_assoc ..))).2
  refine h.none_before before ⟨.top h.main_eq ?_, gap ++ rest, h.text_eq.trans (List.append_assoc ..), hdepth⟩
  rcases hphrase with hphrase | hphrase
  · exact Or.inl (hback (by simpa using htop) hphrase)
  · exact Or.inr (hback (by simpa using ⟨hquantifier, htop⟩) hphrase)

/-- A clause with one word that begins it is the one that limits the main query. -/
theorem limitedOnce (h : Added sql again top before gap clause rest)
    (hclause : LimitClause top clause pre keyword post first) : LimitedOnce again top := by
  have hinsertion := h.insertion
  have hat := (hclause.wordAt.append_left hinsertion.apart_right).append_right hinsertion.apart_rest
  have hspelled := spelled_self (isKeyword_of_mem_limitingWords keyword hclause.mem)
  have hlimit : LimitAt again top (before ++ gap ++ pre) := by
    refine .word h.main_again ?_ ?_
    · change byteLength before ≤ byteLength (before ++ gap ++ pre)
      rw [byteLength_append, byteLength_append]
      omega
    · rw [h.text_again]
      exact .word hat ⟨keyword, hclause.mem, hspelled⟩
  refine ⟨_, hlimit, fun hclosed => ⟨hlimit, _, h.text_again.trans hat.eq_append, ?_⟩, fun other hother => ?_⟩
  · rw [h.text_again, hinsertion.openAfter_eq, ← h.text_eq] at hclosed
    obtain ⟨c, tail, hhead, hword⟩ := hat.exists_head
    rw [hhead, depthBetween, if_neg, openAfter_append, h.closed hclosed, hclause.balanced]
    rintro rfl
    exact absurd hword (by decide)
  · rcases h.cases hclause.firstWord hother with ⟨lead, word, tail, rfl, hinside, hlimiting⟩ | ⟨rfl, rfl, hphrase⟩
    · rw [hclause.front_eq hinside hlimiting]
    · exact absurd hphrase (h.not_topPhrase hclause.firstWord hclause.first_ne)

theorem topPhrase {limit : Nat} {after : Cursor}
    (h : Added sql again true before gap (" TOP ".toList ++ (Nat.toDigits 10 limit ++ [])) rest)
    (hhead : (Cursor.between before (gap ++ rest)).selectHead? = some after)
    (hplace : after.offset = byteLength (before ++ gap)) : TopPhrase (Outline.of again).text before := by
  obtain ⟨word, later, hat, hspelled, hcases⟩ :=
    Cursor.selectHead?_cases (Outline.isSome_word?_of_mainSelect? h.main_eq) hhead
  have hagain : (Outline.of again).text =
      before ++ gap ++ (' ' :: ("TOP".toList ++ (' ' :: (Nat.toDigits 10 limit ++ rest)))) := by
    rw [h.text_again]
    simp
  rw [hagain]
  rcases hcases with ⟨rfl, -⟩ | ⟨blanks, second, tail, rfl, hne, hblanks, hatSecond, hsecond, rfl⟩
  · left
    have htext : before ++ word ++ later = before ++ gap ++ rest := by
      rw [List.append_assoc, List.append_assoc]
      exact hat.eq_append.symm
    obtain ⟨hfront, rfl⟩ := eq_of_byteLength_eq htext hplace
    obtain rfl := List.append_cancel_left hfront
    exact .before_top ⟨List.append_assoc .., hat.ne_nil, hat.all_word, hat.opens, Cursor.isWord_of_head_space⟩
      hspelled
  · right
    have htext : before ++ word ++ blanks ++ second ++ tail = before ++ gap ++ rest := by
      simpa using hat.eq_append.symm
    obtain ⟨hfront, rfl⟩ := eq_of_byteLength_eq htext hplace
    rw [← hfront]
    have hatWord : WordAt (before ++ word ++ blanks ++ second ++
        (' ' :: ("TOP".toList ++ (' ' :: (Nat.toDigits 10 limit ++ tail))))) before word
        (blanks ++ (second ++ (' ' :: ("TOP".toList ++ (' ' :: (Nat.toDigits 10 limit ++ tail)))))) := by
      refine ⟨by simp, hat.ne_nil, hat.all_word, hat.opens, fun c hc => hat.closes c ?_⟩
      rw [List.head?_append_of_ne_nil _ hne] at hc ⊢
      exact hc
    have hatNext : WordAt (before ++ word ++ blanks ++ second ++
        (' ' :: ("TOP".toList ++ (' ' :: (Nat.toDigits 10 limit ++ tail))))) (before ++ (word ++ blanks)) second
        (' ' :: ("TOP".toList ++ (' ' :: (Nat.toDigits 10 limit ++ tail)))) := by
      rw [← List.append_assoc before]
      exact ⟨List.append_assoc .., hatSecond.ne_nil, hatSecond.all_word, hatSecond.opens,
        Cursor.isWord_of_head_space⟩
    exact .words hatWord hspelled hne hblanks (.before_top hatNext hsecond)

theorem limitedOnce_top {limit : Nat} {after : Cursor}
    (h : Added sql again true before gap (" TOP ".toList ++ (Nat.toDigits 10 limit ++ [])) rest)
    (hhead : (Cursor.between before (gap ++ rest)).selectHead? = some after)
    (hplace : after.offset = byteLength (before ++ gap)) : LimitedOnce again true := by
  have hfirst : FirstWord (" TOP ".toList ++ (Nat.toDigits 10 limit ++ [])) "TOP".toList :=
    firstWord_of_wordAt [' '] (fun _ => isBlank_of_mem_space)
      (.of_keyword (by decide) rfl (Cursor.opens_space []) Cursor.isWord_of_head_space)
  have hlacks : Lacks (limitingWords true) (" TOP ".toList ++ (Nat.toDigits 10 limit ++ [])) :=
    Lacks.numbered (by decide) .top (by decide)
      (Lacks.nil _) limit
  have hlimit : LimitAt again true before := .top h.main_again (h.topPhrase hhead hplace)
  have htext := h.text_again.trans (List.append_assoc ..)
  have hdepth := (Outline.depth_of_mainSelect? h.main_again htext).2
  refine ⟨before, hlimit, fun _ => ⟨hlimit, _, htext, hdepth⟩, fun other hother => ?_⟩
  rcases h.cases hfirst hother with ⟨lead, inside, tail, rfl, hinside, hlimiting⟩ | ⟨rfl, -, -⟩
  · exact absurd hlimiting (hlacks inside hinside.mem_runs)
  · rfl

end Added

theorem Limiter.limit_of_added {limiter : Limiter} {category : Category} {sql : List Char} {window : RowWindow}
    {timing : Timing} {limit offset : Nat}
    (hadded : (limiter.apply category sql window timing).outcome = .inserted limit ∨
      (limiter.apply category sql window timing).outcome = .paginated offset limit) :
    limiter.limit sql window timing = .ok (limiter.apply category sql window timing) := by
  have hknown : (limiter.apply category sql window timing).outcome.effectiveLimit? = some limit := by
    rcases hadded with h | h
    · rw [h]
      rfl
    · rw [h]
      rfl
  exact limit_of_effectiveLimit? hknown

theorem Limiter.exists_clause_of_outcome {limiter : Limiter} {category : Category} {sql : List Char}
    {window : RowWindow} {timing : Timing} {limit offset : Nat}
    (hadded : (limiter.apply category sql window timing).outcome = .inserted limit ∨
      (limiter.apply category sql window timing).outcome = .paginated offset limit) :
    ∃ main place lead tail page, limiter.Accepts timing sql main ∧
      SlotAt sql main window.offset limiter.database.usesTop (.clause place lead tail page) ∧
      ∀ {left right : List Lexeme}, Site sql left [] right → place = byteLength (left.flatMap Lexeme.blanked) →
        (limiter.apply category sql window timing).text =
          joined left (lead ++ (Nat.toDigits 10 window.limit ++ tail)) right := by
  have hlimit := limit_of_added hadded
  obtain ⟨rows, start⟩ := window
  obtain ⟨main, slot, haccepts, hslot, -⟩ := limit_eq_ok_iff.mp hlimit
  cases slot with
  | written count =>
      obtain ⟨left, digits, right, hcount, hsite, -⟩ := exists_written haccepts hslot
      rw [limit_written haccepts hslot hcount hsite rfl] at hlimit
      rw [← Except.ok.inj hlimit] at hadded
      split at hadded
      · rcases hadded with h | h
        · cases h
        · cases h
      · rcases hadded with h | h
        · cases h
        · cases h
  | clause place lead tail page =>
      refine ⟨main, place, lead, tail, page, haccepts, hslot, fun hsite hplace => ?_⟩
      rw [limit_clause haccepts hslot hsite hplace] at hlimit
      rw [← Except.ok.inj hlimit]

/-- Wherever a clause is added, nothing limited the main query before and one clause limits it now, exactly unless the
main query writes its offset as a number next to a limit that is none: that limit is passed over. -/
theorem Limiter.limitedOnce_iff {limiter : Limiter} {category : Category} {sql : List Char} {window : RowWindow}
    {timing : Timing} {limit offset : Nat}
    (hadded : (limiter.apply category sql window timing).outcome = .inserted limit ∨
      (limiter.apply category sql window timing).outcome = .paginated offset limit) :
    ((∀ front, ¬MainLimitAt sql limiter.database.usesTop front) ∧
        LimitedOnce (limiter.apply category sql window timing).text limiter.database.usesTop) ↔
      ¬((Outline.of sql).writesOffset limiter.database.usesTop = true ∧
        ∃ front, MainLimitAt sql limiter.database.usesTop front) := by
  constructor
  · rintro ⟨hnone, -⟩ ⟨-, front, hlimit⟩
    exact hnone front hlimit
  · intro hexcept
    obtain ⟨main, place, lead, tail, page, haccepts, hslot, htext⟩ := exists_clause_of_outcome hadded
    have hmain := haccepts.mainSelect?_eq
    have hnone : ∀ front, ¬MainLimitAt sql limiter.database.usesTop front := fun front =>
      hslot.not_mainLimitAt hmain fun hoffset hlimit => hexcept ⟨hoffset, front, hlimit⟩
    refine ⟨hnone, ?_⟩
    obtain ⟨front, rest, hgap⟩ := hslot.exists_gapAt hmain
    obtain ⟨left, right, hsite, hleft, hright⟩ := hgap.site
    obtain ⟨before, gap, rfl, hne, rfl⟩ := hgap.behind
    have hinsertion := hgap.insertion window.limit
    have hagain := hsite.outline_joined hinsertion.all_clause hinsertion.ne_nil
    rw [hleft, hright] at hagain
    rw [htext hsite (by rw [hleft]; exact hgap.place_eq)]
    have hadds : Added sql (joined left (lead ++ (Nat.toDigits 10 window.limit ++ tail)) right)
        limiter.database.usesTop before gap (lead ++ (Nat.toDigits 10 window.limit ++ tail)) rest :=
      ⟨hinsertion, Around.solid lead tail window.limit, hgap.eq_append, hagain, hmain, hne, hnone, hgap.closed⟩
    rcases hslot.limitClause_cases hgap.around window.limit with
      ⟨after, htop, rfl, rfl, hhead, hplace⟩ | ⟨pre, keyword, post, first, hclause⟩
    · rw [htop] at hadds ⊢
      exact hadds.limitedOnce_top hhead (hplace.symm.trans hgap.place_eq)
    · exact hadds.limitedOnce hclause

theorem Limiter.limitedOnce_iff_plain :
    ((Limiter.usual .postgres).apply .readOnly "SELECT a FROM t".toList ⟨100, 0⟩).outcome = .inserted 100 ∧
      (∀ front, ¬MainLimitAt "SELECT a FROM t".toList false front) ∧
      LimitedOnce ((Limiter.usual .postgres).apply .readOnly "SELECT a FROM t".toList ⟨100, 0⟩).text false := by
  have hadded : ((Limiter.usual .postgres).apply .readOnly "SELECT a FROM t".toList ⟨100, 0⟩).outcome = .inserted 100 := by
    decide +kernel
  have honce := (@limitedOnce_iff (.usual .postgres) .readOnly "SELECT a FROM t".toList ⟨100, 0⟩ .atOnce 100 0
    (Or.inl hadded)).mpr
  exact ⟨hadded, honce fun hexcept => absurd hexcept.1 (by decide +kernel)⟩

/-- A `LIMIT` with a parameter stands in front of an offset, and another one is put between them. -/
theorem Limiter.mainLimitAt_of_inserted :
    (Limiter.usual .postgres).apply .readOnly "SELECT * FROM t LIMIT $1 OFFSET 5".toList ⟨100, 0⟩ =
        ⟨"SELECT * FROM t LIMIT $1 LIMIT 100 OFFSET 5".toList, .inserted 100⟩ ∧
      MainLimitAt "SELECT * FROM t LIMIT $1 OFFSET 5".toList false "SELECT * FROM t ".toList ∧
      ¬LimitedOnce "SELECT * FROM t LIMIT $1 LIMIT 100 OFFSET 5".toList false := by
  have hword : ∀ {sql front rest : List Char}, (Outline.of sql).mainSelect?.map (·.offset) = some 0 →
      front.getLast? = some ' ' → (Outline.of sql).text = front ++ ("LIMIT".toList ++ (' ' :: rest)) →
        depthBetween front ("LIMIT".toList ++ (' ' :: rest)) = 0 → MainLimitAt sql false front := by
    intro sql front rest hmain hlast htext hdepth
    obtain ⟨main, hmain, hstart⟩ := Option.map_eq_some_iff.mp hmain
    have hle : main.offset ≤ byteLength front := by
      rw [hstart]
      exact Nat.zero_le _
    have hopens : Opens front := by
      intro c hc
      rw [hlast] at hc
      obtain rfl := Option.some.inj hc
      decide
    have hat : WordAt (Outline.of sql).text front "LIMIT".toList (' ' :: rest) :=
      .of_keyword (by decide) htext hopens Cursor.isWord_of_head_space
    exact ⟨.word hmain hle (.word hat ⟨"LIMIT".toList, by decide, spelled_self (by decide)⟩), _, htext, hdepth⟩
  have hfirst : MainLimitAt "SELECT * FROM t LIMIT $1 LIMIT 100 OFFSET 5".toList false "SELECT * FROM t ".toList :=
    @hword _ _ "$1 LIMIT 100 OFFSET 5".toList (by decide +kernel) (by decide) (by decide +kernel) (by decide +kernel)
  have hsecond : MainLimitAt "SELECT * FROM t LIMIT $1 LIMIT 100 OFFSET 5".toList false
      "SELECT * FROM t LIMIT $1 ".toList :=
    @hword _ _ "100 OFFSET 5".toList (by decide +kernel) (by decide) (by decide +kernel) (by decide +kernel)
  refine ⟨by decide +kernel, ?_, ?_⟩
  · exact @hword _ _ "$1 OFFSET 5".toList (by decide +kernel) (by decide) (by decide +kernel) (by decide +kernel)
  · rintro ⟨front, -, -, hunique⟩
    exact absurd ((hunique _ hfirst).trans (hunique _ hsecond).symm) (by decide)

end SqlGate
