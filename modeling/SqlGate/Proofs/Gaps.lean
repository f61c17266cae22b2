import SqlGate.Proofs.Slots

/-! Where the slots of a query stand in its outline. The place of a new clause comes after the main select
word and at the edge of a word, so that the clause can be put there; the place of a count comes after the
main select word too. -/

namespace SqlGate

open Unicode

/-- The words around the number of a clause. -/
structure Around (lead tail : List Char) : Prop where
  all_lead : ∀ c ∈ lead, isClauseChar c = true
  all_tail : ∀ c ∈ tail, isClauseChar c = true
  balanced_lead : ∀ depth, openAfter depth lead = depth
  balanced_tail : ∀ depth, openAfter depth tail = depth
  last : lead.getLast? = some ' '
  next : ∀ c, tail.head? = some c → c = ' '

theorem isClauseChar_of_mem_decimal {count : Nat} {c : Char} (h : c ∈ Nat.toDigits 10 count) :
    isClauseChar c = true := by
  have hdigit := Nat.isDigit_of_mem_toDigits (by decide) (by decide) h
  simp [isClauseChar, Char.isAlphanum, hdigit]

theorem openAfter_decimal (count depth : Nat) : openAfter depth (Nat.toDigits 10 count) = depth := by
  refine openAfter_of_notMem (fun hmem => ?_) (fun hmem => ?_) depth
  · exact absurd (isDigit_of_mem_decimal hmem) (by decide)
  · exact absurd (isDigit_of_mem_decimal hmem) (by decide)

namespace Around

variable {lead tail : List Char}

theorem of_all (hlead : lead.all isClauseChar = true) (htail : tail.all isClauseChar = true)
    (hleadBalanced : ∀ depth, openAfter depth lead = depth)
    (htailBalanced : ∀ depth, openAfter depth tail = depth) (hlast : lead.getLast? = some ' ')
    (hnext : tail.head?.getD ' ' = ' ') : Around lead tail where
  all_lead := List.all_eq_true.mp hlead
  all_tail := List.all_eq_true.mp htail
  balanced_lead := hleadBalanced
  balanced_tail := htailBalanced
  last := hlast
  next c hc := by rwa [hc, Option.getD_some] at hnext

theorem limit : Around "LIMIT ".toList [] :=
  of_all (by decide) rfl (fun _ => rfl) (fun _ => rfl) rfl rfl

theorem offset : Around " OFFSET ".toList [] :=
  of_all (by decide) rfl (fun _ => rfl) (fun _ => rfl) rfl rfl

theorem top : Around " TOP ".toList [] :=
  of_all (by decide) rfl (fun _ => rfl) (fun _ => rfl) rfl rfl

theorem fetch : Around " FETCH NEXT ".toList " ROWS ONLY".toList :=
  of_all (by decide) (by decide) (fun _ => rfl) (fun _ => rfl) rfl rfl

theorem cons_lead (h : Around lead tail) : Around (' ' :: lead) tail where
  all_lead c hc := by
    rcases List.mem_cons.mp hc with rfl | hc
    · decide
    · exact h.all_lead c hc
  all_tail := h.all_tail
  balanced_lead depth := h.balanced_lead depth
  balanced_tail := h.balanced_tail
  last := by rw [List.getLast?_cons, h.last]; rfl
  next := h.next

theorem concat_tail (h : Around lead tail) : Around lead (tail ++ [' ']) where
  all_lead := h.all_lead
  all_tail c hc := by
    rcases List.mem_append.mp hc with hc | hc
    · exact h.all_tail c hc
    · rw [List.mem_singleton.mp hc]
      decide
  balanced_lead := h.balanced_lead
  balanced_tail depth := by
    rw [openAfter_append, h.balanced_tail]
    rfl
  last := h.last
  next c hc := by
    cases tail with
    | nil => exact (Option.some.inj hc).symm
    | cons d tail => exact h.next c hc

theorem all_numbered (h : Around lead tail) (limit : Nat) :
    ∀ c ∈ lead ++ (Nat.toDigits 10 limit ++ tail), isClauseChar c = true := by
  intro c hc
  simp only [List.mem_append] at hc
  rcases hc with hc | hc | hc
  · exact h.all_lead c hc
  · exact isClauseChar_of_mem_decimal hc
  · exact h.all_tail c hc

theorem balanced_numbered (h : Around lead tail) (limit depth : Nat) :
    openAfter depth (lead ++ (Nat.toDigits 10 limit ++ tail)) = depth := by
  rw [openAfter_append, openAfter_append, h.balanced_lead, openAfter_decimal, h.balanced_tail]

/-- Words around a number in front of the words around the next one. -/
theorem numbered {more : List Char} (h : Around lead more) (hmore : Around more tail) (count : Nat) :
    Around (lead ++ (Nat.toDigits 10 count ++ more)) tail where
  all_lead := h.all_numbered count
  all_tail := hmore.all_tail
  balanced_lead := h.balanced_numbered count
  balanced_tail := hmore.balanced_tail
  last := by
    rw [← List.append_assoc, List.getLast?_append, hmore.last]
    rfl
  next := hmore.next

end Around

/-- The edge that a clause is put at: the end of a word, the end of the code, or the beginning of a word. -/
inductive Edge (lead tail front rest : List Char) : Prop where
  | behind (hlead : ∃ more, lead = ' ' :: more) (hlast : ∃ c, front.getLast? = some c ∧ isWord c = true)
      (hstops : ∀ c, rest.head? = some c → isWord c = false)
  | atEnd (hlead : ∃ more, lead = ' ' :: more)
      (hlast : ∃ c, front.getLast? = some c ∧ isBlank c = false ∧ (c = ';' → ';' ∈ rest))
      (hrest : ∀ c ∈ rest, isBlank c = true ∨ c = ';')
  | before (htail : ∃ more, tail = more ++ [' ']) (hopens : Opens front)
      (hnext : ∃ c, rest.head? = some c ∧ isWord c = true)

/-- A clause begins with a space, and no word follows, or it ends with one, and no word is in front. -/
theorem Edge.cases {lead tail front rest : List Char} (h : Edge lead tail front rest) :
    ((∃ more, lead = ' ' :: more) ∧ ∀ c, rest.head? = some c → isWord c = false) ∨
      ((∃ more, tail = more ++ [' ']) ∧ Opens front) := by
  cases h with
  | behind hlead _ hstops => exact Or.inl ⟨hlead, hstops⟩
  | before htail hopens _ => exact Or.inr ⟨htail, hopens⟩
  | atEnd hlead _ hrest =>
      refine Or.inl ⟨hlead, fun c hc => ?_⟩
      rcases hrest c (List.mem_of_head? hc) with hblank | rfl
      · exact isWord_eq_false_of_isBlank hblank
      · decide

/-- The place for a clause in the outline of a statement, behind the main select word. -/
structure GapAt (sql : List Char) (main : Cursor) (place : Nat) (lead tail front rest : List Char) : Prop where
  eq_append : (Outline.of sql).text = front ++ rest
  place_eq : place = byteLength front
  around : Around lead tail
  edge : Edge lead tail front rest
  site : ∃ left right, Site sql left [] right ∧ left.flatMap Lexeme.blanked = front ∧
    right.flatMap Lexeme.blanked = rest
  behind : ∃ before gap, front = before ++ gap ∧ gap ≠ [] ∧ main = .between before (gap ++ rest)
  closed : openAfter 0 (Outline.of sql).text = 0 → openAfter 0 front = 0

namespace GapAt

variable {sql lead tail front rest : List Char} {main : Cursor} {place : Nat}

theorem insertion (h : GapAt sql main place lead tail front rest) (limit : Nat) :
    Insertion front (lead ++ (Nat.toDigits 10 limit ++ tail)) rest where
  all_clause := h.around.all_numbered limit
  space_mem := List.mem_append_left _ (List.mem_of_getLast? h.around.last)
  balanced := h.around.balanced_numbered limit
  apart_left c d hc hd hword := by
    rcases h.edge.cases with ⟨⟨more, rfl⟩, -⟩ | ⟨-, hopens⟩
    · obtain rfl := Option.some.inj hd
      decide
    · rw [hopens c hc] at hword
      cases hword
  apart_right c d hc hd hword := by
    rcases h.edge.cases with ⟨-, hstops⟩ | ⟨⟨more, rfl⟩, -⟩
    · exact hstops d hd
    · rw [← List.append_assoc, ← List.append_assoc, List.getLast?_concat] at hc
      obtain rfl := Option.some.inj hc
      exact absurd hword (by decide)
  apart c d hc hd hword := by
    rcases h.edge.cases with ⟨-, hstops⟩ | ⟨-, hopens⟩
    · exact hstops d hd
    · rw [hopens c hc] at hword
      cases hword

/-- No digit follows the number. -/
theorem stops (h : GapAt sql main place lead tail front rest) :
    ∀ c, (tail ++ rest).head? = some c → isWord c = false := by
  intro c hc
  cases tail with
  | cons d tail =>
      rw [← Option.some.inj hc, h.around.next d rfl]
      decide
  | nil =>
      rcases h.edge.cases with ⟨-, hstops⟩ | ⟨⟨more, hmore⟩, -⟩
      · exact hstops c hc
      · exact absurd hmore.symm (by simp)

end GapAt

theorem exists_gap_of_byteLength_le {left right front rest : List Char} (h : left ++ right = front ++ rest)
    (hle : byteLength left ≤ byteLength front) : ∃ gap, front = left ++ gap ∧ right = gap ++ rest := by
  rcases List.append_eq_append_iff.mp h with ⟨gap, hfront, hright⟩ | ⟨gap, hleft, hrest⟩
  · exact ⟨gap, hfront, hright⟩
  · cases gap with
    | nil => exact ⟨[], by rw [hleft]; simp, hrest.symm⟩
    | cons c gap =>
        have hpos := c.utf8Size_pos
        rw [hleft, byteLength_append, byteLength_cons] at hle
        omega

theorem TopCut.openAfter_eq_zero {text front rest : List Char} {start : Nat} (h : TopCut text start front rest)
    (hword : ∃ c, rest.head? = some c ∧ isWord c = true) : openAfter 0 front = 0 := by
  obtain ⟨c, hc, hcWord⟩ := hword
  obtain ⟨tail, rfl⟩ := List.head?_eq_some_iff.mp hc
  have hdepth := h.depth_eq_zero
  rw [depthBetween, if_neg] at hdepth
  · exact hdepth
  · rintro rfl
    exact absurd hcWord (by decide)

theorem WordAt.head_eq {text front word rest later : List Char} (h : WordAt text front word later)
    (htext : text = front ++ rest) : ∃ c, rest.head? = some c ∧ isWord c = true := by
  obtain ⟨c, tail, hhead, hword⟩ := h.exists_head
  have hrest : rest = word ++ later := List.append_cancel_left (htext.symm.trans h.eq_append)
  refine ⟨c, ?_, hword⟩
  rw [hrest, hhead]
  rfl

namespace GapAt

variable {sql lead tail front rest clause later : List Char} {main : Cursor}

/-- A clause goes behind a word. -/
theorem of_endsAt (hmain : (Outline.of sql).mainSelect? = some main) (haround : Around (' ' :: lead) tail)
    (hcut : TopCut (Outline.of sql).text main.offset front (clause ++ later))
    (hends : Cursor.EndsAt front clause later) :
    GapAt sql main (byteLength (front ++ clause)) (' ' :: lead) tail (front ++ clause) later := by
  have htext : (Outline.of sql).text = front ++ clause ++ later := by
    rw [hcut.eq_append, List.append_assoc]
  obtain ⟨c, hlast, hlastWord⟩ := hends.last
  obtain ⟨d, hhead, hheadWord⟩ := hends.head
  have hclause : clause ≠ [] := by
    rintro rfl
    cases hlast
  have hword : ∃ c, (clause ++ later).head? = some c ∧ isWord c = true :=
    ⟨d, by rw [List.head?_append_of_ne_nil _ hclause, hhead], hheadWord⟩
  have hend : ∃ c, (front ++ clause).getLast? = some c ∧ isWord c = true :=
    ⟨c, by rw [List.getLast?_append_of_ne_nil _ hclause, hlast], hlastWord⟩
  refine ⟨htext, rfl, haround, .behind ⟨lead, rfl⟩ hend hends.stops, Site.exists_of_isWord htext (Or.inl hend), ?_,
    fun _ => ?_⟩
  · obtain ⟨before, after, hcutMain, -, rfl, -⟩ := Outline.mainSelect?_eq_some_iff.mp hmain
    obtain ⟨gap, rfl, rfl⟩ :=
      exists_gap_of_byteLength_le (hcutMain.eq_append.symm.trans hcut.eq_append) hcut.start_le
    exact ⟨before, gap ++ clause, by simp, by simp [hclause], by simp⟩
  · rw [openAfter_append, hcut.openAfter_eq_zero hword, hends.openAfter_eq]

/-- A clause goes in front of a word that is not the main select word. -/
theorem of_phraseAt (hmain : (Outline.of sql).mainSelect? = some main) (haround : Around lead (tail ++ [' ']))
    {keywords : List (List Char)} (hkeys : ∀ keyword ∈ keywords, isKeyword keyword = true)
    (hselect : "SELECT".toList ∉ keywords) (hcut : TopCut (Outline.of sql).text main.offset front rest)
    (hphrase : PhraseAt (front ++ rest) [SpelledAny keywords] front) :
    GapAt sql main (byteLength front) lead (tail ++ [' ']) front rest := by
  obtain ⟨word, after, hat, keyword, hmem, hspelled⟩ := hphrase.exists_wordAt
  have hhead := hat.head_eq rfl
  refine ⟨hcut.eq_append, rfl, haround, .before ⟨tail, rfl⟩ hat.opens hhead,
    Site.exists_of_isWord hcut.eq_append (Or.inr hhead), ?_, fun _ => hcut.openAfter_eq_zero hhead⟩
  obtain ⟨before, afterMain, hcutMain, hphraseMain, rfl, -⟩ := Outline.mainSelect?_eq_some_iff.mp hmain
  obtain ⟨gap, hfront, hafter⟩ :=
    exists_gap_of_byteLength_le (hcutMain.eq_append.symm.trans hcut.eq_append) hcut.start_le
  refine ⟨before, gap, hfront, ?_, by rw [hafter]⟩
  rintro rfl
  rw [List.append_nil] at hfront
  subst hfront
  obtain ⟨select, afterSelect, hatSelect, hspelledSelect⟩ := hphraseMain.exists_wordAt
  rw [hcut.eq_append] at hatSelect
  obtain ⟨rfl, -⟩ := hat.unique hatSelect
  have heq := hspelled.unique (hkeys keyword hmem) (by decide) hspelledSelect
  rw [heq] at hmem
  exact hselect hmem

/-- A clause goes to the end of the code. -/
theorem of_endOfCode (hmain : (Outline.of sql).mainSelect? = some main) (haround : Around (' ' :: lead) tail) :
    ∃ front rest, GapAt sql main (Outline.of sql).endOfCode (' ' :: lead) tail front rest := by
  obtain ⟨before, after, hcut, hphrase, rfl, -⟩ := Outline.mainSelect?_eq_some_iff.mp hmain
  obtain ⟨word, later, hat, -⟩ := hphrase.exists_wordAt
  obtain ⟨gap, rest, htext, hplace, hlast, hrest⟩ := Outline.exists_endOfCode hat
  obtain ⟨c, hc, hblank, -⟩ := id hlast
  refine ⟨before ++ (word ++ gap), rest, htext, hplace, haround, .atEnd ⟨lead, rfl⟩ hlast hrest,
    Site.exists_of_blank_rest htext ⟨c, hc, hblank⟩ hrest, ⟨before, word ++ gap, rfl, by simp [hat.ne_nil], ?_⟩,
    fun hclosed => ?_⟩
  · rw [hcut.eq_append, List.append_assoc] at htext
    rw [List.append_cancel_left htext]
  · rw [htext, openAfter_append, openAfter_of_notMem] at hclosed
    · exact hclosed
    · intro hmem
      exact absurd (hrest _ hmem) (by decide)
    · intro hmem
      exact absurd (hrest _ hmem) (by decide)

end GapAt

/-- The place of a count in the outline of a statement, behind the main select word. -/
structure CountIn (sql : List Char) (main : Cursor) (count : WrittenCount) (front digits rest : List Char) : Prop where
  countAt : CountAt (Outline.of sql).text count front digits rest
  site : ∃ left right, Site sql left digits right ∧ left.flatMap Lexeme.blanked = front ∧
    right.flatMap Lexeme.blanked = rest
  behind : ∃ before gap, front = before ++ gap ∧ gap ≠ [] ∧ main = .between before (gap ++ (digits ++ rest))

theorem CountIn.of_countAt {sql front lead digits rest : List Char} {main : Cursor} {count : WrittenCount}
    (hmain : (Outline.of sql).mainSelect? = some main) (hle : main.offset ≤ byteLength front)
    (hcount : CountAt (Outline.of sql).text count (front ++ lead) digits rest) :
    CountIn sql main count (front ++ lead) digits rest := by
  refine ⟨hcount, ?_, ?_⟩
  · exact Site.exists_of_word hcount.eq_append hcount.ne_nil fun c hc => isWord_of_isDigit (hcount.number c hc)
  · obtain ⟨before, after, hcut, hphrase, rfl, -⟩ := Outline.mainSelect?_eq_some_iff.mp hmain
    have hle : byteLength before ≤ byteLength (front ++ lead) := by
      rw [byteLength_append]
      exact Nat.le_trans hle (Nat.le_add_right _ _)
    obtain ⟨gap, hfront, rfl⟩ := exists_gap_of_byteLength_le (hcut.eq_append.symm.trans hcount.eq_append) hle
    refine ⟨before, gap, hfront, ?_, rfl⟩
    rintro rfl
    -- The select word would begin with a digit.
    obtain ⟨word, later, hat, hspelled⟩ := hphrase.exists_wordAt
    have hword : word ++ later = [] ++ (digits ++ rest) :=
      List.append_cancel_left (hat.eq_append.symm.trans hcut.eq_append)
    have hhead := congrArg List.head? hword
    rw [List.nil_append, List.head?_append_of_ne_nil _ hat.ne_nil, List.head?_append_of_ne_nil _ hcount.ne_nil,
      List.head?_eq_some_head hat.ne_nil, List.head?_eq_some_head hcount.ne_nil] at hhead
    have hdigit := hcount.number _ (List.head_mem hcount.ne_nil)
    rw [← Option.some.inj hhead, hspelled.isDigit_eq_false (by decide) _ (List.head_mem hat.ne_nil)] at hdigit
    cases hdigit

namespace SlotAt

variable {sql lead tail : List Char} {main : Cursor} {place offset : Nat} {page : Option Nat} {top : Bool}

theorem around_page (main : Cursor) (offset : Nat) :
    Around (Slot.pageLead (.of sql) main offset) " ROWS ONLY".toList := by
  obtain ⟨words, hwords, hpage⟩ := Slot.pageLead_eq_append (.of sql) main offset
  have hfetch : Around " ROWS FETCH NEXT ".toList " ROWS ONLY".toList :=
    .of_all (by decide) (by decide) (fun _ => rfl) (fun _ => rfl) rfl rfl
  have hpageWords : Around words " ROWS FETCH NEXT ".toList := by
    rcases hwords with rfl | rfl
    · exact .of_all (by decide) (by decide) (fun _ => rfl) (fun _ => rfl) rfl rfl
    · exact .of_all (by decide) (by decide) (fun _ => rfl) (fun _ => rfl) rfl rfl
  rw [hpage]
  exact hpageWords.numbered hfetch offset

theorem around_pageLimit (offset : Nat) : Around "LIMIT ".toList (" OFFSET ".toList ++ Nat.toDigits 10 offset) where
  all_lead := Around.limit.all_lead
  all_tail c hc := Around.offset.all_numbered offset c (by rwa [List.append_nil])
  balanced_lead := Around.limit.balanced_lead
  balanced_tail depth := by
    rw [openAfter_append, openAfter_decimal]
    rfl
  last := rfl
  next c hc := (Option.some.inj hc).symm

theorem exists_gapAt_atEnd (hmain : (Outline.of sql).mainSelect? = some main) {more less : List Char}
    {named : Option Nat} (haround : Around more less)
    (hslot : Slot.atEnd (.of sql) main more less named = .clause place lead tail page) :
    ∃ front rest, GapAt sql main place lead tail front rest := by
  rw [Slot.atEnd] at hslot
  split at hslot
  · next trailing htrailing =>
      obtain ⟨front, rest, hcut, hread, -⟩ := Outline.findTopLevel?_eq_some_iff.mp htrailing
      obtain ⟨rfl, hphrase⟩ := Cursor.exists_wordAt_of_trailingClause hread
      obtain ⟨rfl, rfl, rfl, -⟩ := Slot.clause.inj hslot
      exact ⟨front, rest, GapAt.of_phraseAt hmain haround.concat_tail (by decide) (by decide) hcut hphrase⟩
  · obtain ⟨rfl, rfl, rfl, -⟩ := Slot.clause.inj hslot
    exact GapAt.of_endOfCode hmain haround.cons_lead

/-- The place of each new clause is one where the clause can be put. -/
theorem exists_gapAt (h : SlotAt sql main offset top (.clause place lead tail page))
    (hmain : (Outline.of sql).mainSelect? = some main) : ∃ front rest, GapAt sql main place lead tail front rest := by
  generalize hslot : Slot.clause place lead tail page = slot at h
  cases h with
  | fetch hcount => cases hslot
  | offsetRows hfetch hoffset =>
      obtain ⟨rfl, rfl, rfl, -⟩ := Slot.clause.inj hslot
      obtain ⟨front, rest, hcut, hread, -⟩ := Outline.findTopLevel?_eq_some_iff.mp hoffset
      obtain ⟨clause, later, rfl, rfl, hends⟩ := Cursor.exists_endsAt_of_offsetRows hread
      exact ⟨_, _, GapAt.of_endsAt hmain .fetch hcut hends⟩
  | top hpaging hcount => cases hslot
  | page hpaging htop hpos => exact exists_gapAt_atEnd hmain (around_page main offset) hslot.symm
  | head hpaging htop hzero hhead =>
      obtain ⟨rfl, rfl, rfl, -⟩ := Slot.clause.inj hslot
      obtain ⟨front, rest, hcut, hphrase, rfl, -⟩ := Outline.mainSelect?_eq_some_iff.mp hmain
      rw [hcut.eq_append] at hphrase
      have hselect := (Cursor.isSome_word?_iff (by decide)).mpr hphrase
      obtain ⟨clause, later, rfl, rfl, hends⟩ := Cursor.exists_endsAt_of_selectHead hselect hhead
      have hcutMain : TopCut (Outline.of sql).text (byteLength front) front (clause ++ later) :=
        ⟨hcut.eq_append, le_rfl, hcut.depth_eq_zero⟩
      exact ⟨_, _, GapAt.of_endsAt hmain .top hcutMain hends⟩
  | limit hfetch hcount => cases hslot
  | bareOffset hfetch hlimit hoffset =>
      obtain ⟨rfl, rfl, rfl, -⟩ := Slot.clause.inj hslot
      obtain ⟨front, rest, hcut, hread, -⟩ := Outline.findTopLevel?_eq_some_iff.mp hoffset
      obtain ⟨rfl, hphrase⟩ := Cursor.exists_wordAt_of_bareOffset hread
      exact ⟨front, rest, GapAt.of_phraseAt hmain Around.limit.concat_tail (by decide) (by decide) hcut hphrase⟩
  | pageLimit hpaging hpos => exact exists_gapAt_atEnd hmain (around_pageLimit offset) hslot.symm
  | newLimit hpaging hzero => exact exists_gapAt_atEnd hmain .limit hslot.symm

/-- The place of each count is behind the main select word. -/
theorem exists_countIn {count : WrittenCount} (h : SlotAt sql main offset top (.written count))
    (hmain : (Outline.of sql).mainSelect? = some main) :
    ∃ front digits rest, CountIn sql main count front digits rest := by
  generalize hslot : Slot.written count = slot at h
  cases h with
  | fetch hcount =>
      obtain rfl := Slot.written.inj hslot
      obtain ⟨front, rest, hcut, hread, -⟩ := Outline.findTopLevel?_eq_some_iff.mp hcount
      obtain ⟨lead, digits, later, hat⟩ := Cursor.exists_countAt_of_fetchCount hread
      rw [← hcut.eq_append] at hat
      exact ⟨_, _, _, .of_countAt hmain hcut.start_le hat⟩
  | offsetRows hfetch hoffset => cases hslot
  | top hpaging hcount =>
      obtain rfl := Slot.written.inj hslot
      obtain ⟨front, rest, hcut, -, rfl, -⟩ := Outline.mainSelect?_eq_some_iff.mp hmain
      obtain ⟨lead, digits, later, hat⟩ := Cursor.exists_countAt_of_topForm hcount
      rw [← hcut.eq_append] at hat
      exact ⟨_, _, _, .of_countAt hmain le_rfl hat⟩
  | page hpaging htop hpos => exact absurd hslot.symm (Slot.atEnd_ne_written _ _ _ _ _ _)
  | head hpaging htop hzero hhead => cases hslot
  | limit hfetch hcount =>
      obtain rfl := Slot.written.inj hslot
      obtain ⟨front, rest, hcut, hread, -⟩ := Outline.findTopLevel?_eq_some_iff.mp hcount
      obtain ⟨lead, digits, later, hat⟩ := Cursor.exists_countAt_of_limitCount hread
      rw [← hcut.eq_append] at hat
      exact ⟨_, _, _, .of_countAt hmain hcut.start_le hat⟩
  | bareOffset hfetch hlimit hoffset => cases hslot
  | pageLimit hpaging hpos => exact absurd hslot.symm (Slot.atEnd_ne_written _ _ _ _ _ _)
  | newLimit hpaging hzero => exact absurd hslot.symm (Slot.atEnd_ne_written _ _ _ _ _ _)

end SlotAt

end SqlGate
