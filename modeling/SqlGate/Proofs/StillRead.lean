import SqlGate.Proofs.Gaps
import SqlGate.Proofs.Recapped
import SqlGate.Proofs.RereadSlots
import SqlGate.Proofs.Shown

/-! Reads with code put in. The text without comments is cut where the code goes: no semicolon is in front of
it, its words stand apart from those beside it, and the statement begins as it did. So what is classified
as a read stays one, once the words of the code are harmless. -/

namespace SqlGate

open Unicode

section Cuts

variable {left right after old new text : List Char}

/-- A semicolon does not come before something else. -/
theorem Closed.notMem_of_later (h : Closed (left ++ right)) (hsolid : ∃ c ∈ right, isBlank c = false) :
    ';' ∉ left := by
  intro hmem
  obtain ⟨front, rest, rfl⟩ := List.append_of_mem hmem
  obtain ⟨c, hc, hblank⟩ := hsolid
  rw [h front (rest ++ right) (by simp) c (List.mem_append_right _ hc)] at hblank
  cases hblank

theorem Closed.notMem_of_last (h : Closed (left ++ right)) {c : Char} (hlast : left.getLast? = some c)
    (hblank : isBlank c = false) (hne : c ≠ ';') : ';' ∉ left := by
  intro hmem
  obtain ⟨front, rest, rfl⟩ := List.append_of_mem hmem
  have hmemRest : c ∈ rest := by
    rw [List.getLast?_append, List.getLast?_cons] at hlast
    cases hrest : rest.getLast? with
    | none =>
        rw [hrest] at hlast
        exact absurd (Option.some.inj hlast).symm hne
    | some d =>
        rw [hrest] at hlast
        obtain rfl : d = c := Option.some.inj hlast
        exact List.mem_of_getLast? hrest
  rw [h front (rest ++ right) (by simp) c (List.mem_append_left _ hmemRest)] at hblank
  cases hblank

/-- Code without semicolons, behind a text without semicolons. -/
theorem Closed.splice (h : Closed (left ++ (old ++ right))) (hleft : ';' ∉ left) (hnew : ';' ∉ new) :
    Closed (left ++ (new ++ right)) := by
  intro front rest hcut
  rcases cut_of_append hcut with ⟨tail, rfl, -⟩ | ⟨gap, -, hgap⟩
  · exact absurd (by simp) hleft
  · rcases cut_of_append hgap with ⟨tail, rfl, -⟩ | ⟨later, -, hright⟩
    · exact absurd (by simp) hnew
    · exact h (left ++ (old ++ later)) rest (by rw [hright]; simp)

theorem capitalLead_append (hsolid : ∃ c ∈ left, isBlank c = false) (right : List Char) :
    left.dropWhile isBlank ≠ [] ∧ capitalLead (left ++ right) =
      ((left.dropWhile isBlank).flatMap upper ++ right.flatMap upper).takeWhile isLeadingChar := by
  have hne : left.dropWhile isBlank ≠ [] := by
    obtain ⟨c, hc, hblank⟩ := hsolid
    rw [Ne, List.dropWhile_eq_nil_iff]
    intro hall
    rw [hall c hc] at hblank
    cases hblank
  refine ⟨hne, ?_⟩
  rw [capitalLead, List.dropWhile_append, if_neg (by simpa using hne), List.flatMap_append]

/-- A text ends with a word character where all its capital letters are word characters. -/
theorem exists_last_isWord (hne : left.dropWhile isBlank ≠ [])
    (hword : ∀ c ∈ (left.dropWhile isBlank).flatMap upper, isWord c = true) :
    ∃ c, left.getLast? = some c ∧ isWord c = true := by
  have hlastSame : (left.dropWhile isBlank).getLast? = left.getLast? := by
    conv_rhs => rw [← @List.takeWhile_append_dropWhile _ isBlank left]
    rw [List.getLast?_append_of_ne_nil _ hne]
  have hnil : (left.dropWhile isBlank).flatMap upper ≠ [] := by
    obtain ⟨c, rest, hcons⟩ := List.exists_cons_of_ne_nil hne
    rw [hcons, List.flatMap_cons]
    exact List.append_ne_nil_of_left_ne_nil (upper_ne_nil c) _
  have hlast := List.getLast?_eq_some_getLast hne
  rw [← hlastSame]
  exact ⟨_, hlast, isWord_flatMap_upper_of_getLast hlast (List.getLast?_eq_some_getLast hnil)
    (hword _ (List.getLast_mem hnil))⟩

theorem takeWhile_isLeadingChar_eq_nil (hstops : ∀ c, right.head? = some c → isWord c = false)
    (hword : ∀ c ∈ (right.flatMap upper).takeWhile isLeadingChar, isWord c = true) :
    (right.flatMap upper).takeWhile isLeadingChar = [] := by
  cases hhead : right.head? with
  | none =>
      obtain rfl := List.head?_eq_none_iff.mp hhead
      rfl
  | some e =>
      by_contra hsome
      obtain ⟨d, more, htake⟩ := List.exists_cons_of_ne_nil hsome
      have hdWord := hword d (by rw [htake]; exact List.mem_cons_self)
      have hdHead : (right.flatMap upper).head? = some d := by
        rw [← @List.takeWhile_append_dropWhile _ isLeadingChar (right.flatMap upper), htake]
        rfl
      rw [isWord_flatMap_upper_of_head hhead hdHead (hstops e hhead)] at hdWord
      cases hdWord

/-- A text that begins with a word begins alike with something else in the place of its end, if no word goes
across. -/
theorem capitalLead_splice (hword : ∀ c ∈ capitalLead (left ++ right), isWord c = true)
    (hsolid : ∃ c ∈ left, isBlank c = false)
    (hstop : (∀ c, left.getLast? = some c → isWord c = false) ∨
      (∀ c, right.head? = some c → isWord c = false) ∧ after.head? = some ' ') :
    capitalLead (left ++ after) = capitalLead (left ++ right) := by
  obtain ⟨hne, hright⟩ := capitalLead_append hsolid right
  rw [(capitalLead_append hsolid after).2, hright]
  rw [hright] at hword
  by_cases hall : ∀ c ∈ (left.dropWhile isBlank).flatMap upper, isLeadingChar c = true
  · rw [List.takeWhile_append_of_pos hall] at hword
    rw [List.takeWhile_append_of_pos hall, List.takeWhile_append_of_pos hall]
    -- All that is in front belongs to the word, so a word character is at the edge.
    obtain ⟨c, hc, hcWord⟩ := exists_last_isWord hne fun d hd => hword d (List.mem_append_left _ hd)
    rcases hstop with hopens | ⟨hstops, hspace⟩
    · rw [hopens c hc] at hcWord
      cases hcWord
    · have hafter : (after.flatMap upper).takeWhile isLeadingChar = [] := by
        obtain ⟨tail, rfl⟩ := List.head?_eq_some_iff.mp hspace
        refine (@takeWhile_append_of_head _ [] _ fun d hd => ?_).1
        obtain rfl : ' ' = d := Option.some.inj hd
        decide
      rw [hafter, takeWhile_isLeadingChar_eq_nil hstops fun d hd => hword d (List.mem_append_right _ hd)]
  · have hshort : (((left.dropWhile isBlank).flatMap upper).takeWhile isLeadingChar).length ≠
        ((left.dropWhile isBlank).flatMap upper).length := by
      intro hlength
      have hself := (List.takeWhile_prefix isLeadingChar).eq_of_length hlength
      exact hall (List.takeWhile_eq_self_iff.mp hself)
    rw [List.takeWhile_append, List.takeWhile_append, if_neg hshort, if_neg hshort]

/-- The words of a text with code put in where no word goes across. -/
theorem mem_capitalWords_clause {word : List Char} (hleft : Apart left new) (hright : Apart new right)
    (hapart : Apart left right) (hne : new ≠ []) (h : word ∈ capitalWords (left ++ (new ++ right))) :
    word ∈ capitalWords (left ++ right) ∨ word ∈ capitalWords new := by
  have hedge : Apart left (new ++ right) := by
    intro c d hc hd
    rw [List.head?_append_of_ne_nil _ hne] at hd
    exact hleft c d hc hd
  rw [capitalWords, List.flatMap_append, runs_append _ hedge.flatMap_upper, List.flatMap_append,
    runs_append _ hright.flatMap_upper, List.mem_append, List.mem_append] at h
  rw [capitalWords, List.flatMap_append, runs_append _ hapart.flatMap_upper, List.mem_append]
  rcases h with h | h | h
  · exact Or.inl (Or.inl h)
  · exact Or.inr h
  · exact Or.inl (Or.inr h)

theorem flatMap_upper_of_digits {digits : List Char} (h : ∀ c ∈ digits, c.isDigit = true) :
    digits.flatMap upper = digits :=
  flatMap_upper_of_self fun c hc =>
    of_ascii (motive := fun c => c.isDigit = true → upper c = [c]) (by decide) (toNat_lt_of_isDigit (h c hc)) (h c hc)

theorem flatMap_upper_decimal (count : Nat) : (Nat.toDigits 10 count).flatMap upper = Nat.toDigits 10 count :=
  flatMap_upper_of_digits fun _ hc => Nat.isDigit_of_mem_toDigits (by decide) (by decide) hc

/-- The words of a text with a number in the place of other code: the one with the number may be new. -/
theorem mem_capitalWords_count {word : List Char} {count : Nat}
    (hopens : ∀ c, left.getLast? = some c → isWord c = false)
    (h : word ∈ capitalWords (left ++ (Nat.toDigits 10 count ++ right))) :
    word ∈ capitalWords (left ++ (old ++ right)) ∨ ∃ c ∈ word, isDigit c = true := by
  have hedge : ∀ other : List Char, Apart left other := by
    intro other c d hc _ hword
    rw [hopens c hc] at hword
    cases hword
  have hstop : ∀ c, ((right.flatMap upper).dropWhile isWord).head? = some c → isWord c = false := by
    intro c hc
    have hnot := List.head?_dropWhile_not isWord (right.flatMap upper)
    rw [hc] at hnot
    simpa using hnot
  have hright := @List.takeWhile_append_dropWhile _ isWord (right.flatMap upper)
  rw [capitalWords, List.flatMap_append, runs_append _ (hedge _).flatMap_upper, List.mem_append] at h
  rw [capitalWords, List.flatMap_append, runs_append _ (hedge _).flatMap_upper, List.mem_append]
  rcases h with h | h
  · exact Or.inl (Or.inl h)
  · have hnumber : ∀ c ∈ Nat.toDigits 10 count ++ (right.flatMap upper).takeWhile isWord, isWord c = true := by
      intro c hc
      rcases List.mem_append.mp hc with hc | hc
      · exact isWord_of_isDigit (isDigit_of_mem_decimal hc)
      · exact List.mem_takeWhile_imp hc
    rw [List.flatMap_append, flatMap_upper_decimal, ← hright, ← List.append_assoc,
      runs_append_of_stop (by simp) hnumber hstop, List.mem_cons] at h
    rcases h with rfl | h
    · obtain ⟨c, hc⟩ := List.exists_mem_of_ne_nil _ (@Nat.toDigits_ne_nil count 10)
      exact Or.inr ⟨c, List.mem_append_left _ hc, isDigit_of_mem_decimal hc⟩
    · left
      right
      rw [List.flatMap_append, ← hright, ← List.append_assoc, runs_append _ fun c d _ hd _ => hstop d hd]
      exact List.mem_append_right _ h

end Cuts

section Reads

variable {mode : Mode} {text other : List Char}

theorem Harmless.isWord_of_mem_lead (h : Harmless mode text) : ∀ c ∈ capitalLead text, isWord c = true := by
  rcases h.lead with hlead | ⟨hlead, -⟩
  · rw [hlead]
    exact isWord_of_mem_keyword (by decide)
  · rw [hlead]
    exact isWord_of_mem_keyword (by decide)

theorem Harmless.capitalLead_ne_nil (h : Harmless mode text) : capitalLead text ≠ [] := by
  rcases h.lead with hlead | ⟨hlead, -⟩
  · rw [hlead]
    decide
  · rw [hlead]
    decide

/-- A text is a read if, but for some of its comments, it begins like one, has no new word but harmless ones,
and no semicolon comes before something else. -/
theorem Harmless.of_hushed {middle : List Char} (h : Harmless mode text) (hclosed : Closed middle)
    (hlead : capitalLead middle = capitalLead text)
    (hwords : ∀ word ∈ capitalWords middle, word ∈ capitalWords text ∨ ¬SpelledAny mode.banned word)
    (hhushed : Hushed middle other) (hselect : ∃ word ∈ capitalWords other, Spelled "SELECT".toList word) :
    Harmless mode other where
  closed := hhushed.closed hclosed
  lead := by
    have hne : capitalLead middle ≠ [] := by
      rw [hlead]
      exact h.capitalLead_ne_nil
    rw [hhushed.capitalLead_eq hne, hlead]
    exact h.lead.imp_right fun hwith => ⟨hwith.1, hselect⟩
  clean word hword := by
    rcases hwords word (hhushed.mem_runs [] hword) with hold | hclean
    · exact h.clean word hold
    · exact hclean

theorem Clean.numbered {lead tail : List Char} (h : Around lead tail) (hlead : Clean mode lead)
    (htail : Clean mode tail) (limit : Nat) : Clean mode (lead ++ (Nat.toDigits 10 limit ++ tail)) := by
  have hnumber : Clean mode (Nat.toDigits 10 limit) := by
    rw [Clean, flatMap_upper_decimal]
    exact lacks_decimal isKeyword_of_mem_banned limit
  rw [Clean, List.flatMap_append, List.flatMap_append, ← List.flatMap_append]
  refine hlead.append ?_ (h.apart_lead _).flatMap_upper
  rw [List.flatMap_append]
  exact hnumber.append htail (h.apart_tail _).flatMap_upper

end Reads

/-- The word that the main query begins with is in the text without comments. -/
theorem exists_select_of_mainSelect? {sql : List Char} {main : Cursor} (h : (Outline.of sql).mainSelect? = some main) :
    ∃ word ∈ capitalWords (stripComments sql), Spelled "SELECT".toList word := by
  obtain ⟨front, rest, -, hphrase, -⟩ := Outline.mainSelect?_eq_some_iff.mp h
  obtain ⟨word, later, hat, hspelled⟩ := hphrase.exists_wordAt
  obtain ⟨left, right, hsite, rfl, rfl⟩ := Site.exists_of_word hat.eq_append hat.ne_nil hat.all_word
  have hshown := stripComments_eq_shown sql
  rw [hsite.lexemes_eq, Lexeme.shown_append, Lexeme.shown_append, Lexeme.shown_code] at hshown
  have hword : WordAt (stripComments sql) (Lexeme.shown (trustedUntil sql) 0 left) word
      (Lexeme.shown (trustedUntil sql) (0 + byteLength (left.flatMap Lexeme.text) +
        byteLength ((word.map Lexeme.code).flatMap Lexeme.text)) right) := by
    refine ⟨hshown, hat.ne_nil, hat.all_word, fun c hc => ?_, fun c hc => ?_⟩
    · by_contra hcWord
      have hword := Bool.of_not_eq_false hcWord
      exact hcWord (hat.opens c (Lexeme.getLast_of_shown hsite.settled hc hword))
    · by_contra hcWord
      have hword := Bool.of_not_eq_false hcWord
      exact hcWord (hat.closes c (Lexeme.head_blanked_of_shown hc hword))
  have hspelledUpper := hspelled.flatMap_upper (by decide)
  have hupper := hword.flatMap_upper (hspelledUpper.isWord_of_mem (by decide))
  exact ⟨word.flatMap upper, hupper.mem_runs, hspelledUpper⟩

/-- Between the beginning of the main query and a place behind it is more than blanks. -/
theorem exists_solid_of_mainSelect? {sql before gap rest : List Char}
    (hmain : (Outline.of sql).mainSelect? = some (.between before (gap ++ rest)))
    (htext : (Outline.of sql).text = before ++ gap ++ rest) (hne : gap ≠ []) :
    ∃ c ∈ before ++ gap, isBlank c = false := by
  obtain ⟨front, later, hcut, hphrase, hplace, -⟩ := Outline.mainSelect?_eq_some_iff.mp hmain
  have hlater : gap ++ rest = later := congrArg Cursor.rest hplace
  subst hlater
  have hfront : front = before := by
    have hsame := hcut.eq_append
    rw [htext, List.append_assoc] at hsame
    exact (List.append_cancel_right hsame).symm
  subst hfront
  obtain ⟨word, after, hat, -⟩ := hphrase.exists_wordAt
  obtain ⟨c, hc, hword⟩ := hat.head_eq hcut.eq_append
  rw [List.head?_append_of_ne_nil _ hne] at hc
  exact ⟨c, List.mem_append_right _ (List.mem_of_head? hc), isBlank_eq_false_of_isWord hword⟩

variable {mode : Mode} {sql front rest lead tail digits : List Char} {main : Cursor} {place : Nat}
  {left right : List Lexeme} {count : WrittenCount}

/-- No semicolon of a read stands in front of the place of a clause. -/
theorem GapAt.semicolon_notMem {before after : List Char} (h : GapAt sql main place lead tail front rest)
    (hstripped : Stripped sql [] front rest before after) (hclosed : Closed (before ++ ([] ++ after))) :
    ';' ∉ before := by
  cases h.edge with
  | behind _ hlast _ =>
      obtain ⟨c, hc, hword⟩ := hlast
      have hblank := isBlank_eq_false_of_isWord hword
      refine hclosed.notMem_of_last (hstripped.last c hc hblank) hblank ?_
      rintro rfl
      exact absurd hword (by decide)
  | atEnd _ hlast _ =>
      obtain ⟨c, hc, hblank, hagain⟩ := hlast
      by_cases hne : c = ';'
      · exact hclosed.notMem_of_later ⟨';', hstripped.mem_right _ (hagain hne) (by decide), by decide⟩
      · exact hclosed.notMem_of_last (hstripped.last c hc hblank) hblank hne
  | before _ _ hnext =>
      obtain ⟨c, hc, hword⟩ := hnext
      have hblank := isBlank_eq_false_of_isWord hword
      exact hclosed.notMem_of_later ⟨c, hstripped.mem_right c (List.mem_of_head? hc) hblank, hblank⟩

theorem GapAt.harmless (h : GapAt sql main place lead tail front rest)
    (hmain : (Outline.of sql).mainSelect? = some main) (hsite : Site sql left [] right)
    (hfront : left.flatMap Lexeme.blanked = front) (hrest : right.flatMap Lexeme.blanked = rest)
    (hread : Harmless mode (stripComments sql)) (hlead : Clean mode lead) (htail : Clean mode tail) (limit : Nat) :
    Harmless mode (stripComments (joined left (lead ++ (Nat.toDigits 10 limit ++ tail)) right)) := by
  have hinsertion := h.insertion limit
  obtain ⟨before, after, hstripped, hhushed⟩ :=
    hsite.exists_stripped hinsertion.all_clause hinsertion.ne_nil (Or.inl hinsertion.space_mem)
  rw [hfront, hrest] at hstripped
  have hclosed : Closed (before ++ ([] ++ after)) := hstripped.eq_append ▸ hread.closed
  have hsemicolon := h.semicolon_notMem hstripped hclosed
  have hclause : ';' ∉ lead ++ (Nat.toDigits 10 limit ++ tail) := by
    intro hmem
    exact absurd (hinsertion.all_clause _ hmem) (by decide)
  have hapart : Apart before ((lead ++ (Nat.toDigits 10 limit ++ tail)) ++ after) := by
    intro c d hc hd
    rw [List.head?_append_of_ne_nil _ hinsertion.ne_nil] at hd
    exact hstripped.apart_left hinsertion.apart_left c d hc hd
  obtain ⟨early, gap, hearly, hne, rfl⟩ := h.behind
  have htext := h.eq_append
  rw [hearly] at htext
  have hselect : ∃ word ∈ capitalWords (stripComments (joined left (lead ++ (Nat.toDigits 10 limit ++ tail)) right)),
      Spelled "SELECT".toList word := by
    have hagain := hsite.outline_joined hinsertion.all_clause hinsertion.ne_nil
    rw [hfront, hrest, hearly] at hagain
    rw [hearly] at hinsertion
    exact exists_select_of_mainSelect? (hinsertion.mainSelect? htext hagain hne hmain)
  refine hread.of_hushed (hclosed.splice hsemicolon hclause) ?_ ?_ (hhushed hapart) hselect
  · rw [hstripped.eq_append]
    refine capitalLead_splice ?_ ?_ ?_
    · rw [← hstripped.eq_append]
      exact hread.isWord_of_mem_lead
    · obtain ⟨c, hc, hblank⟩ := exists_solid_of_mainSelect? hmain htext hne
      exact ⟨c, hstripped.mem_left c (hearly ▸ hc) hblank, hblank⟩
    · rcases h.edge.cases with ⟨⟨more, rfl⟩, hstops⟩ | ⟨-, hopens⟩
      · exact Or.inr ⟨hstripped.stops hstops, rfl⟩
      · exact Or.inl (hstripped.opens hopens)
  · intro word hword
    rw [hstripped.eq_append]
    refine (mem_capitalWords_clause (hstripped.apart_left hinsertion.apart_left)
      (hstripped.apart_right hinsertion.apart_right) (hstripped.apart hinsertion.apart) hinsertion.ne_nil
      hword).imp_right fun hnew => ?_
    exact Clean.numbered h.around hlead htail limit word hnew

theorem CountIn.harmless (h : CountIn sql main count front digits rest)
    (hmain : (Outline.of sql).mainSelect? = some main) (hsite : Site sql left digits right)
    (hfront : left.flatMap Lexeme.blanked = front) (hrest : right.flatMap Lexeme.blanked = rest)
    (hread : Harmless mode (stripComments sql)) (limit : Nat) :
    Harmless mode (stripComments (joined left (Nat.toDigits 10 limit) right)) := by
  have hall : ∀ c ∈ Nat.toDigits 10 limit, isClauseChar c = true := fun _ hc => isClauseChar_of_mem_decimal hc
  have hrecount := h.countAt.recount limit
  obtain ⟨before, after, hstripped, hhushed⟩ := hsite.exists_stripped hall Nat.toDigits_ne_nil
    (Or.inr (hfront ▸ h.countAt.edge))
  rw [hfront, hrest] at hstripped
  have hclosed : Closed (before ++ (digits ++ after)) := hstripped.eq_append ▸ hread.closed
  have hopens := hstripped.opens hrecount.opens
  have hsemicolon : ';' ∉ before := by
    obtain ⟨c, hc⟩ := List.exists_mem_of_ne_nil _ h.countAt.ne_nil
    have hblank := isBlank_eq_false_of_isDigit (h.countAt.number c hc)
    exact hclosed.notMem_of_later ⟨c, List.mem_append_left _ hc, hblank⟩
  have hclause : ';' ∉ Nat.toDigits 10 limit := by
    intro hmem
    exact absurd (hall _ hmem) (by decide)
  have hapart : Apart before (Nat.toDigits 10 limit ++ after) := by
    intro c d hc _ hword
    rw [hopens c hc] at hword
    cases hword
  obtain ⟨early, gap, hearly, hne, rfl⟩ := h.behind
  have htext := h.countAt.eq_append
  rw [hearly] at htext
  have hselect : ∃ word ∈ capitalWords (stripComments (joined left (Nat.toDigits 10 limit) right)),
      Spelled "SELECT".toList word := by
    have hagain := hsite.outline_joined hall Nat.toDigits_ne_nil
    rw [hfront, hrest, hearly] at hagain
    rw [hearly] at hrecount
    exact exists_select_of_mainSelect? (hrecount.mainSelect? htext hagain hne hmain)
  refine hread.of_hushed (hclosed.splice hsemicolon hclause) ?_ ?_ (hhushed hapart) hselect
  · rw [hstripped.eq_append]
    refine capitalLead_splice ?_ ?_ (Or.inl hopens)
    · rw [← hstripped.eq_append]
      exact hread.isWord_of_mem_lead
    · obtain ⟨c, hc, hblank⟩ := exists_solid_of_mainSelect? hmain htext hne
      exact ⟨c, hstripped.mem_left c (hearly ▸ hc) hblank, hblank⟩
  · intro word hword
    rw [hstripped.eq_append]
    refine (mem_capitalWords_count hopens hword).imp_right ?_
    rintro ⟨c, hc, hcDigit⟩ ⟨keyword, hmem, hspelled⟩
    rw [hspelled.isDigit_eq_false (isKeyword_of_mem_banned keyword hmem) c hc] at hcDigit
    cases hcDigit

end SqlGate
