import SqlGate.Proofs.Hazards
import SqlGate.Proofs.Words

/-! A text of code put into a statement at the edge of a piece. The pieces around it stay the pieces that
they were, so the outline of the new statement is the old one with the same text put in, and no hazard
comes up that the statement did not have, nor one further to the left. -/

namespace SqlGate

open Unicode

/-- The characters of clauses that are put into statements. -/
def isClauseChar (c : Char) : Bool :=
  c.isAlphanum || c == ' ' || c == '(' || c == ')'

theorem ne_of_isClauseChar {c other : Char} (h : isClauseChar c = true) (hother : isClauseChar other = false) :
    c ≠ other := by
  rintro rfl
  rw [h] at hother
  cases hother

theorem ofOpening?_of_isClauseChar {c : Char} (h : isClauseChar c = true) : Quote.ofOpening? c = none := by
  by_contra hsome
  obtain ⟨quote, hquote⟩ := Option.ne_none_iff_exists'.mp hsome
  have hc := Quote.opening_of_ofOpening? hquote
  have hother : isClauseChar quote.opening = false := by cases quote <;> rfl
  exact ne_of_isClauseChar h hother hc.symm

theorem isPlain_of_isClauseChar {c : Char} (h : isClauseChar c = true) : Lexeme.isPlain c = true := by
  have hslash := ne_of_isClauseChar h (show isClauseChar '/' = false from rfl)
  have hdash := ne_of_isClauseChar h (show isClauseChar '-' = false from rfl)
  simp [Lexeme.isPlain, ofOpening?_of_isClauseChar h, hslash, hdash]

theorem Quote.isWord_opening (quote : Quote) : isWord quote.opening = false := by
  cases quote <;> decide

theorem Quote.isWord_closing (quote : Quote) : isWord quote.closing = false := by
  cases quote <;> decide

namespace Lexeme

/-- Whether a piece may go on in any text that comes after it. -/
def runsOn : Lexeme → Bool
  | .line _ | .block _ false => true
  | .code _ | .quoted _ _ | .block _ true => false

/-- A quoted span is closed alike in front of another text that has as many delimiters and begins alike, or begins
with a character of a clause. -/
theorem Closes.replace {quote : Quote} {body later other : List Char} (h : Closes quote.closing body later)
    (hcount : other.count quote.closing = later.count quote.closing)
    (hhead : other.head? = later.head? ∨ ∃ c, other.head? = some c ∧ isClauseChar c = true) :
    Closes quote.closing body other := by
  refine ⟨h.1, ?_⟩
  rcases hhead with hsame | ⟨d, hd, hclause⟩
  · rcases h.2 with halone | ⟨after, rfl, hafter⟩
    · exact Or.inl (by rwa [hsame])
    · obtain ⟨tail, rfl⟩ := List.head?_eq_some_iff.mp (hsame.trans rfl)
      refine Or.inr ⟨tail, rfl, ?_⟩
      rw [List.count_cons_self, List.count_cons_self, List.count_eq_zero.mpr hafter] at hcount
      exact List.count_eq_zero.mp (by omega)
  · refine Or.inl ?_
    have hother : isClauseChar quote.closing = false := by cases quote <;> rfl
    rw [hd]
    exact fun heq => ne_of_isClauseChar hclause hother (Option.some.inj heq)

/-- A piece is read alike in front of another text, if that has as many delimiters and begins alike, or
begins with a character of a clause. -/
theorem Reads.replace {text later other : List Char} {piece : Lexeme} (h : Reads text piece later)
    (hcount : ∀ quote : Quote, other.count quote.closing = later.count quote.closing)
    (hhead : other.head? = later.head? ∨
      piece.runsOn = false ∧ ∃ c, other.head? = some c ∧ isClauseChar c = true) :
    Reads (piece.text ++ other) piece other := by
  have hnotMem : ∀ quote : Quote, quote.closing ∉ later → quote.closing ∉ other := by
    intro quote hnot
    rw [← List.count_eq_zero, hcount, List.count_eq_zero]
    exact hnot
  cases h with
  | @plain c _ hquote hcomment =>
      refine .plain hquote fun hopens => ?_
      rcases hhead with hsame | ⟨-, d, hd, hclause⟩
      · refine hcomment ?_
        rwa [OpensComment, ← hsame]
      · rcases hopens with ⟨-, hstar⟩ | ⟨-, hdash⟩
        · exact ne_of_isClauseChar hclause (show isClauseChar '*' = false from rfl)
            (Option.some.inj (hd.symm.trans hstar))
        · exact ne_of_isClauseChar hclause (show isClauseChar '-' = false from rfl)
            (Option.some.inj (hd.symm.trans hdash))
  | unmatched quote hclose => exact .unmatched quote (hnotMem quote hclose)
  | @quoted quote body rest hclose =>
      have hcloses := hclose.replace (hcount quote) (hhead.imp_right And.right)
      rw [show (Lexeme.quoted quote body).text ++ other = quote.opening :: (body ++ quote.closing :: other) by
        simp [text]]
      exact .quoted quote hcloses
  | @closedBlock body rest hbody =>
      rw [show (Lexeme.block body true).text ++ other = '/' :: '*' :: (body ++ '*' :: '/' :: other) by
        simp [text]]
      exact .closedBlock hbody
  | openBlock hbody =>
      rcases hhead with hsame | ⟨hruns, -⟩
      · obtain rfl : other = [] := List.head?_eq_none_iff.mp hsame
        simpa [text] using Reads.openBlock hbody
      · cases hruns
  | @line body rest hbody hrest =>
      rcases hhead with hsame | ⟨hruns, -⟩
      · exact .line hbody fun c hc => hrest c (hsame ▸ hc)
      · cases hruns

theorem blanked_ne_nil (piece : Lexeme) : piece.blanked ≠ [] := by
  intro h
  have hsize := piece.byteLength_blanked
  rw [h] at hsize
  exact (byteLength_pos piece.text_ne_nil).ne hsize

theorem blanked_of_isComment {piece : Lexeme} (h : piece.isComment = true) :
    piece.blanked = spaces (byteLength piece.text) := by
  cases piece with
  | code c => cases h
  | quoted quote body => cases h
  | block body closed => rfl
  | line body => rfl

/-- A comment shows spaces, at least one. -/
theorem exists_blanked_of_isComment {piece : Lexeme} (h : piece.isComment = true) :
    ∃ count, piece.blanked = List.replicate (count + 1) ' ' := by
  obtain ⟨count, hcount⟩ := Nat.exists_eq_succ_of_ne_zero (byteLength_pos piece.text_ne_nil).ne'
  exact ⟨count, by rw [blanked_of_isComment h, hcount, spaces]⟩

/-- Characters that a piece shows first only if it is their own code: no space, as a comment shows, no delimiter. -/
def ShowsCode (c : Char) : Prop :=
  c ≠ ' ' ∧ ∀ quote : Quote, c ≠ quote.opening

theorem showsCode_of_isWord {c : Char} (h : isWord c = true) : ShowsCode c := by
  refine ⟨?_, fun quote => ?_⟩
  · rintro rfl
    exact absurd h (by decide)
  · rintro rfl
    rw [quote.isWord_opening] at h
    cases h

theorem eq_code_of_head {piece : Lexeme} {c : Char} (hc : ShowsCode c) (h : piece.blanked.head? = some c) :
    piece = code c := by
  have hspace : piece.isComment ≠ true := by
    intro hcomment
    obtain ⟨count, hcount⟩ := exists_blanked_of_isComment hcomment
    rw [hcount] at h
    exact hc.1 (Option.some.inj h).symm
  cases piece with
  | code d => rw [← Option.some.inj h]
  | quoted quote body => exact absurd (Option.some.inj h).symm (hc.2 quote)
  | block body closed => exact absurd rfl hspace
  | line body => exact absurd rfl hspace

/-- What is shown begins with the code that begins it. -/
theorem exists_eq_code_cons {pieces : List Lexeme} {c : Char} (hc : ShowsCode c)
    (h : (pieces.flatMap blanked).head? = some c) : ∃ later, pieces = code c :: later := by
  cases pieces with
  | nil => cases h
  | cons piece later =>
      rw [List.flatMap_cons, List.head?_append_of_ne_nil _ piece.blanked_ne_nil] at h
      rw [eq_code_of_head hc h]
      exact ⟨later, rfl⟩

/-- Pieces that show word characters only are code. -/
theorem eq_map_code_of_blanked {pieces : List Lexeme} (h : ∀ c ∈ pieces.flatMap blanked, isWord c = true) :
    pieces = (pieces.flatMap blanked).map code := by
  induction pieces with
  | nil => rfl
  | cons piece pieces ih =>
      rw [List.flatMap_cons, List.forall_mem_append] at h
      have hhead := List.head?_eq_some_head piece.blanked_ne_nil
      have hpiece := eq_code_of_head (showsCode_of_isWord (h.1 _ (List.mem_of_head? hhead))) hhead
      rw [List.flatMap_cons, List.map_append, ← ih h.2, hpiece]
      rfl

theorem blanked_code_ne_append (c : Char) {head tail : List Char} (hhead : head ≠ []) (htail : tail ≠ []) :
    (code c).blanked ≠ head ++ tail := by
  intro h
  have hlength := congrArg List.length h
  rw [List.length_append] at hlength
  have hheadPos := List.length_pos_iff.mpr hhead
  have htailPos := List.length_pos_iff.mpr htail
  change 1 = head.length + tail.length at hlength
  omega

/-- What is shown is code, a space or a delimiter. -/
theorem mem_blanked_cases {piece : Lexeme} {c : Char} (hc : c ∈ piece.blanked) :
    piece = code c ∨ c = ' ' ∨ ∃ quote : Quote, c = quote.opening ∨ c = quote.closing := by
  have hspaces : ∀ {count}, c ∈ spaces count → c = ' ' := fun hmem => (List.mem_replicate.mp hmem).2
  cases piece with
  | code d => exact Or.inl (congrArg code (List.mem_singleton.mp hc).symm)
  | quoted quote body =>
      rw [blanked, List.mem_cons, List.mem_append, List.mem_singleton] at hc
      rcases hc with hopening | hbody | hclosing
      · exact Or.inr (Or.inr ⟨quote, Or.inl hopening⟩)
      · exact Or.inr (Or.inl (hspaces hbody))
      · exact Or.inr (Or.inr ⟨quote, Or.inr hclosing⟩)
  | block body closed => exact Or.inr (Or.inl (hspaces hc))
  | line body => exact Or.inr (Or.inl (hspaces hc))

/-- A piece that shows more than one character shows none of a word. -/
theorem isWord_blanked {piece : Lexeme} {head tail : List Char} (h : piece.blanked = head ++ tail)
    (hhead : head ≠ []) (htail : tail ≠ []) : ∀ c ∈ head ++ tail, isWord c = false := by
  intro c hc
  rw [← h] at hc
  rcases mem_blanked_cases hc with rfl | rfl | ⟨quote, rfl | rfl⟩
  · exact absurd h (blanked_code_ne_append c hhead htail)
  · decide
  · exact quote.isWord_opening
  · exact quote.isWord_closing

/-- A cut of a text that joins what pieces show is the edge of a piece or goes through one. -/
theorem exists_cut_of_flatMap {shows : Lexeme → List Char} {pieces : List Lexeme} {front rest : List Char}
    (h : pieces.flatMap shows = front ++ rest) :
    (∃ left right, pieces = left ++ right ∧ left.flatMap shows = front ∧ right.flatMap shows = rest) ∨
      ∃ left piece right head tail, pieces = left ++ piece :: right ∧ shows piece = head ++ tail ∧
        head ≠ [] ∧ tail ≠ [] ∧ front = left.flatMap shows ++ head ∧ rest = tail ++ right.flatMap shows := by
  induction pieces generalizing front with
  | nil =>
      obtain ⟨rfl, rfl⟩ := List.append_eq_nil_iff.mp h.symm
      exact Or.inl ⟨[], [], rfl, rfl, rfl⟩
  | cons piece pieces ih =>
      rw [List.flatMap_cons] at h
      rcases List.append_eq_append_iff.mp h with ⟨gap, hfront, hpieces⟩ | ⟨gap, hpiece, hrest⟩
      · rcases ih hpieces with ⟨left, right, rfl, rfl, rfl⟩ | ⟨left, inner, right, head, tail, rfl, hinner, hhead, htail, rfl, rfl⟩
        · exact Or.inl ⟨piece :: left, right, rfl, hfront.symm, rfl⟩
        · refine Or.inr ⟨piece :: left, inner, right, head, tail, rfl, hinner, hhead, htail, ?_, rfl⟩
          rw [hfront, List.flatMap_cons, List.append_assoc]
      · by_cases hgap : gap = []
        · subst hgap
          rw [List.append_nil] at hpiece
          exact Or.inl ⟨[piece], pieces, rfl, by rw [List.flatMap_singleton, hpiece], hrest.symm⟩
        · by_cases hfront : front = []
          · subst hfront
            rw [List.nil_append] at hpiece
            exact Or.inl ⟨[], piece :: pieces, rfl, rfl, by rw [List.flatMap_cons, hpiece, hrest]⟩
          · exact Or.inr ⟨[], piece, pieces, front, gap, rfl, hpiece, hfront, hgap, rfl, hrest⟩

/-- A character that pieces show for their own code only stands at the edge of one. -/
theorem exists_cut_of_showsCode {pieces : List Lexeme} {front rest : List Char} {c : Char} (hc : ShowsCode c)
    (hcloses : ∀ quote : Quote, c ≠ quote.closing) (h : pieces.flatMap blanked = front ++ c :: rest) :
    ∃ left right, pieces = left ++ code c :: right ∧ left.flatMap blanked = front ∧ right.flatMap blanked = rest := by
  have hinside : ∀ {piece : Lexeme} {head tail : List Char}, piece.blanked = head ++ tail → head ≠ [] → tail ≠ [] →
      c ∉ tail := by
    intro piece head tail hpiece hhead htail hmem
    have hin : c ∈ piece.blanked := by
      rw [hpiece]
      exact List.mem_append_right _ hmem
    rcases mem_blanked_cases hin with rfl | hspace | ⟨quote, hopening | hclosing⟩
    · exact blanked_code_ne_append c hhead htail hpiece
    · exact hc.1 hspace
    · exact hc.2 quote hopening
    · exact hcloses quote hclosing
  rcases exists_cut_of_flatMap h with ⟨left, right, rfl, hleft, hright⟩ |
    ⟨left, piece, right, head, tail, rfl, hpiece, hhead, htail, -, hrest⟩
  · obtain ⟨later, rfl⟩ := exists_eq_code_cons hc (by rw [hright]; rfl)
    exact ⟨left, later, rfl, hleft, (List.cons.inj hright).2⟩
  · obtain ⟨d, tail, rfl⟩ := List.exists_cons_of_ne_nil htail
    obtain ⟨rfl, -⟩ := List.cons.inj hrest
    exact absurd List.mem_cons_self (hinside hpiece hhead htail)

/-- A cut of the outline next to a word character is the edge of a piece. -/
theorem exists_edge_of_isWord {pieces : List Lexeme} {front rest : List Char}
    (h : pieces.flatMap blanked = front ++ rest)
    (hword : (∃ c, front.getLast? = some c ∧ isWord c = true) ∨ ∃ c, rest.head? = some c ∧ isWord c = true) :
    ∃ left right, pieces = left ++ right ∧ left.flatMap blanked = front ∧ right.flatMap blanked = rest := by
  rcases exists_cut_of_flatMap h with hedge | ⟨left, piece, right, head, tail, -, hpiece, hhead, htail, rfl, rfl⟩
  · exact hedge
  · have hnone := isWord_blanked hpiece hhead htail
    rcases hword with ⟨c, hc, hcWord⟩ | ⟨c, hc, hcWord⟩
    · have hmem : c ∈ head ++ tail := by
        rw [List.getLast?_append, List.getLast?_eq_some_getLast hhead, Option.some_or] at hc
        rw [← Option.some.inj hc]
        exact List.mem_append_left _ (List.getLast_mem hhead)
      rw [hnone c hmem] at hcWord
      cases hcWord
    · have hmem : c ∈ head ++ tail := by
        rw [List.head?_append, List.head?_eq_some_head htail, Option.some_or] at hc
        rw [← Option.some.inj hc]
        exact List.mem_append_right _ (List.head_mem htail)
      rw [hnone c hmem] at hcWord
      cases hcWord

/-- A cut of the outline behind a character that is no blank, with only blanks and semicolons after it, is
the edge of a piece: a quoted span shows its closing delimiter. -/
theorem exists_edge_of_blank_rest {pieces : List Lexeme} {front rest : List Char}
    (h : pieces.flatMap blanked = front ++ rest) (hfront : ∃ c, front.getLast? = some c ∧ isBlank c = false)
    (hrest : ∀ c ∈ rest, isBlank c = true ∨ c = ';') :
    ∃ left right, pieces = left ++ right ∧ left.flatMap blanked = front ∧ right.flatMap blanked = rest := by
  rcases exists_cut_of_flatMap h with hedge | ⟨left, piece, right, head, tail, -, hpiece, hhead, htail, rfl, rfl⟩
  · exact hedge
  · exfalso
    by_cases hcomment : piece.isComment = true
    · obtain ⟨c, hc, hblank⟩ := hfront
      rw [List.getLast?_append, List.getLast?_eq_some_getLast hhead, Option.some_or] at hc
      have hmem : c ∈ piece.blanked := by
        rw [hpiece, ← Option.some.inj hc]
        exact List.mem_append_left _ (List.getLast_mem hhead)
      rw [blanked_of_isComment hcomment] at hmem
      rw [(List.mem_replicate.mp hmem).2] at hblank
      cases hblank
    · cases piece with
      | code d => exact blanked_code_ne_append d hhead htail hpiece
      | quoted quote body =>
          have hlast : tail.getLast? = some quote.closing := by
            have hwhole := congrArg List.getLast? hpiece
            rw [List.getLast?_append, List.getLast?_eq_some_getLast htail, Option.some_or, blanked,
              List.getLast?_cons, List.getLast?_concat] at hwhole
            rw [List.getLast?_eq_some_getLast htail, ← hwhole]
            rfl
          have hclosing := hrest _ (List.mem_append_left _ (List.mem_of_getLast? hlast))
          cases quote <;> exact absurd hclosing (by decide)
      | block body closed => exact hcomment rfl
      | line body => exact hcomment rfl

/-- What shows a word character first is code. -/
theorem head_text_of_blanked {pieces : List Lexeme} {c : Char}
    (h : (pieces.flatMap blanked).head? = some c) (hc : isWord c = true) :
    (pieces.flatMap text).head? = some c := by
  obtain ⟨later, rfl⟩ := exists_eq_code_cons (showsCode_of_isWord hc) h
  rfl

theorem Reads.endsLine_of_runsOn {text rest : List Char} {piece : Lexeme} (h : Reads text piece rest)
    (hruns : piece.runsOn = true) {c : Char} (hc : rest.head? = some c) : endsLine c = true := by
  cases h with
  | openBlock => cases hc
  | line _ hrest => exact hrest c hc
  | plain => cases hruns
  | unmatched => cases hruns
  | quoted => cases hruns
  | closedBlock => cases hruns

/-- No comment goes on up to a word, nor up to the end of a text that shows no blank there. -/
theorem runsOn_eq_false {sql : List Char} {left right : List Lexeme} {piece : Lexeme}
    (h : lexemes sql = left ++ piece :: right)
    (hedge : (∃ c, (right.flatMap blanked).head? = some c ∧ isWord c = true) ∨
      ∃ c, piece.blanked.getLast? = some c ∧ isBlank c = false) : piece.runsOn = false := by
  by_contra hruns
  have hcomment : piece.isComment = true := by
    cases piece with
    | code c => exact absurd rfl hruns
    | quoted quote body => exact absurd rfl hruns
    | block body closed => rfl
    | line body => rfl
  rcases hedge with ⟨c, hc, hword⟩ | ⟨c, hc, hblank⟩
  · have hhead := head_text_of_blanked hc hword
    have hreads := (reads_of_lexemes_eq_cons (lexemes_of_eq_append h)).1
    have hends := hreads.endsLine_of_runsOn (Bool.of_not_eq_false hruns) hhead
    rw [endsLine, Bool.or_eq_true, beq_iff_eq, beq_iff_eq] at hends
    rcases hends with rfl | rfl
    · exact absurd hword (by decide)
    · exact absurd hword (by decide)
  · rw [blanked_of_isComment hcomment] at hc
    rw [(List.mem_replicate.mp (List.mem_of_getLast? hc)).2] at hblank
    cases hblank

end Lexeme

/-- The statement with a text of code between the pieces of its two sides. -/
def joined (left : List Lexeme) (code : List Char) (right : List Lexeme) : List Char :=
  left.flatMap Lexeme.text ++ (code ++ right.flatMap Lexeme.text)

theorem eq_joined_of_lexemes {sql old : List Char} {left right : List Lexeme}
    (h : lexemes sql = left ++ (old.map Lexeme.code ++ right)) : sql = joined left old right := by
  have htext := flatMap_text_lexemes sql
  rw [h, List.flatMap_append, List.flatMap_append, Lexeme.flatMap_text_code] at htext
  exact htext.symm

/-- An edit of code between two pieces does not cut a character. -/
theorem appliedTo?_joined (left right : List Lexeme) (old new : List Char) :
    Edit.appliedTo? ⟨byteLength (left.flatMap Lexeme.blanked),
        byteLength (left.flatMap Lexeme.blanked) + byteLength old, new⟩ (joined left old right) =
      some (joined left new right) := by
  rw [Edit.appliedTo?, joined, Lexeme.byteLength_flatMap_blanked, splitAtByte?_append, Nat.add_sub_cancel_left]
  change (splitAtByte? (byteLength old) (old ++ right.flatMap Lexeme.text)).bind _ = _
  rw [splitAtByte?_append, joined]
  change some _ = some _
  rw [List.append_assoc]

/-- A place between two pieces of a statement, or a word of code between them, where other code may be
put: no comment in front of it would go on in what comes there. -/
structure Site (sql : List Char) (left : List Lexeme) (old : List Char) (right : List Lexeme) : Prop where
  lexemes_eq : lexemes sql = left ++ (old.map Lexeme.code ++ right)
  settled : ∀ piece, left.getLast? = some piece → piece.runsOn = false
  all_word : ∀ c ∈ old, isWord c = true

namespace Site

variable {sql old new : List Char} {left right : List Lexeme}

theorem eq_joined (h : Site sql left old right) : sql = joined left old right :=
  eq_joined_of_lexemes h.lexemes_eq

theorem count_closing (h : Site sql left old right) (hnew : ∀ c ∈ new, isClauseChar c = true) (quote : Quote) :
    (joined left new right).count quote.closing = sql.count quote.closing := by
  have hold : quote.closing ∉ old := by
    intro hmem
    have hword := h.all_word _ hmem
    rw [quote.isWord_closing] at hword
    cases hword
  have hclause : quote.closing ∉ new := by
    intro hmem
    have hother : isClauseChar quote.closing = false := by cases quote <;> rfl
    exact ne_of_isClauseChar (hnew _ hmem) hother rfl
  rw [h.eq_joined]
  simp only [joined, List.count_append, List.count_eq_zero.mpr hold, List.count_eq_zero.mpr hclause]

/-- Around the text that is put in, the pieces stay. -/
theorem lexemes_joined (h : Site sql left old right) (hnew : ∀ c ∈ new, isClauseChar c = true) (hne : new ≠ []) :
    lexemes (joined left new right) = left ++ (new.map Lexeme.code ++ right) := by
  induction left generalizing sql with
  | nil =>
      have hright : lexemes (right.flatMap Lexeme.text) = right := Lexeme.lexemes_of_eq_append h.lexemes_eq
      rw [joined, List.flatMap_nil, List.nil_append, List.nil_append,
        Lexeme.lexemes_plain_append fun c hc => isPlain_of_isClauseChar (hnew c hc), hright]
  | cons piece left ih =>
      obtain ⟨hreads, hlater⟩ := Lexeme.reads_of_lexemes_eq_cons h.lexemes_eq
      have hsite : Site ((left ++ (old.map Lexeme.code ++ right)).flatMap Lexeme.text) left old right := by
        refine ⟨hlater, fun last hlast => h.settled last ?_, h.all_word⟩
        rw [List.getLast?_cons, hlast]
        rfl
      have hhead : (joined left new right).head? =
            ((left ++ (old.map Lexeme.code ++ right)).flatMap Lexeme.text).head? ∨
          piece.runsOn = false ∧ ∃ c, (joined left new right).head? = some c ∧ isClauseChar c = true := by
        cases left with
        | nil =>
            obtain ⟨c, new, rfl⟩ := List.exists_cons_of_ne_nil hne
            exact Or.inr ⟨h.settled piece rfl, c, rfl, hnew c List.mem_cons_self⟩
        | cons first left =>
            left
            obtain ⟨c, text, htext⟩ := List.exists_cons_of_ne_nil first.text_ne_nil
            simp [joined, htext]
      have hwhole := (hreads.replace (hsite.count_closing hnew) hhead).lexemes_eq
      rw [ih hsite] at hwhole
      rw [show joined (piece :: left) new right = piece.text ++ joined left new right by simp [joined], hwhole]
      rfl

theorem of_edge (h : lexemes sql = left ++ right)
    (hedge : (∃ c, (right.flatMap Lexeme.blanked).head? = some c ∧ isWord c = true) ∨
      ∃ c, (left.flatMap Lexeme.blanked).getLast? = some c ∧ isBlank c = false) : Site sql left [] right := by
  refine ⟨h, fun piece hlast => ?_, by simp⟩
  obtain ⟨before, rfl⟩ := List.getLast?_eq_some_iff.mp hlast
  rw [List.append_assoc] at h
  refine Lexeme.runsOn_eq_false h (hedge.imp_right ?_)
  rintro ⟨c, hc, hblank⟩
  refine ⟨c, ?_, hblank⟩
  rwa [List.flatMap_append, List.flatMap_singleton, List.getLast?_append_of_ne_nil _ piece.blanked_ne_nil] at hc

/-- Next to a word of the outline code may be put. -/
theorem exists_of_isWord {front rest : List Char} (h : (Outline.of sql).text = front ++ rest)
    (hword : (∃ c, front.getLast? = some c ∧ isWord c = true) ∨ ∃ c, rest.head? = some c ∧ isWord c = true) :
    ∃ left right, Site sql left [] right ∧ left.flatMap Lexeme.blanked = front ∧
      right.flatMap Lexeme.blanked = rest := by
  rw [Outline.text_of] at h
  obtain ⟨left, right, hpieces, rfl, rfl⟩ := Lexeme.exists_edge_of_isWord h hword
  refine ⟨left, right, of_edge hpieces ?_, rfl, rfl⟩
  rcases hword with ⟨c, hc, hcWord⟩ | hnext
  · exact Or.inr ⟨c, hc, isBlank_eq_false_of_isWord hcWord⟩
  · exact Or.inl hnext

/-- After the last code of the outline but a semicolon, code may be put. -/
theorem exists_of_blank_rest {front rest : List Char} (h : (Outline.of sql).text = front ++ rest)
    (hfront : ∃ c, front.getLast? = some c ∧ isBlank c = false)
    (hrest : ∀ c ∈ rest, isBlank c = true ∨ c = ';') :
    ∃ left right, Site sql left [] right ∧ left.flatMap Lexeme.blanked = front ∧
      right.flatMap Lexeme.blanked = rest := by
  rw [Outline.text_of] at h
  obtain ⟨left, right, hpieces, rfl, rfl⟩ := Lexeme.exists_edge_of_blank_rest h hfront hrest
  exact ⟨left, right, of_edge hpieces (Or.inr hfront), rfl, rfl⟩

/-- In the place of word characters of the outline other code may be put. -/
theorem exists_of_word {front rest : List Char} (h : (Outline.of sql).text = front ++ (old ++ rest))
    (hne : old ≠ []) (hword : ∀ c ∈ old, isWord c = true) :
    ∃ left right, Site sql left old right ∧ left.flatMap Lexeme.blanked = front ∧
      right.flatMap Lexeme.blanked = rest := by
  have hhead : ∃ c, (old ++ rest).head? = some c ∧ isWord c = true := by
    refine ⟨old.head hne, ?_, hword _ (List.head_mem hne)⟩
    rw [List.head?_append, List.head?_eq_some_head hne]
    rfl
  obtain ⟨left, later, hsite, hleft, hlater⟩ := exists_of_isWord h (Or.inr hhead)
  obtain ⟨middle, right, rfl, hmiddle, hright⟩ := Lexeme.exists_edge_of_isWord hlater
    (Or.inl ⟨old.getLast hne, List.getLast?_eq_some_getLast hne, hword _ (List.getLast_mem hne)⟩)
  have hcode : middle = old.map Lexeme.code := by
    rw [← hmiddle]
    exact Lexeme.eq_map_code_of_blanked fun c hc => hword c (hmiddle ▸ hc)
  refine ⟨left, right, ⟨?_, hsite.settled, hword⟩, hleft, hright⟩
  rw [← hcode]
  exact hsite.lexemes_eq

theorem outline_eq (h : Site sql left old right) :
    (Outline.of sql).text = left.flatMap Lexeme.blanked ++ (old ++ right.flatMap Lexeme.blanked) := by
  rw [Outline.text_of, h.lexemes_eq, List.flatMap_append, List.flatMap_append]
  rw [Lexeme.flatMap_blanked_code]

theorem outline_joined (h : Site sql left old right) (hnew : ∀ c ∈ new, isClauseChar c = true) (hne : new ≠ []) :
    (Outline.of (joined left new right)).text =
      left.flatMap Lexeme.blanked ++ (new ++ right.flatMap Lexeme.blanked) := by
  rw [Outline.text_of, h.lexemes_joined hnew hne, List.flatMap_append, List.flatMap_append,
    Lexeme.flatMap_blanked_code]

/-- An edit at these places does not cut a character. -/
theorem appliedTo? (h : Site sql left old right) {start stop : Nat}
    (hstart : start = byteLength (left.flatMap Lexeme.blanked)) (hstop : stop = start + byteLength old) :
    Edit.appliedTo? ⟨start, stop, new⟩ sql = some (joined left new right) := by
  rw [hstop, hstart, h.eq_joined]
  exact appliedTo?_joined left right old new

end Site

end SqlGate
