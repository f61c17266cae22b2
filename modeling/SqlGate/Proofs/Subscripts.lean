import SqlGate.Proofs.NormalTwice
import SqlGate.Proofs.PostgresComments
import SqlGate.Proofs.RereadSlots

/-! What the outline shows of a statement to Postgres, where a square bracket is a subscript and no quote. The outline
hides what stands between two brackets, and a span of it may go on behind the bracket that closes the subscript: two
closing brackets in a row do not end it. A word behind such a subscript is hidden then, or one is shown inside
parentheses whose end is hidden. -/

namespace SqlGate

open Unicode

namespace Lexeme

def isBracketed : Lexeme → Bool
  | .quoted .bracket _ => true
  | _ => false

theorem exists_of_isBracketed {piece : Lexeme} (h : piece.isBracketed = true) :
    ∃ body, piece = quoted .bracket body := by
  cases piece with
  | quoted quote body =>
      cases quote with
      | bracket => exact ⟨body, rfl⟩
      | single => cases h
      | double => cases h
      | backtick => cases h
  | code c => cases h
  | block body closed => cases h
  | line body => cases h

/-- What the outline shows of a piece where square brackets are code. -/
def opened (piece : Lexeme) : List Char :=
  if piece.isBracketed then piece.text else piece.blanked

end Lexeme

namespace Subscript

/-- The first piece of the text `c :: rest` where square brackets are code, and what follows it. -/
def first (c : Char) (rest : List Char) : Lexeme × List Char :=
  if c = '[' then (.code c, rest) else Lexeme.first c rest

theorem length_first_lt (c : Char) (rest : List Char) : (first c rest).2.length < rest.length + 1 := by
  rw [first]
  split
  · exact Nat.lt_succ_self _
  · exact Lexeme.length_first_lt c rest

/-- The pieces of a statement where square brackets are code. -/
def pieces : List Char → List Lexeme
  | [] => []
  | c :: rest => (first c rest).1 :: pieces (first c rest).2
termination_by text => text.length
decreasing_by exact length_first_lt c rest

/-- The text of a statement with comments and the bodies of quoted spans as spaces where square brackets are code. -/
def outline (sql : List Char) : List Char :=
  (pieces sql).flatMap Lexeme.blanked

end Subscript

/-- The characters `opening` that no `closing` matches, after a text in front of which there are `count`. -/
def unmatched (opening closing : Char) (count : Nat) (text : List Char) : Nat :=
  text.foldl (fun count c => if c = opening then count + 1 else if c = closing then count - 1 else count) count

/-- A word of a clause that limits the rows or pages through them, outside all parentheses and all pairs of brackets:
no bracket in front of it is matched by one behind it. -/
structure ClauseWordAt (text front word rest : List Char) : Prop where
  wordAt : WordAt text front word rest
  spelled : SpelledAny limitWords word
  depth_eq_zero : depthBetween front (word ++ rest) = 0
  unmatched_eq_zero : unmatched '[' ']' 0 front = 0 ∨ unmatched ']' '[' 0 (word ++ rest).reverse = 0

/-- Whether a word stands in the outline of a statement at a byte. -/
def ShowsWord (sql word : List Char) (place : Nat) : Prop :=
  ∃ front rest, WordAt (Outline.of sql).text front word rest ∧ byteLength front = place

/-- Whether a word stands in the outline of a statement at a byte and outside all parentheses. -/
def ShowsTopWord (sql word : List Char) (place : Nat) : Prop :=
  ∃ front rest, WordAt (Outline.of sql).text front word rest ∧ byteLength front = place ∧
    depthBetween front (word ++ rest) = 0

/-- Whether a bracketed span begins in front of a place and ends behind it. -/
def SpansOver (sql : List Char) (place : Nat) : Prop :=
  ∃ front piece later, lexemes sql = front ++ piece :: later ∧ piece.isBracketed = true ∧
    byteLength (front.flatMap Lexeme.text) < place ∧
    place < byteLength (front.flatMap Lexeme.text) + byteLength piece.text

/-- Whether the bracketed spans in front of a place close no parenthesis that they do not open: each holds as many that
open as that close, or more. -/
def SpansClosed (sql : List Char) (place : Nat) : Prop :=
  ∀ front piece later, lexemes sql = front ++ piece :: later → piece.isBracketed = true →
    byteLength (front.flatMap Lexeme.text) + byteLength piece.text ≤ place →
    piece.text.count ')' ≤ piece.text.count '('

theorem spansClosed_of_all {sql : List Char}
    (h : (lexemes sql).all fun piece => !piece.isBracketed || piece.text.count ')' ≤ piece.text.count '(')
    (place : Nat) : SpansClosed sql place := by
  intro front piece later hsql hbracket _
  have hpiece := List.all_eq_true.mp h piece (by rw [hsql]; simp)
  rw [hbracket, Bool.not_true, Bool.false_or, decide_eq_true_eq] at hpiece
  exact hpiece

namespace Subscript

/-- Characters that open nothing but brackets are read one by one. -/
theorem pieces_append {run rest : List Char}
    (hrun : ∀ left c right, run = left ++ c :: right →
      (Quote.ofOpening? c = none ∨ c = '[') ∧ ¬Lexeme.OpensComment c (right ++ rest)) :
    pieces (run ++ rest) = run.map .code ++ pieces rest := by
  induction run with
  | nil => rfl
  | cons c run ih =>
      have hfirst : first c (run ++ rest) = (.code c, run ++ rest) := by
        obtain ⟨hquote, hcomment⟩ := hrun [] c run rfl
        rw [first]
        split
        · rfl
        · next hbracket => exact Lexeme.first_of_comment_free (hquote.resolve_right hbracket) hcomment
      have hlater := ih fun left d right hcut => hrun (c :: left) d right (by rw [hcut]; rfl)
      rw [List.cons_append, pieces, hfirst, hlater]
      rfl

theorem outline_bracket_append {body rest : List Char} (hhazard : (Lexeme.quoted .bracket body).hazard? = none) :
    outline ((Lexeme.quoted .bracket body).text ++ rest) = (Lexeme.quoted .bracket body).text ++ outline rest := by
  obtain ⟨hquotes, hdashes, hslash⟩ := Lexeme.hazard?_bracket_eq_none_iff.mp hhazard
  have hrun : pieces ((Lexeme.quoted .bracket body).text ++ rest) =
      (Lexeme.quoted .bracket body).text.map .code ++ pieces rest :=
    pieces_append fun _ _ _ hcut => Postgres.opens_nothing_of_bracket hquotes hdashes hslash hcut
  rw [outline, hrun, List.flatMap_append, Lexeme.flatMap_blanked_code, outline]

/-- A piece that is no bracketed span is read the same where square brackets are code. -/
theorem first_of_reads {c : Char} {rest after : List Char} {piece : Lexeme}
    (h : Lexeme.Reads (c :: rest) piece after) (hbracket : piece.isBracketed = false) : first c rest = (piece, after) := by
  rw [first]
  split
  · next hopen =>
      subst hopen
      generalize htext : '[' :: rest = text at h
      cases h with
      | plain hquote =>
          obtain ⟨rfl, -⟩ := List.cons.inj htext
          exact absurd hquote (by decide)
      | unmatched quote =>
          obtain ⟨hquote, rfl⟩ := List.cons.inj htext
          rw [hquote]
      | quoted quote =>
          obtain ⟨hquote, -⟩ := List.cons.inj htext
          cases quote with
          | bracket => cases hbracket
          | single => cases hquote
          | double => cases hquote
          | backtick => cases hquote
      | closedBlock => cases htext
      | openBlock => cases htext
      | line => cases htext
  · exact Lexeme.first_of_reads h

theorem outline_of_reads {text rest : List Char} {piece : Lexeme} (h : Lexeme.Reads text piece rest)
    (hbracket : piece.isBracketed = false) : outline text = piece.blanked ++ outline rest := by
  cases text with
  | nil => cases h
  | cons c text => rw [outline, pieces, first_of_reads h hbracket, List.flatMap_cons, outline]

/-- Where no bracketed span is a hazard, the brackets are all that is read otherwise. -/
theorem outline_eq {sql : List Char}
    (hhazard : ∀ piece ∈ lexemes sql, piece.isBracketed = true → piece.hazard? = none) :
    outline sql = (lexemes sql).flatMap Lexeme.opened := by
  generalize hsql : lexemes sql = whole at hhazard
  induction whole generalizing sql with
  | nil =>
      rw [← flatMap_text_lexemes sql, hsql, outline, List.flatMap_nil, pieces]
      rfl
  | cons piece later ih =>
      obtain ⟨hreads, hlater⟩ := Lexeme.reads_of_lexemes_eq_cons hsql
      rw [List.forall_mem_cons] at hhazard
      rw [List.flatMap_cons, Lexeme.opened, ← ih hlater hhazard.2]
      cases hbracket : piece.isBracketed with
      | false => exact outline_of_reads hreads hbracket
      | true =>
          rw [if_pos rfl, ← flatMap_text_lexemes sql, hsql, List.flatMap_cons]
          obtain ⟨body, rfl⟩ := Lexeme.exists_of_isBracketed hbracket
          exact outline_bracket_append (hhazard.1 hbracket)

end Subscript

namespace Lexeme

variable {pieces : List Lexeme}

theorem byteLength_opened (piece : Lexeme) : byteLength piece.opened = byteLength piece.text := by
  rw [opened]
  split
  · rfl
  · exact piece.byteLength_blanked

theorem byteLength_flatMap_opened (pieces : List Lexeme) :
    byteLength (pieces.flatMap opened) = byteLength (pieces.flatMap text) := by
  induction pieces with
  | nil => rfl
  | cons piece pieces ih =>
      rw [List.flatMap_cons, List.flatMap_cons, byteLength_append, byteLength_append, ih, byteLength_opened]

theorem head_opened (piece : Lexeme) : piece.opened.head? = piece.blanked.head? := by
  rw [opened]
  split
  · next hbracket =>
      obtain ⟨body, rfl⟩ := exists_of_isBracketed hbracket
      rfl
  · rfl

theorem getLast_opened (piece : Lexeme) : piece.opened.getLast? = piece.blanked.getLast? := by
  rw [opened]
  split
  · next hbracket =>
      obtain ⟨body, rfl⟩ := exists_of_isBracketed hbracket
      exact getLast_text_eq rfl
  · rfl

theorem opened_ne_nil (piece : Lexeme) : piece.opened ≠ [] := by
  intro h
  have hhead := piece.head_opened
  rw [h, List.head?_nil] at hhead
  exact piece.blanked_ne_nil (List.head?_eq_none_iff.mp hhead.symm)

theorem head_flatMap_opened (pieces : List Lexeme) :
    (pieces.flatMap opened).head? = (pieces.flatMap blanked).head? := by
  cases pieces with
  | nil => rfl
  | cons piece pieces =>
      rw [List.flatMap_cons, List.flatMap_cons, List.head?_append_of_ne_nil _ piece.opened_ne_nil,
        List.head?_append_of_ne_nil _ piece.blanked_ne_nil, head_opened]

theorem getLast_flatMap_opened (pieces : List Lexeme) :
    (pieces.flatMap opened).getLast? = (pieces.flatMap blanked).getLast? := by
  rcases pieces.eq_nil_or_concat' with rfl | ⟨front, piece, rfl⟩
  · rfl
  · rw [List.flatMap_append, List.flatMap_append, List.flatMap_singleton, List.flatMap_singleton,
      List.getLast?_append_of_ne_nil _ piece.opened_ne_nil, List.getLast?_append_of_ne_nil _ piece.blanked_ne_nil,
      getLast_opened]

/-- A word that is shown where square brackets are code, from the edge of a piece on, is code. -/
theorem exists_eq_map_code_of_opened {word rest : List Char} (hword : ∀ c ∈ word, isWord c = true)
    (h : pieces.flatMap opened = word ++ rest) :
    ∃ later, pieces = word.map code ++ later ∧ later.flatMap opened = rest := by
  induction word generalizing pieces with
  | nil => exact ⟨pieces, rfl, h⟩
  | cons c word ih =>
      rw [List.forall_mem_cons] at hword
      have hhead : (pieces.flatMap blanked).head? = some c := by
        rw [← head_flatMap_opened, h]
        rfl
      obtain ⟨later, rfl⟩ := exists_eq_code_cons (showsCode_of_isWord hword.1) hhead
      obtain ⟨tail, rfl, htail⟩ := ih hword.2 (List.cons.inj h).2
      exact ⟨tail, rfl, htail⟩

/-- The edge of a piece does not go through another one. -/
theorem edge_cases {left right front later : List Lexeme} {piece : Lexeme}
    (h : left ++ right = front ++ piece :: later) :
    byteLength (left.flatMap text) ≤ byteLength (front.flatMap text) ∨
      byteLength (front.flatMap text) + byteLength piece.text ≤ byteLength (left.flatMap text) := by
  rcases List.append_eq_append_iff.mp h with ⟨gap, hfront, -⟩ | ⟨gap, hleft, hgap⟩
  · left
    rw [hfront, List.flatMap_append, byteLength_append]
    exact Nat.le_add_right _ _
  · cases gap with
    | nil =>
        left
        rw [hleft, List.append_nil]
    | cons other gap =>
        obtain ⟨rfl, -⟩ := List.cons.inj hgap
        right
        rw [hleft, List.flatMap_append, List.flatMap_cons, byteLength_append, byteLength_append]
        omega

end Lexeme

section Depth

variable {depth other : Nat} {text : List Char} {pieces : List Lexeme} {piece : Lexeme}

theorem openAfter_mono (h : depth ≤ other) (text : List Char) : openAfter depth text ≤ openAfter other text := by
  induction text generalizing depth other with
  | nil => exact h
  | cons c text ih =>
      rw [openAfter, openAfter, List.foldl_cons, List.foldl_cons]
      refine ih ?_
      split
      · exact Nat.succ_le_succ h
      · split
        · exact Nat.sub_le_sub_right h 1
        · exact h

theorem add_count_le_openAfter (depth : Nat) (text : List Char) :
    depth + text.count '(' ≤ openAfter depth text + text.count ')' := by
  induction text generalizing depth with
  | nil => exact Nat.le_refl _
  | cons c text ih =>
      rw [openAfter, List.foldl_cons, ← openAfter]
      by_cases hopen : c = '('
      · subst hopen
        have hlater := ih (depth + 1)
        rw [if_pos rfl, List.count_cons_self, List.count_cons_of_ne (by decide)]
        omega
      · by_cases hclose : c = ')'
        · subst hclose
          have hlater := ih (depth - 1)
          rw [if_neg (by decide), if_pos rfl, List.count_cons_self, List.count_cons_of_ne (by decide)]
          omega
        · rw [if_neg hopen, if_neg hclose, List.count_cons_of_ne hopen, List.count_cons_of_ne hclose]
          exact ih depth

theorem le_openAfter (h : text.count ')' ≤ text.count '(') (depth : Nat) : depth ≤ openAfter depth text := by
  have := add_count_le_openAfter depth text
  omega

theorem openAfter_blanked_le (hle : depth ≤ other)
    (hclosed : piece.isBracketed = true → piece.text.count ')' ≤ piece.text.count '(') :
    openAfter depth piece.blanked ≤ openAfter other piece.opened := by
  rw [Lexeme.opened]
  split
  · next hbracket =>
      have hsame : openAfter depth piece.blanked = depth := by
        obtain ⟨body, rfl⟩ := Lexeme.exists_of_isBracketed hbracket
        exact Lexeme.openAfter_blanked depth _
      calc openAfter depth piece.blanked = depth := hsame
        _ ≤ other := hle
        _ ≤ openAfter other piece.text := le_openAfter (hclosed hbracket) other
  · exact openAfter_mono hle _

/-- Hiding bracketed spans that close nothing leaves no more parentheses open. -/
theorem openAfter_flatMap_blanked_le (hle : depth ≤ other)
    (hclosed : ∀ piece ∈ pieces, piece.isBracketed = true → piece.text.count ')' ≤ piece.text.count '(') :
    openAfter depth (pieces.flatMap Lexeme.blanked) ≤ openAfter other (pieces.flatMap Lexeme.opened) := by
  induction pieces generalizing depth other with
  | nil => exact hle
  | cons piece pieces ih =>
      rw [List.forall_mem_cons] at hclosed
      rw [List.flatMap_cons, List.flatMap_cons, openAfter_append, openAfter_append]
      exact ih (openAfter_blanked_le hle hclosed.1) hclosed.2

end Depth

section Words

variable {sql front word rest : List Char} {place : Nat}

theorem WordAt.depthBetween_eq {text : List Char} (h : WordAt text front word rest) :
    depthBetween front (word ++ rest) = openAfter 0 front := by
  obtain ⟨c, hc, hword⟩ := h.head_eq h.eq_append
  obtain ⟨tail, htail⟩ := List.head?_eq_some_iff.mp hc
  rw [htail, depthBetween, if_neg]
  rintro rfl
  exact absurd hword (by decide)

theorem not_spansOver_of_edge {left right : List Lexeme} (h : lexemes sql = left ++ right) :
    ¬SpansOver sql (byteLength (left.flatMap Lexeme.text)) := by
  rintro ⟨front, piece, later, hsql, -, hlt, hgt⟩
  rcases Lexeme.edge_cases (h.symm.trans hsql) with hle | hle
  · omega
  · omega

theorem ShowsWord.not_spansOver (h : ShowsWord sql word place) : ¬SpansOver sql place := by
  obtain ⟨front, rest, hat, rfl⟩ := h
  obtain ⟨left, right, hsql, hleft, -⟩ := Lexeme.exists_edge_of_isWord
    ((Outline.text_of sql).symm.trans hat.eq_append) (Or.inr (hat.head_eq hat.eq_append))
  rw [← hleft, Lexeme.byteLength_flatMap_blanked]
  exact not_spansOver_of_edge hsql

/-- A statement that Postgres reads no otherwise has no bracketed span that is a hazard. -/
theorem hazard?_bracket_eq_none (hhazard : (Outline.of sql).hazardFor? .postgres = none) {piece : Lexeme}
    (hmem : piece ∈ lexemes sql) (hbracket : piece.isBracketed = true) : piece.hazard? = none := by
  obtain ⟨front, later, hsql⟩ := List.append_of_mem hmem
  obtain ⟨body, rfl⟩ := Lexeme.exists_of_isBracketed hbracket
  by_contra hsome
  have hkind : (Lexeme.quoted .bracket body).hazard? = some .bracketQuoting := by
    rw [Lexeme.hazard?] at hsome ⊢
    split at hsome
    · next hquoting => rw [if_pos hquoting]
    · exact absurd rfl hsome
  have hskipped := List.findSome?_eq_none_iff.mp hhazard _
    (Outline.mem_hazards_of_iff.mpr (Or.inl ⟨front, _, later, hsql, hkind, rfl⟩))
  cases hskipped

/-- A word of the code that no bracketed span goes on over begins at the edge of a piece. -/
theorem exists_edge_of_not_spansOver (hhazard : (Outline.of sql).hazardFor? .postgres = none)
    (hat : WordAt (Subscript.outline sql) front word rest) (hspans : ¬SpansOver sql (byteLength front)) :
    ∃ left later, lexemes sql = left ++ (word.map .code ++ later) ∧ left.flatMap Lexeme.opened = front ∧
      later.flatMap Lexeme.opened = rest := by
  have htext := (Subscript.outline_eq fun _ hmem => hazard?_bracket_eq_none hhazard hmem).symm.trans hat.eq_append
  rcases Lexeme.exists_cut_of_flatMap htext with
    ⟨left, right, hsql, hleft, hright⟩ | ⟨left, piece, right, head, tail, hsql, hpiece, hhead, htail, hfront, hrest⟩
  · obtain ⟨later, rfl, hlater⟩ := Lexeme.exists_eq_map_code_of_opened hat.all_word hright
    exact ⟨left, later, hsql, hleft, hlater⟩
  · exfalso
    by_cases hbracket : piece.isBracketed = true
    · -- The span begins with its bracket, and something of it is left behind the cut.
      refine hspans ⟨left, piece, right, hsql, hbracket, ?_, ?_⟩
      · rw [hfront, byteLength_append, Lexeme.byteLength_flatMap_opened]
        exact Nat.lt_add_of_pos_right (byteLength_pos hhead)
      · rw [hfront, byteLength_append, Lexeme.byteLength_flatMap_opened, ← piece.byteLength_opened, hpiece,
          byteLength_append]
        have := byteLength_pos htail
        omega
    · rw [Lexeme.opened, if_neg hbracket] at hpiece
      obtain ⟨c, hc, hword⟩ := hat.head_eq hat.eq_append
      rw [hrest, List.head?_append_of_ne_nil _ htail] at hc
      have hmem := List.mem_append_right head (List.mem_of_head? hc)
      rw [Lexeme.isWord_blanked hpiece hhead htail c hmem] at hword
      cases hword

/-- Where no bracketed span goes on over a word of the code, the outline shows it in its place. -/
theorem exists_wordAt_of_not_spansOver (hhazard : (Outline.of sql).hazardFor? .postgres = none)
    (hat : WordAt (Subscript.outline sql) front word rest) (hspans : ¬SpansOver sql (byteLength front)) :
    ∃ left later, lexemes sql = left ++ later ∧ left.flatMap Lexeme.opened = front ∧
      ∃ after, WordAt (Outline.of sql).text (left.flatMap Lexeme.blanked) word after := by
  obtain ⟨left, later, hsql, hleft, hlater⟩ := exists_edge_of_not_spansOver hhazard hat hspans
  refine ⟨left, _, hsql, hleft, later.flatMap Lexeme.blanked, ?_, hat.ne_nil, hat.all_word, ?_, ?_⟩
  · rw [Outline.text_of, hsql, List.flatMap_append, List.flatMap_append, Lexeme.flatMap_blanked_code]
  · intro c hc
    rw [← Lexeme.getLast_flatMap_opened, hleft] at hc
    exact hat.opens c hc
  · intro c hc
    rw [← Lexeme.head_flatMap_opened, hlater] at hc
    exact hat.closes c hc

theorem showsWord_iff (hhazard : (Outline.of sql).hazardFor? .postgres = none)
    (hat : WordAt (Subscript.outline sql) front word rest) :
    ShowsWord sql word (byteLength front) ↔ ¬SpansOver sql (byteLength front) := by
  refine ⟨ShowsWord.not_spansOver, fun hspans => ?_⟩
  obtain ⟨left, later, hsql, rfl, after, hafter⟩ := exists_wordAt_of_not_spansOver hhazard hat hspans
  exact ⟨_, after, hafter, by rw [Lexeme.byteLength_flatMap_blanked, Lexeme.byteLength_flatMap_opened]⟩

/-- A word outside all parentheses of the code is outside those of the outline, where no bracketed span in front of it
closes one. -/
theorem showsTopWord_of_spansClosed (hhazard : (Outline.of sql).hazardFor? .postgres = none)
    (hat : WordAt (Subscript.outline sql) front word rest) (hdepth : depthBetween front (word ++ rest) = 0)
    (hspans : ¬SpansOver sql (byteLength front)) (hclosed : SpansClosed sql (byteLength front)) :
    ShowsTopWord sql word (byteLength front) := by
  obtain ⟨left, later, hsql, rfl, after, hafter⟩ := exists_wordAt_of_not_spansOver hhazard hat hspans
  refine ⟨_, after, hafter, by rw [Lexeme.byteLength_flatMap_blanked, Lexeme.byteLength_flatMap_opened], ?_⟩
  rw [hat.depthBetween_eq] at hdepth
  rw [hafter.depthBetween_eq]
  have hpieces : ∀ piece ∈ left, piece.isBracketed = true → piece.text.count ')' ≤ piece.text.count '(' := by
    intro piece hmem hbracket
    obtain ⟨before, between, rfl⟩ := List.append_of_mem hmem
    refine hclosed before piece (between ++ later) (by rw [hsql]; simp) hbracket ?_
    rw [Lexeme.byteLength_flatMap_opened, List.flatMap_append, List.flatMap_cons, byteLength_append, byteLength_append]
    omega
  have hle := openAfter_flatMap_blanked_le (Nat.le_refl 0) hpieces
  rw [hdepth] at hle
  exact Nat.le_zero.mp hle

end Words

end SqlGate
