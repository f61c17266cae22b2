import SqlGate.Proofs.EngineReading
import SqlGate.Proofs.PostgresComments
import SqlGate.Proofs.Shown

/-! What the normal form leaves out and SQL Server reads. SQL Server takes a statement to the same pieces as
standard SQL up to the first hazard, or up to a quoted span that it finds no end of. So each comment that is left
out is nothing that it runs, and the words and semicolons that it runs are all in the normal form. -/

namespace SqlGate.SqlServer

open Unicode Engine
open Lexeme (OpensComment)

/-- The first piece of the text `c :: rest`, and what follows it. A closing delimiter that is written twice stands
for itself, in each of the four ways to quote; block comments nest. -/
def first (c : Char) (rest : List Char) : Piece × List Char :=
  match Quote.ofOpening? c with
  | some quote =>
    match Postgres.closeQuoted? false quote.closing [] rest with
    | some (body, rest) => (.quoted quote body.reverse, rest)
    | none => (.openQuoted quote rest, [])
  | none =>
    match c, rest with
    | '/', '*' :: rest =>
      let (body, closed, rest) := Postgres.closeBlock 0 [] rest
      (.block body.reverse closed, rest)
    | '-', '-' :: rest =>
      (.line .dashes (rest.takeWhile fun c => !Lexeme.endsLine c), rest.dropWhile fun c => !Lexeme.endsLine c)
    | _, rest => (.code c, rest)

theorem text_first (c : Char) (rest : List Char) : (first c rest).1.text ++ (first c rest).2 = c :: rest := by
  unfold first
  split
  · next quote hquote =>
      have hopen := Quote.opening_of_ofOpening? hquote
      split
      · next body after hclose =>
          have whole := Postgres.append_of_closeQuoted? hclose
          simpa [Piece.text, hopen] using whole
      · simp [Piece.text, hopen]
  · split
    · next after _ =>
        have whole := Postgres.append_of_closeBlock (Eq.refl (Postgres.closeBlock 0 [] after))
        simpa [Piece.text] using whole
    · simp [Piece.text, LineMark.text]
    · rfl

/-- SQL Server keeps nothing in mind from one piece to the next. -/
def reading : Reading where
  State := Unit
  start := ()
  first _ c rest := ((first c rest).1, (), (first c rest).2)
  text_first _ := text_first

theorem piecesFrom_of_first {c : Char} {rest after : List Char} {piece : Piece} (h : first c rest = (piece, after)) :
    reading.piecesFrom () (c :: rest) = piece :: reading.piecesFrom () after := by
  apply Reading.piecesFrom_of_first
  show ((first c rest).1, (), (first c rest).2) = (piece, (), after)
  rw [h]

/-- A piece of standard SQL as one of SQL Server. -/
def asRead : Lexeme → Piece
  | .code c => .code c
  | .quoted quote body => .quoted quote body
  | .block body closed => .block body closed
  | .line body => .line .dashes body

theorem text_asRead (piece : Lexeme) : (asRead piece).text = piece.text := by
  cases piece with
  | code c => rfl
  | quoted quote body => rfl
  | block body closed => rfl
  | line body => rfl

theorem flatMap_text_asRead (pieces : List Lexeme) :
    (pieces.map asRead).flatMap Piece.text = pieces.flatMap Lexeme.text := by
  rw [List.flatMap_map]
  simp only [text_asRead]

theorem isDead_asRead (piece : Lexeme) : (asRead piece).isDead = piece.isComment := by
  cases piece with
  | code c => rfl
  | quoted quote body => rfl
  | block body closed => rfl
  | line body => rfl

section Steps

variable {text rest body : List Char} {c : Char} {piece : Lexeme}

theorem first_code (hquote : Quote.ofOpening? c = none) (hcomment : ¬OpensComment c rest) :
    first c rest = (.code c, rest) := by
  unfold first
  rw [hquote]
  dsimp only
  split
  · exact absurd (Or.inl ⟨rfl, rfl⟩) hcomment
  · exact absurd (Or.inr ⟨rfl, rfl⟩) hcomment
  · rfl

theorem first_of_quote (quote : Quote) (rest : List Char) : first quote.opening rest =
    match Postgres.closeQuoted? false quote.closing [] rest with
    | some (body, rest) => (.quoted quote body.reverse, rest)
    | none => (.openQuoted quote rest, []) := by
  unfold first
  rw [Quote.ofOpening?_opening]

/-- A piece that is no hazard is the same piece for SQL Server, unless a quoted span begins with it that never
closes. -/
theorem first_of_reads (hreads : Lexeme.Reads (c :: text) piece rest) (hhazard : piece.hazard? = none) :
    first c text = (asRead piece, rest) ∨
      ∃ quote : Quote, quote.opening = c ∧ piece.isComment = false ∧ first c text = (.openQuoted quote text, []) := by
  generalize hwhole : c :: text = whole at hreads
  cases hreads with
  | plain hquote hcomment =>
      obtain ⟨rfl, rfl⟩ := List.cons.inj hwhole
      exact Or.inl (first_code hquote hcomment)
  | unmatched quote hclose =>
      obtain ⟨rfl, rfl⟩ := List.cons.inj hwhole
      refine Or.inr ⟨quote, rfl, rfl, ?_⟩
      rw [first_of_quote, Postgres.closeQuoted?_of_notMem hclose]
  | @quoted quote body rest hclose =>
      obtain ⟨rfl, rfl⟩ := List.cons.inj hwhole
      obtain ⟨hbody, halone | ⟨after, rfl, hafter⟩⟩ := hclose
      · left
        rw [first_of_quote, Postgres.closeQuoted?_of_alone hbody halone (absurd · Bool.false_ne_true)]
        simp [asRead]
      · refine Or.inr ⟨quote, rfl, rfl, ?_⟩
        rw [first_of_quote, Postgres.closeQuoted?_of_last_pair hbody hafter (absurd · Bool.false_ne_true)]
  | @closedBlock body rest hend =>
      obtain ⟨rfl, rfl⟩ := List.cons.inj hwhole
      have hnested : hasPair '/' '*' (body ++ ['*', '/']) = false := (Lexeme.hazard?_block_eq_none_iff.mp hhazard).2
      left
      simp [first, show Quote.ofOpening? '/' = none from rfl, Postgres.closeBlock_append hend hnested, asRead]
  | @openBlock body hend =>
      obtain ⟨rfl, rfl⟩ := List.cons.inj hwhole
      have hnested : hasPair '/' '*' body = false := (Lexeme.hazard?_block_eq_none_iff.mp hhazard).2
      left
      simp [first, show Quote.ofOpening? '/' = none from rfl, Postgres.closeBlock_of_open hend hnested, asRead]
  | @line body rest hbody hrest =>
      obtain ⟨rfl, rfl⟩ := List.cons.inj hwhole
      obtain ⟨htake, hdrop⟩ := Lexeme.takeWhile_append_of_stop (p := fun c => !Lexeme.endsLine c)
        (fun c hc => by rw [hbody c hc, Bool.not_false]) (fun c hc => by rw [hrest c hc, Bool.not_true])
      left
      simp only [first, show Quote.ofOpening? '-' = none from rfl, htake, hdrop, asRead]

end Steps

/-- Along pieces that are no hazards both readings go in step, up to a quoted span that never closes. -/
theorem piecesFrom_of_lexemes {front later : List Lexeme} {text : List Char} (htext : lexemes text = front ++ later)
    (hquiet : ∀ piece ∈ front, piece.hazard? = none) :
    reading.piecesFrom () text = front.map asRead ++ reading.piecesFrom () (later.flatMap Lexeme.text) ∨
      ∃ left piece right, ∃ quote : Quote, ∃ body, front = left ++ piece :: right ∧ piece.isComment = false ∧
        piece.text.head? = some quote.opening ∧
        reading.piecesFrom () text = left.map asRead ++ [.openQuoted quote body] := by
  induction front generalizing text with
  | nil =>
      left
      rw [List.nil_append] at htext
      rw [← htext, flatMap_text_lexemes]
      rfl
  | cons piece front ih =>
      obtain ⟨hreads, hlater⟩ := Lexeme.reads_of_lexemes_eq_cons htext
      generalize (front ++ later).flatMap Lexeme.text = rest at hreads hlater
      cases text with
      | nil => cases hreads
      | cons c text =>
          rcases first_of_reads hreads (hquiet piece List.mem_cons_self) with hfirst | ⟨quote, hopen, hcode, hfirst⟩
          · rw [piecesFrom_of_first hfirst]
            rcases ih hlater fun other hother => hquiet other (List.mem_cons_of_mem piece hother) with
              hrest | ⟨left, inner, right, quote, body, hfront, hcode, hopen, hrest⟩
            · exact Or.inl (by rw [hrest]; rfl)
            · refine Or.inr ⟨piece :: left, inner, right, quote, body, ?_, hcode, hopen, ?_⟩
              · rw [hfront]
                rfl
              · rw [hrest]
                rfl
          · refine Or.inr ⟨[], piece, front, quote, text, rfl, hcode, ?_, ?_⟩
            · have hhead := congrArg List.head? hreads.text_append
              rw [List.head?_append_of_ne_nil _ piece.text_ne_nil] at hhead
              rw [hhead, hopen]
              rfl
            · rw [piecesFrom_of_first hfirst, @Reading.piecesFrom_nil reading ()]
              rfl

section Dead

variable {sql : List Char}

/-- A comment that is left out is a comment for SQL Server too, or it stands in a quoted span that never closes. -/
theorem deadBetween_of_stripped {place : Nat} {comment : Lexeme} (h : (place, comment) ∈ strippedComments sql) :
    reading.DeadBetween sql place (place + byteLength comment.text) := by
  obtain ⟨trusted, later, hsql, hquiet, -, hstripped⟩ := exists_trusted sql
  obtain ⟨hcomment, left, right, rfl, rfl⟩ := hstripped place comment h
  have hcut : lexemes sql = (left ++ [comment]) ++ (right ++ later) := by
    rw [hsql]
    simp
  have hnone : ∀ piece ∈ left ++ [comment], piece.hazard? = none := by
    intro piece hmem
    apply hquiet
    simp only [List.mem_append, List.mem_cons, List.not_mem_nil, or_false] at hmem ⊢
    exact hmem.imp_right Or.inl
  rcases piecesFrom_of_lexemes hcut hnone with hpieces | ⟨before, piece, after, quote, body, hbefore, hcode, -, hpieces⟩
  · refine ⟨left.map asRead, asRead comment, reading.piecesFrom () ((right ++ later).flatMap Lexeme.text), ?_,
      (isDead_asRead comment).trans hcomment, ?_, ?_⟩
    · show reading.piecesFrom () sql = _
      rw [hpieces, List.map_append, List.append_assoc]
      rfl
    · rw [flatMap_text_asRead]
    · rw [flatMap_text_asRead, text_asRead]
  · -- The comment comes behind the piece that the span begins with, and the span runs to the end.
    have hbehind : byteLength (before.flatMap Lexeme.text) ≤ byteLength (left.flatMap Lexeme.text) := by
      rcases cut_of_append hbefore with ⟨gap, rfl, -⟩ | ⟨gap, -, hgap⟩
      · rw [List.flatMap_append, byteLength_append]
        exact Nat.le_add_right _ _
      · cases gap with
        | nil =>
            obtain ⟨rfl, -⟩ := List.cons.inj hgap
            rw [hcode] at hcomment
            cases hcomment
        | cons first gap => exact absurd (List.cons.inj hgap).2 (by simp)
    have hread : reading.ReadTo sql (before.map asRead ++ [.openQuoted quote body]) () [] := by
      show reading.piecesFrom () sql = _
      rw [hpieces, @Reading.piecesFrom_nil reading (), List.append_nil]
    refine (hread.deadBetween_end rfl).mono ?_ ?_
    · rwa [flatMap_text_asRead]
    · have hwhole := congrArg byteLength (Lexeme.eq_text_append hcut)
      simp only [List.flatMap_append, List.flatMap_singleton, byteLength_append] at hwhole
      omega

end Dead

section Live

theorem rest_of_closeBlock {depth : Nat} {body text found rest : List Char}
    (h : Postgres.closeBlock depth body text = (found, false, rest)) : rest = [] := by
  fun_induction Postgres.closeBlock depth body text with
  | case1 | case2 => exact (Prod.mk.inj (Prod.mk.inj h).2).2.symm
  | case3 => exact absurd (Prod.mk.inj (Prod.mk.inj h).2).1 (by decide)
  | case4 body c d rest _ depth ih => exact ih h
  | case5 depth body c d rest _ _ ih => exact ih h
  | case6 depth body c d rest _ _ ih => exact ih h

/-- No word goes into a piece that is not run, nor out of one. -/
theorem apart_of_first {c : Char} {text rest : List Char} {piece : Piece} (h : first c text = (piece, rest))
    (hdead : piece.isDead = true) : isWord c = false ∧ Apart piece.text rest := by
  unfold first at h
  split at h
  · next quote hquote =>
      have hopen := Quote.opening_of_ofOpening? hquote
      refine ⟨by rw [← hopen, quote.isWord_opening], ?_⟩
      split at h
      · obtain ⟨rfl, -⟩ := Prod.mk.inj h
        cases hdead
      · obtain ⟨-, rfl⟩ := Prod.mk.inj h
        exact fun _ _ _ hd => by cases hd
  · split at h
    · next after _ =>
        refine ⟨by decide, ?_⟩
        obtain ⟨rfl, rfl⟩ := Prod.mk.inj h
        generalize hclose : Postgres.closeBlock 0 [] after = found
        obtain ⟨body, closed, rest⟩ := found
        cases closed with
        | false =>
            obtain rfl := rest_of_closeBlock hclose
            exact fun _ _ _ hd => by cases hd
        | true =>
            intro d _ hd _ hword
            have hlast : (Piece.block body.reverse true).text.getLast? = some '/' := by
              simp [Piece.text, List.getLast?_cons]
            rw [hlast] at hd
            obtain rfl := Option.some.inj hd
            exact absurd hword (by decide)
    · next after _ =>
        refine ⟨by decide, ?_⟩
        obtain ⟨rfl, rfl⟩ := Prod.mk.inj h
        intro _ d _ hd _
        have hstop := List.head?_dropWhile_not (fun c => !Lexeme.endsLine c) after
        rw [hd] at hstop
        have hends : Lexeme.endsLine d = true := by simpa using hstop
        rw [Lexeme.endsLine, Bool.or_eq_true, beq_iff_eq, beq_iff_eq] at hends
        rcases hends with rfl | rfl
        · decide
        · decide
    · obtain ⟨rfl, -⟩ := Prod.mk.inj h
      cases hdead

theorem dimmed_piecesFrom (text : List Char) :
    Dimmed text ((reading.piecesFrom () text).flatMap Piece.live) := by
  induction hsize : text.length using Nat.strongRecOn generalizing text with
  | ind size ih =>
      cases text with
      | nil =>
          rw [@Reading.piecesFrom_nil reading ()]
          exact .nil
      | cons c text =>
          have hlt : (first c text).2.length < size := by
            have := reading.length_first_lt () c text
            rw [List.length_cons] at hsize
            exact hsize ▸ this
          have hwhole := text_first c text
          have hrest := ih _ hlt _ rfl
          generalize hfirst : first c text = found at hwhole hrest
          obtain ⟨piece, rest⟩ := found
          dsimp only at hwhole hrest
          rw [piecesFrom_of_first hfirst, List.flatMap_cons, Piece.live]
          split
          · next hdead =>
              obtain ⟨hopens, hapart⟩ := apart_of_first hfirst hdead
              rw [← hwhole]
              refine .dim ⟨c, ?_, hopens⟩ hapart hrest
              have hhead := congrArg List.head? hwhole
              rwa [List.head?_append_of_ne_nil _ piece.text_ne_nil] at hhead
          · rw [← hwhole]
            exact hrest.append_left piece.text

theorem live_asRead (piece : Lexeme) : (asRead piece).live = piece.spaced := by
  rw [Piece.live, isDead_asRead, text_asRead, Lexeme.spaced]

theorem flatMap_live_asRead (pieces : List Lexeme) :
    (pieces.map asRead).flatMap Piece.live = pieces.flatMap Lexeme.spaced := by
  rw [List.flatMap_map]
  simp only [live_asRead]

/-- What SQL Server runs is what is left without the comments, with more of it gone. -/
theorem dimmed_liveText (sql : List Char) : Dimmed (stripComments sql) (reading.liveText sql) := by
  obtain ⟨front, later, hsql, hquiet, hstrip, -⟩ := exists_trusted sql
  have hlive : reading.liveText sql = (reading.piecesFrom () sql).flatMap Piece.live := rfl
  rw [hstrip, hlive]
  rcases piecesFrom_of_lexemes hsql hquiet with hpieces | ⟨left, piece, right, quote, body, rfl, hcode, hopen, hpieces⟩
  · rw [hpieces, List.flatMap_append, flatMap_live_asRead]
    exact (dimmed_piecesFrom _).append_left _
  · rw [hpieces, List.flatMap_append, List.flatMap_append, flatMap_live_asRead, List.append_assoc]
    refine Dimmed.append_left ?_ _
    have hgone : ((piece :: right).flatMap Lexeme.spaced ++ later.flatMap Lexeme.text).head? = some quote.opening := by
      rw [List.flatMap_cons, List.append_assoc, Lexeme.spaced, if_neg (by simp [hcode]),
        List.head?_append_of_ne_nil _ piece.text_ne_nil, hopen]
    have hend : Apart ((piece :: right).flatMap Lexeme.spaced ++ later.flatMap Lexeme.text) [] := by
      intro _ _ _ hd
      cases hd
    have hdim := Dimmed.dim ⟨quote.opening, hgone, quote.isWord_opening⟩ hend .nil
    rwa [List.append_nil] at hdim

end Live

/-- Whatever is left out of the normal form as a comment, SQL Server runs nothing of it; and each word and each
semicolon that SQL Server runs or quotes is in the normal form. -/
theorem stripping_failsClosed (sql : List Char) :
    (∀ place comment, (place, comment) ∈ strippedComments sql →
        reading.DeadBetween sql place (place + byteLength comment.text)) ∧
      (capitalWords (reading.liveText sql)).Sublist (runs isWord (normalForm sql)) ∧
      (reading.liveText sql).count ';' ≤ (normalForm sql).count ';' := by
  have hdimmed := dimmed_liveText sql
  refine ⟨fun place comment hmem => deadBetween_of_stripped hmem, ?_, ?_⟩
  · rw [capitalWords_stripComments]
    exact hdimmed.sublist_runs []
  · rw [count_normalForm]
    exact hdimmed.count_le (by decide)

end SqlGate.SqlServer
