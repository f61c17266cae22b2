import SqlGate.Proofs.LimitFrame
import SqlGate.Proofs.NormalTwice

/-! What leaving out the comments of a statement keeps. A hazard begins where a piece does, and from the first one on the
text stays as it is; in front of it each comment becomes a space, and no quoted span comes to end elsewhere on that
account. So the pieces are the same ones afterwards, and leaving the comments out again changes nothing. -/

namespace SqlGate

open Unicode

namespace Lexeme

/-- What stands for a piece in front of the first hazard: a space for a comment, and the piece itself otherwise. -/
def uncommented (piece : Lexeme) : Lexeme :=
  if piece.isComment then .code ' ' else piece

theorem isComment_uncommented (piece : Lexeme) : piece.uncommented.isComment = false := by
  rw [uncommented]
  split
  · rfl
  · next hcomment => exact Bool.not_eq_true _ ▸ hcomment

variable {text rest image : List Char} {piece : Lexeme} {pieces more : List Lexeme}

/-- In front of an image of the rest a piece is read again, and a space for a comment. -/
theorem Reads.lexemes_spaced (h : Reads text piece rest) (himage : Fainter rest image) :
    lexemes (piece.spaced ++ image) = piece.uncommented :: lexemes image := by
  have hspace : lexemes ([' '] ++ image) = .code ' ' :: lexemes image := (reads_plain rfl image).lexemes_eq
  cases h with
  | @plain c rest hquote hcomment =>
      exact (Reads.plain hquote (himage.not_opensComment hcomment)).lexemes_eq
  | unmatched quote hclose =>
      exact (Reads.unmatched quote (himage.notMem quote.isSign_closing hclose)).lexemes_eq
  | @quoted quote body rest hclose =>
      have hreads : Reads (quote.opening :: (body ++ quote.closing :: image)) (.quoted quote body) image :=
        .quoted quote (himage.closes quote.isSign_closing hclose hclose.1)
      change lexemes (quote.opening :: (body ++ [quote.closing]) ++ image) = _
      rw [List.cons_append, List.append_assoc]
      exact hreads.lexemes_eq
  | closedBlock hbody => exact hspace
  | openBlock hbody => exact hspace
  | line hbody hrest => exact hspace

theorem lexemes_spaced (h : lexemes text = pieces ++ more) :
    lexemes (pieces.flatMap spaced ++ more.flatMap Lexeme.text) = pieces.map uncommented ++ more := by
  induction pieces generalizing text with
  | nil => exact lexemes_of_eq_append h
  | cons piece pieces ih =>
      obtain ⟨hreads, hlater⟩ := reads_of_lexemes_eq_cons (List.cons_append ▸ h)
      rw [List.flatMap_append] at hreads
      rw [List.flatMap_cons, List.append_assoc,
        hreads.lexemes_spaced (Fainter.flatMap_spaced pieces (more.flatMap Lexeme.text)), ih hlater, List.map_cons,
        List.cons_append]

end Lexeme

theorem stripComments_stripComments (sql : List Char) : stripComments (stripComments sql) = stripComments sql := by
  obtain ⟨front, later, hsql, hstrip, hlater⟩ := exists_front sql
  have hpieces := Lexeme.lexemes_spaced hsql
  rw [← hstrip] at hpieces
  refine stripComments_eq_self hpieces (fun piece hmem => ?_) hlater
  obtain ⟨inner, -, rfl⟩ := List.mem_map.mp hmem
  exact inner.isComment_uncommented

/-- The first hazard of a statement begins between two characters and within no comment or quoted span. From it on the
text stays without its comments as it is, and in front of it each comment becomes one space and all else stays, in
order. Leaving the comments out once more changes nothing. -/
theorem stripComments_keeps (sql : List Char) :
    (∀ place hazard, (Outline.of sql).firstHazard? = some (place, hazard) →
      ∃ front later, lexemes sql = front ++ later ∧
        splitAtByte? place sql = some (front.flatMap Lexeme.text, later.flatMap Lexeme.text) ∧
        CodeBetween sql place place ∧
        stripComments sql = front.flatMap Lexeme.spaced ++ later.flatMap Lexeme.text ∧
        lexemes (stripComments sql) = front.map Lexeme.uncommented ++ later) ∧
      stripComments (stripComments sql) = stripComments sql := by
  refine ⟨fun place hazard hfirst => ?_, stripComments_stripComments sql⟩
  obtain ⟨front, later, hsql, rfl, hstrip, -⟩ := exists_front_of_firstHazard? hfirst
  refine ⟨front, later, hsql, ?_, @codeBetween_of_lexemes sql [] front later hsql, hstrip, ?_⟩
  · rw [Lexeme.eq_text_append hsql]
    exact splitAtByte?_append _ _
  · rw [hstrip]
    exact Lexeme.lexemes_spaced hsql

/-- A comment between two quotes becomes a space, and one behind a number sign stays on account of a quote. -/
theorem stripComments_keeps_hash : ∃ sql : List Char, sql = "SELECT 'a'/* é */'b' # it's\n-- c".toList ∧
    (Outline.of sql).firstHazard? = some (22, .hashComment) ∧ CodeBetween sql 22 22 ∧
    (splitAtByte? 22 sql).map (·.2) = some "# it's\n-- c".toList ∧
    stripComments sql = "SELECT 'a' 'b' # it's\n-- c".toList ∧
    stripComments (stripComments sql) = stripComments sql := by
  have hfirst : (Outline.of "SELECT 'a'/* é */'b' # it's\n-- c".toList).firstHazard? = some (22, .hashComment) := by
    decide +kernel
  obtain ⟨hkeeps, hagain⟩ := stripComments_keeps "SELECT 'a'/* é */'b' # it's\n-- c".toList
  obtain ⟨front, later, -, -, hbetween, -⟩ := hkeeps 22 .hashComment hfirst
  exact ⟨_, rfl, hfirst, hbetween, by decide +kernel, by decide +kernel, hagain⟩

end SqlGate
