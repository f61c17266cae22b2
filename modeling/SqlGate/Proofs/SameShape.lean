import SqlGate.Proofs.Clauses
import SqlGate.Proofs.SideBySide
import Mathlib.Data.List.Induction

/-! Two statements with the same pieces but for what is inside their quoted spans and comments. Their outlines differ
in the number of spaces only: parts that correspond begin and end alike, have the same code at the beginning, open as
many parentheses, and show their blanks at both ends by pieces that correspond. -/

namespace SqlGate

open Unicode

namespace Lexeme

/-- The piece with nothing inside: code, the delimiters of a quoted span, or a comment of its kind. -/
def hollow : Lexeme → Lexeme
  | code c => code c
  | quoted quote _ => quoted quote []
  | block _ _ => block [] true
  | line _ => line []

variable {piece other : Lexeme}

theorem hollow_cases (h : piece.hollow = other.hollow) :
    (∃ c, piece = code c ∧ other = code c) ∨
      (∃ quote body inside, piece = quoted quote body ∧ other = quoted quote inside) ∨
      piece.isComment = true ∧ other.isComment = true := by
  cases piece with
  | code c =>
      cases other with
      | code d => exact Or.inl ⟨c, rfl, (code.inj h).symm ▸ rfl⟩
      | quoted quote body => cases h
      | block body closed => cases h
      | line body => cases h
  | quoted quote body =>
      cases other with
      | quoted second inside => exact Or.inr (Or.inl ⟨quote, body, inside, rfl, (quoted.inj h).1 ▸ rfl⟩)
      | code d => cases h
      | block body closed => cases h
      | line body => cases h
  | block body closed =>
      cases other with
      | block inside shut => exact Or.inr (Or.inr ⟨rfl, rfl⟩)
      | code d => cases h
      | quoted quote body => cases h
      | line body => cases h
  | line body =>
      cases other with
      | line inside => exact Or.inr (Or.inr ⟨rfl, rfl⟩)
      | code d => cases h
      | quoted quote body => cases h
      | block body closed => cases h

theorem eq_code_of_hollow {c : Char} (h : (code c).hollow = other.hollow) : other = code c := by
  rcases hollow_cases h with ⟨d, hcode, rfl⟩ | ⟨quote, body, inside, hcode, -⟩ | ⟨hcode, -⟩
  · rw [code.inj hcode]
  · cases hcode
  · cases hcode

theorem head?_blanked_eq (h : piece.hollow = other.hollow) : piece.blanked.head? = other.blanked.head? := by
  rcases hollow_cases h with ⟨c, rfl, rfl⟩ | ⟨quote, body, inside, rfl, rfl⟩ | ⟨hpiece, hother⟩
  · rfl
  · rfl
  · obtain ⟨count, hcount⟩ := exists_blanked_of_isComment hpiece
    obtain ⟨number, hnumber⟩ := exists_blanked_of_isComment hother
    rw [hcount, hnumber]
    rfl

theorem getLast?_blanked_eq (h : piece.hollow = other.hollow) : piece.blanked.getLast? = other.blanked.getLast? := by
  rcases hollow_cases h with ⟨c, rfl, rfl⟩ | ⟨quote, body, inside, rfl, rfl⟩ | ⟨hpiece, hother⟩
  · rfl
  · simp only [blanked, List.getLast?_cons, List.getLast?_append, Option.some_or]
  · obtain ⟨count, hcount⟩ := exists_blanked_of_isComment hpiece
    obtain ⟨number, hnumber⟩ := exists_blanked_of_isComment hother
    rw [hcount, hnumber, List.replicate_succ', List.replicate_succ', List.getLast?_concat, List.getLast?_concat]

/-- Whether a piece shows nothing but blanks: it is a blank or a comment. -/
def showsBlank (piece : Lexeme) : Bool :=
  piece.blanked.all isBlank

theorem showsBlank_of_isComment (h : piece.isComment = true) : piece.showsBlank = true := by
  obtain ⟨count, hcount⟩ := exists_blanked_of_isComment h
  rw [showsBlank, hcount, List.all_replicate]
  rfl

theorem showsBlank_quoted (quote : Quote) (body : List Char) : (quoted quote body).showsBlank = false := by
  have hopening : isBlank quote.opening = false := by cases quote <;> rfl
  rw [showsBlank, blanked, List.all_cons, hopening, Bool.false_and]

theorem showsBlank_eq (h : piece.hollow = other.hollow) : piece.showsBlank = other.showsBlank := by
  rcases hollow_cases h with ⟨c, rfl, rfl⟩ | ⟨quote, body, inside, rfl, rfl⟩ | ⟨hpiece, hother⟩
  · rfl
  · rw [showsBlank_quoted, showsBlank_quoted]
  · rw [showsBlank_of_isComment hpiece, showsBlank_of_isComment hother]

/-- A piece that shows more than blanks begins and ends with no blank. -/
theorem isBlank_edges (h : piece.showsBlank = false) :
    (∀ c, piece.blanked.head? = some c → isBlank c = false) ∧
      ∀ c, piece.blanked.getLast? = some c → isBlank c = false := by
  have hquote : ∀ quote : Quote, isBlank quote.opening = false ∧ isBlank quote.closing = false := by
    intro quote
    cases quote <;> exact ⟨rfl, rfl⟩
  cases piece with
  | code d =>
      have hd : isBlank d = false := by rwa [showsBlank, blanked, List.all_cons, List.all_nil, Bool.and_true] at h
      exact ⟨fun c hc => Option.some.inj hc ▸ hd, fun c hc => Option.some.inj hc ▸ hd⟩
  | quoted quote body =>
      refine ⟨fun c hc => ?_, fun c hc => ?_⟩
      · rw [← Option.some.inj hc]
        exact (hquote quote).1
      · rw [blanked, List.getLast?_cons, List.getLast?_concat] at hc
        rw [← Option.some.inj hc]
        exact (hquote quote).2
  | block body closed =>
      rw [showsBlank_of_isComment rfl] at h
      cases h
  | line body =>
      rw [showsBlank_of_isComment rfl] at h
      cases h

theorem openAfter_blanked_eq (h : piece.hollow = other.hollow) (depth : Nat) :
    openAfter depth piece.blanked = openAfter depth other.blanked := by
  rw [openAfter_blanked, openAfter_blanked]
  rcases hollow_cases h with ⟨c, rfl, rfl⟩ | ⟨quote, body, inside, rfl, rfl⟩ | ⟨hpiece, hother⟩
  · rfl
  · rfl
  · rw [nested_of_isComment hpiece, nested_of_isComment hother]

end Lexeme

open Lexeme

/-- Pieces that differ in what is inside the quoted spans and the comments only. -/
def SameShape (pieces others : List Lexeme) : Prop :=
  List.Forall₂ (fun piece other => piece.hollow = other.hollow) pieces others

instance (pieces others : List Lexeme) : Decidable (SameShape pieces others) :=
  inferInstanceAs (Decidable (List.Forall₂ (fun piece other => piece.hollow = other.hollow) pieces others))

namespace SameShape

variable {pieces others left right before after : List Lexeme} {word tail : List Char}

theorem refl (pieces : List Lexeme) : SameShape pieces pieces :=
  List.forall₂_same.mpr fun _ _ => rfl

theorem symm (h : SameShape pieces others) : SameShape others pieces := by
  induction h with
  | nil => exact .nil
  | cons hpiece _ ih => exact .cons hpiece.symm ih

theorem append (hleft : SameShape left before) (hright : SameShape right after) :
    SameShape (left ++ right) (before ++ after) := by
  induction hleft with
  | nil => exact hright
  | cons hpiece _ ih => exact .cons hpiece ih

theorem exists_cut (h : SameShape (left ++ right) others) :
    ∃ before after, others = before ++ after ∧ SameShape left before ∧ SameShape right after := by
  induction left generalizing others with
  | nil => exact ⟨[], others, rfl, .nil, h⟩
  | cons piece left ih =>
      cases h with
      | cons hpiece hlater =>
          obtain ⟨before, after, rfl, hleft, hright⟩ := ih hlater
          exact ⟨_ :: before, after, rfl, .cons hpiece hleft, hright⟩

theorem length_eq (h : SameShape pieces others) : pieces.length = others.length :=
  List.Forall₂.length_eq h

theorem head?_eq (h : SameShape pieces others) : (pieces.flatMap blanked).head? = (others.flatMap blanked).head? := by
  cases h with
  | nil => rfl
  | cons hpiece _ =>
      rw [List.flatMap_cons, List.flatMap_cons, List.head?_append_of_ne_nil _ (blanked_ne_nil _),
        List.head?_append_of_ne_nil _ (blanked_ne_nil _), head?_blanked_eq hpiece]

theorem getLast?_eq (h : SameShape pieces others) :
    (pieces.flatMap blanked).getLast? = (others.flatMap blanked).getLast? := by
  induction h with
  | nil => rfl
  | cons hpiece _ ih =>
      rw [List.flatMap_cons, List.flatMap_cons, List.getLast?_append, List.getLast?_append, ih,
        getLast?_blanked_eq hpiece]

theorem flatMap_eq_nil_iff (h : SameShape pieces others) :
    pieces.flatMap blanked = [] ↔ others.flatMap blanked = [] := by
  rw [← List.head?_eq_none_iff, h.head?_eq, List.head?_eq_none_iff]

/-- What corresponds to the front of a part is the front of what corresponds to the part. -/
theorem exists_space {gap first last : List Lexeme} (hleft : SameShape left before)
    (h : SameShape (left ++ gap) first) (hwhole : before ++ after = first ++ last) :
    ∃ space, first = before ++ space ∧ SameShape gap space := by
  obtain ⟨second, space, rfl, hsecond, hgap⟩ := h.exists_cut
  rw [List.append_assoc] at hwhole
  have hlength : before.length = second.length := hleft.length_eq.symm.trans hsecond.length_eq
  obtain rfl := List.append_inj_left hwhole hlength
  exact ⟨space, rfl, hgap⟩

theorem openAfter_eq (h : SameShape pieces others) (depth : Nat) :
    openAfter depth (pieces.flatMap blanked) = openAfter depth (others.flatMap blanked) := by
  induction h generalizing depth with
  | nil => rfl
  | cons hpiece _ ih =>
      rw [List.flatMap_cons, List.flatMap_cons, openAfter_append, openAfter_append, openAfter_blanked_eq hpiece, ih]

theorem all_isBlank_eq (h : SameShape pieces others) :
    (pieces.flatMap blanked).all isBlank = (others.flatMap blanked).all isBlank := by
  induction h with
  | nil => rfl
  | cons hpiece _ ih =>
      have hshows := showsBlank_eq hpiece
      rw [List.flatMap_cons, List.flatMap_cons, List.all_append, List.all_append, ih]
      exact congrArg (· && _) hshows

/-- Both begin with pieces that show blanks, and the next one shows something else. -/
theorem exists_blanks (h : SameShape pieces others) :
    ∃ left right before after, pieces = left ++ right ∧ others = before ++ after ∧ SameShape left before ∧
      SameShape right after ∧ (∀ c ∈ left.flatMap blanked, isBlank c = true) ∧
      (∀ c ∈ before.flatMap blanked, isBlank c = true) ∧
      ∀ c, (right.flatMap blanked).head? = some c → isBlank c = false := by
  induction h with
  | nil => exact ⟨[], [], [], [], rfl, rfl, .nil, .nil, by simp, by simp, by simp⟩
  | @cons piece other pieces others hpiece hlater ih =>
      cases hblank : piece.showsBlank with
      | true =>
          obtain ⟨left, right, before, after, rfl, rfl, hleft, hright, hblankLeft, hblankBefore, hstop⟩ := ih
          refine ⟨piece :: left, right, other :: before, after, rfl, rfl, .cons hpiece hleft, hright, ?_, ?_, hstop⟩
          · rw [List.flatMap_cons, List.forall_mem_append]
            exact ⟨List.all_eq_true.mp hblank, hblankLeft⟩
          · rw [List.flatMap_cons, List.forall_mem_append]
            exact ⟨List.all_eq_true.mp ((showsBlank_eq hpiece).symm.trans hblank), hblankBefore⟩
      | false =>
          refine ⟨[], piece :: pieces, [], other :: others, rfl, rfl, .nil, .cons hpiece hlater, by simp, by simp, ?_⟩
          rw [List.flatMap_cons, List.head?_append_of_ne_nil _ (blanked_ne_nil _)]
          exact (isBlank_edges hblank).1

/-- Both begin with the code that one of them shows. -/
theorem exists_code (h : SameShape pieces others) (hword : ∀ c ∈ word, ShowsCode c)
    (htext : pieces.flatMap blanked = word ++ tail) :
    ∃ right after, pieces = word.map code ++ right ∧ others = word.map code ++ after ∧ SameShape right after ∧
      right.flatMap blanked = tail := by
  induction word generalizing pieces others with
  | nil => exact ⟨pieces, others, rfl, rfl, h, htext⟩
  | cons c word ih =>
      rw [List.forall_mem_cons] at hword
      have hhead : (pieces.flatMap blanked).head? = some c := by
        rw [htext]
        rfl
      obtain ⟨later, rfl⟩ := exists_eq_code_cons hword.1 hhead
      cases h with
      | cons hpiece hlater =>
          obtain rfl := eq_code_of_hollow hpiece
          obtain ⟨right, after, rfl, rfl, hright, htail⟩ := ih hlater hword.2 (List.cons.inj htext).2
          exact ⟨right, after, rfl, rfl, hright, htail⟩

/-- Both end with pieces that show blanks, behind one that shows something else. -/
theorem exists_blankEnd (h : SameShape pieces others) :
    ∃ left right before after, pieces = left ++ right ∧ others = before ++ after ∧ SameShape left before ∧
      SameShape right after ∧ (∀ c ∈ right.flatMap blanked, isBlank c = true) ∧
      (∀ c ∈ after.flatMap blanked, isBlank c = true) ∧
      ∀ c, (left.flatMap blanked).getLast? = some c → isBlank c = false := by
  induction pieces using List.reverseRecOn generalizing others with
  | nil =>
      cases h
      exact ⟨[], [], [], [], rfl, rfl, .nil, .nil, by simp, by simp, by simp⟩
  | append_singleton pieces piece ih =>
      obtain ⟨others, final, rfl, hfront, hlast⟩ := h.exists_cut
      cases hlast with
      | @cons _ other _ _ hpiece hnil =>
          cases hnil
          cases hblank : piece.showsBlank with
          | true =>
              obtain ⟨left, right, before, after, rfl, rfl, hleft, hright, hblankRight, hblankAfter, hstop⟩ := ih hfront
              refine ⟨left, right ++ [piece], before, after ++ [other], List.append_assoc .., List.append_assoc ..,
                hleft, hright.append (.cons hpiece .nil), ?_, ?_, hstop⟩
              · rw [List.flatMap_append, List.forall_mem_append, List.flatMap_singleton]
                exact ⟨hblankRight, List.all_eq_true.mp hblank⟩
              · rw [List.flatMap_append, List.forall_mem_append, List.flatMap_singleton]
                exact ⟨hblankAfter, List.all_eq_true.mp ((showsBlank_eq hpiece).symm.trans hblank)⟩
          | false =>
              refine ⟨pieces ++ [piece], [], others ++ [other], [], by simp, by simp, hfront.append (.cons hpiece .nil),
                .nil, by simp, by simp, ?_⟩
              rw [List.flatMap_append, List.flatMap_singleton, List.getLast?_append_of_ne_nil _ (blanked_ne_nil _)]
              exact (isBlank_edges hblank).2

end SameShape

end SqlGate
