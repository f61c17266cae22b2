import SqlGate.Hazard
import Mathlib.Data.List.TakeWhile

/-! The grammar of the pieces of a statement, stated apart from the functions that read them. A quoted
span ends where its body is made of other characters and doubled delimiters and no further delimiter
follows, or in the middle of the last doubled delimiter when none stands alone. `Lexeme.Reads` lists
what a text can begin with; the reader finds exactly that, so the pieces of a text follow from its
shape and what comes before a cut is read alike whatever stands behind it. -/

namespace SqlGate

/-- A cut of two lists goes through one of them. -/
theorem cut_of_append {α : Type} {left right front rest : List α} {x : α} (h : left ++ right = front ++ x :: rest) :
    (∃ tail, left = front ++ x :: tail ∧ rest = tail ++ right) ∨
      ∃ gap, front = left ++ gap ∧ right = gap ++ x :: rest := by
  rcases List.append_eq_append_iff.mp h with ⟨gap, hfront, hright⟩ | ⟨gap, hleft, hrest⟩
  · exact Or.inr ⟨gap, hfront, hright⟩
  · cases gap with
    | nil => exact Or.inr ⟨[], by rw [hleft]; simp, hrest.symm⟩
    | cons y gap =>
        obtain ⟨rfl, rfl⟩ := List.cons.inj hrest
        exact Or.inl ⟨gap, hleft, rfl⟩

theorem hasPair_iff {first second : Char} {text : List Char} :
    hasPair first second text = true ↔ ∃ front rest, text = front ++ first :: second :: rest := by
  constructor
  · intro h
    fun_induction hasPair first second text with
    | case1 c d rest ih =>
        simp only [Bool.or_eq_true, Bool.and_eq_true, beq_iff_eq] at h
        rcases h with ⟨rfl, rfl⟩ | h
        · exact ⟨[], rest, rfl⟩
        · obtain ⟨front, after, hrest⟩ := ih h
          exact ⟨c :: front, after, by rw [hrest, List.cons_append]⟩
    | case2 => cases h
  · rintro ⟨front, rest, rfl⟩
    induction front with
    | nil => simp [hasPair]
    | cons c front ih =>
        cases front with
        | nil => simp_all [hasPair]
        | cons d front =>
            rw [List.cons_append, List.cons_append, hasPair, ← List.cons_append, ih, Bool.or_true]

theorem hasPair_eq_false_iff {first second : Char} {text : List Char} :
    hasPair first second text = false ↔ ∀ front rest, text ≠ front ++ first :: second :: rest := by
  rw [← Bool.not_eq_true, hasPair_iff]
  constructor
  · exact fun h front rest htext => h ⟨front, rest, htext⟩
  · rintro h ⟨front, rest, htext⟩
    exact h front rest htext

namespace Lexeme

/-- The texts in which a delimiter stands for itself, written twice, and nowhere else. -/
inductive Doubled (close : Char) : List Char → Prop where
  | nil : Doubled close []
  | other {c : Char} {text : List Char} (hc : c ≠ close) (h : Doubled close text) :
      Doubled close (c :: text)
  | pair {text : List Char} (h : Doubled close text) : Doubled close (close :: close :: text)

theorem Doubled.append {close : Char} {left right : List Char} (hleft : Doubled close left)
    (hright : Doubled close right) : Doubled close (left ++ right) := by
  induction hleft with
  | nil => exact hright
  | other hc _ ih => exact .other hc ih
  | pair _ ih => exact .pair ih

/-- Where a quoted span with this body may end, given what follows its closing delimiter. -/
def Closes (close : Char) (body rest : List Char) : Prop :=
  Doubled close body ∧ (rest.head? ≠ some close ∨ ∃ after, rest = close :: after ∧ close ∉ after)

theorem closeQuoted?_of_notMem {close : Char} {text : List Char} (h : close ∉ text) (body : List Char)
    (pair : Option (List Char × List Char)) : closeQuoted? close body pair text = pair := by
  fun_induction closeQuoted? close body pair text with
  | case1 => rfl
  | case2 => simp at h
  | case3 => rfl
  | case4 body pair c d rest hc ih => exact ih fun hmem => h (List.mem_cons_of_mem c hmem)
  | case5 body pair c d rest hc hd => exact absurd (by simp [not_not.mp hc]) h
  | case6 body pair c d rest hc hd ih => exact absurd (by simp [not_not.mp hc]) h

/-- A delimiter that stands alone after a body ends the span. -/
theorem closeQuoted?_of_alone {close : Char} {found rest : List Char} (hfound : Doubled close found)
    (hrest : rest.head? ≠ some close) (body : List Char) (pair : Option (List Char × List Char)) :
    closeQuoted? close body pair (found ++ close :: rest) = some (found.reverse ++ body, rest) := by
  induction hfound generalizing body pair with
  | nil =>
      cases rest with
      | nil => simp [closeQuoted?]
      | cons d rest =>
          have hd : d ≠ close := by simpa using hrest
          simp [closeQuoted?, hd]
  | @other c text hc htext ih =>
      have hstep : closeQuoted? close body pair (c :: (text ++ close :: rest)) =
          closeQuoted? close (c :: body) pair (text ++ close :: rest) := by
        cases text <;> simp [closeQuoted?, hc]
      rw [List.cons_append, hstep, ih]
      simp
  | pair htext ih =>
      rw [List.cons_append, List.cons_append, closeQuoted?, if_neg (by simp), if_neg (by simp), ih]
      simp

/-- Where no delimiter stands alone, the span ends in the middle of the last pair. -/
theorem closeQuoted?_of_last_pair {close : Char} {found after : List Char}
    (hfound : Doubled close found) (hafter : close ∉ after) (body : List Char)
    (pair : Option (List Char × List Char)) :
    closeQuoted? close body pair (found ++ close :: close :: after) =
      some (found.reverse ++ body, close :: after) := by
  induction hfound generalizing body pair with
  | nil =>
      rw [List.nil_append, closeQuoted?, if_neg (by simp), if_neg (by simp),
        closeQuoted?_of_notMem hafter]
      rfl
  | @other c text hc htext ih =>
      have hstep : closeQuoted? close body pair (c :: (text ++ close :: close :: after)) =
          closeQuoted? close (c :: body) pair (text ++ close :: close :: after) := by
        cases text <;> simp [closeQuoted?, hc]
      rw [List.cons_append, hstep, ih]
      simp
  | pair htext ih =>
      rw [List.cons_append, List.cons_append, closeQuoted?, if_neg (by simp), if_neg (by simp), ih]
      simp

/-- A text with a delimiter in it has a place where a span opened in front of it ends. -/
theorem exists_closes_of_mem {close : Char} {text : List Char} (h : close ∈ text) :
    ∃ body rest, text = body ++ close :: rest ∧ Closes close body rest := by
  suffices hcut : ∀ size, ∀ text : List Char, text.length ≤ size → close ∈ text →
      ∃ body rest, text = body ++ close :: rest ∧ Closes close body rest from hcut _ text le_rfl h
  intro size
  induction size with
  | zero =>
      intro text hsize hmem
      rw [List.length_eq_zero_iff.mp (Nat.le_zero.mp hsize)] at hmem
      cases hmem
  | succ size ih =>
      intro text hsize hmem
      cases text with
      | nil => cases hmem
      | cons c rest =>
          rw [List.length_cons] at hsize
          by_cases hc : c = close
          · subst hc
            by_cases halone : rest.head? = some c
            · obtain ⟨after, rfl⟩ : ∃ after, rest = c :: after := by
                cases rest with
                | nil => cases halone
                | cons d after => exact ⟨after, by rw [Option.some.inj halone]⟩
              by_cases hafter : c ∈ after
              · rw [List.length_cons] at hsize
                obtain ⟨body, tail, rfl, hbody, htail⟩ := ih after (by omega) hafter
                exact ⟨c :: c :: body, tail, rfl, .pair hbody, htail⟩
              · exact ⟨[], c :: after, rfl, .nil, Or.inr ⟨after, rfl, hafter⟩⟩
            · exact ⟨[], rest, rfl, .nil, Or.inl halone⟩
          · have hrest : close ∈ rest := by
              rcases List.mem_cons.mp hmem with heq | hrest
              · exact absurd heq.symm hc
              · exact hrest
            obtain ⟨body, tail, rfl, hbody, htail⟩ := ih rest (by omega) hrest
            exact ⟨c :: body, tail, rfl, .other hc hbody, htail⟩

theorem closeQuoted?_of_closes {close : Char} {body rest : List Char} (h : Closes close body rest) :
    closeQuoted? close [] none (body ++ close :: rest) = some (body.reverse, rest) := by
  obtain ⟨hbody, halone | ⟨after, rfl, hafter⟩⟩ := h
  · rw [closeQuoted?_of_alone hbody halone, List.append_nil]
  · rw [closeQuoted?_of_last_pair hbody hafter, List.append_nil]

theorem closeBlock_of_open {text : List Char} (h : hasPair '*' '/' text = false) (body : List Char) :
    closeBlock body text = (text.reverse ++ body, false, []) := by
  fun_induction closeBlock body text with
  | case1 => rfl
  | case2 => rfl
  | case3 body c d rest hend => simp [hasPair, hend] at h
  | case4 body c d rest hend ih =>
      rw [hasPair, Bool.or_eq_false_iff] at h
      rw [ih h.2]
      simp

theorem closeBlock_of_closed {text rest : List Char} (h : hasPair '*' '/' text = false) (body : List Char) :
    closeBlock body (text ++ '*' :: '/' :: rest) = (text.reverse ++ body, true, rest) := by
  induction text generalizing body with
  | nil => simp [closeBlock]
  | cons c text ih =>
      have htext : hasPair '*' '/' text = false := by
        cases text with
        | nil => rfl
        | cons d text => exact (Bool.or_eq_false_iff.mp h).2
      have hstep : closeBlock body (c :: (text ++ '*' :: '/' :: rest)) =
          closeBlock (c :: body) (text ++ '*' :: '/' :: rest) := by
        cases text with
        | nil => simp [closeBlock]
        | cons d text =>
            have hend : ¬(c = '*' ∧ d = '/') := by simpa [hasPair] using (Bool.or_eq_false_iff.mp h).1
            rw [List.cons_append, closeBlock, if_neg hend]
      rw [List.cons_append, hstep, ih htext]
      simp

/-- A text with a closing mark has a first one. -/
theorem exists_first_pair {first second : Char} {text : List Char} (hne : first ≠ second)
    (h : hasPair first second text = true) :
    ∃ body rest, text = body ++ first :: second :: rest ∧ hasPair first second body = false := by
  induction text with
  | nil => cases h
  | cons c text ih =>
      cases text with
      | nil => cases h
      | cons d text =>
          by_cases hend : c = first ∧ d = second
          · obtain ⟨rfl, rfl⟩ := hend
            exact ⟨[], text, rfl, rfl⟩
          · have hrest : hasPair first second (d :: text) = true := by
              simpa [hasPair, hend] using h
            obtain ⟨body, rest, hbody, hpair⟩ := ih hrest
            refine ⟨c :: body, rest, by rw [hbody, List.cons_append], ?_⟩
            cases body with
            | nil => rfl
            | cons e body =>
                obtain ⟨rfl, -⟩ := List.cons.inj hbody
                simpa [hasPair, hpair] using hend

/-- Whether a character and the text after it open a comment. -/
def OpensComment (c : Char) (rest : List Char) : Prop :=
  (c = '/' ∧ rest.head? = some '*') ∨ (c = '-' ∧ rest.head? = some '-')

/-- `Reads text piece rest`: the text begins with the piece, and goes on with `rest`. -/
inductive Reads : List Char → Lexeme → List Char → Prop where
  | plain {c : Char} {rest : List Char} (hquote : Quote.ofOpening? c = none)
      (hcomment : ¬OpensComment c rest) : Reads (c :: rest) (.code c) rest
  | unmatched (quote : Quote) {rest : List Char} (hclose : quote.closing ∉ rest) :
      Reads (quote.opening :: rest) (.code quote.opening) rest
  | quoted (quote : Quote) {body rest : List Char} (hclose : Closes quote.closing body rest) :
      Reads (quote.opening :: (body ++ quote.closing :: rest)) (.quoted quote body) rest
  | closedBlock {body rest : List Char} (hbody : hasPair '*' '/' body = false) :
      Reads ('/' :: '*' :: (body ++ '*' :: '/' :: rest)) (.block body true) rest
  | openBlock {body : List Char} (hbody : hasPair '*' '/' body = false) :
      Reads ('/' :: '*' :: body) (.block body false) []
  | line {body rest : List Char} (hbody : ∀ c ∈ body, endsLine c = false)
      (hrest : ∀ c, rest.head? = some c → endsLine c = true) :
      Reads ('-' :: '-' :: (body ++ rest)) (.line body) rest

end Lexeme

theorem Quote.ofOpening?_opening (quote : Quote) : ofOpening? quote.opening = some quote := by
  cases quote <;> rfl

namespace Lexeme

theorem first_of_comment_free {c : Char} {rest : List Char} (hquote : Quote.ofOpening? c = none)
    (hcomment : ¬OpensComment c rest) : first c rest = (.code c, rest) := by
  unfold first
  rw [hquote]
  dsimp only
  split
  · exact absurd (Or.inl ⟨rfl, rfl⟩) hcomment
  · exact absurd (Or.inr ⟨rfl, rfl⟩) hcomment
  · rfl

theorem first_of_unmatched {quote : Quote} {rest : List Char} (hclose : quote.closing ∉ rest) :
    first quote.opening rest = (.code quote.opening, rest) := by
  simp only [first, Quote.ofOpening?_opening, closeQuoted?_of_notMem hclose]

theorem first_of_closes {quote : Quote} {body rest : List Char} (hclose : Closes quote.closing body rest) :
    first quote.opening (body ++ quote.closing :: rest) = (.quoted quote body, rest) := by
  simp only [first, Quote.ofOpening?_opening, closeQuoted?_of_closes hclose, List.reverse_reverse]

theorem takeWhile_append_of_stop {α : Type} {p : α → Bool} {front rest : List α}
    (hfront : ∀ c ∈ front, p c = true) (hrest : ∀ c, rest.head? = some c → p c = false) :
    (front ++ rest).takeWhile p = front ∧ (front ++ rest).dropWhile p = rest := by
  rw [List.takeWhile_append_of_pos hfront, List.dropWhile_append_of_pos hfront]
  cases rest with
  | nil => simp
  | cons c rest => simp [hrest c rfl]

/-- The reader finds what the grammar allows, and nothing else is allowed. -/
theorem first_of_reads {c : Char} {rest after : List Char} {piece : Lexeme}
    (h : Reads (c :: rest) piece after) : first c rest = (piece, after) := by
  generalize htext : c :: rest = text at h
  cases h with
  | plain hquote hcomment =>
      obtain ⟨rfl, rfl⟩ := List.cons.inj htext
      exact first_of_comment_free hquote hcomment
  | unmatched quote hclose =>
      obtain ⟨rfl, rfl⟩ := List.cons.inj htext
      exact first_of_unmatched hclose
  | quoted quote hclose =>
      obtain ⟨rfl, rfl⟩ := List.cons.inj htext
      exact first_of_closes hclose
  | closedBlock hbody =>
      obtain ⟨rfl, rfl⟩ := List.cons.inj htext
      simp [first, show Quote.ofOpening? '/' = none from rfl, closeBlock_of_closed hbody]
  | openBlock hbody =>
      obtain ⟨rfl, rfl⟩ := List.cons.inj htext
      simp [first, show Quote.ofOpening? '/' = none from rfl, closeBlock_of_open hbody]
  | line hbody hrest =>
      obtain ⟨rfl, rfl⟩ := List.cons.inj htext
      obtain ⟨htake, hdrop⟩ := takeWhile_append_of_stop (p := fun c => !endsLine c)
        (fun c hc => by rw [hbody c hc, Bool.not_false]) (fun c hc => by rw [hrest c hc, Bool.not_true])
      simp only [first, show Quote.ofOpening? '-' = none from rfl, htake, hdrop]

/-- Every text that is not empty begins with some piece. -/
theorem exists_reads (c : Char) (rest : List Char) : ∃ piece after, Reads (c :: rest) piece after := by
  cases hquote : Quote.ofOpening? c with
  | some quote =>
      have hopen := Quote.opening_of_ofOpening? hquote
      subst hopen
      by_cases hmem : quote.closing ∈ rest
      · obtain ⟨body, after, rfl, hclose⟩ := exists_closes_of_mem hmem
        exact ⟨_, _, .quoted quote hclose⟩
      · exact ⟨_, _, .unmatched quote hmem⟩
  | none =>
      by_cases hcomment : OpensComment c rest
      · rcases hcomment with ⟨rfl, hhead⟩ | ⟨rfl, hhead⟩
        · obtain ⟨text, rfl⟩ := List.head?_eq_some_iff.mp hhead
          by_cases hend : hasPair '*' '/' text = true
          · obtain ⟨body, after, rfl, hbody⟩ := exists_first_pair (by decide) hend
            exact ⟨_, _, .closedBlock hbody⟩
          · exact ⟨_, _, .openBlock (Bool.not_eq_true _ ▸ hend)⟩
        · obtain ⟨text, rfl⟩ := List.head?_eq_some_iff.mp hhead
          rw [← List.takeWhile_append_dropWhile (p := fun c => !endsLine c) (l := text)]
          refine ⟨_, _, .line ?_ ?_⟩
          · intro d hd
            simpa using List.mem_takeWhile_imp hd
          · intro d hd
            have hstop := List.head?_dropWhile_not (fun c => !endsLine c) text
            rw [hd] at hstop
            simpa using hstop
      · exact ⟨_, _, .plain hquote hcomment⟩

theorem Reads.text_append {text rest : List Char} {piece : Lexeme} (h : Reads text piece rest) :
    piece.text ++ rest = text := by
  cases text with
  | nil => cases h
  | cons c text => rw [← text_first c text, first_of_reads h]

theorem Reads.lexemes_eq {text rest : List Char} {piece : Lexeme} (h : Reads text piece rest) :
    lexemes text = piece :: lexemes rest := by
  cases text with
  | nil => cases h
  | cons c text => rw [lexemes_cons, first_of_reads h]

/-- What a text begins with is its first piece. -/
theorem reads_of_lexemes_eq_cons {text : List Char} {piece : Lexeme} {later : List Lexeme}
    (h : lexemes text = piece :: later) :
    Reads text piece (later.flatMap Lexeme.text) ∧ lexemes (later.flatMap Lexeme.text) = later := by
  cases text with
  | nil => simp at h
  | cons c text =>
      obtain ⟨found, rest, hreads⟩ := exists_reads c text
      obtain ⟨rfl, hrest⟩ := List.cons.inj (hreads.lexemes_eq.symm.trans h)
      rw [← hrest, flatMap_text_lexemes]
      exact ⟨hreads, rfl⟩

/-- The later pieces of a text are the pieces of what is left of it. -/
theorem lexemes_of_eq_append {text : List Char} {front later : List Lexeme}
    (h : lexemes text = front ++ later) : lexemes (later.flatMap Lexeme.text) = later := by
  induction front generalizing text with
  | nil =>
      rw [List.nil_append] at h
      rw [← h, flatMap_text_lexemes]
  | cons piece front ih => exact ih (reads_of_lexemes_eq_cons h).2

theorem eq_text_append {text : List Char} {front later : List Lexeme}
    (h : lexemes text = front ++ later) :
    text = front.flatMap Lexeme.text ++ later.flatMap Lexeme.text := by
  rw [← List.flatMap_append, ← h, flatMap_text_lexemes]

/-- A character that is read as itself whatever stands around it. -/
def isPlain (c : Char) : Bool :=
  (Quote.ofOpening? c).isNone && c != '/' && c != '-'

theorem reads_plain {c : Char} (h : isPlain c = true) (rest : List Char) :
    Reads (c :: rest) (.code c) rest := by
  simp only [isPlain, Bool.and_eq_true, Option.isNone_iff_eq_none, bne_iff_ne] at h
  refine .plain h.1.1 ?_
  rintro (⟨hc, -⟩ | ⟨hc, -⟩)
  · exact h.1.2 hc
  · exact h.2 hc

theorem lexemes_plain_append {plain : List Char} (h : ∀ c ∈ plain, isPlain c = true) (rest : List Char) :
    lexemes (plain ++ rest) = plain.map code ++ lexemes rest := by
  induction plain with
  | nil => rfl
  | cons c plain ih =>
      rw [List.cons_append, (reads_plain (h c List.mem_cons_self) _).lexemes_eq,
        ih fun d hd => h d (List.mem_cons_of_mem c hd)]
      rfl

@[simp] theorem flatMap_text_code (text : List Char) : (text.map code).flatMap Lexeme.text = text := by
  induction text with
  | nil => rfl
  | cons c text ih => rw [List.map_cons, List.flatMap_cons, ih, Lexeme.text, List.singleton_append]

theorem placeOnto_eq_append (placed : List (Nat × Lexeme)) (offset : Nat) (pieces : List Lexeme) :
    placeOnto placed offset pieces = placed.reverse ++ placeOnto [] offset pieces := by
  induction pieces generalizing placed offset with
  | nil => simp [placeOnto]
  | cons piece pieces ih =>
      rw [placeOnto, ih, placeOnto, ih [(offset, piece)]]
      simp

theorem placeOnto_cons (offset : Nat) (piece : Lexeme) (pieces : List Lexeme) :
    placeOnto [] offset (piece :: pieces) =
      (offset, piece) :: placeOnto [] (offset + byteLength piece.text) pieces := by
  rw [placeOnto, placeOnto_eq_append]
  rfl

theorem mem_placeOnto_iff {offset place : Nat} {piece : Lexeme} {pieces : List Lexeme} :
    (place, piece) ∈ placeOnto [] offset pieces ↔
      ∃ front later, pieces = front ++ piece :: later ∧
        place = offset + byteLength (front.flatMap Lexeme.text) := by
  induction pieces generalizing offset with
  | nil => simp [placeOnto]
  | cons first pieces ih =>
      rw [placeOnto_cons, List.mem_cons, Prod.mk.injEq, ih]
      constructor
      · rintro (⟨rfl, rfl⟩ | ⟨front, later, rfl, rfl⟩)
        · exact ⟨[], pieces, rfl, by simp⟩
        · refine ⟨first :: front, later, rfl, ?_⟩
          rw [List.flatMap_cons, byteLength_append, Nat.add_assoc]
      · rintro ⟨front, later, hpieces, rfl⟩
        cases front with
        | nil =>
            obtain ⟨rfl, rfl⟩ := List.cons.inj hpieces
            exact Or.inl ⟨by simp, rfl⟩
        | cons other front =>
            obtain ⟨rfl, rfl⟩ := List.cons.inj hpieces
            refine Or.inr ⟨front, later, rfl, ?_⟩
            rw [List.flatMap_cons, byteLength_append, Nat.add_assoc]

end Lexeme

/-- A piece stands at the place after the pieces in front of it. -/
theorem mem_placedLexemes_iff {sql : List Char} {place : Nat} {piece : Lexeme} :
    (place, piece) ∈ placedLexemes sql ↔
      ∃ front later, lexemes sql = front ++ piece :: later ∧
        place = byteLength (front.flatMap Lexeme.text) := by
  rw [placedLexemes, Lexeme.mem_placeOnto_iff]
  simp only [Nat.zero_add]

end SqlGate
