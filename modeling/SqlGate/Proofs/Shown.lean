import SqlGate.Proofs.Hushed
import SqlGate.Proofs.SplicedHazards

/-! The text without comments around a place where code is put. Each side shows the same words at the edge as
in the outline, and a comment that is left out stays so once the code is in: no hazard comes in front of it. -/

namespace SqlGate

open Unicode

namespace Lexeme

variable {text : List Char} {piece : Lexeme} {pieces more : List Lexeme} {trusted again offset other : Nat} {c : Char}

/-- The text of pieces from byte `offset` on, with a space for each comment that begins before byte `trusted`. -/
def shown (trusted : Nat) : Nat → List Lexeme → List Char
  | _, [] => []
  | offset, piece :: pieces =>
    (if piece.isComment && offset < trusted then [' '] else piece.text) ++
      shown trusted (offset + byteLength piece.text) pieces

theorem shown_append (trusted offset : Nat) (left right : List Lexeme) : shown trusted offset (left ++ right) =
    shown trusted offset left ++ shown trusted (offset + byteLength (left.flatMap Lexeme.text)) right := by
  induction left generalizing offset with
  | nil => simp [shown]
  | cons piece left ih =>
      rw [List.cons_append, shown, shown, ih, List.flatMap_cons, byteLength_append, List.append_assoc, Nat.add_assoc]

theorem shown_code (trusted offset : Nat) (word : List Char) : shown trusted offset (word.map code) = word := by
  induction word generalizing offset with
  | nil => rfl
  | cons c word ih =>
      rw [List.map_cons, shown, ih]
      rfl

/-- From that byte on nothing is left out. -/
theorem shown_eq_text (hle : trusted ≤ offset) : shown trusted offset pieces = pieces.flatMap Lexeme.text := by
  induction pieces generalizing offset with
  | nil => rfl
  | cons piece pieces ih =>
      rw [shown, ih (Nat.le_add_right_of_le hle), decide_eq_false (Nat.not_lt.mpr hle), Bool.and_false,
        if_neg Bool.false_ne_true, List.flatMap_cons]

theorem flatMap_placeOnto (trusted offset : Nat) (pieces : List Lexeme) :
    ((placeOnto [] offset pieces).flatMap fun placed =>
      if placed.2.isComment && placed.1 < trusted then [' '] else placed.2.text) = shown trusted offset pieces := by
  induction pieces generalizing offset with
  | nil => rfl
  | cons piece pieces ih => rw [placeOnto_cons, List.flatMap_cons, ih, shown]

theorem head_text_of_isComment (h : piece.isComment = true) :
    piece.text.head? = some '/' ∨ piece.text.head? = some '-' := by
  cases piece with
  | code c => cases h
  | quoted quote body => cases h
  | block body closed => exact Or.inl rfl
  | line body => exact Or.inr rfl

theorem head_text_eq (h : piece.isComment = false) : piece.text.head? = piece.blanked.head? := by
  cases piece with
  | code c => rfl
  | quoted quote body => rfl
  | block body closed => cases h
  | line body => cases h

theorem getLast_text_eq (h : piece.isComment = false) : piece.text.getLast? = piece.blanked.getLast? := by
  cases piece with
  | code c => rfl
  | quoted quote body =>
      rw [text, blanked, List.getLast?_cons, List.getLast?_cons, List.getLast?_concat, List.getLast?_concat]
  | block body closed => cases h
  | line body => cases h

theorem mem_text_of_blanked (hc : c ∈ piece.blanked) (hblank : isBlank c = false) :
    piece.isComment = false ∧ c ∈ piece.text := by
  have hspace : ∀ {count : Nat}, c ∉ spaces count := by
    intro count hmem
    rw [(List.mem_replicate.mp hmem).2] at hblank
    exact absurd hblank (by decide)
  cases piece with
  | code d => exact ⟨rfl, hc⟩
  | quoted quote body =>
      refine ⟨rfl, ?_⟩
      rw [blanked, List.mem_cons, List.mem_append] at hc
      rw [text, List.mem_cons, List.mem_append]
      rcases hc with hopen | hbody | hclose
      · exact Or.inl hopen
      · exact absurd hbody hspace
      · exact Or.inr (Or.inr hclose)
  | block body closed => exact absurd hc hspace
  | line body => exact absurd hc hspace

/-- What the outline shows, apart from blanks, is shown. -/
theorem mem_shown (trusted offset : Nat) (hc : c ∈ pieces.flatMap blanked) (hblank : isBlank c = false) :
    c ∈ shown trusted offset pieces := by
  induction pieces generalizing offset with
  | nil => cases hc
  | cons piece pieces ih =>
      rw [List.flatMap_cons, List.mem_append] at hc
      rw [shown, List.mem_append]
      rcases hc with hc | hc
      · obtain ⟨hcode, hmem⟩ := mem_text_of_blanked hc hblank
        rw [hcode]
        exact Or.inl hmem
      · exact Or.inr (ih _ hc)

theorem getLast_shown (trusted offset : Nat) (hc : (pieces.flatMap blanked).getLast? = some c)
    (hblank : isBlank c = false) : (shown trusted offset pieces).getLast? = some c := by
  rcases pieces.eq_nil_or_concat' with rfl | ⟨front, piece, rfl⟩
  · cases hc
  · rw [List.flatMap_append, List.flatMap_singleton, List.getLast?_append_of_ne_nil _ piece.blanked_ne_nil] at hc
    obtain ⟨hcode, -⟩ := mem_text_of_blanked (List.mem_of_getLast? hc) hblank
    rw [shown_append, shown, hcode, Bool.false_and, if_neg Bool.false_ne_true, shown, List.append_nil,
      List.getLast?_append_of_ne_nil _ piece.text_ne_nil, getLast_text_eq hcode, hc]

/-- A word at the end is one in the outline, where no comment runs on. -/
theorem getLast_of_shown (hsettled : ∀ piece, pieces.getLast? = some piece → piece.runsOn = false)
    (hc : (shown trusted offset pieces).getLast? = some c) (hword : isWord c = true) :
    (pieces.flatMap blanked).getLast? = some c := by
  rcases pieces.eq_nil_or_concat' with rfl | ⟨front, piece, rfl⟩
  · cases hc
  · have hruns := hsettled piece List.getLast?_concat
    rw [shown_append, shown, shown, List.append_nil] at hc
    rw [List.flatMap_append, List.flatMap_singleton, List.getLast?_append_of_ne_nil _ piece.blanked_ne_nil]
    cases hcomment : piece.isComment with
    | false =>
        rw [hcomment, Bool.false_and, if_neg Bool.false_ne_true,
          List.getLast?_append_of_ne_nil _ piece.text_ne_nil, getLast_text_eq hcomment] at hc
        exact hc
    | true =>
        exfalso
        have hlast : piece.text.getLast? = some '/' := by
          cases piece with
          | code c => cases hcomment
          | quoted quote body => cases hcomment
          | block body closed =>
              cases closed with
              | false => cases hruns
              | true => simp [text, List.getLast?_cons]
          | line body => cases hruns
        split at hc
        · rw [List.getLast?_concat] at hc
          obtain rfl : ' ' = c := Option.some.inj hc
          exact absurd hword (by decide)
        · rw [List.getLast?_append_of_ne_nil _ piece.text_ne_nil, hlast] at hc
          obtain rfl : '/' = c := Option.some.inj hc
          exact absurd hword (by decide)

theorem head_of_shown (hc : (shown trusted offset pieces).head? = some c) :
    c = ' ' ∨ (pieces.flatMap Lexeme.text).head? = some c := by
  cases pieces with
  | nil => cases hc
  | cons piece pieces =>
      rw [shown] at hc
      rw [List.flatMap_cons, List.head?_append_of_ne_nil _ piece.text_ne_nil]
      split at hc
      · exact Or.inl (Option.some.inj hc).symm
      · rw [List.head?_append_of_ne_nil _ piece.text_ne_nil] at hc
        exact Or.inr hc

/-- A character that begins no comment is one in the outline. -/
theorem head_blanked_of_ne (hc : (shown trusted offset pieces).head? = some c)
    (hne : c ≠ ' ' ∧ c ≠ '/' ∧ c ≠ '-') : (pieces.flatMap blanked).head? = some c := by
  rcases head_of_shown hc with rfl | hhead
  · exact absurd rfl hne.1
  · cases pieces with
    | nil => cases hhead
    | cons piece pieces =>
        rw [List.flatMap_cons, List.head?_append_of_ne_nil _ piece.text_ne_nil] at hhead
        rw [List.flatMap_cons, List.head?_append_of_ne_nil _ piece.blanked_ne_nil]
        cases hcomment : piece.isComment with
        | false => rwa [← head_text_eq hcomment]
        | true =>
            rcases head_text_of_isComment hcomment with hopen | hopen
            · rw [hopen] at hhead
              exact absurd (Option.some.inj hhead).symm hne.2.1
            · rw [hopen] at hhead
              exact absurd (Option.some.inj hhead).symm hne.2.2

/-- A word at the beginning is one in the outline. -/
theorem head_blanked_of_shown (hc : (shown trusted offset pieces).head? = some c) (hword : isWord c = true) :
    (pieces.flatMap blanked).head? = some c := by
  refine head_blanked_of_ne hc ⟨?_, ?_, ?_⟩
  · rintro rfl
    exact absurd hword (by decide)
  · rintro rfl
    exact absurd hword (by decide)
  · rintro rfl
    exact absurd hword (by decide)

/-- No word goes on from a comment. -/
theorem apart_comment (h : lexemes text = piece :: (pieces ++ more)) (hcomment : piece.isComment = true) :
    Apart piece.text (shown trusted offset pieces) := by
  intro c d hc hd hword
  have hruns : piece.runsOn = true := by
    by_contra hclosed
    cases piece with
    | code c => cases hcomment
    | quoted quote body => cases hcomment
    | line body => exact hclosed rfl
    | block body closed =>
        cases closed with
        | false => exact hclosed rfl
        | true =>
            have hlast : (block body true).text.getLast? = some '/' := by simp [Lexeme.text, List.getLast?_cons]
            rw [hlast] at hc
            obtain rfl := Option.some.inj hc
            exact absurd hword (by decide)
  obtain ⟨hreads, -⟩ := reads_of_lexemes_eq_cons h
  rcases head_of_shown hd with rfl | hhead
  · decide
  · have hnext : ((pieces ++ more).flatMap Lexeme.text).head? = some d := by
      rw [List.flatMap_append, List.head?_append, hhead, Option.some_or]
    have hends := hreads.endsLine_of_runsOn hruns hnext
    rw [endsLine, Bool.or_eq_true, beq_iff_eq, beq_iff_eq] at hends
    rcases hends with rfl | rfl
    · decide
    · decide

/-- The same pieces at another place, with every comment left out that was left out there. -/
theorem hushed_shown (h : lexemes text = pieces ++ more)
    (hstill : ∀ front piece later, pieces = front ++ piece :: later →
      offset + byteLength (front.flatMap Lexeme.text) < trusted →
        other + byteLength (front.flatMap Lexeme.text) < again) :
    Hushed (shown trusted offset pieces) (shown again other pieces) := by
  induction pieces generalizing text offset other with
  | nil => exact .nil
  | cons piece pieces ih =>
      obtain ⟨-, hlater⟩ := reads_of_lexemes_eq_cons h
      have hrest : Hushed (shown trusted (offset + byteLength piece.text) pieces)
          (shown again (other + byteLength piece.text) pieces) := by
        refine ih hlater fun front inner later hpieces hlt => ?_
        have hstep := hstill (piece :: front) inner later (by rw [hpieces]; rfl)
        rw [List.flatMap_cons, byteLength_append] at hstep
        omega
      rw [shown, shown]
      cases hcomment : piece.isComment with
      | false => exact hrest.append_left piece.text
      | true =>
          have hfirst : offset < trusted → other < again := hstill [] piece pieces rfl
          by_cases hout : offset < trusted
          · simp only [hout, hfirst hout, decide_true, Bool.and_true, if_true]
            exact .keep hrest
          · by_cases hagain : other < again
            · simp only [hout, hagain, decide_true, decide_false, Bool.and_true, Bool.and_false, if_true,
                Bool.false_eq_true, if_false]
              exact .hush (head_text_of_isComment hcomment) (apart_comment h hcomment) hrest
            · simp only [hout, hagain, decide_false, Bool.and_false, Bool.false_eq_true, if_false]
              exact hrest.append_left piece.text

end Lexeme

theorem stripComments_eq_shown (sql : List Char) :
    stripComments sql = Lexeme.shown (trustedUntil sql) 0 (lexemes sql) :=
  Lexeme.flatMap_placeOnto (trustedUntil sql) 0 (lexemes sql)

namespace Lexeme

/-- The piece, or a space for a comment. -/
def spaced (piece : Lexeme) : List Char :=
  if piece.isComment then [' '] else piece.text

/-- Up to that byte every comment is left out. -/
theorem shown_eq_spaced (hle : offset + byteLength (pieces.flatMap Lexeme.text) ≤ trusted) :
    shown trusted offset pieces = pieces.flatMap spaced := by
  induction pieces generalizing offset with
  | nil => rfl
  | cons piece pieces ih =>
      rw [List.flatMap_cons, byteLength_append] at hle
      have hpos := byteLength_pos piece.text_ne_nil
      have hlt : offset < trusted := by omega
      rw [shown, ih (by omega), decide_eq_true hlt, Bool.and_true, List.flatMap_cons]
      rfl

/-- Up to a place the comments are left out, and from it on nothing is. -/
theorem exists_shown_eq (trusted offset : Nat) (pieces : List Lexeme) :
    ∃ front later, pieces = front ++ later ∧
      (∀ left piece right, front = left ++ piece :: right → offset + byteLength (left.flatMap Lexeme.text) < trusted) ∧
      (later ≠ [] → trusted ≤ offset + byteLength (front.flatMap Lexeme.text)) ∧
      shown trusted offset pieces = front.flatMap spaced ++ later.flatMap Lexeme.text := by
  induction pieces generalizing offset with
  | nil => exact ⟨[], [], rfl, by simp, by simp, rfl⟩
  | cons piece pieces ih =>
      by_cases hlt : offset < trusted
      · obtain ⟨front, later, rfl, hfront, hlater, hshown⟩ := ih (offset + byteLength piece.text)
        refine ⟨piece :: front, later, rfl, fun left inner right hcut => ?_, fun hne => ?_, ?_⟩
        · cases left with
          | nil => simpa using hlt
          | cons first left =>
              obtain ⟨rfl, hrest⟩ := List.cons.inj hcut
              rw [List.flatMap_cons, byteLength_append, ← Nat.add_assoc]
              exact hfront left inner right hrest
        · rw [List.flatMap_cons, byteLength_append, ← Nat.add_assoc]
          exact hlater hne
        · rw [shown, hshown, decide_eq_true hlt, Bool.and_true, List.flatMap_cons, List.append_assoc]
          rfl
      · have hle := Nat.le_of_not_lt hlt
        exact ⟨[], piece :: pieces, rfl, by simp, fun _ => by simpa using hle, shown_eq_text hle⟩

end Lexeme

/-- The pieces of a statement up to the first hazard: the comments that are left out are those among them. -/
theorem exists_trusted (sql : List Char) :
    ∃ front later, lexemes sql = front ++ later ∧ (∀ piece ∈ front, piece.hazard? = none) ∧
      stripComments sql = front.flatMap Lexeme.spaced ++ later.flatMap Lexeme.text ∧
      ∀ place comment, (place, comment) ∈ strippedComments sql → comment.isComment = true ∧
        ∃ left right, front = left ++ comment :: right ∧ place = byteLength (left.flatMap Lexeme.text) := by
  obtain ⟨front, later, hsql, hfront, hlater, hshown⟩ := Lexeme.exists_shown_eq (trustedUntil sql) 0 (lexemes sql)
  refine ⟨front, later, hsql, fun piece hmem => ?_, (stripComments_eq_shown sql).trans hshown, ?_⟩
  · obtain ⟨left, right, rfl⟩ := List.append_of_mem hmem
    have hlt := hfront left piece right rfl
    rw [Nat.zero_add] at hlt
    have hcut : lexemes sql = left ++ piece :: (right ++ later) := by rw [hsql, List.append_assoc, List.cons_append]
    exact hazard?_eq_none_of_lt hcut hlt
  · intro place comment hmem
    have htrusted := (List.mem_filter.mp hmem).2
    rw [Bool.and_eq_true, decide_eq_true_eq] at htrusted
    obtain ⟨left, right, hcut, hplace, hcomment, -⟩ := mem_strippedComments_iff.mp hmem
    refine ⟨hcomment, ?_⟩
    rw [hsql] at hcut
    rcases cut_of_append hcut with ⟨tail, hleft, -⟩ | ⟨gap, hgap, hrest⟩
    · exact ⟨left, tail, hleft, hplace⟩
    · have hle := hlater (by rw [hrest]; simp)
      rw [hgap, List.flatMap_append, byteLength_append] at hplace
      omega

/-- The text without comments around a place with `old` in it, where the outline has `front` and `rest`. -/
structure Stripped (sql old front rest left right : List Char) : Prop where
  eq_append : stripComments sql = left ++ (old ++ right)
  mem_left : ∀ c ∈ front, isBlank c = false → c ∈ left
  mem_right : ∀ c ∈ rest, isBlank c = false → c ∈ right
  last : ∀ c, front.getLast? = some c → isBlank c = false → left.getLast? = some c
  word_last : ∀ c, left.getLast? = some c → isWord c = true → front.getLast? = some c
  word_head : ∀ c, right.head? = some c → isWord c = true → rest.head? = some c

namespace Stripped

variable {sql old front rest left right : List Char}

theorem opens (h : Stripped sql old front rest left right)
    (hopens : ∀ c, front.getLast? = some c → isWord c = false) : ∀ c, left.getLast? = some c → isWord c = false := by
  intro c hc
  by_contra hword
  exact hword (hopens c (h.word_last c hc (Bool.of_not_eq_false hword)))

theorem stops (h : Stripped sql old front rest left right) (hstops : ∀ c, rest.head? = some c → isWord c = false) :
    ∀ c, right.head? = some c → isWord c = false := by
  intro c hc
  by_contra hword
  exact hword (hstops c (h.word_head c hc (Bool.of_not_eq_false hword)))

theorem apart_left (h : Stripped sql old front rest left right) {code : List Char} (hapart : Apart front code) :
    Apart left code :=
  fun c d hc hd hword => hapart c d (h.word_last c hc hword) hd hword

theorem apart_right (h : Stripped sql old front rest left right) {code : List Char} (hapart : Apart code rest) :
    Apart code right := by
  intro c d hc hd hword
  by_contra hdWord
  exact hdWord (hapart c d hc (h.word_head d hd (Bool.of_not_eq_false hdWord)) hword)

theorem apart (h : Stripped sql old front rest left right) (hapart : Apart front rest) : Apart left right := by
  intro c d hc hd hword
  by_contra hdWord
  exact hdWord (hapart c d (h.word_last c hc hword) (h.word_head d hd (Bool.of_not_eq_false hdWord)) hword)

end Stripped

namespace Site

variable {sql old new : List Char} {left right : List Lexeme}

/-- The statement without comments around the place. -/
theorem stripped (h : Site sql left old right) :
    Stripped sql old (left.flatMap Lexeme.blanked) (right.flatMap Lexeme.blanked)
      (Lexeme.shown (trustedUntil sql) 0 left)
      (Lexeme.shown (trustedUntil sql) (byteLength (left.flatMap Lexeme.text) + byteLength old) right) where
  eq_append := by
    rw [stripComments_eq_shown, h.lexemes_eq, Lexeme.shown_append, Lexeme.shown_append, Lexeme.shown_code,
      Lexeme.flatMap_text_code, Nat.zero_add]
  mem_left _ := Lexeme.mem_shown _ _
  mem_right _ := Lexeme.mem_shown _ _
  last _ := Lexeme.getLast_shown _ _
  word_last _ := Lexeme.getLast_of_shown h.settled
  word_head _ := Lexeme.head_blanked_of_shown

/-- A place in front of the first hazard is in front of it still once the code is in. -/
theorem lt_trustedUntil_joined (h : Site sql left old right) (hnew : ∀ c ∈ new, isClauseChar c = true) (hne : new ≠ [])
    (hgap : ' ' ∈ new ∨ ∃ c, (left.flatMap Lexeme.blanked).getLast? = some c ∧ isWord c = false ∧ c ≠ '$')
    {before after : Nat} (hmoved : Moved left old new before after) (hbefore : before < byteLength sql)
    (hafter : after < byteLength (joined left new right)) (hlt : before < trustedUntil sql) :
    after < trustedUntil (joined left new right) := by
  refine (lt_trustedUntil_iff hafter).mpr fun hazard hmem => ?_
  by_contra hge
  -- A hazard in front of the place goes back to one in front of where the place was.
  obtain ⟨place, first, hplace, hle, hfirst⟩ := h.exists_hazard hnew hne hgap hmem
  have hback := hplace.le hmoved (Nat.le_of_not_lt hge)
  have hearly := (lt_trustedUntil_iff hbefore).mp hlt _ hfirst
  dsimp only at hearly
  omega

/-- Once the code is in, no comment is shown that was left out before. -/
theorem exists_stripped (h : Site sql left old right) (hnew : ∀ c ∈ new, isClauseChar c = true) (hne : new ≠ [])
    (hgap : ' ' ∈ new ∨ ∃ c, (left.flatMap Lexeme.blanked).getLast? = some c ∧ isWord c = false ∧ c ≠ '$') :
    ∃ before after, Stripped sql old (left.flatMap Lexeme.blanked) (right.flatMap Lexeme.blanked) before after ∧
      (Apart before (new ++ after) →
        Hushed (before ++ (new ++ after)) (stripComments (joined left new right))) := by
  let size := byteLength (left.flatMap Lexeme.text)
  let trusted := trustedUntil sql
  let again := trustedUntil (joined left new right)
  have hjoined : stripComments (joined left new right) = Lexeme.shown again 0 left ++
      (new ++ Lexeme.shown again (size + byteLength new) right) := by
    rw [stripComments_eq_shown, h.lexemes_joined hnew hne, Lexeme.shown_append, Lexeme.shown_append,
      Lexeme.shown_code, Lexeme.flatMap_text_code, Nat.zero_add]
  have hsize : byteLength sql = size + byteLength old + byteLength (right.flatMap Lexeme.text) := by
    rw [h.eq_joined, joined, byteLength_append, byteLength_append, Nat.add_assoc]
  have hsizeJoined : byteLength (joined left new right) =
      size + byteLength new + byteLength (right.flatMap Lexeme.text) := by
    rw [joined, byteLength_append, byteLength_append, Nat.add_assoc]
  refine ⟨_, _, h.stripped, fun hapart => ?_⟩
  rw [hjoined]
  have hfront : Hushed (Lexeme.shown trusted 0 left) (Lexeme.shown again 0 left) := by
    refine Lexeme.hushed_shown h.lexemes_eq fun front piece later hpieces hlt => ?_
    have hpos := byteLength_pos piece.text_ne_nil
    have hinside : byteLength (front.flatMap Lexeme.text) < size := by
      dsimp only [size]
      rw [hpieces, List.flatMap_append, List.flatMap_cons, byteLength_append, byteLength_append]
      omega
    rw [Nat.zero_add] at hlt ⊢
    exact h.lt_trustedUntil_joined hnew hne hgap (Or.inl ⟨rfl, hinside⟩) (by omega) (by omega) hlt
  have hback : Hushed (Lexeme.shown trusted (size + byteLength old) right)
      (Lexeme.shown again (size + byteLength new) right) := by
    have hright : lexemes ((right ++ []).flatMap Lexeme.text) = right ++ [] := by
      have hpieces := h.lexemes_eq
      rw [← List.append_assoc] at hpieces
      rw [List.append_nil]
      exact Lexeme.lexemes_of_eq_append hpieces
    refine Lexeme.hushed_shown hright fun front piece later hpieces hlt => ?_
    have hpos := byteLength_pos piece.text_ne_nil
    have hinside : byteLength (front.flatMap Lexeme.text) < byteLength (right.flatMap Lexeme.text) := by
      rw [hpieces, List.flatMap_append, List.flatMap_cons, byteLength_append, byteLength_append]
      omega
    exact h.lt_trustedUntil_joined hnew hne hgap (Or.inr ⟨_, rfl, rfl⟩) (by omega) (by omega) hlt
  exact hfront.append hapart (hback.append_left new)

end Site

end SqlGate
