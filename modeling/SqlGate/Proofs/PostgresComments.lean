import SqlGate.Proofs.Hazards
import SqlGate.Proofs.PostgresReading

/-! What the normal form leaves out and Postgres reads. The two readings of a statement go in step
until a quoted span never closes for Postgres, a hazard is recorded, or Postgres opens a string at a tag
that is recorded nowhere. So a comment that is left out is nothing that Postgres runs, unless a tag of
the third kind comes before it. -/

namespace SqlGate.Postgres
open Lexeme (Doubled Closes OpensComment)

theorem first_code {c : Char} {rest : List Char} (escapes : Bool)
    (hopen : Quote.ofOpening? c = none ∨ c = '[') (hcomment : ¬OpensComment c rest)
    (htag : c = '$' → tag? rest = none) : first escapes c rest = (.code c, rest) := by
  rcases hopen with hopen | rfl
  · unfold first
    rw [hopen]
    dsimp only
    split
    · rw [htag rfl]
    · exact absurd (Or.inl ⟨rfl, rfl⟩) hcomment
    · exact absurd (Or.inr ⟨rfl, rfl⟩) hcomment
    · rfl
  · rfl

theorem closeQuoted?_of_notMem {close : Char} {text : List Char} (h : close ∉ text) (escapes : Bool)
    (body : List Char) : closeQuoted? escapes close body text = none := by
  fun_induction closeQuoted? escapes close body text with
  | case1 => rfl
  | case2 => simp at h
  | case3 => rfl
  | case4 body c d rest _ ih => exact ih fun hmem => h (by simp [hmem])
  | case5 body c d rest _ _ ih => exact ih fun hmem => h (List.mem_cons_of_mem c hmem)
  | case6 => simp at h
  | case7 body c d rest _ hc => simp [not_not.mp hc] at h

/-- Without a backslash to escape it, a body made of other characters and doubled delimiters is read as
far as it goes. -/
theorem closeQuoted?_append {escapes : Bool} {close : Char} {found : List Char} (hfound : Doubled close found)
    (hslash : escapes = true → '\\' ∉ found) (rest body : List Char) :
    closeQuoted? escapes close body (found ++ close :: rest) =
      closeQuoted? escapes close (found.reverse ++ body) (close :: rest) := by
  induction hfound generalizing body with
  | nil => rfl
  | @other c text hc htext ih =>
      have hplain : ¬(escapes = true ∧ c = '\\') := by
        rintro ⟨hescapes, rfl⟩
        exact hslash hescapes List.mem_cons_self
      have hstep : closeQuoted? escapes close body (c :: (text ++ close :: rest)) =
          closeQuoted? escapes close (c :: body) (text ++ close :: rest) := by
        cases text with
        | nil => rw [List.nil_append, closeQuoted?, if_neg hplain, if_pos hc]
        | cons d text => rw [List.cons_append, closeQuoted?, if_neg hplain, if_pos hc]
      rw [List.cons_append, hstep, ih fun hescapes hmem => hslash hescapes (List.mem_cons_of_mem c hmem)]
      simp
  | @pair text htext ih =>
      have hplain : ¬(escapes = true ∧ close = '\\') := by
        rintro ⟨hescapes, rfl⟩
        exact hslash hescapes List.mem_cons_self
      rw [List.cons_append, List.cons_append, closeQuoted?, if_neg hplain, if_neg (by simp), if_pos rfl,
        ih fun hescapes hmem => hslash hescapes (by simp [hmem])]
      simp

theorem closing_ne_backslash (quote : Quote) : quote.closing ≠ '\\' := by
  cases quote <;> decide

/-- Without a backslash to escape it, the delimiter that stands alone behind the body ends it. -/
theorem closeQuoted?_of_alone {quote : Quote} {escapes : Bool} {body rest : List Char}
    (hbody : Doubled quote.closing body) (halone : rest.head? ≠ some quote.closing)
    (hslash : escapes = true → '\\' ∉ body) :
    closeQuoted? escapes quote.closing [] (body ++ quote.closing :: rest) = some (body.reverse, rest) := by
  rw [closeQuoted?_append hbody hslash rest [], List.append_nil]
  cases rest with
  | nil => simp [closeQuoted?]
  | cons d rest =>
      have hd : d ≠ quote.closing := by simpa using halone
      simp [closeQuoted?, hd, closing_ne_backslash]

/-- A doubled delimiter with no other one behind it ends no span. -/
theorem closeQuoted?_of_last_pair {quote : Quote} {escapes : Bool} {body after : List Char}
    (hbody : Doubled quote.closing body) (hafter : quote.closing ∉ after)
    (hslash : escapes = true → '\\' ∉ body) :
    closeQuoted? escapes quote.closing [] (body ++ quote.closing :: quote.closing :: after) = none := by
  rw [closeQuoted?_append hbody hslash (quote.closing :: after) [], closeQuoted?,
    if_neg (by simp [closing_ne_backslash]), if_neg (by simp), if_pos rfl, closeQuoted?_of_notMem hafter]

theorem first_of_quote {quote : Quote} (hquote : quote ≠ .bracket) (escapes : Bool) (rest : List Char) :
    first escapes quote.opening rest =
      match closeQuoted? (escapes && quote = .single) quote.closing [] rest with
      | some (body, rest) => (.quoted quote body.reverse, rest)
      | none => (.openQuoted quote rest, []) := by
  cases quote <;> first | rfl | exact absurd rfl hquote

/-- A quoted span without escapes that ends at a delimiter of its own is read like in standard SQL. -/
theorem first_of_alone {quote : Quote} (hquote : quote ≠ .bracket) {body rest : List Char}
    (hbody : Doubled quote.closing body) (halone : rest.head? ≠ some quote.closing)
    (hslash : quote = .single → '\\' ∉ body) (escapes : Bool) :
    first escapes quote.opening (body ++ quote.closing :: rest) = (.quoted quote body, rest) := by
  have hescapes : (escapes && quote = .single) = true → '\\' ∉ body :=
    fun h => hslash (of_decide_eq_true (Bool.and_eq_true_iff.mp h).2)
  rw [first_of_quote hquote, closeQuoted?_of_alone hbody halone hescapes]
  simp

/-- A quoted span that standard SQL ends in the middle of a doubled delimiter never closes. -/
theorem first_of_last_pair {quote : Quote} (hquote : quote ≠ .bracket) {body after : List Char}
    (hbody : Doubled quote.closing body) (hafter : quote.closing ∉ after)
    (hslash : quote = .single → '\\' ∉ body) (escapes : Bool) :
    first escapes quote.opening (body ++ quote.closing :: quote.closing :: after) =
      (.openQuoted quote (body ++ quote.closing :: quote.closing :: after), []) := by
  have hescapes : (escapes && quote = .single) = true → '\\' ∉ body :=
    fun h => hslash (of_decide_eq_true (Bool.and_eq_true_iff.mp h).2)
  rw [first_of_quote hquote, closeQuoted?_of_last_pair hbody hafter hescapes]

theorem first_of_unmatched {quote : Quote} (hquote : quote ≠ .bracket) {rest : List Char}
    (hclose : quote.closing ∉ rest) (escapes : Bool) :
    first escapes quote.opening rest = (.openQuoted quote rest, []) := by
  rw [first_of_quote hquote, closeQuoted?_of_notMem hclose]

theorem closeBlock_append {text rest : List Char} (hend : hasPair '*' '/' text = false)
    (hnested : hasPair '/' '*' (text ++ ['*', '/']) = false) (body : List Char) :
    closeBlock 0 body (text ++ '*' :: '/' :: rest) = (text.reverse ++ body, true, rest) := by
  induction text generalizing body with
  | nil => simp [closeBlock]
  | cons c text ih =>
      cases text with
      | nil =>
          have hopen : ¬(c = '/' ∧ '*' = '*') := by simpa [hasPair] using hnested
          rw [List.cons_append, List.nil_append, closeBlock, if_neg (by simp), if_neg hopen]
          exact ih rfl (by simp [hasPair]) _
      | cons d text =>
          simp only [List.cons_append, hasPair, Bool.or_eq_false_iff, Bool.and_eq_false_iff,
            beq_eq_false_iff_ne] at hend hnested
          rw [List.cons_append, List.cons_append, closeBlock, if_neg (not_and_or.mpr hend.1),
            if_neg (not_and_or.mpr hnested.1), ← List.cons_append, ih hend.2 hnested.2]
          simp

theorem closeBlock_of_open {text : List Char} (hend : hasPair '*' '/' text = false)
    (hnested : hasPair '/' '*' text = false) (body : List Char) :
    closeBlock 0 body text = (text.reverse ++ body, false, []) := by
  induction text generalizing body with
  | nil => rfl
  | cons c text ih =>
      cases text with
      | nil => rfl
      | cons d text =>
          simp only [hasPair, Bool.or_eq_false_iff, Bool.and_eq_false_iff, beq_eq_false_iff_ne] at hend hnested
          rw [closeBlock, if_neg (not_and_or.mpr hend.1), if_neg (not_and_or.mpr hnested.1),
            ih hend.2 hnested.2]
          simp

theorem exists_first_of_tag {rest tag after : List Char} (h : tag? rest = some (tag, after)) (escapes : Bool) :
    (∃ body later, first escapes '$' rest = (.tagged tag body, later)) ∨
      first escapes '$' rest = (.openTagged tag after, []) := by
  cases hclose : closeTagged? tag [] after with
  | none => exact Or.inr (by simp [first, show Quote.ofOpening? '$' = none from rfl, h, hclose])
  | some found =>
      refine Or.inl ⟨found.1.reverse, found.2, ?_⟩
      simp [first, show Quote.ofOpening? '$' = none from rfl, h, hclose]

theorem piecesAfter_of_first {before rest after : List Char} {c : Char} {piece : Piece}
    (h : first (endsWithE before) c rest = (piece, after)) :
    piecesAfter before (c :: rest) = piece :: piecesAfter (piece.text.reverse ++ before) after := by
  rw [piecesAfter, h]

/-- A comment that is no hazard is the same comment for Postgres. -/
theorem exists_first_of_comment {c : Char} {text rest : List Char} {comment : Lexeme}
    (hreads : Lexeme.Reads (c :: text) comment rest) (hcomment : comment.isComment = true)
    (hhazard : comment.hazard? = none) :
    ∃ piece, (∀ escapes, first escapes c text = (piece, rest)) ∧ piece.text = comment.text ∧ piece.isDead = true := by
  generalize hwhole : c :: text = whole at hreads
  cases hreads with
  | plain | unmatched | quoted => cases hcomment
  | @closedBlock body rest hend =>
      obtain ⟨rfl, rfl⟩ := List.cons.inj hwhole
      have hnested : hasPair '/' '*' (body ++ ['*', '/']) = false := (Lexeme.hazard?_block_eq_none_iff.mp hhazard).2
      refine ⟨.block body true, fun escapes => ?_, rfl, rfl⟩
      simp [first, show Quote.ofOpening? '/' = none from rfl, closeBlock_append hend hnested]
  | @openBlock body hend =>
      obtain ⟨rfl, rfl⟩ := List.cons.inj hwhole
      have hnested : hasPair '/' '*' body = false := (Lexeme.hazard?_block_eq_none_iff.mp hhazard).2
      refine ⟨.block body false, fun escapes => ?_, rfl, rfl⟩
      simp [first, show Quote.ofOpening? '/' = none from rfl, closeBlock_of_open hend hnested]
  | @line body rest hbody hrest =>
      obtain ⟨rfl, rfl⟩ := List.cons.inj hwhole
      obtain ⟨htake, hdrop⟩ := Lexeme.takeWhile_append_of_stop (p := fun c => !Lexeme.endsLine c)
        (fun c hc => by rw [hbody c hc, Bool.not_false]) (fun c hc => by rw [hrest c hc, Bool.not_true])
      refine ⟨.line body, fun escapes => ?_, rfl, rfl⟩
      simp only [first, show Quote.ofOpening? '-' = none from rfl, htake, hdrop]

/-- The pieces `read` are the first ones of the statement, and `rest` is left to be read. -/
def ReadTo (sql : List Char) (read : List Piece) (rest : List Char) : Prop :=
  pieces sql = read ++ piecesAfter (read.flatMap Piece.text).reverse rest

namespace ReadTo

variable {sql rest : List Char} {read : List Piece} {c : Char}

theorem nil (sql : List Char) : ReadTo sql [] sql := rfl

theorem eq_append (h : ReadTo sql read rest) : sql = read.flatMap Piece.text ++ rest := by
  rw [← flatMap_text_piecesAfter [] sql, ← pieces, h, List.flatMap_append, flatMap_text_piecesAfter]

theorem push {piece : Piece} {after : List Char} (h : ReadTo sql read (c :: rest))
    (hfirst : ∀ escapes, first escapes c rest = (piece, after)) : ReadTo sql (read ++ [piece]) after := by
  rw [ReadTo, h, piecesAfter_of_first (hfirst _)]
  simp

/-- From a piece that nothing closes on, all of the statement is dead. -/
theorem dead {piece : Piece} (h : ReadTo sql read (c :: rest))
    (hfirst : ∀ escapes, first escapes c rest = (piece, [])) (hdead : piece.isDead = true) :
    DeadBetween sql (byteLength (read.flatMap Piece.text)) (byteLength sql) := by
  have hend := h.push hfirst
  refine ⟨read, piece, [], ?_, hdead, le_rfl, ?_⟩
  · rw [hend, piecesAfter, List.append_nil]
  · rw [hend.eq_append]
    simp

/-- At a tag Postgres opens a string. -/
theorem tagged {tag after : List Char} (h : ReadTo sql read ('$' :: rest)) (htag : tag? rest = some (tag, after)) :
    DeadBetween sql (byteLength (read.flatMap Piece.text)) (byteLength sql) ∨
      ∃ body later, pieces sql = read ++ .tagged tag body :: later := by
  have hcases := exists_first_of_tag htag (endsWithE (read.flatMap Piece.text).reverse)
  rcases hcases with ⟨body, later, hfirst⟩ | hfirst
  · exact Or.inr ⟨body, _, by rw [h, piecesAfter_of_first hfirst]⟩
  · left
    refine ⟨read, .openTagged tag after, [], ?_, rfl, le_rfl, ?_⟩
    · rw [h, piecesAfter_of_first hfirst, piecesAfter]
    · rw [h.eq_append, eq_append_of_tag? htag]
      simp [Piece.text, mark]

/-- Characters that open nothing are code, up to a tag among them. -/
theorem code_run {chars : List Char} (h : ReadTo sql read (chars ++ rest))
    (hchars : ∀ front c later, chars = front ++ c :: later →
      (Quote.ofOpening? c = none ∨ c = '[') ∧ ¬OpensComment c (later ++ rest)) :
    ReadTo sql (read ++ chars.map .code) rest ∨
      ∃ front later, chars = front ++ '$' :: later ∧
        ReadTo sql (read ++ front.map .code) ('$' :: (later ++ rest)) ∧ (tag? (later ++ rest)).isSome := by
  induction chars generalizing read with
  | nil => exact Or.inl (by simpa using h)
  | cons c chars ih =>
      obtain ⟨hopen, hcomment⟩ := hchars [] c chars rfl
      by_cases htag : c = '$' ∧ (tag? (chars ++ rest)).isSome
      · obtain ⟨rfl, hsome⟩ := htag
        exact Or.inr ⟨[], chars, rfl, by simpa using h, hsome⟩
      · have hnone : c = '$' → tag? (chars ++ rest) = none := by
          intro hc
          simpa [hc] using htag
        have hnext := h.push (fun escapes => first_code escapes hopen hcomment hnone)
        rcases ih hnext (fun front d later hlater => hchars (c :: front) d later (by rw [hlater]; rfl)) with
          hrun | ⟨front, later, rfl, hrun, hsome⟩
        · exact Or.inl (by simpa using hrun)
        · exact Or.inr ⟨c :: front, later, rfl, by simpa using hrun, hsome⟩

end ReadTo

/-- Postgres opens a closed string at this place and no hazard is recorded there: the tag is no name of
ASCII, or it stands in a bracketed name of standard SQL. -/
def UnseenTag (sql : List Char) (place : Nat) : Prop :=
  ∃ front tag body later, pieces sql = front ++ .tagged tag body :: later ∧
    place = byteLength (front.flatMap Piece.text) ∧
    (¬IsTagName tag ∨ ∃ offset name, (offset, .quoted .bracket name) ∈ placedLexemes sql ∧
      offset < place ∧ place < offset + byteLength (Lexeme.quoted .bracket name).text)

section Steps

variable {sql : List Char} {front later : List Lexeme} {piece : Lexeme} {read : List Piece}

/-- What comes of reading one piece of standard SQL the way Postgres does: both readings go on at the
same place, or all the rest is dead, or a tag was passed that no hazard records. -/
def Advance (sql : List Char) (front : List Lexeme) (rest : List Char) : Prop :=
  (∃ read, ReadTo sql read rest ∧ read.flatMap Piece.text = front.flatMap Lexeme.text) ∨
    DeadBetween sql (byteLength (front.flatMap Lexeme.text)) (byteLength sql) ∨
    ∃ place < byteLength (front.flatMap Lexeme.text), UnseenTag sql place

theorem DeadBetween.mono {start stop start' stop' : Nat} (h : DeadBetween sql start stop)
    (hstart : start ≤ start') (hstop : stop' ≤ stop) : DeadBetween sql start' stop' := by
  obtain ⟨front, piece, later, hpieces, hdead, hle, hge⟩ := h
  exact ⟨front, piece, later, hpieces, hdead, hle.trans hstart, hstop.trans hge⟩

theorem advance_of_piece {after : List Char} {c : Char} {rest : List Char} {found : Piece}
    (hread : ReadTo sql read (c :: rest)) (hfront : read.flatMap Piece.text = front.flatMap Lexeme.text)
    (hfirst : ∀ escapes, first escapes c rest = (found, after)) (htext : found.text = piece.text) :
    Advance sql (front ++ [piece]) after := by
  refine Or.inl ⟨read ++ [found], hread.push hfirst, ?_⟩
  rw [List.flatMap_append, List.flatMap_append, hfront, List.flatMap_singleton, List.flatMap_singleton, htext]

theorem advance_of_dead {c : Char} {rest : List Char} {found : Piece}
    (hread : ReadTo sql read (c :: rest)) (hfront : read.flatMap Piece.text = front.flatMap Lexeme.text)
    (hfirst : ∀ escapes, first escapes c rest = (found, [])) (hdead : found.isDead = true) (after : List Char) :
    Advance sql (front ++ [piece]) after := by
  refine Or.inr (Or.inl ((hread.dead hfirst hdead).mono ?_ le_rfl))
  rw [hfront, List.flatMap_append, byteLength_append]
  exact Nat.le_add_right _ _

/-- At a tag in the code, the rest is dead or the tag is passed. -/
theorem advance_of_tag {rest tag after : List Char} (hread : ReadTo sql read ('$' :: rest))
    (htag : tag? rest = some (tag, after))
    (hplace : byteLength (read.flatMap Piece.text) < byteLength (front.flatMap Lexeme.text))
    (hunseen : ¬IsTagName tag ∨ ∃ offset name, (offset, .quoted .bracket name) ∈ placedLexemes sql ∧
      offset < byteLength (read.flatMap Piece.text) ∧
      byteLength (read.flatMap Piece.text) < offset + byteLength (Lexeme.quoted .bracket name).text)
    (left : List Char) : Advance sql front left := by
  rcases hread.tagged htag with hdead | ⟨body, pieces, hpieces⟩
  · exact Or.inr (Or.inl (hdead.mono hplace.le le_rfl))
  · exact Or.inr (Or.inr ⟨_, hplace, read, tag, body, pieces, hpieces, rfl, hunseen⟩)

theorem advance_of_plain {c : Char} {rest : List Char} (hread : ReadTo sql read (c :: rest))
    (hfront : read.flatMap Piece.text = front.flatMap Lexeme.text)
    (hopen : Quote.ofOpening? c = none ∨ c = '[') (hcomment : ¬OpensComment c rest)
    (hseen : c = '$' → dollarTag? ((lexemes rest).flatMap Lexeme.blanked) = none) :
    Advance sql (front ++ [.code c]) rest := by
  by_cases htag : c = '$' ∧ (tag? rest).isSome
  · obtain ⟨rfl, hsome⟩ := htag
    obtain ⟨⟨tag, after⟩, htag⟩ := Option.isSome_iff_exists.mp hsome
    refine advance_of_tag hread htag ?_ (Or.inl fun hname => ?_) rest
    · rw [hfront, List.flatMap_append, byteLength_append]
      exact Nat.lt_add_of_pos_right (byteLength_pos (by simp [Lexeme.text]))
    · have hdollar := isSome_dollarTag?_lexemes hname after
      rw [← eq_append_of_tag? htag, hseen rfl] at hdollar
      cases hdollar
  · have hfirst : ∀ escapes, first escapes c rest = (.code c, rest) := by
      intro escapes
      refine first_code escapes hopen hcomment fun hc => ?_
      simpa [hc] using htag
    exact advance_of_piece hread hfront hfirst rfl

theorem flatMap_text_code (text : List Char) : (text.map Piece.code).flatMap Piece.text = text := by
  induction text with
  | nil => rfl
  | cons c text ih => rw [List.map_cons, List.flatMap_cons, ih, Piece.text, List.singleton_append]

/-- In a bracketed name without a hazard no character opens a quoted span or a comment. -/
theorem opens_nothing_of_bracket {body left right rest : List Char} {c : Char}
    (hquotes : ∀ c ∈ body, c ≠ '\x27' ∧ c ≠ '\x22' ∧ c ≠ '\x60') (hdashes : hasPair '-' '-' body = false)
    (hslash : hasPair '/' '*' body = false) (hcut : '[' :: (body ++ [']']) = left ++ c :: right) :
    (Quote.ofOpening? c = none ∨ c = '[') ∧ ¬OpensComment c (right ++ rest) := by
  cases left with
  | nil =>
      obtain ⟨rfl, rfl⟩ := List.cons.inj hcut
      exact ⟨Or.inr rfl, by simp [OpensComment]⟩
  | cons first left =>
      obtain ⟨rfl, hinner⟩ := List.cons.inj hcut
      rcases List.eq_nil_or_concat right with rfl | ⟨inner, last, rfl⟩
      · obtain ⟨-, hlast⟩ := List.append_inj' hinner rfl
        obtain rfl := List.cons.inj hlast |>.1
        exact ⟨Or.inl rfl, by simp [OpensComment]⟩
      · have hinner : body ++ [']'] = (left ++ c :: inner) ++ [last] := by simpa using hinner
        obtain ⟨rfl, hlast⟩ := List.append_inj' hinner rfl
        obtain rfl := List.cons.inj hlast |>.1
        refine ⟨?_, ?_⟩
        · have hc := hquotes c (by simp)
          by_cases hbracket : c = '['
          · exact Or.inr hbracket
          · left
            simp only [Quote.ofOpening?, List.find?_eq_none, Quote.opening]
            intro quote _
            cases quote <;> simp [Ne.symm hc.1, Ne.symm hc.2.1, Ne.symm hc.2.2, Ne.symm hbracket]
        · rw [hasPair_eq_false_iff] at hdashes hslash
          cases inner with
          | nil => simp [OpensComment]
          | cons d inner =>
              rintro (⟨rfl, hd⟩ | ⟨rfl, hd⟩)
              · obtain rfl : d = '*' := by simpa using hd
                exact hslash left inner rfl
              · obtain rfl : d = '-' := by simpa using hd
                exact hdashes left inner rfl

/-- A bracketed name without a hazard is read as code, unless a tag stands in it. -/
theorem advance_of_bracket {body rest : List Char} (hsql : lexemes sql = front ++ .quoted .bracket body :: later)
    (hread : ReadTo sql read ('[' :: (body ++ ']' :: rest)))
    (hfront : read.flatMap Piece.text = front.flatMap Lexeme.text)
    (hhazard : (Lexeme.quoted .bracket body).hazard? = none) :
    Advance sql (front ++ [.quoted .bracket body]) rest := by
  obtain ⟨hquotes, hdashes, hslash⟩ := Lexeme.hazard?_bracket_eq_none_iff.mp hhazard
  have hwhole : ReadTo sql read (('[' :: (body ++ [']'])) ++ rest) := by simpa using hread
  rcases hwhole.code_run fun _ _ _ => opens_nothing_of_bracket hquotes hdashes hslash with
    hrun | ⟨left, right, hcut, hrun, hsome⟩
  · refine Or.inl ⟨_, hrun, ?_⟩
    rw [List.flatMap_append, List.flatMap_append, flatMap_text_code, hfront, List.flatMap_singleton]
    rfl
  · obtain ⟨⟨tag, after⟩, htag⟩ := Option.isSome_iff_exists.mp hsome
    have hleft : 0 < byteLength left := byteLength_pos (by rintro rfl; simp at hcut)
    have hsize : byteLength (Lexeme.quoted .bracket body).text =
        byteLength left + (1 + byteLength right) := by
      have htext : (Lexeme.quoted .bracket body).text = left ++ '$' :: right := hcut
      rw [htext, byteLength_append, byteLength_cons]
      rfl
    have hplace : byteLength ((read ++ left.map Piece.code).flatMap Piece.text) =
        byteLength (front.flatMap Lexeme.text) + byteLength left := by
      rw [List.flatMap_append, flatMap_text_code, byteLength_append, hfront]
    refine advance_of_tag hrun htag ?_ (Or.inr ⟨_, body, mem_placedLexemes_iff.mpr ⟨front, later, hsql, rfl⟩,
      by omega, by omega⟩) rest
    rw [hplace, List.flatMap_append, byteLength_append, List.flatMap_singleton, hsize]
    omega

/-- One piece of standard SQL that is no hazard, read the way Postgres does. -/
theorem advance (hsql : lexemes sql = front ++ piece :: later)
    (hread : ReadTo sql read ((piece :: later).flatMap Lexeme.text))
    (hfront : read.flatMap Piece.text = front.flatMap Lexeme.text) (hhazard : piece.hazard? = none)
    (hseen : piece = .code '$' → dollarTag? (later.flatMap Lexeme.blanked) = none) :
    Advance sql (front ++ [piece]) (later.flatMap Lexeme.text) := by
  obtain ⟨hreads, hlater⟩ := Lexeme.reads_of_lexemes_eq_cons (Lexeme.lexemes_of_eq_append hsql)
  generalize hrest : later.flatMap Lexeme.text = rest at hreads hlater
  generalize hwhole : (piece :: later).flatMap Lexeme.text = whole at hreads hread
  have hcopy := hreads
  cases hreads with
  | plain hquote hcomment =>
      refine advance_of_plain hread hfront (Or.inl hquote) hcomment fun hc => ?_
      rw [hlater]
      exact hseen (by rw [hc])
  | unmatched quote hclose =>
      by_cases hbracket : quote = .bracket
      · subst hbracket
        exact advance_of_plain hread hfront (Or.inr rfl) (by simp [OpensComment, Quote.opening])
          (by simp [Quote.opening])
      · exact advance_of_dead hread hfront (first_of_unmatched hbracket hclose) rfl _
  | @quoted quote body _ hclose =>
      by_cases hbracket : quote = .bracket
      · subst hbracket
        exact advance_of_bracket hsql hread hfront hhazard
      · have hslash : quote = .single → '\\' ∉ body := by
          rintro rfl
          simpa [Lexeme.hazard?] using hhazard
        obtain ⟨hbody, halone | ⟨after, rfl, hafter⟩⟩ := hclose
        · exact advance_of_piece hread hfront (first_of_alone hbracket hbody halone hslash) rfl
        · exact advance_of_dead hread hfront (first_of_last_pair hbracket hbody hafter hslash) rfl _
  | closedBlock | openBlock | line =>
      obtain ⟨found, hfirst, htext, -⟩ := exists_first_of_comment hcopy rfl hhazard
      exact advance_of_piece hread hfront hfirst htext

/-- A comment reached in step is dead for Postgres. -/
theorem deadBetween_of_readTo (hsql : lexemes sql = front ++ piece :: later)
    (hread : ReadTo sql read ((piece :: later).flatMap Lexeme.text))
    (hfront : read.flatMap Piece.text = front.flatMap Lexeme.text) (hhazard : piece.hazard? = none)
    (hcomment : piece.isComment = true) :
    DeadBetween sql (byteLength (front.flatMap Lexeme.text))
      (byteLength (front.flatMap Lexeme.text) + byteLength piece.text) := by
  obtain ⟨hreads, -⟩ := Lexeme.reads_of_lexemes_eq_cons (Lexeme.lexemes_of_eq_append hsql)
  obtain ⟨c, text, hwhole⟩ : ∃ c text, (piece :: later).flatMap Lexeme.text = c :: text := by
    apply List.exists_cons_of_ne_nil
    simp [piece.text_ne_nil]
  rw [hwhole] at hreads hread
  obtain ⟨found, hfirst, htext, hdead⟩ := exists_first_of_comment hreads hcomment hhazard
  have hnext := hread.push hfirst
  rw [ReadTo, List.append_assoc] at hnext
  exact ⟨read, found, _, hnext, hdead, by rw [hfront], by rw [hfront, htext]⟩

/-- A dollar sign in front of all hazards begins no tag of ASCII. -/
theorem dollarTag?_eq_none_of_quiet {bound : Nat} (hsql : lexemes sql = front ++ .code '$' :: later)
    (hfront : byteLength (front.flatMap Lexeme.text) ≤ bound)
    (hquiet : ∀ hazard ∈ (Outline.of sql).hazards, bound < hazard.1) :
    dollarTag? (later.flatMap Lexeme.blanked) = none := by
  by_contra hsome
  have houtline : (Outline.of sql).text =
      front.flatMap Lexeme.blanked ++ '$' :: later.flatMap Lexeme.blanked := by
    rw [Outline.text_of, hsql, List.flatMap_append, List.flatMap_cons]
    rfl
  obtain ⟨place, hle, hmem⟩ := Outline.exists_dollarQuote_le houtline (Option.isSome_iff_ne_none.mpr hsome)
  have hlt := hquiet _ hmem
  rw [Lexeme.byteLength_flatMap_blanked] at hle
  dsimp only at hlt
  omega

/-- Along the pieces in front of a comment, where every hazard stands behind its beginning. -/
theorem dead_or_unseenTag_of_readTo {comment : Lexeme} (hcomment : comment.isComment = true)
    (middle : List Lexeme) (hsql : lexemes sql = front ++ (middle ++ comment :: later))
    (hread : ReadTo sql read ((middle ++ comment :: later).flatMap Lexeme.text))
    (hfront : read.flatMap Piece.text = front.flatMap Lexeme.text) {bound : Nat}
    (hbound : bound = byteLength ((front ++ middle).flatMap Lexeme.text))
    (hquiet : ∀ hazard ∈ (Outline.of sql).hazards, bound < hazard.1) :
    DeadBetween sql bound (bound + byteLength comment.text) ∨ ∃ place < bound, UnseenTag sql place := by
  induction middle generalizing front read with
  | nil =>
      rw [List.append_nil] at hbound
      rw [hbound]
      exact Or.inl (deadBetween_of_readTo hsql hread hfront
        (Outline.hazard?_eq_none_of_forall hquiet hsql hbound.ge) hcomment)
  | cons piece middle ih =>
      rw [show front ++ piece :: middle = front ++ [piece] ++ middle by simp] at hbound
      have hstep : byteLength ((front ++ [piece]).flatMap Lexeme.text) ≤ bound := by
        rw [hbound]
        simp only [List.flatMap_append, byteLength_append]
        omega
      have hle : byteLength (front.flatMap Lexeme.text) ≤ bound := by
        rw [List.flatMap_append, byteLength_append] at hstep
        omega
      have hseen : piece = .code '$' →
          dollarTag? ((middle ++ comment :: later).flatMap Lexeme.blanked) = none := by
        rintro rfl
        exact dollarTag?_eq_none_of_quiet hsql hle hquiet
      rcases advance hsql hread hfront (Outline.hazard?_eq_none_of_forall hquiet hsql hle) hseen with
        ⟨next, hnext, htext⟩ | hdead | ⟨place, hplace, hunseen⟩
      · exact ih (by rw [hsql]; simp) hnext htext hbound
      · refine Or.inl (hdead.mono hstep ?_)
        have hsize := congrArg byteLength (Lexeme.eq_text_append hsql)
        simp only [List.flatMap_append, List.flatMap_cons, byteLength_append, List.flatMap_nil,
          List.append_nil] at hsize hbound
        omega
      · exact Or.inr ⟨place, hplace.trans_le hstep, hunseen⟩

end Steps

/-- A piece that may be run shares no byte with a dead stretch. -/
theorem DeadBetween.disjoint {sql : List Char} {start stop : Nat} (h : DeadBetween sql start stop)
    {front later : List Piece} {piece : Piece} (hpieces : pieces sql = front ++ piece :: later)
    (hlive : piece.isDead = false) :
    byteLength (front.flatMap Piece.text) + byteLength piece.text ≤ start ∨
      stop ≤ byteLength (front.flatMap Piece.text) := by
  obtain ⟨left, dead, right, hcut, hdead, hstart, hstop⟩ := h
  rcases List.append_eq_append_iff.mp (hpieces.symm.trans hcut) with ⟨gap, hleft, hgap⟩ | ⟨gap, hfront, hgap⟩
  · cases gap with
    | nil =>
        obtain ⟨rfl, -⟩ := List.cons.inj hgap
        rw [hlive] at hdead
        cases hdead
    | cons first gap =>
        obtain ⟨rfl, -⟩ := List.cons.inj hgap
        left
        rw [hleft] at hstart
        simp only [List.flatMap_append, List.flatMap_cons, byteLength_append] at hstart
        omega
  · cases gap with
    | nil =>
        obtain ⟨rfl, -⟩ := List.cons.inj hgap
        rw [hlive] at hdead
        cases hdead
    | cons first gap =>
        obtain ⟨rfl, -⟩ := List.cons.inj hgap
        right
        rw [hfront]
        simp only [List.flatMap_append, List.flatMap_cons, byteLength_append]
        omega

/-- A comment that the normal form leaves out is a comment for Postgres too, or stands in a quoted span
that never closes, so that nothing Postgres may run is left out; unless Postgres opens a string in front
of it at a tag that no hazard records. -/
theorem deadBetween_of_mem_strippedComments {sql : List Char} {place : Nat} {comment : Lexeme}
    (h : (place, comment) ∈ strippedComments sql) (hseen : ∀ tagPlace < place, ¬UnseenTag sql tagPlace) :
    DeadBetween sql place (place + byteLength comment.text) ∧
      ∀ front piece later, pieces sql = front ++ piece :: later → piece.isDead = false →
        byteLength (front.flatMap Piece.text) + byteLength piece.text ≤ place ∨
          place + byteLength comment.text ≤ byteLength (front.flatMap Piece.text) := by
  obtain ⟨middle, later, hsql, hplace, hcomment, hquiet⟩ := mem_strippedComments_iff.mp h
  have hread : ReadTo sql [] ((middle ++ comment :: later).flatMap Lexeme.text) := by
    rw [← hsql, flatMap_text_lexemes]
    exact ReadTo.nil sql
  have hdead : DeadBetween sql place (place + byteLength comment.text) := by
    have hfront : ([] : List Piece).flatMap Piece.text = ([] : List Lexeme).flatMap Lexeme.text := rfl
    rcases dead_or_unseenTag_of_readTo hcomment middle hsql hread hfront hplace hquiet with
      hdead | ⟨tagPlace, hlt, hunseen⟩
    · exact hdead
    · exact absurd hunseen (hseen tagPlace hlt)
  exact ⟨hdead, fun front piece later hpieces hlive => hdead.disjoint hpieces hlive⟩

theorem not_unseenTag_of_all {sql : List Char} (h : (pieces sql).all fun
    | .tagged _ _ => false
    | _ => true) (place : Nat) : ¬UnseenTag sql place := by
  rintro ⟨front, tag, body, later, hpieces, -⟩
  have htagged := List.all_eq_true.mp h (.tagged tag body) (by rw [hpieces]; simp)
  cases htagged

/-- With a bracketed name, a string that doubles its delimiter and a comment inside a quoted name before
the comment that is left out. -/
theorem deadBetween_of_mem_strippedComments_at_tail :
    (58, Lexeme.line " ; DROP TABLE t".toList) ∈
        strippedComments "SELECT [a b], 'it''s', \x22--\x22 /* $1 ; */ FROM t WHERE a = $1-- ; DROP TABLE t".toList ∧
      DeadBetween "SELECT [a b], 'it''s', \x22--\x22 /* $1 ; */ FROM t WHERE a = $1-- ; DROP TABLE t".toList 58 75 := by
  have hmem : (58, Lexeme.line " ; DROP TABLE t".toList) ∈ strippedComments
      "SELECT [a b], 'it''s', \x22--\x22 /* $1 ; */ FROM t WHERE a = $1-- ; DROP TABLE t".toList := by
    decide +kernel
  exact ⟨hmem, (deadBetween_of_mem_strippedComments hmem
    fun place _ => not_unseenTag_of_all (by decide +kernel) place).1⟩

theorem not_deadBetween_of_all {sql : List Char} (h : (pieces sql).all fun piece => !piece.isDead)
    (start stop : Nat) : ¬DeadBetween sql start stop := by
  rintro ⟨front, piece, later, hpieces, hdead, -⟩
  have hlive := List.all_eq_true.mp h piece (by rw [hpieces]; simp)
  rw [hdead] at hlive
  cases hlive

/-- Neither kind of tag may come first: not one with a letter beyond ASCII, and not one in brackets. -/
theorem exists_live_strippedComment :
    ((12, Lexeme.line " $é$ ; DROP TABLE t".toList) ∈
        strippedComments "SELECT $é$ -- $é$ ; DROP TABLE t".toList ∧
      ¬DeadBetween "SELECT $é$ -- $é$ ; DROP TABLE t".toList 12 34) ∧
    ((13, Lexeme.line " $$ ; DROP TABLE t".toList) ∈
        strippedComments "SELECT a[$$] -- $$ ; DROP TABLE t".toList ∧
      ¬DeadBetween "SELECT a[$$] -- $$ ; DROP TABLE t".toList 13 33) :=
  ⟨⟨by decide +kernel, not_deadBetween_of_all (by decide +kernel) _ _⟩,
    ⟨by decide +kernel, not_deadBetween_of_all (by decide +kernel) _ _⟩⟩

end SqlGate.Postgres
