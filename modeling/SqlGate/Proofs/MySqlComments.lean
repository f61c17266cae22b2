import SqlGate.Proofs.EngineReading
import SqlGate.Proofs.PostgresComments
import SqlGate.Proofs.Words
import Mathlib.Data.List.Induction

/-! What the normal form leaves out and MySQL reads, which is what MariaDB reads too. Its reading and the pieces of
standard SQL go in step, or MySQL is in a line comment on whose line no quoting follows, or a quoted span is open
that never closes. At three places the two part and no hazard is recorded: at two dashes with a blank beyond ASCII
behind them, at a carriage return that ends no comment of MySQL, and at a number sign in square brackets. So a
comment that is left out is nothing that MySQL runs, unless such a place comes before it. -/

namespace SqlGate.MySql

open Unicode Engine
open Lexeme (Doubled Closes OpensComment)

/-- Where MySQL is besides quoted spans and plain comments. -/
inductive State where
  | plain
  /-- In a comment whose body is run. -/
  | executable
  /-- Between the two characters that end such a comment. -/
  | leaving
  deriving DecidableEq, Repr

/-- Whether two dashes with this text behind them open a comment: a space or a control character of ASCII comes
next, or nothing. -/
def opensBehindDashes (rest : List Char) : Bool :=
  rest.head?.all fun c => c.toNat ≤ 0x20 || c.toNat == 0x7F

/-- The first piece of the text `c :: rest`, the state behind it, and what follows it. -/
def first (state : State) (c : Char) (rest : List Char) : Piece × State × List Char :=
  match Quote.ofOpening? c with
  | some .bracket => (.code c, state, rest)
  | some quote =>
    match Postgres.closeQuoted? (quote ≠ .backtick) quote.closing [] rest with
    | some (body, rest) => (.quoted quote body.reverse, state, rest)
    | none => (.openQuoted quote rest, state, [])
  | none =>
    match c, rest with
    | '#', rest => (.line .hash (rest.takeWhile (· != '\n')), state, rest.dropWhile (· != '\n'))
    | '-', '-' :: rest =>
      if opensBehindDashes rest then
        (.line .dashes (rest.takeWhile (· != '\n')), state, rest.dropWhile (· != '\n'))
      else (.code '-', state, '-' :: rest)
    | '/', '*' :: rest =>
      if state = .leaving then (.code '/', .plain, '*' :: rest)
      else if ['!'].isPrefixOf rest || ['M', '!'].isPrefixOf rest then (.code '/', .executable, '*' :: rest)
      else
        let (body, closed, rest) := Lexeme.closeBlock [] rest
        (.block body.reverse closed, state, rest)
    | '*', '/' :: rest => (.code '*', if state = .executable then .leaving else state, '/' :: rest)
    | c, rest => (.code c, if state = .leaving then .plain else state, rest)

theorem text_first (state : State) (c : Char) (rest : List Char) :
    (first state c rest).1.text ++ (first state c rest).2.2 = c :: rest := by
  unfold first
  split
  · rfl
  · next quote _ hquote =>
      have hopen := Quote.opening_of_ofOpening? hquote
      split
      · next body after hclose =>
          have whole := Postgres.append_of_closeQuoted? hclose
          simpa [Piece.text, hopen] using whole
      · simp [Piece.text, hopen]
  · split
    · simp [Piece.text, LineMark.text]
    · split
      · simp [Piece.text, LineMark.text]
      · rfl
    · split
      · rfl
      · split
        · rfl
        · next after _ _ _ =>
            have whole := Lexeme.append_of_closeBlock (Eq.refl (Lexeme.closeBlock [] after))
            simpa [Piece.text] using whole
    · rfl
    · rfl

def reading : Reading where
  State := State
  start := .plain
  first := first
  text_first := text_first

section Steps

variable {rest body : List Char} {c : Char}

theorem first_code (hopen : Quote.ofOpening? c = none ∨ c = '[') (hhash : c ≠ '#') (hcomment : ¬OpensComment c rest) :
    first .plain c rest = (.code c, .plain, rest) := by
  rcases hopen with hopen | rfl
  · unfold first
    rw [hopen]
    dsimp only
    split
    · exact absurd rfl hhash
    · exact absurd (Or.inr ⟨rfl, rfl⟩) hcomment
    · exact absurd (Or.inl ⟨rfl, rfl⟩) hcomment
    · rfl
    · rfl
  · rfl

theorem first_hash (rest : List Char) : first .plain '#' rest =
    (.line .hash (rest.takeWhile (· != '\n')), .plain, rest.dropWhile (· != '\n')) := rfl

theorem first_dashes (h : opensBehindDashes rest = true) : first .plain '-' ('-' :: rest) =
    (.line .dashes (rest.takeWhile (· != '\n')), .plain, rest.dropWhile (· != '\n')) := by
  unfold first
  simp only [show Quote.ofOpening? '-' = none from rfl, h, if_true]

theorem first_of_quote {quote : Quote} (hquote : quote ≠ .bracket) (rest : List Char) :
    first .plain quote.opening rest =
      match Postgres.closeQuoted? (quote ≠ .backtick) quote.closing [] rest with
      | some (body, rest) => (.quoted quote body.reverse, .plain, rest)
      | none => (.openQuoted quote rest, .plain, []) := by
  cases quote <;> first | rfl | exact absurd rfl hquote

theorem isPrefixOf_append_star {mark : List Char} (hmark : '*' ∉ mark) {body : List Char}
    (h : mark.isPrefixOf body = false) (rest : List Char) : mark.isPrefixOf (body ++ '*' :: rest) = false := by
  induction mark generalizing body with
  | nil => cases h
  | cons c mark ih =>
      rw [List.mem_cons, not_or] at hmark
      cases body with
      | nil => simp [List.isPrefixOf, Ne.symm hmark.1]
      | cons d body =>
          rw [List.isPrefixOf, Bool.and_eq_false_iff] at h
          rw [List.cons_append, List.isPrefixOf, Bool.and_eq_false_iff]
          exact h.imp_right (ih hmark.2)

theorem first_block (hfirst : ['!'].isPrefixOf rest = false) (hsecond : ['M', '!'].isPrefixOf rest = false) :
    first .plain '/' ('*' :: rest) =
      (.block (Lexeme.closeBlock [] rest).1.reverse (Lexeme.closeBlock [] rest).2.1, .plain,
        (Lexeme.closeBlock [] rest).2.2) := by
  unfold first
  simp [show Quote.ofOpening? '/' = none from rfl, hfirst, hsecond]

/-- A block comment that is no hazard is the same one for MySQL. -/
theorem first_of_block {text : List Char} {closed : Bool} (hreads : Lexeme.Reads (c :: text) (.block body closed) rest)
    (hhazard : (Lexeme.block body closed).hazard? = none) :
    first .plain c text = (.block body closed, .plain, rest) := by
  obtain ⟨⟨hfirst, hsecond⟩, -⟩ := Lexeme.hazard?_block_eq_none_iff.mp hhazard
  cases hreads with
  | closedBlock hend =>
      rw [first_block (isPrefixOf_append_star (by decide) hfirst _) (isPrefixOf_append_star (by decide) hsecond _),
        Lexeme.closeBlock_of_closed hend]
      simp
  | openBlock hend =>
      rw [first_block hfirst hsecond, Lexeme.closeBlock_of_open hend]
      simp

theorem opensBehindDashes_of_line (hbody : ∀ c, body.head? = some c → isBlank c = true ∧ c.toNat < 0x80)
    (hrest : ∀ c, rest.head? = some c → Lexeme.endsLine c = true) : opensBehindDashes (body ++ rest) = true := by
  cases body with
  | cons c body =>
      obtain ⟨hblank, hascii⟩ := hbody c rfl
      have hsmall := of_isBlank (p := fun c => 0x80 ≤ c.toNat || c.toNat ≤ 0x20) (by decide) hblank
      rw [Bool.or_eq_true, decide_eq_true_eq, decide_eq_true_eq] at hsmall
      have hle : c.toNat ≤ 0x20 := hsmall.resolve_left (Nat.not_le.mpr hascii)
      show (decide (c.toNat ≤ 0x20) || c.toNat == 0x7F) = true
      rw [decide_eq_true hle, Bool.true_or]
  | nil =>
      cases rest with
      | nil => rfl
      | cons c rest =>
          have hends := hrest c rfl
          rw [Lexeme.endsLine, Bool.or_eq_true, beq_iff_eq, beq_iff_eq] at hends
          rcases hends with rfl | rfl
          · rfl
          · rfl

end Steps

/-- Whether no quoting and no opening of a block comment stands in the rest of the line. -/
def QuietLine (text : List Char) : Prop :=
  opensQuoting (text.takeWhile (· != '\n')) = false

theorem opensQuoting_eq_false_of_append {left right : List Char} (h : opensQuoting (left ++ right) = false) :
    opensQuoting right = false := by
  rw [opensQuoting, Bool.or_eq_false_iff, List.any_append, Bool.or_eq_false_iff] at h
  rw [opensQuoting, Bool.or_eq_false_iff]
  refine ⟨h.1.2, ?_⟩
  rw [hasPair_eq_false_iff] at h ⊢
  rintro front rest rfl
  exact h.2 (left ++ front) rest (by simp)

/-- What a piece and the text behind it must be like for both readings to go on in step. -/
def Quiet (rest : List Char) : Lexeme → Prop
  | .code c => c = '#' → QuietLine rest
  | .quoted .bracket body => ∀ before after, body = before ++ '#' :: after → '\n' ∉ after → QuietLine rest
  | .line body => (∀ c, body.head? = some c → c.toNat < 0x80) ∧ ∀ after, rest = '\r' :: after → QuietLine after
  | .quoted _ _ | .block _ _ => True

/-- Where MySQL is once standard SQL has read `passed`: at the same place, in a line comment on whose line nothing
is quoted, or in a quoted span that never closes. -/
inductive Follows (sql passed rest : List Char) : Prop where
  | together {read : List Piece} (hread : reading.ReadTo sql read State.plain rest)
      (htext : read.flatMap Piece.text = passed)
  | within {read : List Piece} {mark : LineMark} {seen line after : List Char}
      (hread : reading.ReadTo sql (read ++ [.line mark (seen ++ line)]) State.plain after)
      (htext : read.flatMap Piece.text ++ (mark.text ++ seen) = passed) (hrest : rest = line ++ after)
      (hne : line ≠ []) (hline : '\n' ∉ line) (hafter : ∀ c, after.head? = some c → c = '\n') (hquiet : opensQuoting line = false)
  | dead {start : Nat} (hdead : reading.DeadBetween sql start (byteLength sql)) (hle : start ≤ byteLength passed)

namespace Follows

variable {sql passed text rest seen : List Char} {read : List Piece} {mark : LineMark} {piece : Lexeme} {c : Char}

/-- A line comment of which `line` is left; at its end both readings are together again. -/
theorem of_within {line after : List Char}
    (hread : reading.ReadTo sql (read ++ [.line mark (seen ++ line)]) State.plain after)
    (htext : read.flatMap Piece.text ++ (mark.text ++ seen) = passed) (hline : '\n' ∉ line)
    (hafter : ∀ c, after.head? = some c → c = '\n') (hquiet : opensQuoting line = false) :
    Follows sql passed (line ++ after) := by
  by_cases hempty : line = []
  · subst hempty
    rw [List.append_nil] at hread
    refine .together hread ?_
    rw [List.flatMap_append, List.flatMap_singleton]
    exact htext
  · exact .within hread htext rfl hempty hline hafter hquiet

/-- A line comment that MySQL reads further than `seen`. -/
theorem of_line (hread : reading.ReadTo sql (read ++ [.line mark ((seen ++ rest).takeWhile (· != '\n'))]) State.plain
      ((seen ++ rest).dropWhile (· != '\n'))) (hseen : '\n' ∉ seen) (hquiet : QuietLine rest) :
    Follows sql (read.flatMap Piece.text ++ (mark.text ++ seen)) rest := by
  have hchars : ∀ c ∈ seen, (c != '\n') = true := by
    intro c hc
    exact bne_iff_ne.mpr fun heq => hseen (heq ▸ hc)
  rw [List.takeWhile_append_of_pos hchars, List.dropWhile_append_of_pos hchars] at hread
  rw [← @List.takeWhile_append_dropWhile _ (· != '\n') rest]
  refine of_within hread rfl ?_ ?_ hquiet
  · intro hmem
    exact absurd (List.mem_takeWhile_imp hmem) (by decide)
  · intro c hc
    have hstop := List.head?_dropWhile_not (· != '\n') rest
    rw [hc] at hstop
    simpa using hstop

theorem of_first {found : Piece} {after : List Char} (hread : reading.ReadTo sql read State.plain (c :: text))
    (htext : read.flatMap Piece.text = passed) (hfirst : first .plain c text = (found, .plain, after))
    (hsame : found.text = piece.text) : Follows sql (passed ++ piece.text) after := by
  have hnext : reading.ReadTo sql (read ++ [found]) State.plain after := hread.push hfirst
  refine .together hnext ?_
  rw [List.flatMap_append, List.flatMap_singleton, htext, hsame]

theorem of_openQuoted {quote : Quote} {body : List Char} (hread : reading.ReadTo sql read State.plain (c :: text))
    (htext : read.flatMap Piece.text = passed) (hfirst : first .plain c text = (.openQuoted quote body, .plain, []))
    (more rest : List Char) : Follows sql (passed ++ more) rest := by
  have hnext : reading.ReadTo sql (read ++ [.openQuoted quote body]) State.plain [] := hread.push hfirst
  refine .dead (hnext.deadBetween_end rfl) ?_
  rw [htext, byteLength_append]
  exact Nat.le_add_right _ _

/-- Characters that open nothing are code, up to a number sign and from the next line on. -/
theorem of_chars {chars : List Char} (hread : reading.ReadTo sql read State.plain (chars ++ rest))
    (hchars : ∀ front c later, chars = front ++ c :: later →
      (Quote.ofOpening? c = none ∨ c = '[') ∧ ¬OpensComment c (later ++ rest))
    (hhash : ∀ before after, chars = before ++ '#' :: after → '\n' ∉ after → QuietLine rest) :
    Follows sql (read.flatMap Piece.text ++ chars) rest := by
  induction hsize : chars.length using Nat.strongRecOn generalizing chars read with
  | ind size ih =>
      cases chars with
      | nil => exact .together hread (List.append_nil _).symm
      | cons c chars =>
          rw [List.length_cons] at hsize
          by_cases hc : c = '#'
          · subst hc
            have hline : reading.ReadTo sql (read ++ [.line .hash ((chars ++ rest).takeWhile (· != '\n'))])
                State.plain ((chars ++ rest).dropWhile (· != '\n')) := hread.push (first_hash (chars ++ rest))
            by_cases hnext : '\n' ∈ chars
            · obtain ⟨seen, later, rfl, hseen⟩ := List.eq_append_cons_of_mem hnext
              obtain ⟨htake, hdrop⟩ := @Lexeme.takeWhile_append_of_stop _ (· != '\n') seen ('\n' :: (later ++ rest))
                (fun c hc => bne_iff_ne.mpr fun heq => hseen (heq ▸ hc)) (by simp)
              rw [List.append_assoc, List.cons_append, htake, hdrop] at hline
              have hlater := ih ('\n' :: later).length (by simp at hsize ⊢; omega) hline
                (fun front d after hcut => hchars ('#' :: (seen ++ front)) d after (by rw [hcut]; simp))
                (fun before after hcut => hhash ('#' :: (seen ++ before)) after (by rw [hcut]; simp)) rfl
              have hpassed : (read ++ [Piece.line .hash seen]).flatMap Piece.text ++ '\n' :: later =
                  read.flatMap Piece.text ++ '#' :: (seen ++ '\n' :: later) := by
                simp [Piece.text, LineMark.text]
              rwa [hpassed] at hlater
            · exact of_line hline hnext (hhash [] chars rfl hnext)
          · obtain ⟨hopen, hcomment⟩ := hchars [] c chars rfl
            have hstep : reading.ReadTo sql (read ++ [.code c]) State.plain (chars ++ rest) :=
              hread.push (first_code hopen hc hcomment)
            have hlater := ih chars.length (by omega) hstep
              (fun front d after hcut => hchars (c :: front) d after (by rw [hcut]; rfl))
              (fun before after hcut => hhash (c :: before) after (by rw [hcut]; rfl)) rfl
            rw [List.flatMap_append, List.append_assoc] at hlater
            exact hlater

theorem quietLine_of_line {body : List Char} (hrest : ∀ c, rest.head? = some c → Lexeme.endsLine c = true)
    (hquiet : Quiet rest (.line body)) : QuietLine rest := by
  cases rest with
  | nil => rfl
  | cons c rest =>
      have hends := hrest c rfl
      rw [Lexeme.endsLine, Bool.or_eq_true, beq_iff_eq, beq_iff_eq] at hends
      rcases hends with rfl | rfl
      · have hlater := hquiet.2 rest rfl
        rw [QuietLine, opensQuoting, Bool.or_eq_false_iff] at hlater
        rw [QuietLine, List.takeWhile_cons_of_pos (by decide), opensQuoting, Bool.or_eq_false_iff]
        refine ⟨hlater.1, ?_⟩
        cases hline : rest.takeWhile (· != '\n') with
        | nil => rfl
        | cons d line =>
            rw [hline] at hlater
            exact hlater.2
      · rfl

/-- A bracketed name, which MySQL reads as code and maybe a line comment. -/
theorem of_bracket {body : List Char} (hread : reading.ReadTo sql read State.plain ('[' :: (body ++ ']' :: rest)))
    (htext : read.flatMap Piece.text = passed) (hhazard : (Lexeme.quoted .bracket body).hazard? = none)
    (hquiet : Quiet rest (.quoted .bracket body)) :
    Follows sql (passed ++ (Lexeme.quoted .bracket body).text) rest := by
  obtain ⟨hquotes, hdashes, hslash⟩ := Lexeme.hazard?_bracket_eq_none_iff.mp hhazard
  have hwhole : reading.ReadTo sql read State.plain (('[' :: (body ++ [']'])) ++ rest) := by
    simpa using hread
  rw [← htext]
  refine of_chars hwhole (fun _ _ _ => Postgres.opens_nothing_of_bracket hquotes hdashes hslash) ?_
  intro before after hcut hline
  cases before with
  | nil => exact absurd (List.cons.inj hcut).1 (by decide)
  | cons first before =>
      rcases cut_of_append (List.cons.inj hcut).2 with ⟨tail, hbody, rfl⟩ | ⟨gap, -, hend⟩
      · exact hquiet before tail hbody fun hmem => hline (List.mem_append_left _ hmem)
      · have hmem : '#' ∈ [Quote.bracket.closing] := by
          rw [hend]
          simp
        exact absurd hmem (by decide)

theorem of_quoted {quote : Quote} {body : List Char} (hbracket : quote ≠ .bracket)
    (hread : reading.ReadTo sql read State.plain (quote.opening :: (body ++ quote.closing :: rest)))
    (htext : read.flatMap Piece.text = passed) (hclose : Closes quote.closing body rest)
    (hhazard : (Lexeme.quoted quote body).hazard? = none) :
    Follows sql (passed ++ (Lexeme.quoted quote body).text) rest := by
  have hslash : decide (quote ≠ .backtick) = true → '\\' ∉ body := by
    intro hescapes
    cases quote with
    | single => simpa [Lexeme.hazard?] using hhazard
    | double => simpa [Lexeme.hazard?] using hhazard
    | backtick => exact absurd rfl (of_decide_eq_true hescapes)
    | bracket => exact absurd rfl hbracket
  obtain ⟨hbody, halone | ⟨after, rfl, hafter⟩⟩ := hclose
  · have hfirst : first .plain quote.opening (body ++ quote.closing :: rest) = (.quoted quote body, .plain, rest) := by
      rw [first_of_quote hbracket, Postgres.closeQuoted?_of_alone hbody halone hslash]
      simp
    exact of_first hread htext hfirst rfl
  · have hfirst : first .plain quote.opening (body ++ quote.closing :: quote.closing :: after) =
        (.openQuoted quote (body ++ quote.closing :: quote.closing :: after), .plain, []) := by
      rw [first_of_quote hbracket, Postgres.closeQuoted?_of_last_pair hbody hafter hslash]
    exact of_openQuoted hread htext hfirst _ _

theorem of_reads (hread : reading.ReadTo sql read State.plain text) (htext : read.flatMap Piece.text = passed)
    (hreads : Lexeme.Reads text piece rest) (hhazard : piece.hazard? = none) (hquiet : Quiet rest piece) :
    Follows sql (passed ++ piece.text) rest := by
  cases hreads with
  | @plain c _ hquote hcomment =>
      by_cases hc : c = '#'
      · subst hc
        rw [← htext]
        exact @of_line sql rest [] read .hash (hread.push (first_hash rest)) (by simp) (hquiet rfl)
      · exact of_first hread htext (first_code (Or.inl hquote) hc hcomment) rfl
  | unmatched quote hclose =>
      by_cases hbracket : quote = .bracket
      · subst hbracket
        refine of_first hread htext (first_code (Or.inr rfl) (by decide) ?_) rfl
        simp [OpensComment, Quote.opening]
      · have hfirst : first .plain quote.opening rest = (.openQuoted quote rest, .plain, []) := by
          rw [first_of_quote hbracket, Postgres.closeQuoted?_of_notMem hclose]
        exact of_openQuoted hread htext hfirst _ rest
  | @quoted quote body _ hclose =>
      by_cases hbracket : quote = .bracket
      · subst hbracket
        exact of_bracket hread htext hhazard hquiet
      · exact of_quoted hbracket hread htext hclose hhazard
  | closedBlock hend => exact of_first hread htext (first_of_block (.closedBlock hend) hhazard) rfl
  | openBlock hend => exact of_first hread htext (first_of_block (.openBlock hend) hhazard) rfl
  | @line body rest hbody hrest =>
      have hblank := Lexeme.hazard?_line_eq_none_iff.mp hhazard
      have hopens := opensBehindDashes_of_line (fun c hc => ⟨hblank c hc, hquiet.1 c hc⟩) hrest
      have hseen : '\n' ∉ body := fun hmem => absurd (hbody _ hmem) (by decide)
      rw [← htext]
      exact of_line (hread.push (first_dashes hopens)) hseen (quietLine_of_line hrest hquiet)

/-- A piece that begins on a line where nothing is quoted has no end of a line in it. -/
theorem newline_notMem_text {line after : List Char} (hreads : Lexeme.Reads text piece rest)
    (htext : text = line ++ after) (hne : line ≠ []) (hline : '\n' ∉ line)
    (hafter : ∀ c, after.head? = some c → c = '\n') (hquiet : opensQuoting line = false) : '\n' ∉ piece.text := by
  obtain ⟨hopens, hpair⟩ := Bool.or_eq_false_iff.mp hquiet
  have hquote : ∀ {quote : Quote}, text.head? ≠ some quote.opening := by
    intro quote hhead
    rw [htext, List.head?_append_of_ne_nil _ hne] at hhead
    have hnot := List.any_eq_false.mp hopens _ (List.mem_of_head? hhead)
    rw [Quote.ofOpening?_opening] at hnot
    exact hnot rfl
  have hblock : ∀ {later : List Char}, text ≠ '/' :: '*' :: later := by
    intro later hlater
    rw [htext] at hlater
    cases line with
    | nil => exact hne rfl
    | cons c line =>
        obtain ⟨rfl, hrest⟩ := List.cons.inj hlater
        cases line with
        | nil =>
            change after = '*' :: later at hrest
            exact absurd (hafter '*' (by rw [hrest]; rfl)) (by decide)
        | cons d line =>
            obtain ⟨rfl, -⟩ := List.cons.inj hrest
            exact absurd hpair (by simp [hasPair])
  cases hreads with
  | @plain c =>
      intro hmem
      obtain rfl := List.mem_singleton.mp hmem
      have hhead := congrArg List.head? htext
      rw [List.head?_append_of_ne_nil _ hne] at hhead
      exact hline (List.mem_of_head? hhead.symm)
  | unmatched quote => exact absurd rfl (@hquote quote)
  | quoted quote => exact absurd rfl (@hquote quote)
  | closedBlock => exact absurd rfl hblock
  | openBlock => exact absurd rfl hblock
  | line hbody =>
      intro hmem
      simp only [Lexeme.text, List.mem_cons] at hmem
      rcases hmem with h | h | hmem
      · exact absurd h (by decide)
      · exact absurd h (by decide)
      · exact absurd (hbody _ hmem) (by decide)

/-- On a line where nothing is quoted a piece ends on the line. -/
theorem exists_rest_of_line {line after : List Char} (hreads : Lexeme.Reads text piece rest)
    (htext : text = line ++ after) (hne : line ≠ []) (hline : '\n' ∉ line)
    (hafter : ∀ c, after.head? = some c → c = '\n') (hquiet : opensQuoting line = false) :
    ∃ more, line = piece.text ++ more ∧ rest = more ++ after := by
  have hpiece : '\n' ∉ piece.text := newline_notMem_text hreads htext hne hline hafter hquiet
  have hwhole := hreads.text_append
  rw [htext] at hwhole
  rcases List.append_eq_append_iff.mp hwhole with ⟨more, hmore, hrest⟩ | ⟨more, hmore, hrest⟩
  · exact ⟨more, hmore, hrest⟩
  · cases more with
    | nil => exact ⟨[], by rw [hmore]; simp, hrest.symm⟩
    | cons d more =>
        obtain rfl := hafter d (by rw [hrest]; rfl)
        exact absurd (by rw [hmore]; simp) hpiece

theorem step (h : Follows sql passed text) (hreads : Lexeme.Reads text piece rest) (hhazard : piece.hazard? = none)
    (hquiet : Quiet rest piece) : Follows sql (passed ++ piece.text) rest := by
  cases h with
  | together hread htext => exact of_reads hread htext hreads hhazard hquiet
  | dead hdead hle =>
      refine .dead hdead (hle.trans ?_)
      rw [byteLength_append]
      exact Nat.le_add_right _ _
  | within hread htext hrest hne hline hafter hquietLine =>
      obtain ⟨more, rfl, rfl⟩ := exists_rest_of_line hreads hrest hne hline hafter hquietLine
      rw [← List.append_assoc] at hread
      refine of_within hread ?_ (fun hmem => hline (List.mem_append_right _ hmem)) hafter
        (opensQuoting_eq_false_of_append hquietLine)
      rw [← htext]
      simp

/-- A comment from where both readings are. -/
theorem deadBetween_of_reads (hread : reading.ReadTo sql read State.plain text)
    (htext : read.flatMap Piece.text = passed) (hreads : Lexeme.Reads text piece rest)
    (hcomment : piece.isComment = true) (hhazard : piece.hazard? = none)
    (hascii : ∀ body, piece = .line body → ∀ c, body.head? = some c → c.toNat < 0x80) :
    reading.DeadBetween sql (byteLength passed) (byteLength passed + byteLength piece.text) := by
  have hdead : ∀ {c : Char} {text after : List Char} {found : Piece}, reading.ReadTo sql read State.plain (c :: text) →
      first .plain c text = (found, .plain, after) → found.isDead = true → byteLength piece.text ≤ byteLength found.text →
        reading.DeadBetween sql (byteLength passed) (byteLength passed + byteLength piece.text) := by
    intro c text after found hread hfirst hdead hle
    have hnext : reading.ReadTo sql (read ++ [found]) State.plain after := hread.push hfirst
    rw [← htext]
    exact (hnext.deadBetween hdead).mono le_rfl (Nat.add_le_add_left hle _)
  cases hreads with
  | plain => cases hcomment
  | unmatched => cases hcomment
  | quoted => cases hcomment
  | closedBlock hend => exact hdead hread (first_of_block (.closedBlock hend) hhazard) rfl le_rfl
  | openBlock hend => exact hdead hread (first_of_block (.openBlock hend) hhazard) rfl le_rfl
  | @line body rest hbody hrest =>
      have hblank := Lexeme.hazard?_line_eq_none_iff.mp hhazard
      have hopens := opensBehindDashes_of_line (fun c hc => ⟨hblank c hc, hascii body rfl c hc⟩) hrest
      have hchars : ∀ c ∈ body, (c != '\n') = true := by
        intro c hc
        refine bne_iff_ne.mpr ?_
        rintro rfl
        exact absurd (hbody _ hc) (by decide)
      refine hdead hread (first_dashes hopens) rfl ?_
      rw [List.takeWhile_append_of_pos hchars]
      show byteLength ('-' :: '-' :: body) ≤ byteLength ('-' :: '-' :: (body ++ rest.takeWhile (· != '\n')))
      simp only [byteLength_cons, byteLength_append]
      omega

theorem deadBetween (h : Follows sql passed text) (hsql : sql = passed ++ text) (hreads : Lexeme.Reads text piece rest)
    (hcomment : piece.isComment = true) (hhazard : piece.hazard? = none)
    (hascii : ∀ body, piece = .line body → ∀ c, body.head? = some c → c.toNat < 0x80) :
    reading.DeadBetween sql (byteLength passed) (byteLength passed + byteLength piece.text) := by
  cases h with
  | together hread htext => exact deadBetween_of_reads hread htext hreads hcomment hhazard hascii
  | dead hdead hle =>
      refine hdead.mono hle ?_
      rw [hsql, ← hreads.text_append, byteLength_append, byteLength_append]
      omega
  | within hread htext hrest hne hline hafter hquiet =>
      obtain ⟨more, rfl, -⟩ := exists_rest_of_line hreads hrest hne hline hafter hquiet
      rw [← htext]
      refine (hread.deadBetween rfl).mono ?_ ?_
      · rw [byteLength_append]
        exact Nat.le_add_right _ _
      · simp only [Piece.text, byteLength_append]
        omega

theorem of_lexemes {front later : List Lexeme} (hsql : lexemes sql = front ++ later)
    (hquiet : ∀ left piece right, front = left ++ piece :: right →
      piece.hazard? = none ∧ Quiet ((right ++ later).flatMap Lexeme.text) piece) :
    Follows sql (front.flatMap Lexeme.text) (later.flatMap Lexeme.text) := by
  induction front using List.reverseRecOn generalizing later with
  | nil =>
      rw [List.nil_append] at hsql
      rw [← hsql, flatMap_text_lexemes]
      exact .together (Reading.ReadTo.nil sql) rfl
  | append_singleton front piece ih =>
      rw [List.append_assoc] at hsql
      obtain ⟨hhazard, hpiece⟩ := hquiet front piece [] rfl
      obtain ⟨hreads, -⟩ := Lexeme.reads_of_lexemes_eq_cons (Lexeme.lexemes_of_eq_append hsql)
      rw [List.flatMap_append, List.flatMap_singleton]
      refine (ih hsql fun left inner right hfront => ?_).step hreads hhazard hpiece
      have hinner := hquiet left inner (right ++ [piece]) (by rw [hfront]; simp)
      rwa [List.append_assoc] at hinner

end Follows

/-- The places where MySQL and standard SQL may part with no hazard recorded. -/
inductive Slip (sql : List Char) : Nat → Prop where
  /-- A blank beyond ASCII comes behind two dashes, which open no comment of MySQL. -/
  | wideBlank {front later : List Lexeme} {body : List Char} {c : Char}
      (hsql : lexemes sql = front ++ .line (c :: body) :: later) (hwide : 0x80 ≤ c.toNat) :
      Slip sql (byteLength (front.flatMap Lexeme.text))
  /-- A carriage return, behind which quoting follows on the line, ends the comment of standard SQL only. -/
  | carriageReturn {front later : List Lexeme} {body rest : List Char}
      (hsql : lexemes sql = front ++ .line body :: later) (hrest : later.flatMap Lexeme.text = '\r' :: rest)
      (hquoting : ¬QuietLine rest) :
      Slip sql (byteLength (front.flatMap Lexeme.text) + byteLength (Lexeme.line body).text)
  /-- A number sign in square brackets opens a comment of MySQL, which hides quoting behind the brackets. -/
  | bracketed {front later : List Lexeme} {before after : List Char}
      (hsql : lexemes sql = front ++ .quoted .bracket (before ++ '#' :: after) :: later) (hline : '\n' ∉ after)
      (hquoting : ¬QuietLine (later.flatMap Lexeme.text)) :
      Slip sql (byteLength (front.flatMap Lexeme.text) + byteLength ('[' :: before))

/-- A piece in front of all hazards and of all slips keeps both readings in step. -/
theorem quiet_of_not_slip {sql : List Char} {left right : List Lexeme} {piece : Lexeme}
    (hsql : lexemes sql = left ++ piece :: right)
    (hhazards : ∀ hazard ∈ (Outline.of sql).hazards, byteLength (left.flatMap Lexeme.text) < hazard.1)
    (hslip : ∀ spot ≤ byteLength (left.flatMap Lexeme.text) + byteLength piece.text, ¬Slip sql spot) :
    Quiet (right.flatMap Lexeme.text) piece := by
  cases piece with
  | code c =>
      rintro rfl
      by_contra hloud
      have hquoting : opensQuoting (('#' :: right.flatMap Lexeme.text).takeWhile (· != '\n')) = true := by
        by_contra hnone
        apply hloud
        rw [List.takeWhile_cons_of_pos (by decide), Bool.not_eq_true] at hnone
        exact @opensQuoting_eq_false_of_append ['#'] _ hnone
      have hmem : (byteLength (left.flatMap Lexeme.text), Hazard.hashComment) ∈ (Outline.of sql).hazards :=
        Outline.mem_hazards_of_iff.mpr (Or.inr (Or.inr ⟨rfl, left, right, hsql, hquoting, rfl⟩))
      exact Nat.lt_irrefl _ (hhazards _ hmem)
  | quoted quote body =>
      cases quote with
      | single => trivial
      | double => trivial
      | backtick => trivial
      | bracket =>
          rintro before after rfl hline
          by_contra hloud
          refine hslip _ ?_ (.bracketed hsql hline hloud)
          simp only [Lexeme.text, Quote.opening, byteLength_cons, byteLength_append]
          omega
  | block body closed => trivial
  | line body =>
      refine ⟨fun c hc => ?_, fun after hrest => ?_⟩
      · obtain ⟨body, rfl⟩ := List.head?_eq_some_iff.mp hc
        by_contra hwide
        exact hslip _ (Nat.le_add_right _ _) (.wideBlank hsql (Nat.le_of_not_lt hwide))
      · by_contra hloud
        exact hslip _ le_rfl (.carriageReturn hsql hrest hloud)

/-- A comment that the normal form leaves out is a comment for MySQL too, or it stands in a quoted span that never
closes; unless MySQL and standard SQL part in front of it at a place that no hazard records. -/
theorem deadBetween_of_not_slip {sql : List Char} {place : Nat} {comment : Lexeme}
    (h : (place, comment) ∈ strippedComments sql) (hslip : ∀ spot ≤ place, ¬Slip sql spot) :
    reading.DeadBetween sql place (place + byteLength comment.text) := by
  obtain ⟨front, later, hsql, rfl, hcomment, hhazards⟩ := mem_strippedComments_iff.mp h
  have hfollows : Follows sql (front.flatMap Lexeme.text) ((comment :: later).flatMap Lexeme.text) := by
    refine Follows.of_lexemes hsql fun left piece right hfront => ?_
    have hcut : lexemes sql = left ++ piece :: (right ++ comment :: later) := by
      rw [hsql, hfront]
      simp
    have hsize : byteLength (left.flatMap Lexeme.text) + byteLength piece.text ≤
        byteLength (front.flatMap Lexeme.text) := by
      rw [hfront]
      simp only [List.flatMap_append, List.flatMap_cons, byteLength_append]
      omega
    refine ⟨Outline.hazard?_eq_none_of_forall hhazards hcut (by omega), quiet_of_not_slip hcut (fun hazard hmem => ?_) fun spot hspot => ?_⟩
    · exact Nat.lt_of_le_of_lt (by omega) (hhazards hazard hmem)
    · exact hslip spot (hspot.trans hsize)
  obtain ⟨hreads, -⟩ := Lexeme.reads_of_lexemes_eq_cons (Lexeme.lexemes_of_eq_append hsql)
  refine hfollows.deadBetween (Lexeme.eq_text_append hsql) hreads hcomment
    (Outline.hazard?_eq_none_of_forall hhazards hsql le_rfl) ?_
  rintro body rfl c hc
  obtain ⟨body, rfl⟩ := List.head?_eq_some_iff.mp hc
  by_contra hwide
  exact hslip _ le_rfl (.wideBlank hsql (Nat.le_of_not_lt hwide))

theorem not_slip_of_all {sql : List Char} (hreturn : '\r' ∉ sql) (h : (lexemes sql).all fun
    | .line (c :: _) => decide (c.toNat < 0x80)
    | .quoted .bracket body => !body.contains '#'
    | _ => true) (spot : Nat) : ¬Slip sql spot := by
  rintro (⟨hsql, hwide⟩ | ⟨hsql, hrest, -⟩ | ⟨hsql, -, -⟩)
  · have hascii := List.all_eq_true.mp h _ (hsql ▸ List.mem_append_right _ (List.mem_cons_self ..))
    exact absurd (of_decide_eq_true hascii) (Nat.not_lt.mpr hwide)
  · apply hreturn
    rw [Lexeme.eq_text_append hsql, List.flatMap_cons, hrest]
    simp
  · have hplain := List.all_eq_true.mp h _ (hsql ▸ List.mem_append_right _ (List.mem_cons_self ..))
    simp at hplain

/-- With a bracketed name, a string that doubles its delimiter and a number sign in front of the comment. -/
theorem deadBetween_of_not_slip_at_hash :
    (34, Lexeme.line " ; DROP TABLE t".toList) ∈
        strippedComments "SELECT [a], 'it''s' # all\n FROM t -- ; DROP TABLE t".toList ∧
      reading.DeadBetween "SELECT [a], 'it''s' # all\n FROM t -- ; DROP TABLE t".toList 34 51 := by
  have hmem : (34, Lexeme.line " ; DROP TABLE t".toList) ∈
      strippedComments "SELECT [a], 'it''s' # all\n FROM t -- ; DROP TABLE t".toList := by decide +kernel
  exact ⟨hmem, deadBetween_of_not_slip hmem fun spot _ =>
    not_slip_of_all (by decide) (by decide +kernel) spot⟩

/-- Behind a place of each of the three kinds a comment is left out that MySQL reads as something else. -/
theorem exists_live_stripped :
    ((9, Lexeme.line "\u00a0; DROP TABLE t".toList) ∈ strippedComments "SELECT 1 --\u00a0; DROP TABLE t".toList ∧
      ¬reading.DeadBetween "SELECT 1 --\u00a0; DROP TABLE t".toList 9 27) ∧
    ((19, Lexeme.line " ' ; DROP TABLE t".toList) ∈
        strippedComments "SELECT 1 -- a\r' \n' -- ' ; DROP TABLE t".toList ∧
      ¬reading.DeadBetween "SELECT 1 -- a\r' \n' -- ' ; DROP TABLE t".toList 19 38) ∧
    ((17, Lexeme.line " ' ; DROP TABLE t".toList) ∈
        strippedComments "SELECT a[#] ' \n' -- ' ; DROP TABLE t".toList ∧
      ¬reading.DeadBetween "SELECT a[#] ' \n' -- ' ; DROP TABLE t".toList 17 36) :=
  ⟨⟨by decide +kernel, Reading.not_deadBetween_of_all (by decide +kernel)⟩,
    ⟨by decide +kernel, Reading.not_deadBetween_of_all (by decide +kernel)⟩,
    ⟨by decide +kernel, Reading.not_deadBetween_of_all (by decide +kernel)⟩⟩

end SqlGate.MySql
