import SqlGate.Proofs.LimitTwice
import SqlGate.Proofs.Shown

/-! What limiting leaves alone. A statement is limited by one edit, which goes between two of its pieces or
takes the place of a number in its code, so its quoted spans and comments are those that it had. -/

namespace SqlGate

open Unicode

def Lexeme.isCode : Lexeme → Bool
  | .code _ => true
  | .quoted _ _ | .block _ _ | .line _ => false

/-- Whether each quoted span and each comment of a statement ends at the first of two bytes or in front of it, or
begins at the second or behind it. A place that goes through none of them is such a stretch of no bytes. -/
def CodeBetween (sql : List Char) (start stop : Nat) : Prop :=
  ∀ placed ∈ placedLexemes sql, placed.2.isCode = false →
    placed.1 + byteLength placed.2.text ≤ start ∨ stop ≤ placed.1

/-- A stretch of digits between two texts, as long as it can be. -/
structure DigitRun (before digits after : List Char) : Prop where
  ne_nil : digits ≠ []
  all_digit : ∀ c ∈ digits, isDigit c = true
  opens : ∀ c, before.getLast? = some c → isDigit c = false
  closes : ∀ c, after.head? = some c → isDigit c = false

/-- What limiting may make of a statement, by what it reports: the same text, the text with a clause put in, or
with the limit in the place of a number. -/
inductive EditedOnce (sql : List Char) (limit : Nat) : Limited → Prop where
  | same {outcome : Outcome} (houtcome : outcome.isModified = false) : EditedOnce sql limit ⟨sql, outcome⟩
  | clause {before after lead tail : List Char} {page : Option Nat} (hsql : sql = before ++ after)
      (haround : Around lead tail) (hplace : CodeBetween sql (byteLength before) (byteLength before)) :
      EditedOnce sql limit
        ⟨before ++ (lead ++ (Nat.toDigits 10 limit ++ tail) ++ after), Slot.outcome page limit⟩
  | number {before digits after : List Char} {existing : Nat} (hsql : sql = before ++ (digits ++ after))
      (hrun : DigitRun before digits after)
      (hplace : CodeBetween sql (byteLength before) (byteLength before + byteLength digits)) :
      EditedOnce sql limit ⟨before ++ (Nat.toDigits 10 limit ++ after), .capped existing limit⟩

theorem Lexeme.shown_zero (offset : Nat) (pieces : List Lexeme) : shown 0 offset pieces = pieces.flatMap Lexeme.text :=
  shown_eq_text (Nat.zero_le offset)

/-- Between pieces, over code or over nothing, no quoted span and no comment is gone through. -/
theorem codeBetween_of_lexemes {sql old : List Char} {left right : List Lexeme}
    (h : lexemes sql = left ++ (old.map Lexeme.code ++ right)) :
    CodeBetween sql (byteLength (left.flatMap Lexeme.text))
      (byteLength (left.flatMap Lexeme.text) + byteLength old) := by
  rintro ⟨offset, piece⟩ hmem hcode
  obtain ⟨front, later, hcut, hoffset⟩ := mem_placedLexemes_iff.mp hmem
  rw [h] at hcut
  dsimp only at hcode ⊢
  rcases Lexeme.cut_of_joined hcut with ⟨gap, hleft, -⟩ | ⟨c, -, rfl⟩ | ⟨gap, -, hfront⟩
  · left
    rw [hoffset, hleft]
    simp only [List.flatMap_append, List.flatMap_cons, byteLength_append]
    omega
  · cases hcode
  · right
    rw [hoffset, hfront]
    simp only [List.flatMap_append, Lexeme.flatMap_text_code, byteLength_append]
    omega

namespace Site

variable {sql old new : List Char} {left right : List Lexeme}

theorem codeBetween (h : Site sql left old right) :
    CodeBetween sql (byteLength (left.flatMap Lexeme.text))
      (byteLength (left.flatMap Lexeme.text) + byteLength old) :=
  codeBetween_of_lexemes h.lexemes_eq

/-- Code that takes the place of code leaves the quoted spans and the comments. -/
theorem filter_lexemes_joined (h : Site sql left old right) (hnew : ∀ c ∈ new, isClauseChar c = true)
    (hne : new ≠ []) :
    (lexemes (joined left new right)).filter (!·.isCode) = (lexemes sql).filter (!·.isCode) := by
  have hcode : ∀ text : List Char, (text.map Lexeme.code).filter (!·.isCode) = [] := by
    intro text
    rw [List.filter_eq_nil_iff]
    intro piece hpiece
    obtain ⟨c, -, rfl⟩ := List.mem_map.mp hpiece
    exact Bool.not_eq_true _ ▸ rfl
  rw [h.lexemes_joined hnew hne, h.lexemes_eq]
  simp only [List.filter_append, hcode, List.nil_append]

/-- A number that the outline shows between other characters is one in the statement. -/
theorem digitRun (h : Site sql left old right) (hne : old ≠ []) (hdigits : ∀ c ∈ old, isDigit c = true)
    (hopens : ∀ c, (left.flatMap Lexeme.blanked).getLast? = some c → isDigit c = false)
    (hcloses : ∀ c, (right.flatMap Lexeme.blanked).head? = some c → isDigit c = false) :
    DigitRun (left.flatMap Lexeme.text) old (right.flatMap Lexeme.text) where
  ne_nil := hne
  all_digit := hdigits
  opens c hc := by
    by_contra hdigit
    rw [← Lexeme.shown_zero 0] at hc
    have hlast := Lexeme.getLast_of_shown h.settled hc (isWord_of_isDigit (Bool.of_not_eq_false hdigit))
    exact hdigit (hopens c hlast)
  closes c hc := by
    by_contra hdigit
    rw [← Lexeme.shown_zero 0] at hc
    have hhead := Lexeme.head_blanked_of_shown hc (isWord_of_isDigit (Bool.of_not_eq_false hdigit))
    exact hdigit (hcloses c hhead)

end Site

/-- The digits of a count are a number of the statement. -/
theorem CountIn.exists_digitRun {sql front digits rest : List Char} {main : Cursor} {count : WrittenCount}
    (h : CountIn sql main count front digits rest) :
    ∃ left right, Site sql left digits right ∧ left.flatMap Lexeme.blanked = front ∧
      DigitRun (left.flatMap Lexeme.text) digits (right.flatMap Lexeme.text) := by
  obtain ⟨left, right, hsite, hleft, hright⟩ := h.site
  refine ⟨left, right, hsite, hleft, hsite.digitRun h.countAt.ne_nil h.countAt.number ?_ ?_⟩
  · intro c hc
    obtain ⟨d, hd, hword, -⟩ := h.countAt.edge
    rw [hleft, hd] at hc
    obtain rfl := Option.some.inj hc
    exact isDigit_eq_false_of_isWord_eq_false hword
  · exact fun c hc => h.countAt.stops c (hright ▸ hc)

section Limits

variable {limiter : Limiter} {timing : Timing} {sql : List Char} {main : Cursor} {offset : Nat}

theorem editedOnce_of_written {count : WrittenCount} (haccepts : limiter.Accepts timing sql main)
    (hslot : SlotAt sql main offset limiter.database.usesTop (.written count)) {limit : Nat} {limited : Limited}
    (hlimit : limiter.limit sql ⟨limit, offset⟩ timing = .ok limited) :
    EditedOnce sql limit limited ∧
      (lexemes limited.text).filter (!·.isCode) = (lexemes sql).filter (!·.isCode) := by
  obtain ⟨front, digits, rest, hin⟩ := hslot.exists_countIn haccepts.mainSelect?_eq
  obtain ⟨left, right, hsite, hleft, hrun⟩ := hin.exists_digitRun
  rw [Limiter.limit_written haccepts hslot hin.countAt.count_eq hsite hleft] at hlimit
  rw [← Except.ok.inj hlimit]
  split
  · exact ⟨.same rfl, rfl⟩
  · exact ⟨.number hsite.eq_joined hrun hsite.codeBetween,
      hsite.filter_lexemes_joined (fun _ hc => isClauseChar_of_mem_decimal hc) Nat.toDigits_ne_nil⟩

theorem editedOnce_of_clause {place : Nat} {lead tail : List Char} {page : Option Nat}
    (haccepts : limiter.Accepts timing sql main)
    (hslot : SlotAt sql main offset limiter.database.usesTop (.clause place lead tail page)) {limit : Nat}
    {limited : Limited} (hlimit : limiter.limit sql ⟨limit, offset⟩ timing = .ok limited) :
    EditedOnce sql limit limited ∧
      (lexemes limited.text).filter (!·.isCode) = (lexemes sql).filter (!·.isCode) := by
  obtain ⟨front, rest, hgap⟩ := hslot.exists_gapAt haccepts.mainSelect?_eq
  obtain ⟨left, right, hsite, hleft, -⟩ := hgap.site
  have hplace : place = byteLength (left.flatMap Lexeme.blanked) := by rw [hleft, hgap.place_eq]
  rw [Limiter.limit_clause haccepts hslot hsite hplace] at hlimit
  rw [← Except.ok.inj hlimit]
  have hinsertion := hgap.insertion limit
  exact ⟨.clause hsite.eq_joined hgap.around hsite.codeBetween,
    hsite.filter_lexemes_joined hinsertion.all_clause hinsertion.ne_nil⟩

end Limits

/-- Limiting a statement edits one place of it at most, which goes through no quoted span and no comment, and the
statement has the quoted spans and the comments that it had, in order. -/
theorem Limiter.editedOnce_apply (limiter : Limiter) (category : Category) (sql : List Char) (window : RowWindow)
    (timing : Timing) :
    EditedOnce sql window.limit (limiter.apply category sql window timing) ∧
      (lexemes (limiter.apply category sql window timing).text).filter (!·.isCode) =
        (lexemes sql).filter (!·.isCode) := by
  obtain ⟨limit, offset⟩ := window
  rw [apply]
  split
  · rw [run]
    split
    · next limited hlimit =>
        obtain ⟨main, slot, haccepts, hslot, -⟩ := limit_eq_ok_iff.mp hlimit
        cases slot with
        | written count => exact editedOnce_of_written haccepts hslot hlimit
        | clause place lead tail page => exact editedOnce_of_clause haccepts hslot hlimit
    · exact ⟨.same rfl, rfl⟩
  · exact ⟨.same rfl, rfl⟩

end SqlGate
