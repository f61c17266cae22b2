import SqlGate.Proofs.Words

/-! What the readers of a place read, told by cuts of the text: each one reads a part of one kind and
stops in front of the rest. -/

namespace SqlGate.Cursor

open Unicode

variable {front text keyword : List Char} {after : Cursor}

theorem opensWord_between : (between front text).opensWord = true ↔
    ∀ c, front.getLast? = some c → isWord c = false := by
  rw [opensWord, between]
  cases front.getLast? <;> simp

theorem closesWord_between : (between front text).closesWord = true ↔
    ∀ c, text.head? = some c → isWord c = false := by
  rw [closesWord, between]
  cases text.head? <;> simp

theorem spells_iff : spells keyword text = true ↔
    ∃ word rest, text = word ++ rest ∧ Spelled keyword word := by
  constructor
  · intro h
    fun_induction spells keyword text with
    | case1 text => exact ⟨[], text, rfl, .nil⟩
    | case2 => cases h
    | case3 capital keyword c rest ih =>
        rw [Bool.and_eq_true] at h
        obtain ⟨word, later, rfl, hword⟩ := ih h.2
        exact ⟨c :: word, later, rfl, .cons h.1 hword⟩
  · rintro ⟨word, rest, rfl, hword⟩
    induction hword with
    | nil => rfl
    | cons hfolds _ ih => rw [List.cons_append, spells, hfolds, ih, Bool.true_and]

theorem letters?_eq_some_iff : (between front text).letters? keyword = some after ↔
    ∃ word rest, text = word ++ rest ∧ Spelled keyword word ∧ after = between (front ++ word) rest := by
  have hcut : ∀ word rest : List Char, Spelled keyword word →
      (between front (word ++ rest)).past ((word ++ rest).take keyword.length)
        ((word ++ rest).drop keyword.length) = between (front ++ word) rest := by
    intro word rest hword
    rw [List.Forall₂.length_eq hword, List.take_left, List.drop_left, past_between]
  constructor
  · intro h
    rw [letters?] at h
    split at h
    · next hspells =>
        obtain ⟨word, rest, htext, hword⟩ := spells_iff.mp hspells
        change text = word ++ rest at htext
        subst htext
        refine ⟨word, rest, rfl, hword, ?_⟩
        rw [← hcut word rest hword]
        exact (Option.some.inj h).symm
    · cases h
  · rintro ⟨word, rest, rfl, hword, rfl⟩
    have hspells : spells keyword (between front (word ++ rest)).rest = true :=
      spells_iff.mpr ⟨word, rest, rfl, hword⟩
    rw [letters?, if_pos hspells, ← hcut word rest hword]
    rfl

/-- A keyword is read where its letters are a word of their own. -/
theorem word?_eq_some_iff (hkey : isKeyword keyword = true) :
    (between front text).word? keyword = some after ↔
      ∃ word rest, WordAt (front ++ text) front word rest ∧ Spelled keyword word ∧
        after = between (front ++ word) rest := by
  constructor
  · intro h
    rw [word?, Option.bind_eq_bind, Option.bind_eq_some_iff] at h
    obtain ⟨found, hletters, hends⟩ := h
    obtain ⟨word, rest, rfl, hword, rfl⟩ := letters?_eq_some_iff.mp hletters
    split at hends
    · next halone =>
        rw [Bool.and_eq_true, opensWord_between, closesWord_between] at halone
        obtain rfl := Option.some.inj hends
        exact ⟨word, rest, ⟨rfl, hword.ne_nil hkey, hword.isWord_of_mem hkey, halone.1, halone.2⟩, hword, rfl⟩
    · cases hends
  · rintro ⟨word, rest, hat, hword, rfl⟩
    obtain rfl := List.append_cancel_left hat.eq_append
    rw [word?, letters?_eq_some_iff.mpr ⟨word, rest, rfl, hword, rfl⟩]
    have halone : ((between front (word ++ rest)).opensWord && (between (front ++ word) rest).closesWord) = true := by
      rw [Bool.and_eq_true, opensWord_between, closesWord_between]
      exact ⟨hat.opens, hat.closes⟩
    change (if _ then _ else _) = _
    rw [if_pos halone]

/-- One of several keywords is read where one of them is: there is only one word at a place. -/
theorem anyWord?_eq_some_iff {keywords : List (List Char)} (hkeys : ∀ keyword ∈ keywords, isKeyword keyword = true) :
    (between front text).anyWord? keywords = some after ↔
      ∃ keyword ∈ keywords, (between front text).word? keyword = some after := by
  rw [anyWord?]
  constructor
  · intro h
    exact List.exists_of_findSome?_eq_some h
  · rintro ⟨keyword, hmem, h⟩
    cases hfound : keywords.findSome? fun keyword => (between front text).word? keyword with
    | none =>
        rw [List.findSome?_eq_none_iff] at hfound
        rw [hfound keyword hmem] at h
        cases h
    | some other =>
        obtain ⟨second, hsecond, hother⟩ := List.exists_of_findSome?_eq_some hfound
        obtain ⟨word, rest, hat, -, rfl⟩ := (word?_eq_some_iff (hkeys _ hmem)).mp h
        obtain ⟨_, _, hat', -, rfl⟩ := (word?_eq_some_iff (hkeys _ hsecond)).mp hother
        obtain ⟨rfl, rfl⟩ := hat.unique hat'
        rfl

theorem skipWhile_between (p : Char → Bool) : (between front text).skipWhile p =
    between (front ++ text.takeWhile p) (text.dropWhile p) := by
  rw [skipWhile]
  exact past_between front _ _ _

theorem skipWhile_of_stop {p : Char → Bool} {read rest : List Char} (hread : ∀ c ∈ read, p c = true)
    (hrest : ∀ c, rest.head? = some c → p c = false) :
    (between front (read ++ rest)).skipWhile p = between (front ++ read) rest := by
  obtain ⟨htake, hdrop⟩ := Lexeme.takeWhile_append_of_stop hread hrest
  rw [skipWhile_between, htake, hdrop]

theorem blanks?_eq_some_iff : (between front text).blanks? = some after ↔
    ∃ gap rest, text = gap ++ rest ∧ gap ≠ [] ∧ (∀ c ∈ gap, isBlank c = true) ∧
      (∀ c, rest.head? = some c → isBlank c = false) ∧ after = between (front ++ gap) rest := by
  constructor
  · intro h
    rw [blanks?] at h
    split at h
    · next hhead =>
        obtain rfl := Option.some.inj h
        refine ⟨text.takeWhile isBlank, text.dropWhile isBlank, List.takeWhile_append_dropWhile.symm, ?_, ?_, ?_, ?_⟩
        · change text.head?.any isBlank = true at hhead
          intro hnil
          cases text with
          | nil => cases hhead
          | cons c text =>
              have hc : isBlank c = true := hhead
              rw [List.takeWhile_cons_of_pos hc] at hnil
              cases hnil
        · intro c hc
          exact List.mem_takeWhile_imp hc
        · intro c hc
          have hstop := List.head?_dropWhile_not isBlank text
          rw [hc] at hstop
          simpa using hstop
        · rw [blanks, skipWhile_between]
    · cases h
  · rintro ⟨gap, rest, rfl, hne, hgap, hrest, rfl⟩
    have hhead : (between front (gap ++ rest)).rest.head?.any isBlank = true := by
      cases gap with
      | nil => exact absurd rfl hne
      | cons c gap => exact hgap c List.mem_cons_self
    rw [blanks?, if_pos hhead, blanks, skipWhile_of_stop hgap hrest]

theorem char?_eq_some_iff {x : Char} : (between front text).char? x = some after ↔
    ∃ rest, text = x :: rest ∧ after = between (front ++ [x]) rest := by
  cases text with
  | nil => simp [char?, between]
  | cons y text =>
      have hread : (between front (y :: text)).char? x =
          if y = x then some (between (front ++ [y]) text) else none := by
        rw [← past_between front [y] (y :: text) text]
        rfl
      rw [hread]
      constructor
      · intro h
        split at h
        · next heq =>
            subst heq
            exact ⟨text, rfl, (Option.some.inj h).symm⟩
        · cases h
      · rintro ⟨rest, htext, rfl⟩
        obtain ⟨rfl, rfl⟩ := List.cons.inj htext
        rw [if_pos rfl]

theorem digits?_eq_some_iff {digits : List Char} : (between front text).digits? = some (digits, after) ↔
    ∃ rest, text = digits ++ rest ∧ digits ≠ [] ∧ (∀ c ∈ digits, isDigit c = true) ∧
      (∀ c, rest.head? = some c → isDigit c = false) ∧ after = between (front ++ digits) rest := by
  constructor
  · intro h
    dsimp only [digits?] at h
    split at h
    · cases h
    · next hdigits =>
        obtain ⟨rfl, rfl⟩ := Prod.mk.inj (Option.some.inj h)
        refine ⟨text.dropWhile isDigit, List.takeWhile_append_dropWhile.symm, hdigits, ?_, ?_, ?_⟩
        · intro c hc
          exact List.mem_takeWhile_imp hc
        · intro c hc
          have hstop := List.head?_dropWhile_not isDigit text
          rw [hc] at hstop
          simpa using hstop
        · rw [skipWhile_between]
          rfl
  · rintro ⟨rest, rfl, hne, hdigits, hrest, rfl⟩
    obtain ⟨htake, -⟩ := Lexeme.takeWhile_append_of_stop hdigits hrest
    have hrun : (between front (digits ++ rest)).rest.takeWhile isDigit = digits := htake
    rw [digits?, hrun, skipWhile_of_stop hdigits hrest]
    cases digits with
    | nil => exact absurd rfl hne
    | cons c digits => rfl

end SqlGate.Cursor
