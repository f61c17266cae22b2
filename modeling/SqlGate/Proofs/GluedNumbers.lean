import SqlGate.Proofs.StillRead

/-! Keywords that stand right behind a number. To an engine whose numbers end where letters begin, `1DROP` is a
number and a keyword. The classifier looks for whole words, and takes the two for one word that is no keyword: a
keyword by itself always keeps a statement from passing for a read, and one behind a number never does. -/

namespace SqlGate

open Unicode

/-- A keyword that no read has, where an engine finds it that ends a number in front of letters: digits may stand
right in front of it, and no other word character stands around the two. -/
structure BlockedAt (text front digits word rest : List Char) : Prop where
  eq_append : text = front ++ (digits ++ (word ++ rest))
  all_digit : ∀ c ∈ digits, c.isDigit = true
  spelled : SpelledAny Mode.standard.banned word
  opens : ∀ c, front.getLast? = some c → isWord c = false
  closes : ∀ c, rest.head? = some c → isWord c = false

-- The keywords that no read has in either mode.
example : Mode.standard.banned = ["TRUNCATE", "DELETE", "INSERT", "UPDATE", "DROP", "CREATE", "ALTER", "EXECUTE", "EXEC",
    "MERGE", "BULK", "GRANT", "REVOKE", "DENY", "INTO"].map String.toList := by decide

/-- A text without comments that begins as a query and holds no second statement. -/
structure OneQuery (text : List Char) : Prop where
  closed : Closed text
  lead : capitalLead text = "SELECT".toList ∨
    capitalLead text = "WITH".toList ∧ ∃ word ∈ capitalWords text, Spelled "SELECT".toList word

theorem mem_banned_of_standard (mode : Mode) : ∀ keyword ∈ Mode.standard.banned, keyword ∈ mode.banned := by
  cases mode with
  | standard => exact fun _ hmem => hmem
  | readOnly => decide

namespace BlockedAt

variable {text front digits word rest : List Char} {mode : Mode}

theorem exists_keyword (h : BlockedAt text front digits word rest) : ∃ keyword ∈ Mode.standard.banned,
    isKeyword keyword = true ∧ Spelled keyword word := by
  obtain ⟨keyword, hmem, hspelled⟩ := h.spelled
  exact ⟨keyword, hmem, isKeyword_of_mem_banned keyword hmem, hspelled⟩

theorem wordAt (h : BlockedAt text front digits word rest) : WordAt text front (digits ++ word) rest := by
  obtain ⟨keyword, -, hkey, hspelled⟩ := h.exists_keyword
  refine ⟨by rw [h.eq_append, List.append_assoc], ?_, fun c hc => ?_, h.opens, h.closes⟩
  · exact List.append_ne_nil_of_right_ne_nil _ (hspelled.ne_nil hkey)
  · rcases List.mem_append.mp hc with hc | hc
    · exact isWord_of_isDigit (isDigit_of_isDigit (h.all_digit c hc))
    · exact hspelled.isWord_of_mem hkey c hc

theorem capitalWords_eq (h : BlockedAt text front digits word rest) :
    capitalWords text = capitalWords front ++ (digits ++ word.flatMap upper) :: capitalWords rest := by
  obtain ⟨keyword, -, hkey, hspelled⟩ := h.exists_keyword
  have hupper : (digits ++ word).flatMap upper = digits ++ word.flatMap upper := by
    rw [List.flatMap_append, flatMap_upper_of_digits h.all_digit]
  have hword : ∀ c ∈ (digits ++ word).flatMap upper, isWord c = true := by
    intro c hc
    rw [hupper] at hc
    rcases List.mem_append.mp hc with hc | hc
    · exact isWord_of_isDigit (isDigit_of_isDigit (h.all_digit c hc))
    · exact (hspelled.flatMap_upper hkey).isWord_of_mem hkey c hc
  have hruns := (h.wordAt.flatMap_upper hword).runs_eq
  rwa [hupper] at hruns

theorem spelledAny_iff (h : BlockedAt text front digits word rest) :
    SpelledAny mode.banned (digits ++ word.flatMap upper) ↔ digits = [] := by
  constructor
  · rintro ⟨keyword, hmem, hspelled⟩
    by_contra hne
    have hfirst := List.head_mem hne
    have hdigit := hspelled.isDigit_eq_false (isKeyword_of_mem_banned keyword hmem) _ (List.mem_append_left _ hfirst)
    rw [isDigit_of_isDigit (h.all_digit _ hfirst)] at hdigit
    cases hdigit
  · rintro rfl
    obtain ⟨keyword, hmem, hkey, hspelled⟩ := h.exists_keyword
    exact ⟨keyword, mem_banned_of_standard mode keyword hmem, hspelled.flatMap_upper hkey⟩

theorem clean_iff (h : BlockedAt text front digits word rest) :
    Clean mode text ↔ digits ≠ [] ∧ Clean mode front ∧ Clean mode rest := by
  change (∀ word ∈ capitalWords text, ¬SpelledAny mode.banned word) ↔ _
  rw [h.capitalWords_eq, List.forall_mem_append, List.forall_mem_cons, h.spelledAny_iff]
  exact and_left_comm

/-- A statement with a blocked keyword passes for a read exactly where the keyword is glued to a number and all that
is around the two is a read: a keyword that stands by itself is always seen, one behind a number never. -/
theorem category_eq_readOnly_iff {sql : List Char} (h : BlockedAt (stripComments sql) front digits word rest) :
    (classify mode sql).category = .readOnly ↔
      digits ≠ [] ∧ OneQuery (stripComments sql) ∧ Clean mode front ∧ Clean mode rest := by
  constructor
  · intro hread
    have hharmless := harmless_of_category hread
    obtain ⟨hglued, haround⟩ := h.clean_iff.mp hharmless.clean
    exact ⟨hglued, ⟨hharmless.closed, hharmless.lead⟩, haround⟩
  · rintro ⟨hglued, hquery, haround⟩
    have hharmless : Harmless mode (stripComments sql) :=
      ⟨hquery.closed, hquery.lead, h.clean_iff.mpr ⟨hglued, haround⟩⟩
    rw [hharmless.classify_eq]
    rfl

/-- A keyword with a blank in front of it is seen, in small letters and behind a comment as well. -/
theorem category_eq_readOnly_iff_apart : ∃ sql front rest : List Char, sql = "SELECT 1 -- all\ndrop TABLE t".toList ∧
    BlockedAt (stripComments sql) front [] "drop".toList rest ∧ ∀ mode, (classify mode sql).category ≠ .readOnly := by
  have hat : BlockedAt (stripComments "SELECT 1 -- all\ndrop TABLE t".toList) "SELECT 1  \n".toList [] "drop".toList
      " TABLE t".toList := by
    refine ⟨by decide +kernel, by simp, by decide, ?_, ?_⟩
    · rintro c ⟨rfl⟩
      decide
    · rintro c ⟨rfl⟩
      decide
  exact ⟨_, _, _, rfl, hat, fun mode hread => (hat.category_eq_readOnly_iff.mp hread).1 rfl⟩

/-- A second statement that begins right behind a number passes for a part of the read in front of it. -/
theorem exists_readOnly_of_glued : ∃ sql front digits word rest : List Char, sql = "SELECT 1DROP TABLE t".toList ∧
    BlockedAt (stripComments sql) front digits word rest ∧ ∀ mode, (classify mode sql).category = .readOnly := by
  refine ⟨_, "SELECT ".toList, ['1'], "DROP".toList, " TABLE t".toList, rfl,
    ⟨?_, List.forall_mem_singleton.mpr rfl, by decide, ?_, ?_⟩, ?_⟩
  · decide +kernel
  · rintro c ⟨rfl⟩
    decide
  · rintro c ⟨rfl⟩
    decide
  · intro mode
    cases mode with
    | standard => decide +kernel
    | readOnly => decide +kernel

end BlockedAt

end SqlGate
