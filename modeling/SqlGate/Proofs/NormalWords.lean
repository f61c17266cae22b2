import SqlGate.Gate
import SqlGate.Proofs.Capitals
import SqlGate.Proofs.Recount

/-! What a statement is classified by: the words of its normal form, its leading word and its semicolons,
told by the text without comments. Single spaces change none of them. -/

namespace SqlGate

open Unicode

/-- The characters of a leading word. -/
def isLeadingChar (c : Char) : Bool :=
  isAlphanumeric c || c == '_'

theorem isLeadingChar_of_isBlank {c : Char} (h : isBlank c = true) : isLeadingChar c = false := by
  have hall : blankChars.all (!isLeadingChar ·) = true := by decide +kernel
  simpa using of_isBlank hall h

section SingleSpaced

variable {run rest : List Char} {c : Char}

theorem singleSpaced_cons (h : isBlank c = true) : singleSpaced (c :: rest) = singleSpaced rest := by
  rw [singleSpaced, runs_cons_of_not (by rw [h]; rfl), ← singleSpaced]

/-- The words of a text, one after the other. -/
theorem singleSpaced_append (hne : run ≠ []) (hrun : ∀ c ∈ run, (!isBlank c) = true)
    (hstop : ∀ c, rest.head? = some c → (!isBlank c) = false) :
    (singleSpaced (run ++ rest) = run ∧ ∀ c ∈ rest, isBlank c = true) ∨
      singleSpaced (run ++ rest) = run ++ ' ' :: singleSpaced rest ∧ ∃ c ∈ rest, isBlank c = false := by
  rw [singleSpaced, runs_append_of_stop hne hrun hstop]
  by_cases hrest : runs (fun c => !isBlank c) rest = []
  · refine Or.inl ⟨by rw [hrest]; simp, fun c hc => ?_⟩
    simpa using runs_eq_nil_iff.mp hrest c hc
  · refine Or.inr ⟨?_, ?_⟩
    · rw [singleSpaced]
      obtain ⟨first, later, hlater⟩ := List.exists_cons_of_ne_nil hrest
      rw [hlater]
      simp [List.intercalate]
    · by_contra hnone
      refine hrest (runs_eq_nil_iff.mpr fun c hc => ?_)
      by_contra hblank
      exact hnone ⟨c, hc, by simpa using hblank⟩

theorem flatMap_upper_of_self {text : List Char} (h : ∀ c ∈ text, upper c = [c]) : text.flatMap upper = text := by
  induction text with
  | nil => rfl
  | cons c text ih =>
      rw [List.forall_mem_cons] at h
      rw [List.flatMap_cons, h.1, ih h.2]
      rfl

theorem flatMap_upper_of_blank {text : List Char} (h : ∀ c ∈ text, isBlank c = true) : text.flatMap upper = text :=
  flatMap_upper_of_self fun c hc => upper_of_isBlank (h c hc)

theorem head_flatMap_upper {text : List Char} (h : ∀ c, text.head? = some c → isBlank c = true) :
    (text.flatMap upper).head? = text.head? := by
  cases text with
  | nil => rfl
  | cons c text =>
      rw [List.flatMap_cons, upper_of_isBlank (h c rfl)]
      rfl

/-- Single spaces leave the words of the capital form. -/
theorem runs_singleSpaced (text : List Char) :
    runs isWord ((singleSpaced text).flatMap upper) = runs isWord (text.flatMap upper) := by
  induction text using runs_induction (fun c => !isBlank c) with
  | nil => rfl
  | skip c rest hc ih =>
      have hblank : isBlank c = true := by simpa using hc
      rw [singleSpaced_cons hblank, ih, List.flatMap_cons, upper_of_isBlank hblank, List.singleton_append,
        runs_cons_of_not (isWord_eq_false_of_isBlank hblank)]
  | run run rest hne hrun hstop ih =>
      have hhead : ∀ c, rest.head? = some c → isBlank c = true := fun c hc => by simpa using hstop c hc
      have hapart : ∀ c d, (run.flatMap upper).getLast? = some c → (rest.flatMap upper).head? = some d →
          isWord c = true → isWord d = false := by
        intro c d _ hd _
        rw [head_flatMap_upper hhead] at hd
        exact isWord_eq_false_of_isBlank (hhead d hd)
      rw [List.flatMap_append, runs_append _ hapart]
      rcases singleSpaced_append hne hrun hstop with ⟨hsingle, hblank⟩ | ⟨hsingle, -⟩
      · rw [hsingle, flatMap_upper_of_blank hblank,
          runs_eq_nil_iff.mpr fun c hc => isWord_eq_false_of_isBlank (hblank c hc), List.append_nil]
      · have hspace : ∀ c d, (run.flatMap upper).getLast? = some c →
            (' ' :: (singleSpaced rest).flatMap upper).head? = some d → isWord c = true → isWord d = false := by
          intro c d _ hd _
          obtain rfl : ' ' = d := Option.some.inj hd
          decide
        rw [hsingle, List.flatMap_append, List.flatMap_cons, upper_of_isBlank (by decide), List.singleton_append,
          runs_append _ hspace, runs_cons_of_not (by decide), ih]

/-- Single spaces leave the beginning of the capital form. -/
theorem takeWhile_singleSpaced (text : List Char) :
    ((singleSpaced text).flatMap upper).takeWhile isLeadingChar =
      ((text.dropWhile isBlank).flatMap upper).takeWhile isLeadingChar := by
  induction text using runs_induction (fun c => !isBlank c) with
  | nil => rfl
  | skip c rest hc ih =>
      have hblank : isBlank c = true := by simpa using hc
      rw [singleSpaced_cons hblank, ih, List.dropWhile_cons_of_pos hblank]
  | run run rest hne hrun hstop _ =>
      have hhead : ∀ c, rest.head? = some c → isBlank c = true := fun c hc => by simpa using hstop c hc
      have hdrop : (run ++ rest).dropWhile isBlank = run ++ rest := by
        obtain ⟨c, more, rfl⟩ := List.exists_cons_of_ne_nil hne
        have hc := hrun c List.mem_cons_self
        rw [List.cons_append, List.dropWhile_cons_of_neg (by simpa using hc)]
      have hrest : ∀ c, (rest.flatMap upper).head? = some c → isLeadingChar c = false := by
        intro c hc
        rw [head_flatMap_upper hhead] at hc
        exact isLeadingChar_of_isBlank (hhead c hc)
      rw [hdrop, List.flatMap_append, (takeWhile_append_of_head hrest).1]
      rcases singleSpaced_append hne hrun hstop with ⟨hsingle, -⟩ | ⟨hsingle, -⟩
      · rw [hsingle]
      · rw [hsingle, List.flatMap_append]
        refine (takeWhile_append_of_head fun c hc => ?_).1
        rw [List.flatMap_cons, upper_of_isBlank (by decide)] at hc
        obtain rfl : ' ' = c := Option.some.inj hc
        decide

end SingleSpaced

/-- Whether nothing but blanks follows each semicolon. -/
def Closed (text : List Char) : Prop :=
  ∀ front rest, text = front ++ ';' :: rest → ∀ c ∈ rest, isBlank c = true

section Semicolons

variable {text left right front rest : List Char} {x : Char}

theorem cut_of_flatMap_upper (h : text.flatMap upper = front ++ ';' :: rest) :
    ∃ before after, text = before ++ ';' :: after ∧ front = before.flatMap upper ∧ rest = after.flatMap upper := by
  induction text generalizing front with
  | nil => exact absurd h.symm (by simp)
  | cons c text ih =>
      rw [List.flatMap_cons] at h
      rcases cut_of_append h with ⟨tail, hc, hrest⟩ | ⟨gap, rfl, htext⟩
      · have hmem : ';' ∈ upper c := by
          rw [hc]
          simp
        obtain rfl := semicolon_mem_upper.mp hmem
        have hlength : 1 = (front ++ ';' :: tail).length := congrArg List.length hc
        rw [List.length_append, List.length_cons] at hlength
        obtain rfl := List.eq_nil_of_length_eq_zero (by omega : front.length = 0)
        obtain rfl := List.eq_nil_of_length_eq_zero (by omega : tail.length = 0)
        exact ⟨[], text, rfl, rfl, hrest⟩
      · obtain ⟨before, after, rfl, rfl, rfl⟩ := ih htext
        exact ⟨c :: before, after, rfl, rfl, rfl⟩

theorem isStacked_eq_false_iff : isStacked text = false ↔ ∀ front rest, text = front ++ ';' :: rest → rest = [] := by
  have hcount : ∀ {front rest : List Char}, text = front ++ ';' :: rest →
      text.count ';' = front.count ';' + rest.count ';' + 1 := by
    rintro front rest rfl
    rw [List.count_append, List.count_cons_self]
    omega
  rw [isStacked]
  simp only [Bool.or_eq_false_iff, decide_eq_false_iff_not, Bool.and_eq_false_iff, Nat.not_lt, ne_eq, not_not]
  constructor
  · rintro ⟨hone, hlast⟩ front rest htext
    have hsize := hcount htext
    by_contra hrest
    have hend : text.getLast? = some ';' := by
      rcases hlast with hcountNe | hlast
      · omega
      · exact hlast
    have hmem : ';' ∈ rest := by
      rw [htext, List.getLast?_append_of_ne_nil _ (List.cons_ne_nil _ _), List.getLast?_cons] at hend
      rw [List.getLast?_eq_some_getLast hrest] at hend
      rw [← Option.some.inj hend]
      exact List.getLast_mem hrest
    have hpos := List.count_pos_iff.mpr hmem
    omega
  · intro h
    by_cases hmem : ';' ∈ text
    · obtain ⟨front, rest, htext⟩ := List.append_of_mem hmem
      obtain rfl := h front rest htext
      have hfront : ';' ∉ front := by
        intro hin
        obtain ⟨before, after, rfl⟩ := List.append_of_mem hin
        have hnil := h before (after ++ [';']) (by rw [htext]; simp)
        exact absurd hnil (by simp)
      rw [htext, List.count_append, List.count_eq_zero.mpr hfront, List.getLast?_concat]
      exact ⟨by decide, Or.inr rfl⟩
    · have hzero := List.count_eq_zero.mpr hmem
      exact ⟨by omega, Or.inl (by omega)⟩

theorem closed_cons_iff (hx : x ≠ ';') : Closed (x :: text) ↔ Closed text := by
  constructor
  · intro h front rest htext
    exact h (x :: front) rest (by rw [htext]; rfl)
  · intro h front rest htext
    have hcons : [x] ++ text = front ++ ';' :: rest := htext
    rcases cut_of_append hcons with ⟨tail, hfront, -⟩ | ⟨gap, -, hgap⟩
    · cases front with
      | nil => exact absurd (List.cons.inj hfront).1 hx
      | cons y front => exact absurd hfront (by simp)
    · exact h gap rest hgap

/-- A single-spaced text has no semicolon but at its end exactly where only blanks follow each one. -/
theorem singleSpaced_ends_iff (text : List Char) :
    (∀ front rest, singleSpaced text = front ++ ';' :: rest → rest = []) ↔ Closed text := by
  induction text using runs_induction (fun c => !isBlank c) with
  | nil => exact ⟨fun _ front rest h => absurd h.symm (by simp), fun _ front rest h => absurd h.symm (by simp [singleSpaced])⟩
  | skip c rest hc ih =>
      have hblank : isBlank c = true := by simpa using hc
      have hne : c ≠ ';' := by
        rintro rfl
        cases hblank
      rw [singleSpaced_cons hblank, ih, closed_cons_iff hne]
  | run run rest hne hrun hstop ih =>
      have hsemicolon : isBlank ';' = false := rfl
      rcases singleSpaced_append hne hrun hstop with ⟨hsingle, hblank⟩ | ⟨hsingle, c, hc, hsolid⟩
      · rw [hsingle]
        constructor
        · intro h front later htext
          rcases cut_of_append htext with ⟨tail, hfront, rfl⟩ | ⟨gap, -, hrest⟩
          · rw [h front tail hfront, List.nil_append]
            exact hblank
          · have hmem := hblank ';' (by rw [hrest]; simp)
            rw [hsemicolon] at hmem
            cases hmem
        · intro h front tail hrunCut
          by_contra htail
          have hlater := h front (tail ++ rest) (by rw [hrunCut]; simp) _ (List.mem_append_left _ (List.head_mem htail))
          have hsolid := hrun (tail.head htail) (by rw [hrunCut]; simp)
          rw [hlater] at hsolid
          cases hsolid
      · rw [hsingle]
        constructor
        · intro h front later htext
          rcases cut_of_append htext with ⟨tail, hfront, -⟩ | ⟨gap, -, hrest⟩
          · have hnil := h front (tail ++ ' ' :: singleSpaced rest) (by rw [hfront]; simp)
            exact absurd hnil (by simp)
          · refine ih.mp (fun before after hcut => h (run ++ ' ' :: before) after ?_) gap later hrest
            rw [hcut]
            simp
        · intro h front later hcut
          rcases cut_of_append hcut with ⟨tail, hfront, -⟩ | ⟨gap, -, hrest⟩
          · have hblank := h front (tail ++ rest) (by rw [hfront]; simp) c (List.mem_append_right _ hc)
            rw [hblank] at hsolid
            cases hsolid
          · cases gap with
            | nil => exact absurd (List.cons.inj hrest).1 (by decide)
            | cons y gap =>
                obtain ⟨rfl, htail⟩ := List.cons.inj hrest
                refine ih.mpr (fun before after hbefore => h (run ++ before) after ?_) gap later htail
                rw [hbefore]
                simp

/-- The normal form has no second statement exactly where only blanks follow each semicolon. -/
theorem isStacked_normalForm (sql : List Char) : isStacked (normalForm sql) = false ↔ Closed (stripComments sql) := by
  rw [isStacked_eq_false_iff, ← singleSpaced_ends_iff, normalForm]
  constructor
  · intro h front rest hcut
    have hnil := h (front.flatMap upper) (rest.flatMap upper) (by
      rw [hcut, List.flatMap_append, List.flatMap_cons]
      rfl)
    cases rest with
    | nil => rfl
    | cons c rest =>
        rw [List.flatMap_cons, List.append_eq_nil_iff] at hnil
        exact absurd hnil.1 (upper_ne_nil c)
  · intro h front rest hcut
    obtain ⟨before, after, hsingle, -, rfl⟩ := cut_of_flatMap_upper hcut
    rw [h before after hsingle]
    rfl

theorem count_flatMap_upper (text : List Char) : (text.flatMap upper).count ';' = text.count ';' := by
  induction text with
  | nil => rfl
  | cons c text ih =>
      rw [List.flatMap_cons, List.count_append, ih, List.count_cons]
      by_cases hc : c = ';'
      · subst hc
        rw [if_pos (by decide), Nat.add_comm]
        rfl
      · rw [List.count_eq_zero.mpr fun hmem => hc (semicolon_mem_upper.mp hmem), if_neg (by simpa using hc)]
        omega

theorem count_singleSpaced {x : Char} (hx : isBlank x = false) (text : List Char) :
    (singleSpaced text).count x = text.count x := by
  have hblank : ∀ {text : List Char}, (∀ c ∈ text, isBlank c = true) → text.count x = 0 := by
    intro text hall
    refine List.count_eq_zero.mpr fun hmem => ?_
    rw [hall x hmem] at hx
    cases hx
  induction text using runs_induction (fun c => !isBlank c) with
  | nil => rfl
  | skip c rest hc ih =>
      have hcBlank : isBlank c = true := by simpa using hc
      have hne : c ≠ x := by
        rintro rfl
        rw [hcBlank] at hx
        cases hx
      rw [singleSpaced_cons hcBlank, ih, List.count_cons_of_ne hne]
  | run run rest hne hrun hstop ih =>
      have hspace : ' ' ≠ x := by
        rintro rfl
        cases hx
      rw [List.count_append]
      rcases singleSpaced_append hne hrun hstop with ⟨hsingle, hrest⟩ | ⟨hsingle, -⟩
      · rw [hsingle, hblank hrest, Nat.add_zero]
      · rw [hsingle, List.count_append, List.count_cons_of_ne hspace, ih]

/-- The normal form has the semicolons of the text without comments. -/
theorem count_normalForm (sql : List Char) : (normalForm sql).count ';' = (stripComments sql).count ';' := by
  rw [normalForm, count_flatMap_upper, count_singleSpaced rfl]

end Semicolons

theorem hasWord_iff {keyword text : List Char} (hkey : isKeyword keyword = true) :
    hasWord keyword text = true ↔ ∃ word ∈ runs isWord text, Spelled keyword word := by
  rw [hasWord, Cursor.start_eq_between, Option.isSome_iff_exists]
  constructor
  · rintro ⟨found, hfound⟩
    obtain ⟨passed, after, htext, hread⟩ := Cursor.exists_of_find?_between hfound
    obtain ⟨word, rest, hat, hspelled, -⟩ := (Cursor.word?_eq_some_iff hkey).mp hread
    rw [List.nil_append, ← htext] at hat
    exact ⟨word, hat.mem_runs, hspelled⟩
  · rintro ⟨word, hmem, hspelled⟩
    obtain ⟨front, rest, hat⟩ := exists_wordAt_of_mem_runs hmem
    by_contra hnone
    have hempty : (Cursor.between [] text).find? (·.word? keyword) = none := by
      rw [Option.eq_none_iff_forall_ne_some]
      exact fun found hfound => hnone ⟨found, hfound⟩
    have hread := Cursor.find?_between_eq_none_iff.mp hempty front (word ++ rest) hat.eq_append
    rw [List.nil_append, (Cursor.word?_eq_some_iff hkey).mpr ⟨word, rest, ⟨rfl, hat.ne_nil, hat.all_word, hat.opens, hat.closes⟩,
      hspelled, rfl⟩] at hread
    cases hread

/-- The keywords that keep a statement from being classified as a read. -/
def Mode.banned (mode : Mode) : List (List Char) :=
  modifications.map (·.1.letters) ++ (mode.administrative.map Operation.letters ++ ["INTO".toList])

theorem isKeyword_of_mem_banned {mode : Mode} : ∀ keyword ∈ mode.banned, isKeyword keyword = true := by
  cases mode with
  | standard => decide
  | readOnly => decide

/-- The words of a text without comments, in capitals. -/
def capitalWords (text : List Char) : List (List Char) :=
  runs isWord (text.flatMap upper)

/-- The word that a text without comments begins with, in capitals. -/
def capitalLead (text : List Char) : List Char :=
  ((text.dropWhile isBlank).flatMap upper).takeWhile isLeadingChar

/-- A text with no word that keeps a statement from being classified as a read. -/
def Clean (mode : Mode) (text : List Char) : Prop :=
  Lacks mode.banned (text.flatMap upper)

instance (mode : Mode) (text : List Char) : Decidable (Clean mode text) :=
  inferInstanceAs (Decidable (Lacks mode.banned (text.flatMap upper)))

/-- A text without comments that is one read. -/
structure Harmless (mode : Mode) (text : List Char) : Prop where
  closed : Closed text
  lead : capitalLead text = "SELECT".toList ∨
    capitalLead text = "WITH".toList ∧ ∃ word ∈ capitalWords text, Spelled "SELECT".toList word
  clean : Clean mode text

theorem capitalWords_stripComments (sql : List Char) :
    runs isWord (normalForm sql) = capitalWords (stripComments sql) := by
  rw [normalForm, runs_singleSpaced, capitalWords]

theorem leadingWord?_normalForm (sql : List Char) : leadingWord? (normalForm sql) =
    if capitalLead (stripComments sql) = [] then none else some (capitalLead (stripComments sql)) := by
  have hlead : (normalForm sql).takeWhile (fun c => isAlphanumeric c || c == '_') =
      capitalLead (stripComments sql) := by
    show (normalForm sql).takeWhile isLeadingChar = _
    rw [normalForm, takeWhile_singleSpaced, capitalLead]
  rw [leadingWord?, hlead]
  split
  · next hempty => rw [if_pos hempty]
  · next hempty => rw [if_neg hempty]

theorem isSelect_normalForm (sql : List Char) : isSelect (normalForm sql) = true ↔
    (capitalLead (stripComments sql) = "SELECT".toList ∨
      capitalLead (stripComments sql) = "WITH".toList ∧
        ∃ word ∈ capitalWords (stripComments sql), Spelled "SELECT".toList word) := by
  rw [isSelect, leadingWord?_normalForm, ← capitalWords_stripComments, ← hasWord_iff (by decide)]
  by_cases hempty : capitalLead (stripComments sql) = []
  · simp [hempty]
  · rw [if_neg hempty]
    dsimp only
    rw [Bool.or_eq_true, Bool.and_eq_true, decide_eq_true_eq, decide_eq_true_eq]

theorem hasWord_normalForm {keyword : List Char} (hkey : isKeyword keyword = true) (sql : List Char) :
    hasWord keyword (normalForm sql) = false ↔
      ∀ word ∈ capitalWords (stripComments sql), ¬Spelled keyword word := by
  rw [← Bool.not_eq_true, hasWord_iff hkey, capitalWords_stripComments]
  simp

theorem modification?_eq_none_iff {text : List Char} : modification? text = none ↔
    ∀ keyword ∈ modifications.map (·.1.letters), hasWord keyword text = false := by
  rw [modification?, Option.map_eq_none_iff, List.find?_eq_none, List.forall_mem_map]
  simp

theorem administrative?_eq_none_iff {mode : Mode} {text : List Char} : administrative? mode text = none ↔
    ∀ keyword ∈ mode.administrative.map Operation.letters, hasWord keyword text = false := by
  rw [administrative?, Option.map_eq_none_iff, firstWord?, Cursor.start_eq_between,
    Cursor.find?_between_eq_none_iff]
  constructor
  · intro h keyword hmem
    rw [hasWord, Cursor.start_eq_between, Option.isSome_eq_false_iff, Option.isNone_iff_eq_none,
      Cursor.find?_between_eq_none_iff]
    intro passed after htext
    exact Option.map_eq_none_iff.mp (List.findSome?_eq_none_iff.mp (h passed after htext) keyword hmem)
  · intro h passed after htext
    rw [List.findSome?_eq_none_iff]
    intro keyword hmem
    have hnone := h keyword hmem
    rw [hasWord, Cursor.start_eq_between, Option.isSome_eq_false_iff, Option.isNone_iff_eq_none,
      Cursor.find?_between_eq_none_iff] at hnone
    rw [hnone passed after htext]
    rfl

theorem clean_iff {mode : Mode} {sql : List Char} :
    Clean mode (stripComments sql) ↔ modification? (normalForm sql) = none ∧
      administrative? mode (normalForm sql) = none ∧ hasWord "INTO".toList (normalForm sql) = false := by
  rw [modification?_eq_none_iff, administrative?_eq_none_iff, ← List.forall_mem_singleton (a := "INTO".toList)
    (p := fun keyword => hasWord keyword (normalForm sql) = false), ← List.forall_mem_append,
    ← List.forall_mem_append]
  constructor
  · intro h keyword hmem
    exact (hasWord_normalForm (isKeyword_of_mem_banned keyword hmem) sql).mpr (h.not_spelled hmem)
  · rintro h word hword ⟨keyword, hmem, hspelled⟩
    exact (hasWord_normalForm (isKeyword_of_mem_banned keyword hmem) sql).mp (h keyword hmem) word hword hspelled

/-- A statement whose text without comments is one read is classified as a `SELECT`. -/
theorem Harmless.classify_eq {mode : Mode} {sql : List Char} (h : Harmless mode (stripComments sql)) :
    classify mode sql = .readOnly := by
  obtain ⟨hmodification, hadministrative, hinto⟩ := clean_iff.mp h.clean
  have hfamily : selectFamily (normalForm sql) = .readOnly := by
    rw [selectFamily, (isSelect_normalForm sql).mpr h.lead, hinto]
    rfl
  rw [classify, verdictOn, (isStacked_normalForm sql).mpr h.closed, hmodification, hadministrative, ← hfamily]
  rfl

/-- What is classified as a read is one read without its comments. -/
theorem harmless_of_category {mode : Mode} {sql : List Char} (h : (classify mode sql).category = .readOnly) :
    Harmless mode (stripComments sql) := by
  rw [classify, verdictOn] at h
  split at h
  · cases h
  · next hstacked =>
      split at h
      · next classification hmodification =>
          rw [modification?, Option.map_eq_some_iff] at hmodification
          obtain ⟨⟨operation, category⟩, hfound, rfl⟩ := hmodification
          have hcategories : ∀ entry ∈ modifications, entry.2 ≠ .readOnly := by decide
          exact absurd h (hcategories _ (List.mem_of_find?_eq_some hfound))
      · next hmodification =>
          split at h
          · next classification hadministrative =>
              rw [administrative?, Option.map_eq_some_iff] at hadministrative
              obtain ⟨keyword, -, rfl⟩ := hadministrative
              cases h
          · next hadministrative =>
              change (selectFamily (normalForm sql)).category = .readOnly at h
              rw [selectFamily] at h
              split at h
              · cases h
              · next hselect =>
                  split at h
                  · cases h
                  · next hinto =>
                      refine ⟨(isStacked_normalForm sql).mp (Bool.eq_false_iff.mpr hstacked), ?_,
                        clean_iff.mpr ⟨hmodification, hadministrative, Bool.eq_false_iff.mpr hinto⟩⟩
                      exact (isSelect_normalForm sql).mp (by simpa using hselect)

end SqlGate
