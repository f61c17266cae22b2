import SqlGate.Limit.Limiter
import SqlGate.Proofs.Grammar
import Mathlib.Data.List.Forall2

/-! Words of a text, and what the readers of a place read, told by cuts of the text. A keyword is read
exactly where its letters are a word of their own, and a text put together where no word goes across
has the words of its parts. -/

namespace SqlGate

open Unicode

/-- A keyword that can be looked for: at least one letter, in capitals. -/
def isKeyword (keyword : List Char) : Bool :=
  !keyword.isEmpty && keyword.all Char.isUpper

/-- Whether the letters of a word fold to those of a keyword, one by one. -/
def Spelled (keyword word : List Char) : Prop :=
  List.Forall₂ (fun capital c => Cursor.foldsTo capital c = true) keyword word

instance (keyword word : List Char) : Decidable (Spelled keyword word) :=
  inferInstanceAs (Decidable (List.Forall₂ (fun capital c => Cursor.foldsTo capital c = true) keyword word))

/-- Whether a word spells one of the keywords. -/
def SpelledAny (keywords : List (List Char)) (word : List Char) : Prop :=
  ∃ keyword ∈ keywords, Spelled keyword word

instance (keywords : List (List Char)) (word : List Char) : Decidable (SpelledAny keywords word) :=
  inferInstanceAs (Decidable (∃ keyword ∈ keywords, Spelled keyword word))

/-- A longest stretch of word characters, with the text before it and after it. -/
structure WordAt (text front word rest : List Char) : Prop where
  eq_append : text = front ++ (word ++ rest)
  ne_nil : word ≠ []
  all_word : ∀ c ∈ word, isWord c = true
  opens : ∀ c, front.getLast? = some c → isWord c = false
  closes : ∀ c, rest.head? = some c → isWord c = false

/-- No word goes on from one text into the other. -/
def Apart (left right : List Char) : Prop :=
  ∀ c d, left.getLast? = some c → right.head? = some d → isWord c = true → isWord d = false

theorem isAlpha_iff {c : Char} : c.isAlpha = true ↔ 65 ≤ c.val ∧ c.val ≤ 90 ∨ 97 ≤ c.val ∧ c.val ≤ 122 := by
  change (decide (65 ≤ c.val ∧ c.val ≤ 90) || (decide (97 ≤ c.val) && decide (c.val ≤ 122))) = true ↔ _
  rw [Bool.or_eq_true, Bool.and_eq_true, decide_eq_true_eq, decide_eq_true_eq, decide_eq_true_eq]

theorem toNat_lt_of_isAlpha {c : Char} (h : c.isAlpha = true) : c.toNat < 0x80 := by
  have hbound : c.val ≤ 122 := by
    rcases isAlpha_iff.mp h with ⟨-, hle⟩ | ⟨-, hle⟩
    · exact UInt32.le_trans hle (by decide)
    · exact hle
  have hnat : c.val.toNat ≤ 122 := UInt32.le_iff_toNat_le.mp hbound
  change c.val.toNat < 0x80
  omega

theorem toNat_lt_of_isDigit {c : Char} (h : c.isDigit = true) : c.toNat < 0x80 := by
  rw [Char.isDigit, Bool.and_eq_true, decide_eq_true_eq, decide_eq_true_eq] at h
  have hbound : c.val.toNat ≤ 57 := UInt32.le_iff_toNat_le.mp h.2
  change c.val.toNat < 0x80
  omega

theorem isWord_of_isAlpha {c : Char} (h : c.isAlpha = true) : isWord c = true := by
  rw [isWord, if_pos (toNat_lt_of_isAlpha h), Char.isAlphanum, h]
  rfl

theorem isAlpha_of_toUpper {c : Char} (h : c.toUpper.isUpper = true) : c.isAlpha = true := by
  by_cases hlower : 97 ≤ c.val ∧ c.val ≤ 122
  · exact isAlpha_iff.mpr (Or.inr hlower)
  · have hsame : c.toUpper = c := by
      unfold Char.toUpper
      rw [dif_neg]
      intro hrange
      exact hlower ⟨hrange.1, hrange.2⟩
    rw [hsame] at h
    show (c.isUpper || c.isLower) = true
    rw [h, Bool.true_or]

/-- What a capital folds from is a letter of a word. -/
theorem isWord_of_foldsTo {capital c : Char} (hcapital : capital.isUpper = true)
    (h : Cursor.foldsTo capital c = true) : isWord c = true := by
  simp only [Cursor.foldsTo, Bool.or_eq_true, Bool.and_eq_true, beq_iff_eq] at h
  rcases h with (rfl | ⟨-, rfl⟩) | ⟨-, rfl⟩
  · exact isWord_of_isAlpha (isAlpha_of_toUpper hcapital)
  · decide +kernel
  · decide +kernel

theorem foldsTo_eq_false_of_isDigit {capital c : Char} (hcapital : capital.isUpper = true)
    (h : isDigit c = true) : Cursor.foldsTo capital c = false := by
  rw [Bool.eq_false_iff]
  intro hfolds
  simp only [Cursor.foldsTo, Bool.or_eq_true, Bool.and_eq_true, beq_iff_eq] at hfolds
  rcases hfolds with (rfl | ⟨-, rfl⟩) | ⟨-, rfl⟩
  · have halpha := isAlpha_of_toUpper hcapital
    rw [isDigit, if_pos (toNat_lt_of_isAlpha halpha)] at h
    rw [Char.isDigit, Bool.and_eq_true, decide_eq_true_eq, decide_eq_true_eq] at h
    rcases isAlpha_iff.mp halpha with ⟨hle, -⟩ | ⟨hle, -⟩
    · exact absurd (UInt32.le_trans hle h.2) (by decide)
    · exact absurd (UInt32.le_trans hle h.2) (by decide)
  · exact absurd h (by decide +kernel)
  · exact absurd h (by decide +kernel)

theorem isWord_of_isDigit {c : Char} (h : isDigit c = true) : isWord c = true := by
  rw [isDigit] at h
  rw [isWord]
  split
  · next hascii =>
      rw [if_pos hascii] at h
      simp [Char.isAlphanum, h]
  · next hascii =>
      rw [if_neg hascii] at h
      simp [h]

/-- The blanks, one by one. -/
def blankChars : List Char :=
  [9, 10, 11, 12, 13, 32, 133, 160, 5760, 8192, 8193, 8194, 8195, 8196, 8197, 8198, 8199, 8200, 8201, 8202,
    8232, 8233, 8239, 8287, 12288].map Char.ofNat

theorem mem_blankChars {c : Char} (h : isBlank c = true) : c ∈ blankChars := by
  simp only [isBlank, Bool.or_eq_true, Bool.and_eq_true, decide_eq_true_eq, beq_iff_eq] at h
  rw [blankChars, List.mem_map]
  refine ⟨c.toNat, ?_, Char.ofNat_toNat c⟩
  simp only [List.mem_cons, List.not_mem_nil, or_false]
  omega

/-- What holds of the blanks one by one holds of every blank. -/
theorem of_isBlank {p : Char → Bool} (hall : blankChars.all p = true) {c : Char} (h : isBlank c = true) :
    p c = true :=
  List.all_eq_true.mp hall c (mem_blankChars h)

theorem isWord_eq_false_of_isBlank {c : Char} (h : isBlank c = true) : isWord c = false := by
  have hall : blankChars.all (!isWord ·) = true := by decide +kernel
  simpa using of_isBlank hall h

theorem isBlank_of_mem_space {c : Char} (h : c ∈ [' ']) : isBlank c = true := by
  rw [List.mem_singleton.mp h]
  rfl

theorem isBlank_eq_false_of_isWord {c : Char} (h : isWord c = true) : isBlank c = false := by
  by_contra hblank
  rw [isWord_eq_false_of_isBlank (Bool.of_not_eq_false hblank)] at h
  cases h

theorem isBlank_eq_false_of_isDigit {c : Char} (h : isDigit c = true) : isBlank c = false :=
  isBlank_eq_false_of_isWord (isWord_of_isDigit h)

theorem isDigit_eq_false_of_isWord_eq_false {c : Char} (h : isWord c = false) : isDigit c = false := by
  by_contra hdigit
  rw [isWord_of_isDigit (Bool.of_not_eq_false hdigit)] at h
  cases h

theorem isDigit_eq_false_of_isBlank {c : Char} (h : isBlank c = true) : isDigit c = false :=
  isDigit_eq_false_of_isWord_eq_false (isWord_eq_false_of_isBlank h)

theorem Spelled.exists_of_mem {keyword word : List Char} (h : Spelled keyword word) {c : Char}
    (hc : c ∈ word) : ∃ capital ∈ keyword, Cursor.foldsTo capital c = true := by
  induction h with
  | nil => cases hc
  | cons hfolds _ ih =>
      rcases List.mem_cons.mp hc with rfl | hc
      · exact ⟨_, List.mem_cons_self, hfolds⟩
      · obtain ⟨capital, hmem, hcapital⟩ := ih hc
        exact ⟨capital, List.mem_cons_of_mem _ hmem, hcapital⟩

theorem isUpper_of_mem_keyword {keyword : List Char} (hkey : isKeyword keyword = true) {capital : Char}
    (h : capital ∈ keyword) : capital.isUpper = true := by
  rw [isKeyword, Bool.and_eq_true, List.all_eq_true] at hkey
  exact hkey.2 capital h

theorem Spelled.isWord_of_mem {keyword word : List Char} (hkey : isKeyword keyword = true)
    (h : Spelled keyword word) : ∀ c ∈ word, isWord c = true := by
  intro c hc
  obtain ⟨capital, hmem, hfolds⟩ := h.exists_of_mem hc
  exact isWord_of_foldsTo (isUpper_of_mem_keyword hkey hmem) hfolds

theorem Spelled.isDigit_eq_false {keyword word : List Char} (hkey : isKeyword keyword = true)
    (h : Spelled keyword word) : ∀ c ∈ word, isDigit c = false := by
  intro c hc
  obtain ⟨capital, hmem, hfolds⟩ := h.exists_of_mem hc
  by_contra hdigit
  have hupper := isUpper_of_mem_keyword hkey hmem
  rw [foldsTo_eq_false_of_isDigit hupper (Bool.of_not_eq_false hdigit)] at hfolds
  cases hfolds

theorem spelled_self {keyword : List Char} (hkey : isKeyword keyword = true) : Spelled keyword keyword := by
  have hupper : ∀ c ∈ keyword, c.isUpper = true := fun _ => isUpper_of_mem_keyword hkey
  clear hkey
  induction keyword with
  | nil => exact .nil
  | cons c keyword ih =>
      rw [List.forall_mem_cons] at hupper
      refine .cons ?_ (ih hupper.2)
      have hsame : c.toUpper = c := by
        unfold Char.toUpper
        rw [dif_neg]
        intro hrange
        have hbound : c.val ≥ 'A'.val ∧ c.val ≤ 'Z'.val := of_decide_eq_true hupper.1
        exact absurd (UInt32.le_trans hrange.1 hbound.2) (by decide)
      simp [Cursor.foldsTo, hsame]

theorem isWord_of_mem_keyword {keyword : List Char} (hkey : isKeyword keyword = true) :
    ∀ c ∈ keyword, isWord c = true :=
  (spelled_self hkey).isWord_of_mem hkey

theorem eq_of_foldsTo {capital other c : Char} (hcapital : capital.isUpper = true) (hother : other.isUpper = true)
    (h : Cursor.foldsTo capital c = true) (hc : Cursor.foldsTo other c = true) : capital = other := by
  have hlong : ∀ x : Char, x.isUpper = true → x ≠ Char.toUpper '\u017F' ∧ x ≠ Char.toUpper '\u212A' := by
    intro x hx
    constructor
    · rintro rfl
      exact absurd hx (by decide)
    · rintro rfl
      exact absurd hx (by decide)
  simp only [Cursor.foldsTo, Bool.or_eq_true, Bool.and_eq_true, beq_iff_eq] at h hc
  rcases h with (h | ⟨rfl, rfl⟩) | ⟨rfl, rfl⟩
  · rcases hc with (hc | ⟨rfl, rfl⟩) | ⟨rfl, rfl⟩
    · rw [← h, hc]
    · exact absurd h.symm (hlong capital hcapital).1
    · exact absurd h.symm (hlong capital hcapital).2
  · rcases hc with (hc | ⟨rfl, -⟩) | ⟨-, hc⟩
    · exact absurd hc.symm (hlong other hother).1
    · rfl
    · exact absurd hc (by decide)
  · rcases hc with (hc | ⟨-, hc⟩) | ⟨rfl, -⟩
    · exact absurd hc.symm (hlong other hother).2
    · exact absurd hc (by decide)
    · rfl

/-- A word spells one keyword only. -/
theorem Spelled.unique {keyword other word : List Char} (hkey : isKeyword keyword = true)
    (hother : isKeyword other = true) (h : Spelled keyword word) (hword : Spelled other word) : keyword = other := by
  have hupper : (∀ x ∈ keyword, x.isUpper = true) ∧ ∀ x ∈ other, x.isUpper = true :=
    ⟨fun _ => isUpper_of_mem_keyword hkey, fun _ => isUpper_of_mem_keyword hother⟩
  clear hkey hother
  induction h generalizing other with
  | nil =>
      cases hword
      rfl
  | cons hfolds hrest ih =>
      cases hword with
      | cons hfolds' hrest' =>
          rw [List.forall_mem_cons, List.forall_mem_cons] at hupper
          rw [eq_of_foldsTo hupper.1.1 hupper.2.1 hfolds hfolds', ih hrest' ⟨hupper.1.2, hupper.2.2⟩]

theorem Spelled.ne_nil {keyword word : List Char} (hkey : isKeyword keyword = true)
    (h : Spelled keyword word) : word ≠ [] := by
  rintro rfl
  cases h
  cases hkey

theorem Spelled.isBlank_of_head {keyword word : List Char} (hkey : isKeyword keyword = true)
    (h : Spelled keyword word) (rest : List Char) : ∀ c, (word ++ rest).head? = some c → isBlank c = false := by
  intro c hc
  rw [List.head?_append_of_ne_nil _ (h.ne_nil hkey)] at hc
  exact isBlank_eq_false_of_isWord (h.isWord_of_mem hkey c (List.mem_of_head? hc))

namespace WordAt

variable {text front word rest left right : List Char}

theorem takeWhile_eq (h : WordAt text front word rest) : (word ++ rest).takeWhile isWord = word :=
  (Lexeme.takeWhile_append_of_stop h.all_word h.closes).1

/-- A keyword that nothing is joined to is a word. -/
theorem of_keyword (hkey : isKeyword word = true) (htext : text = front ++ (word ++ rest))
    (hopens : ∀ c, front.getLast? = some c → isWord c = false)
    (hcloses : ∀ c, rest.head? = some c → isWord c = false) : WordAt text front word rest :=
  ⟨htext, (spelled_self hkey).ne_nil hkey, isWord_of_mem_keyword hkey, hopens, hcloses⟩

/-- At one place there is one word. -/
theorem unique {other after : List Char} (h : WordAt text front word rest)
    (hother : WordAt text front other after) : other = word ∧ after = rest := by
  have htext : word ++ rest = other ++ after := List.append_cancel_left (h.eq_append.symm.trans hother.eq_append)
  have hword : other = word := by rw [← hother.takeWhile_eq, ← htext, h.takeWhile_eq]
  subst hword
  exact ⟨rfl, (List.append_cancel_left htext).symm⟩

/-- A word of two texts that no word goes across is a word of one of them. -/
theorem of_append (h : WordAt (left ++ right) front word rest) (hapart : Apart left right) :
    (∃ gap, rest = gap ++ right ∧ WordAt left front word gap) ∨
      ∃ gap, front = left ++ gap ∧ WordAt right gap word rest := by
  obtain ⟨htext, hne, hword, hopens, hcloses⟩ := h
  rcases List.append_eq_append_iff.mp htext with ⟨gap, hfront, hright⟩ | ⟨gap, hleft, hgap⟩
  · refine Or.inr ⟨gap, hfront, hright, hne, hword, fun c hc => hopens c ?_, hcloses⟩
    rw [hfront, List.getLast?_append, hc]
    rfl
  · rcases List.append_eq_append_iff.mp hgap with ⟨tail, hgapWord, hrest⟩ | ⟨tail, hwordGap, hright⟩
    · refine Or.inl ⟨tail, hrest, by rw [hleft, hgapWord], hne, hword, hopens, fun c hc => hcloses c ?_⟩
      rw [hrest, List.head?_append, hc]
      rfl
    · -- The word would have its beginning in the one text and its end in the other.
      cases tail with
      | nil =>
          rw [List.append_nil] at hwordGap
          rw [List.nil_append] at hright
          refine Or.inl ⟨[], by rw [hright]; rfl, by rw [hleft, hwordGap, List.append_nil], hne, hword, hopens, ?_⟩
          intro c hc
          cases hc
      | cons d tail =>
          cases hgapNil : gap.getLast? with
          | none =>
              have hgap : gap = [] := List.getLast?_eq_none_iff.mp hgapNil
              rw [hgap, List.append_nil] at hleft
              rw [hgap, List.nil_append] at hwordGap
              refine Or.inr ⟨[], by rw [hleft, List.append_nil], ?_, hne, hword, ?_, hcloses⟩
              · rw [hright, hwordGap]
                rfl
              · intro c hc
                cases hc
          | some e =>
              have hlast : left.getLast? = some e := by
                rw [hleft, List.getLast?_append, hgapNil]
                rfl
              have hhead : right.head? = some d := by
                rw [hright]
                rfl
              have hefirst := hword e (by
                rw [hwordGap]
                exact List.mem_append_left _ (List.mem_of_getLast? hgapNil))
              have hdword := hword d (by
                rw [hwordGap]
                exact List.mem_append_right _ List.mem_cons_self)
              rw [hapart e d hlast hhead hefirst] at hdword
              cases hdword

theorem append_left (h : WordAt left front word rest) (hapart : Apart left right) :
    WordAt (left ++ right) front word (rest ++ right) := by
  obtain ⟨htext, hne, hword, hopens, hcloses⟩ := h
  refine ⟨by rw [htext]; simp, hne, hword, hopens, fun d hd => ?_⟩
  cases rest with
  | cons c rest => exact hcloses d hd
  | nil =>
      rw [List.append_nil] at htext
      have hlast : left.getLast? = some (word.getLast hne) := by
        rw [htext, List.getLast?_append, List.getLast?_eq_some_getLast hne]
        rfl
      exact hapart _ d hlast hd (hword _ (List.getLast_mem hne))

theorem append_right (h : WordAt right front word rest) (hapart : Apart left right) :
    WordAt (left ++ right) (left ++ front) word rest := by
  obtain ⟨htext, hne, hword, hopens, hcloses⟩ := h
  refine ⟨by rw [htext]; simp, hne, hword, fun e he => ?_, hcloses⟩
  cases hfront : front.getLast? with
  | some c =>
      rw [List.getLast?_append, hfront, Option.some_or] at he
      exact hopens e (by rw [hfront, he])
  | none =>
      obtain rfl := List.getLast?_eq_none_iff.mp hfront
      rw [List.append_nil] at he
      rw [List.nil_append] at htext
      obtain ⟨d, hd⟩ := Option.isSome_iff_exists.mp (List.isSome_head?.mpr hne)
      have hhead : right.head? = some d := by
        rw [htext, List.head?_append, hd]
        rfl
      by_contra heword
      have hdword := hword d (List.mem_of_head? hd)
      rw [hapart e d he hhead (Bool.of_not_eq_false heword)] at hdword
      cases hdword

end WordAt

end SqlGate
