import SqlGate.Proofs.SideBySide

/-! A clause read again with other digits in the place of a count. The readers go through two texts that
differ in one stretch of digits side by side: they read at the same places, and where the one reads that
stretch for a count the other reads the new one. -/

namespace SqlGate

open Unicode

/-- The count that digits write behind a text. -/
def WrittenCount.after (front digits : List Char) : WrittenCount :=
  .ofDigits digits (.between front digits) (.between (front ++ digits) [])

/-- Two stretches of digits between the same texts, each one as long as it can be. -/
structure Recount (front digits other rest : List Char) : Prop where
  digits_ne_nil : digits ≠ []
  other_ne_nil : other ≠ []
  isDigit_digits : ∀ c ∈ digits, isDigit c = true
  isDigit_other : ∀ c ∈ other, isDigit c = true
  opens : ∀ c, front.getLast? = some c → isWord c = false
  stops : ∀ c, rest.head? = some c → isDigit c = false

theorem Recount.symm {front digits other rest : List Char} (h : Recount front digits other rest) :
    Recount front other digits rest :=
  ⟨h.other_ne_nil, h.digits_ne_nil, h.isDigit_other, h.isDigit_digits, h.opens, h.stops⟩

/-- The same place in both texts, in front of the digits or behind them. -/
inductive Alike (front digits other rest : List Char) : Cursor → Cursor → Prop where
  | before {read later : List Char} (h : front = read ++ later) :
      Alike front digits other rest (.between read (later ++ (digits ++ rest)))
        (.between read (later ++ (other ++ rest)))
  | after {read later : List Char} (h : rest = read ++ later) :
      Alike front digits other rest (.between (front ++ (digits ++ read)) later)
        (.between (front ++ (other ++ read)) later)

theorem Alike.symm {front digits other rest : List Char} {c again : Cursor}
    (h : Alike front digits other rest c again) : Alike front other digits rest again c := by
  cases h with
  | before hfront => exact .before hfront
  | after hrest => exact .after hrest

/-- A count is the same one again, or the new digits where it was the old ones. -/
def AlikeCount (front other : List Char) (count again : WrittenCount) : Prop :=
  count.start = byteLength front → again = .after front other

theorem takeWhile_append_of_head {p : Char → Bool} {left right : List Char}
    (h : ∀ c, right.head? = some c → p c = false) :
    (left ++ right).takeWhile p = left.takeWhile p ∧
      (left ++ right).dropWhile p = left.dropWhile p ++ right := by
  have hright : right.takeWhile p = [] ∧ right.dropWhile p = right := by
    cases right with
    | nil => exact ⟨rfl, rfl⟩
    | cons c right => simp [h c rfl]
  induction left with
  | nil => simpa using hright
  | cons c left ih =>
      by_cases hc : p c = true
      · simp [hc, ih]
      · simp [hc]

namespace Recount

variable {front digits other rest keyword : List Char} {c again : Cursor}

theorem head_digits (h : Recount front digits other rest) {x : Char}
    (hx : (digits ++ rest).head? = some x) : isDigit x = true := by
  rw [List.head?_append, List.head?_eq_some_head h.digits_ne_nil, Option.some_or] at hx
  rw [← Option.some.inj hx]
  exact h.isDigit_digits _ (List.head_mem h.digits_ne_nil)

theorem head_other (h : Recount front digits other rest) {x : Char}
    (hx : (other ++ rest).head? = some x) : isDigit x = true :=
  h.symm.head_digits hx

theorem opensWord (h : Recount front digits other rest) (hc : Alike front digits other rest c again) :
    c.opensWord = again.opensWord := by
  cases hc with
  | before hfront => rfl
  | @after read later hrest =>
      cases hread : read.getLast? with
      | some x => simp [Cursor.opensWord, Cursor.between, hread]
      | none =>
          have hlast : ∀ {word : List Char} (hne : word ≠ []), (∀ x ∈ word, isDigit x = true) →
              (Cursor.between (front ++ (word ++ read)) later).opensWord = false := by
            intro word hne hword
            rw [Cursor.opensWord, Cursor.between, List.getLast?_append, List.getLast?_append, hread,
              List.getLast?_eq_some_getLast hne]
            exact congrArg not (isWord_of_isDigit (hword _ (List.getLast_mem hne)))
          rw [hlast h.digits_ne_nil h.isDigit_digits, hlast h.other_ne_nil h.isDigit_other]

theorem closesWord (h : Recount front digits other rest) (hc : Alike front digits other rest c again) :
    c.closesWord = again.closesWord := by
  cases hc with
  | after hrest => rfl
  | @before read later hfront =>
      cases later with
      | cons x later => rfl
      | nil =>
          have hhead : ∀ {word : List Char} (hne : word ≠ []), (∀ x ∈ word, isDigit x = true) →
              (Cursor.between read (word ++ rest)).closesWord = false := by
            intro word hne hword
            rw [Cursor.closesWord, Cursor.between, List.head?_append, List.head?_eq_some_head hne]
            exact congrArg not (isWord_of_isDigit (hword _ (List.head_mem hne)))
          rw [List.nil_append, List.nil_append, hhead h.digits_ne_nil h.isDigit_digits,
            hhead h.other_ne_nil h.isDigit_other]

theorem skipWhile (h : Recount front digits other rest) {p : Char → Bool}
    (hp : ∀ x, isDigit x = true → p x = false) (hc : Alike front digits other rest c again) :
    Alike front digits other rest (c.skipWhile p) (again.skipWhile p) := by
  cases hc with
  | @after read later hrest =>
      rw [Cursor.skipWhile_between, Cursor.skipWhile_between]
      simp only [List.append_assoc]
      refine .after ?_
      rw [List.append_assoc, List.takeWhile_append_dropWhile, hrest]
  | @before read later hfront =>
      have hdigits : ∀ x, (digits ++ rest).head? = some x → p x = false :=
        fun x hx => hp x (h.head_digits hx)
      have hother : ∀ x, (other ++ rest).head? = some x → p x = false :=
        fun x hx => hp x (h.head_other hx)
      rw [Cursor.skipWhile_between, Cursor.skipWhile_between, (takeWhile_append_of_head hdigits).1,
        (takeWhile_append_of_head hdigits).2, (takeWhile_append_of_head hother).1,
        (takeWhile_append_of_head hother).2]
      refine .before ?_
      rw [List.append_assoc, List.takeWhile_append_dropWhile, hfront]

theorem blanks (h : Recount front digits other rest) (hc : Alike front digits other rest c again) :
    Alike front digits other rest c.blanks again.blanks :=
  h.skipWhile (fun _ => isBlank_eq_false_of_isDigit) hc

theorem any_head (h : Recount front digits other rest) {p : Char → Bool}
    (hp : ∀ x, isDigit x = true → p x = false) (hc : Alike front digits other rest c again) :
    c.rest.head?.any p = again.rest.head?.any p := by
  cases hc with
  | after hrest => rfl
  | @before read later hfront =>
      cases later with
      | cons x later => rfl
      | nil =>
          have hhead : ∀ {word : List Char} (hne : word ≠ []), (∀ x ∈ word, isDigit x = true) →
              (word ++ rest).head?.any p = false := by
            intro word hne hword
            rw [List.head?_append, List.head?_eq_some_head hne]
            exact hp _ (hword _ (List.head_mem hne))
          exact (hhead h.digits_ne_nil h.isDigit_digits).trans (hhead h.other_ne_nil h.isDigit_other).symm

theorem blanks? (h : Recount front digits other rest) (hc : Alike front digits other rest c again) :
    Option.Rel (Alike front digits other rest) c.blanks? again.blanks? := by
  rw [Cursor.blanks?, Cursor.blanks?, h.any_head (fun _ => isBlank_eq_false_of_isDigit) hc]
  split
  · exact .some (h.blanks hc)
  · exact .none

/-- Both places read alike if what is read at the first one is always read at the second one. -/
theorem rel_of_carry {read : Cursor → Option Cursor}
    (hcarry : ∀ {front digits other rest : List Char} {c again : Cursor}, Recount front digits other rest →
      Alike front digits other rest c again → ∀ x, read c = some x →
        ∃ y, read again = some y ∧ Alike front digits other rest x y)
    (h : Recount front digits other rest) (hc : Alike front digits other rest c again) :
    Option.Rel (Alike front digits other rest) (read c) (read again) := by
  refine rel_of_forall (hcarry h hc) fun y hy => ?_
  obtain ⟨x, hx, -⟩ := hcarry h.symm hc.symm y hy
  rw [hx]
  rfl

theorem char? (h : Recount front digits other rest) {x : Char} (hx : isDigit x = false)
    (hc : Alike front digits other rest c again) :
    Option.Rel (Alike front digits other rest) (c.char? x) (again.char? x) := by
  refine rel_of_carry (fun h hc y hy => ?_) h hc
  cases hc with
  | @after read later hrest =>
      obtain ⟨tail, rfl, rfl⟩ := Cursor.char?_eq_some_iff.mp hy
      refine ⟨_, Cursor.char?_eq_some_iff.mpr ⟨tail, rfl, rfl⟩, ?_⟩
      simp only [List.append_assoc]
      exact .after (by rw [hrest]; simp)
  | @before read later hfront =>
      obtain ⟨tail, htext, rfl⟩ := Cursor.char?_eq_some_iff.mp hy
      cases later with
      | nil =>
          have hdigit := h.head_digits (x := x) (by rw [← List.nil_append (_ ++ _), htext]; rfl)
          rw [hx] at hdigit
          cases hdigit
      | cons z later =>
          obtain ⟨rfl, rfl⟩ := List.cons.inj htext
          refine ⟨_, Cursor.char?_eq_some_iff.mpr ⟨_, rfl, rfl⟩, .before ?_⟩
          rw [hfront]
          simp

theorem letters? (h : Recount front digits other rest) (hkey : isKeyword keyword = true)
    (hc : Alike front digits other rest c again) :
    Option.Rel (Alike front digits other rest) (c.letters? keyword) (again.letters? keyword) := by
  refine rel_of_carry (fun h hc y hy => ?_) h hc
  cases hc with
  | @after read later hrest =>
      obtain ⟨word, tail, rfl, hword, rfl⟩ := Cursor.letters?_eq_some_iff.mp hy
      refine ⟨_, Cursor.letters?_eq_some_iff.mpr ⟨word, tail, rfl, hword, rfl⟩, ?_⟩
      simp only [List.append_assoc]
      exact .after (by rw [hrest]; simp)
  | @before read later hfront =>
      obtain ⟨word, tail, htext, hword, rfl⟩ := Cursor.letters?_eq_some_iff.mp hy
      rcases List.append_eq_append_iff.mp htext with ⟨gap, hgap, hdigits⟩ | ⟨gap, hlater, htail⟩
      · -- The word would go on into the digits.
        cases gap with
        | nil =>
            rw [List.append_nil] at hgap
            rw [List.nil_append] at hdigits
            subst hgap hdigits
            refine ⟨_, Cursor.letters?_eq_some_iff.mpr ⟨word, _, rfl, hword, rfl⟩, ?_⟩
            exact @Alike.before _ _ _ _ _ [] (by rw [hfront, List.append_nil])
        | cons x gap =>
            have hdigit := h.head_digits (x := x) (by rw [hdigits]; rfl)
            have hnot := hword.isDigit_eq_false hkey x (by rw [hgap]; simp)
            rw [hdigit] at hnot
            cases hnot
      · subst hlater htail
        refine ⟨_, Cursor.letters?_eq_some_iff.mpr ⟨word, gap ++ (_ ++ _), by simp, hword, rfl⟩, .before ?_⟩
        rw [hfront, List.append_assoc]

/-- Digits read at two places, with the places after them. -/
def AlikeDigits (front digits other rest : List Char) (c again : Cursor) (read reread : List Char × Cursor) : Prop :=
  Alike front digits other rest read.2 reread.2 ∧
    AlikeCount front other (.ofDigits read.1 c read.2) (.ofDigits reread.1 again reread.2)

/-- At the count itself its digits are read. -/
theorem digits?_front (h : Recount front digits other rest) :
    (Cursor.between front (digits ++ rest)).digits? = some (digits, .between (front ++ digits) rest) :=
  Cursor.digits?_eq_some_iff.mpr ⟨rest, rfl, h.digits_ne_nil, h.isDigit_digits, h.stops, rfl⟩

/-- Digits in front of the count come to an end before it, since no word goes on into the count. -/
theorem exists_gap_of_digits (h : Recount front digits other rest) {passed later read tail : List Char}
    (hfront : front = passed ++ later) (hne : later ≠ []) (hdigit : ∀ c ∈ read, isDigit c = true)
    (htext : later ++ (digits ++ rest) = read ++ tail) :
    ∃ x gap, later = read ++ x :: gap ∧ tail = x :: gap ++ (digits ++ rest) := by
  have hlast : later.getLast hne ∉ read := by
    intro hmem
    have hword := h.opens (later.getLast hne)
      (by rw [hfront, List.getLast?_append, List.getLast?_eq_some_getLast hne]; rfl)
    rw [isWord_of_isDigit (hdigit _ hmem)] at hword
    cases hword
  rcases List.append_eq_append_iff.mp htext with ⟨gap, hread, -⟩ | ⟨gap, hlater, htail⟩
  · exact absurd (hread ▸ List.mem_append_left _ (List.getLast_mem hne)) hlast
  · cases gap with
    | nil =>
        rw [List.append_nil] at hlater
        exact absurd (hlater ▸ List.getLast_mem hne) hlast
    | cons x gap => exact ⟨x, gap, hlater, htail⟩

theorem exists_digits? (h : Recount front digits other rest) (hc : Alike front digits other rest c again)
    {found : List Char × Cursor} (hfound : c.digits? = some found) :
    ∃ refound, again.digits? = some refound ∧ AlikeDigits front digits other rest c again found refound := by
  obtain ⟨read, next⟩ := found
  cases hc with
  | @after passed later hrest =>
      obtain ⟨tail, rfl, hne, hdigit, hstop, rfl⟩ := Cursor.digits?_eq_some_iff.mp hfound
      refine ⟨_, Cursor.digits?_eq_some_iff.mpr ⟨tail, rfl, hne, hdigit, hstop, rfl⟩, ?_, ?_⟩
      · simp only [List.append_assoc]
        exact .after (by rw [hrest]; simp)
      · intro hstart
        have hpos := byteLength_pos h.digits_ne_nil
        change byteLength (front ++ (digits ++ passed)) = byteLength front at hstart
        rw [byteLength_append, byteLength_append] at hstart
        omega
  | @before passed later hfront =>
      by_cases hlater : later = []
      · subst hlater
        rw [List.append_nil] at hfront
        subst hfront
        obtain ⟨rfl, rfl⟩ := Prod.mk.inj (Option.some.inj (h.digits?_front.symm.trans hfound))
        refine ⟨(other, .between (front ++ other) rest), h.symm.digits?_front, ?_, fun _ => rfl⟩
        simpa using @Alike.after front digits other rest [] rest rfl
      · obtain ⟨tail, htext, hne, hdigit, hstop, rfl⟩ := Cursor.digits?_eq_some_iff.mp hfound
        obtain ⟨x, gap, rfl, rfl⟩ := h.exists_gap_of_digits hfront hlater hdigit htext
        refine ⟨(read, _), Cursor.digits?_eq_some_iff.mpr ⟨x :: gap ++ (other ++ rest), by simp, hne, hdigit, hstop, rfl⟩,
          .before (by rw [hfront, List.append_assoc]), fun hstart => ?_⟩
        change byteLength passed = byteLength front at hstart
        rw [hfront, byteLength_append] at hstart
        have hpos := byteLength_pos hlater
        omega

theorem digits? (h : Recount front digits other rest) (hc : Alike front digits other rest c again) :
    Option.Rel (AlikeDigits front digits other rest c again) c.digits? again.digits? := by
  refine rel_of_forall (fun _ => h.exists_digits? hc) fun y hy => ?_
  obtain ⟨x, hx, -⟩ := h.symm.exists_digits? hc.symm hy
  rw [hx]
  rfl

/-- The simple readers read alike from the same places of both texts. -/
theorem readAlike (h : Recount front digits other rest) :
    ReadAlike (Alike front digits other rest) (AlikeCount front other) where
  opensWord := h.opensWord
  closesWord := h.closesWord
  blanks := h.blanks
  blanks? := h.blanks?
  char? hx _ _ hc := by
    refine h.char? ?_ hc
    rcases hx with rfl | rfl | rfl <;> rfl
  letters? hkey _ _ hc := h.letters? hkey hc
  digits? := h.digits?

/-- A cut in front of the digits or behind them, in both texts. -/
inductive Matches (front digits other rest : List Char) : List Char → List Char → List Char → List Char → Prop where
  | before {left later : List Char} (h : front = left ++ later) (hne : later ≠ []) :
      Matches front digits other rest left (later ++ (digits ++ rest)) left (later ++ (other ++ rest))
  | after {gap right : List Char} (h : rest = gap ++ right) :
      Matches front digits other rest (front ++ (digits ++ gap)) right (front ++ (other ++ gap)) right

variable {left right leftAgain rightAgain : List Char}

theorem Matches.symm (h : Matches front digits other rest left right leftAgain rightAgain) :
    Matches front other digits rest leftAgain rightAgain left right := by
  cases h with
  | before hfront hne => exact .before hfront hne
  | after hrest => exact .after hrest

theorem Matches.alike (h : Matches front digits other rest left right leftAgain rightAgain) :
    Alike front digits other rest (.between left right) (.between leftAgain rightAgain) := by
  cases h with
  | before hfront _ => exact .before hfront
  | after hrest => exact .after hrest

theorem Matches.length_lt (h : Recount front digits other rest) {early lateEarly earlyAgain lateAgain : List Char}
    (hfirst : Matches front digits other rest early lateEarly earlyAgain lateAgain)
    (hsecond : Matches front digits other rest left right leftAgain rightAgain)
    (hlt : earlyAgain.length < leftAgain.length) : early.length < left.length := by
  have hdigits := List.length_pos_iff.mpr h.digits_ne_nil
  have hother := List.length_pos_iff.mpr h.other_ne_nil
  cases hfirst with
  | before hfront hne =>
      cases hsecond with
      | before => exact hlt
      | after hrest =>
          have hsize := congrArg List.length hfront
          simp only [List.length_append] at hsize ⊢
          omega
  | after hrest =>
      cases hsecond with
      | before hfront hne =>
          have hsize := congrArg List.length hfront
          simp only [List.length_append] at hsize hlt
          omega
      | after hrest' =>
          simp only [List.length_append] at hlt ⊢
          omega

theorem exists_matches (h : Recount front digits other rest) (htext : front ++ (digits ++ rest) = left ++ right)
    (hhead : ∀ x, right.head? = some x → isDigit x = false) :
    ∃ leftAgain rightAgain, Matches front digits other rest left right leftAgain rightAgain := by
  rcases List.append_eq_append_iff.mp htext with ⟨gap, rfl, hdigits⟩ | ⟨gap, hfront, rfl⟩
  · rcases List.append_eq_append_iff.mp hdigits with ⟨tail, rfl, hrest⟩ | ⟨tail, hgap, rfl⟩
    · exact ⟨_, _, .after hrest⟩
    · cases tail with
      | nil =>
          rw [List.append_nil] at hgap
          subst hgap
          have hmatches := @Matches.after front digits other rest [] rest rfl
          rw [List.append_nil] at hmatches
          exact ⟨_, _, hmatches⟩
      | cons x tail =>
          have hdigit := h.isDigit_digits x (by rw [hgap]; simp)
          rw [hhead x rfl] at hdigit
          cases hdigit
  · cases gap with
    | nil =>
        have hfirst := hhead (digits.head h.digits_ne_nil) (by
          rw [List.nil_append, List.head?_append, List.head?_eq_some_head h.digits_ne_nil]
          rfl)
        rw [h.isDigit_digits _ (List.head_mem h.digits_ne_nil)] at hfirst
        cases hfirst
    | cons x gap => exact ⟨_, _, .before hfront (by simp)⟩

theorem openAfter_digits (h : Recount front digits other rest) (depth : Nat) : openAfter depth digits = depth := by
  have hnot : ∀ x, isDigit x = false → x ∉ digits := by
    intro x hx hmem
    rw [h.isDigit_digits x hmem] at hx
    cases hx
  exact openAfter_of_notMem (hnot '(' (by decide)) (hnot ')' (by decide)) depth

theorem openAfter_eq (h : Recount front digits other rest) (gap : List Char) :
    openAfter 0 (front ++ (digits ++ gap)) = openAfter 0 (front ++ (other ++ gap)) := by
  simp only [openAfter_append, h.openAfter_digits, h.symm.openAfter_digits]

theorem topCut (h : Recount front digits other rest) {start : Nat} (hstart : start ≤ byteLength front)
    (hmatches : Matches front digits other rest left right leftAgain rightAgain)
    (hcut : TopCut (front ++ (digits ++ rest)) start left right) :
    TopCut (front ++ (other ++ rest)) start leftAgain rightAgain := by
  obtain ⟨-, hle, hdepth⟩ := hcut
  cases hmatches with
  | @before _ later hfront hne =>
      refine ⟨by rw [hfront]; simp, hle, ?_⟩
      rw [← hdepth]
      refine depthBetween_congr rfl ?_
      obtain ⟨x, later, rfl⟩ := List.exists_cons_of_ne_nil hne
      rfl
  | @after gap _ hrest =>
      refine ⟨by rw [hrest]; simp, ?_, ?_⟩
      · rw [byteLength_append]
        omega
      · rw [← hdepth]
        exact depthBetween_congr (h.openAfter_eq gap).symm rfl

/-- What is found first in the one text is found first in the other. -/
theorem findTopLevel? {α : Type} {R : α → α → Prop} {read : Cursor → Option α} {sql again : List Char} {start : Nat}
    (h : Recount front digits other rest) (hsql : (Outline.of sql).text = front ++ (digits ++ rest))
    (hagain : (Outline.of again).text = front ++ (other ++ rest)) (hstart : start ≤ byteLength front)
    (hread : ∀ c again, Alike front digits other rest c again → Option.Rel R (read c) (read again))
    (hdigit : ∀ before x after, isDigit x = true → read (.between before (x :: after)) = none) :
    Option.Rel R ((Outline.of sql).findTopLevel? start read) ((Outline.of again).findTopLevel? start read) := by
  have hhead : ∀ {before after : List Char} {found : α}, read (.between before after) = some found →
      ∀ x, after.head? = some x → isDigit x = false := by
    intro before after found hfound x hx
    obtain ⟨tail, rfl⟩ := List.head?_eq_some_iff.mp hx
    by_contra hxDigit
    rw [hdigit before x tail (Bool.of_not_eq_false hxDigit)] at hfound
    cases hfound
  apply Outline.rel_findTopLevel? (Matches front digits other rest)
  · intro left right found hcut hfound
    rw [hsql] at hcut
    obtain ⟨leftAgain, rightAgain, hmatches⟩ := h.exists_matches hcut.eq_append (hhead hfound)
    exact ⟨leftAgain, rightAgain, hmatches, hagain ▸ h.topCut hstart hmatches hcut⟩
  · intro left right found hcut hfound
    rw [hagain] at hcut
    obtain ⟨leftOld, rightOld, hmatches⟩ := h.symm.exists_matches hcut.eq_append (hhead hfound)
    exact ⟨leftOld, rightOld, hmatches.symm, hsql ▸ h.symm.topCut hstart hmatches hcut⟩
  · exact fun _ _ _ _ hmatches => hread _ _ hmatches.alike
  · exact fun _ _ _ _ _ _ _ _ hfirst hsecond => hfirst.length_lt h hsecond

end Recount

end SqlGate
