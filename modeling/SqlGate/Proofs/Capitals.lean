import SqlGate.NormalForm
import SqlGate.Proofs.WordRuns

/-! The capital forms of characters. A capital form has no other one, no character that is no part of a word
becomes one, blanks and the signs of ASCII stay and nothing becomes one of them, and what folds to a letter of
ASCII becomes something that does. -/

namespace SqlGate

open Unicode

/-- What holds of the characters of ASCII one by one. -/
theorem of_ascii {motive : Char → Prop} (h : ∀ code < 0x80, motive (Char.ofNat code)) {c : Char}
    (hascii : c.toNat < 0x80) : motive c := by
  have hcode := h c.toNat hascii
  rwa [Char.ofNat_toNat] at hcode

/-- Each capital of a run, with the character that it belongs to. -/
theorem capital?_eq_some_iff {run : CaseRun} {code capital : Nat} : run.capital? code = some capital ↔
    (run.first ≤ code ∧ code ≤ run.last ∧ (code - run.first) % run.stride = 0) ∧
      capital = run.target + (code - run.first) := by
  rw [CaseRun.capital?]
  split
  · next hin =>
      rw [Option.some_inj]
      exact ⟨fun heq => ⟨hin, heq.symm⟩, fun heq => heq.2.symm⟩
  · next hout =>
      constructor
      · exact nofun
      · exact fun hin => absurd hin.1 hout

theorem mem_of_lookup {codes : List Nat} {code : Nat} {table : List (Nat × List Nat)}
    (h : table.lookup code = some codes) : (code, codes) ∈ table := by
  induction table with
  | nil => cases h
  | cons entry table ih =>
      obtain ⟨first, capitals⟩ := entry
      rw [List.lookup_cons] at h
      split at h
      · next heq =>
          obtain rfl : code = first := by simpa using heq
          obtain rfl := Option.some.inj h
          exact List.mem_cons_self
      · exact List.mem_cons_of_mem _ (ih h)

/-- The capital form of a character beyond ASCII: one capital of a run, several characters, or itself. -/
theorem upper_cases {c : Char} (h : ¬c.toNat < 0x80) :
    (∃ run ∈ capitalRuns, ∃ capital, run.capital? c.toNat = some capital ∧ upper c = [Char.ofNat capital]) ∨
      (∃ codes, (c.toNat, codes) ∈ capitalSequences ∧ upper c = codes.map Char.ofNat) ∨ upper c = [c] := by
  rw [upper, if_neg h]
  cases hrun : capitalRuns.findSome? (·.capital? c.toNat) with
  | some capital =>
      obtain ⟨run, hmem, hcapital⟩ := List.exists_of_findSome?_eq_some hrun
      exact Or.inl ⟨run, hmem, capital, hcapital, rfl⟩
  | none =>
      cases hlookup : capitalSequences.lookup c.toNat with
      | some codes => exact Or.inr (Or.inl ⟨codes, mem_of_lookup hlookup, rfl⟩)
      | none => exact Or.inr (Or.inr rfl)

theorem upper_ne_nil (c : Char) : upper c ≠ [] := by
  by_cases hascii : c.toNat < 0x80
  · rw [upper, if_pos hascii]
    exact List.cons_ne_nil _ _
  · rcases upper_cases hascii with ⟨-, -, capital, -, hupper⟩ | ⟨codes, hmem, hupper⟩ | hupper
    · rw [hupper]
      exact List.cons_ne_nil _ _
    · have hcodes : ∀ entry ∈ capitalSequences, entry.2 ≠ [] := by decide
      rw [hupper]
      exact fun hnil => hcodes _ hmem (List.map_eq_nil_iff.mp hnil)
    · rw [hupper]
      exact List.cons_ne_nil _ _

/-- Each character of the runs is a word character, unless its capital is none. -/
theorem isWord_of_capitalRuns : capitalRuns.all (fun run => (List.range (run.last + 1 - run.first)).all fun step =>
    (run.capital? (run.first + step)).all fun capital =>
      isWord (Char.ofNat (run.first + step)) || !isWord (Char.ofNat capital)) = true := by
  decide +kernel

theorem isWord_of_capitalSequences : capitalSequences.all (fun entry => isWord (Char.ofNat entry.1)) = true := by
  decide +kernel

/-- What is no word character does not become one. -/
theorem isWord_upper {c : Char} (h : isWord c = false) : ∀ d ∈ upper c, isWord d = false := by
  intro d hd
  by_cases hascii : c.toNat < 0x80
  · have hsame : isWord c = false → c.toUpper = c :=
      of_ascii (motive := fun c => isWord c = false → c.toUpper = c) (by decide) hascii
    rw [upper, if_pos hascii, hsame h, List.mem_singleton] at hd
    rw [hd, h]
  · rcases upper_cases hascii with ⟨run, hmem, capital, hcapital, hupper⟩ | ⟨codes, hmem, hupper⟩ | hupper
    · obtain ⟨⟨hfirst, hlast, -⟩, -⟩ := capital?_eq_some_iff.mp hcapital
      have hrun := List.all_eq_true.mp isWord_of_capitalRuns run hmem
      have hstep := List.all_eq_true.mp hrun (c.toNat - run.first) (List.mem_range.mpr (by omega))
      rw [Nat.add_sub_cancel' hfirst, hcapital, Option.all_some, Char.ofNat_toNat, h, Bool.false_or,
        Bool.not_eq_true'] at hstep
      rw [hupper, List.mem_singleton] at hd
      rw [hd, hstep]
    · have hword := List.all_eq_true.mp isWord_of_capitalSequences _ hmem
      dsimp only at hword
      rw [Char.ofNat_toNat, h] at hword
      cases hword
    · rw [hupper, List.mem_singleton] at hd
      rw [hd, h]

theorem upper_of_isBlank {c : Char} (h : isBlank c = true) : upper c = [c] := by
  have hall : blankChars.all (fun blank => upper blank == [blank]) = true := by decide
  exact beq_iff_eq.mp (of_isBlank hall h)

/-- The signs and digits of ASCII: what shows in print and is no letter. -/
def isSign (c : Char) : Bool :=
  0x20 < c.toNat && c.toNat < 0x7F && !c.isAlpha

/-- A character that has no capital form but itself, and is neither a blank nor a sign. -/
def isCapital (c : Char) : Bool :=
  upper c == [c] && !isBlank c && !isSign c

/-- Whether no capital of a run has a capital in the other one: the capitals of the run stand in front of it, behind it
or between its small letters. -/
def avoids (run other : CaseRun) : Bool :=
  run.target + (run.last - run.first) < other.first || other.last < run.target ||
    ((run.stride == 2 || run.first == run.last) && other.stride == 2 && (run.target + other.first) % 2 == 1)

/-- Whether the code lies in front of the capitals of a run or behind them. -/
def misses (run : CaseRun) (code : Nat) : Bool :=
  code < run.target || run.target + (run.last - run.first) < code

theorem avoids_of_capitalRuns : capitalRuns.all (fun run => capitalRuns.all (avoids run)) = true := by
  decide +kernel

theorem misses_of_capitalRuns : capitalRuns.all (fun run =>
    capitalSequences.all (fun entry => misses run entry.1) && blankChars.all fun blank => misses run blank.toNat) =
      true := by
  decide +kernel

/-- A run goes to ASCII with one capital only. -/
theorem isCapital_of_capitalRuns : capitalRuns.all (fun run =>
    0x80 ≤ run.target || (run.first == run.last && isCapital (Char.ofNat run.target))) = true := by
  decide +kernel

theorem isCapital_of_capitalSequences :
    capitalSequences.all (fun entry => entry.2.all fun code => isCapital (Char.ofNat code)) = true := by
  decide +kernel

theorem capital?_eq_none_of_avoids {run other : CaseRun} {code capital : Nat} (havoids : avoids run other = true)
    (h : run.capital? code = some capital) : other.capital? capital = none := by
  obtain ⟨⟨hfirst, hlast, hstride⟩, rfl⟩ := capital?_eq_some_iff.mp h
  rw [CaseRun.capital?, if_neg]
  rintro ⟨hother, hbelow, hstep⟩
  simp only [avoids, Bool.or_eq_true, Bool.and_eq_true, decide_eq_true_eq, beq_iff_eq] at havoids
  rcases havoids with (hfront | hbehind) | ⟨⟨hruns, htwo⟩, hodd⟩
  · omega
  · omega
  · -- Both go in steps of two, and not to the same codes.
    rw [htwo] at hstep
    rcases hruns with heven | hsingle
    · rw [heven] at hstride
      omega
    · omega

theorem lookup_eq_none {code : Nat} {table : List (Nat × List Nat)} (h : ∀ entry ∈ table, entry.1 ≠ code) :
    table.lookup code = none := by
  rw [List.lookup_eq_none_iff]
  exact fun entry hmem => bne_iff_ne.mpr (h entry hmem).symm

/-- A capital of a run is one for good. -/
theorem isCapital_of_capital? {run : CaseRun} (hmem : run ∈ capitalRuns) {code capital : Nat}
    (h : run.capital? code = some capital) : isCapital (Char.ofNat capital) = true := by
  by_cases hvalid : capital.isValidChar
  · have hcode : (Char.ofNat capital).toNat = capital := by
      rw [Char.ofNat, dif_pos hvalid]
      rfl
    obtain ⟨⟨hfirst, hlast, -⟩, hcapital⟩ := capital?_eq_some_iff.mp h
    have hmiss : ∀ {missed : Nat}, misses run missed = true → missed ≠ capital := by
      intro missed hmisses heq
      simp only [misses, Bool.or_eq_true, decide_eq_true_eq] at hmisses
      omega
    have hmisses := List.all_eq_true.mp misses_of_capitalRuns run hmem
    rw [Bool.and_eq_true, List.all_eq_true, List.all_eq_true] at hmisses
    have hascii := List.all_eq_true.mp isCapital_of_capitalRuns run hmem
    rw [Bool.or_eq_true, decide_eq_true_eq, Bool.and_eq_true, beq_iff_eq] at hascii
    rcases hascii with hlarge | ⟨hsingle, hletter⟩
    · have hupper : upper (Char.ofNat capital) = [Char.ofNat capital] := by
        have hruns : capitalRuns.findSome? (·.capital? capital) = none := by
          rw [List.findSome?_eq_none_iff]
          intro other hother
          exact capital?_eq_none_of_avoids
            (List.all_eq_true.mp (List.all_eq_true.mp avoids_of_capitalRuns run hmem) other hother) h
        have hsequences := lookup_eq_none fun entry hentry => hmiss (hmisses.1 entry hentry)
        rw [upper, hcode, if_neg (by omega), hruns]
        dsimp only
        rw [hsequences]
      have hblank : isBlank (Char.ofNat capital) = false := by
        by_contra hblank
        exact hmiss (hmisses.2 _ (mem_blankChars (Bool.of_not_eq_false hblank))) hcode
      have hsign : isSign (Char.ofNat capital) = false := by
        rw [isSign, hcode, decide_eq_false (by omega : ¬capital < 0x7F), Bool.and_false, Bool.false_and]
      rw [isCapital, hupper, hblank, hsign]
      simp
    · obtain rfl : capital = run.target := by omega
      exact hletter
  · rw [Char.ofNat, dif_neg hvalid]
    decide

/-- A character is its own capital form, or that is made of capitals. -/
theorem upper_self_or_isCapital (c : Char) : upper c = [c] ∨ ∀ d ∈ upper c, isCapital d = true := by
  by_cases hascii : c.toNat < 0x80
  · have hself : upper c = [c] ∨ (upper c).all isCapital = true :=
      of_ascii (motive := fun c => upper c = [c] ∨ (upper c).all isCapital = true) (by decide +kernel) hascii
    rwa [List.all_eq_true] at hself
  · rcases upper_cases hascii with ⟨run, hmem, capital, hcapital, hupper⟩ | ⟨codes, hmem, hupper⟩ | hupper
    · refine Or.inr fun d hd => ?_
      rw [hupper, List.mem_singleton] at hd
      rw [hd, isCapital_of_capital? hmem hcapital]
    · have hcodes := List.all_eq_true.mp isCapital_of_capitalSequences _ hmem
      refine Or.inr fun d hd => ?_
      rw [hupper, List.mem_map] at hd
      obtain ⟨code, hcode, rfl⟩ := hd
      exact List.all_eq_true.mp hcodes code hcode
    · exact Or.inl hupper

theorem isCapital_iff {c : Char} : isCapital c = true ↔ upper c = [c] ∧ isBlank c = false ∧ isSign c = false := by
  simp [isCapital, and_assoc]

/-- The capital form has no other one. -/
theorem upper_of_mem_upper {c d : Char} (h : d ∈ upper c) : upper d = [d] := by
  rcases upper_self_or_isCapital c with hself | hcapital
  · rw [hself, List.mem_singleton] at h
    rw [h, hself]
  · exact (isCapital_iff.mp (hcapital d h)).1

/-- Only a blank becomes one. -/
theorem isBlank_upper {c : Char} (h : isBlank c = false) : ∀ d ∈ upper c, isBlank d = false := by
  intro d hd
  rcases upper_self_or_isCapital c with hself | hcapital
  · rw [hself, List.mem_singleton] at hd
    rw [hd, h]
  · exact (isCapital_iff.mp (hcapital d hd)).2.1

/-- Only a sign becomes a sign, the same one. -/
theorem mem_upper_iff_of_isSign {c sign : Char} (h : isSign sign = true) : sign ∈ upper c ↔ c = sign := by
  constructor
  · intro hmem
    rcases upper_self_or_isCapital c with hself | hcapital
    · rw [hself, List.mem_singleton] at hmem
      exact hmem.symm
    · have hnone := (isCapital_iff.mp (hcapital sign hmem)).2.2
      rw [h] at hnone
      cases hnone
  · rintro rfl
    have hascii : c.toNat < 0x80 := by
      simp only [isSign, Bool.and_eq_true, decide_eq_true_eq] at h
      omega
    exact of_ascii (motive := fun c => isSign c = true → c ∈ upper c) (by decide +kernel) hascii h

theorem upper_of_isSign {c : Char} (h : isSign c = true) : upper c = [c] := by
  rcases upper_self_or_isCapital c with hself | hcapital
  · exact hself
  · have hnone := (isCapital_iff.mp (hcapital c ((mem_upper_iff_of_isSign h).mpr rfl))).2.2
    rw [h] at hnone
    cases hnone

theorem isBlank_of_isSign {c : Char} (h : isSign c = true) : isBlank c = false := by
  by_contra hblank
  have hall : blankChars.all (!isSign ·) = true := by decide
  have hnone := of_isBlank hall (Bool.of_not_eq_false hblank)
  rw [h] at hnone
  cases hnone

/-- Only a semicolon becomes one. -/
theorem semicolon_mem_upper {c : Char} : ';' ∈ upper c ↔ c = ';' :=
  mem_upper_iff_of_isSign (by decide)

/-- What folds to a letter has one capital, which folds to it too. -/
theorem upper_of_foldsTo {capital c : Char} (hcapital : capital.isUpper = true)
    (h : Cursor.foldsTo capital c = true) : ∃ d, upper c = [d] ∧ Cursor.foldsTo capital d = true := by
  simp only [Cursor.foldsTo, Bool.or_eq_true, Bool.and_eq_true, beq_iff_eq] at h
  rcases h with (rfl | ⟨rfl, rfl⟩) | ⟨rfl, rfl⟩
  · have hascii := toNat_lt_of_isAlpha (isAlpha_of_toUpper hcapital)
    refine ⟨c.toUpper, by rw [upper, if_pos hascii], ?_⟩
    have htwice : c.toUpper.toUpper = c.toUpper :=
      of_ascii (motive := fun c => c.toUpper.toUpper = c.toUpper) (by decide) hascii
    simp [Cursor.foldsTo, htwice]
  · exact ⟨'S', by decide, by decide⟩
  · exact ⟨'\u212A', by decide, by decide⟩

/-- A word that spells a keyword spells it in capitals too. -/
theorem Spelled.flatMap_upper {keyword word : List Char} (hkey : isKeyword keyword = true)
    (h : Spelled keyword word) : Spelled keyword (word.flatMap upper) := by
  have hupper : ∀ c ∈ keyword, c.isUpper = true := fun _ => isUpper_of_mem_keyword hkey
  clear hkey
  induction h with
  | nil => exact .nil
  | cons hfolds _ ih =>
      rw [List.forall_mem_cons] at hupper
      obtain ⟨d, hd, hfoldsAgain⟩ := upper_of_foldsTo hupper.1 hfolds
      rw [List.flatMap_cons, hd]
      exact .cons hfoldsAgain (ih hupper.2)

end SqlGate
