import SqlGate.Proofs.NormalWords
import Mathlib.Data.List.Chain

/-! The capital form of a text with single spaces, character by character. Blanks only become spaces or go, capitals
stay what they are, and the signs of ASCII stay where they stand, so what they delimit can be told by either text. -/

namespace SqlGate

open Unicode

/-- Whether a text begins with a character that is no blank. What comes behind it begins with one if `more` is true. -/
def opensSolid (more : Bool) : List Char → Bool
  | [] => more
  | c :: _ => !isBlank c

/-- The text in capitals, with one space for each stretch of blanks in front of another character. What comes behind
the text begins with such a character if `more` is true, and has none otherwise. -/
def tidied (more : Bool) : List Char → List Char
  | [] => []
  | c :: rest => (if isBlank c then (if opensSolid more rest then [' '] else []) else upper c) ++ tidied more rest

/-- A text with no blanks but single spaces, and none at its ends. -/
structure SingleSpaced (text : List Char) : Prop where
  head_solid : ∀ c, text.head? = some c → isBlank c = false
  last_solid : ∀ c, text.getLast? = some c → isBlank c = false
  eq_space : ∀ c ∈ text, isBlank c = true → c = ' '
  alone : text.IsChain fun c d => isBlank c = true → isBlank d = false

section Tidied

variable {more : Bool} {text left right rest : List Char} {c : Char}

theorem opensSolid_append (more : Bool) (left right : List Char) :
    opensSolid more (left ++ right) = opensSolid (opensSolid more right) left := by
  cases left with
  | nil => rfl
  | cons c left => rfl

theorem tidied_cons_of_not (h : isBlank c = false) : tidied more (c :: rest) = upper c ++ tidied more rest := by
  rw [tidied, h]
  rfl

theorem tidied_append (more : Bool) (left right : List Char) :
    tidied more (left ++ right) = tidied (opensSolid more right) left ++ tidied more right := by
  induction left with
  | nil => rfl
  | cons c left ih => rw [List.cons_append, tidied, tidied, ih, opensSolid_append, List.append_assoc]

theorem tidied_of_solid (more : Bool) (h : ∀ c ∈ text, isBlank c = false) : tidied more text = text.flatMap upper := by
  induction text with
  | nil => rfl
  | cons c text ih =>
      rw [List.forall_mem_cons] at h
      rw [tidied_cons_of_not h.1, ih h.2, List.flatMap_cons]

/-- A stretch of blanks is a space in front of something else, and nothing at the end. -/
theorem tidied_of_blank (more : Bool) (h : ∀ c ∈ text, isBlank c = true) (hne : text ≠ []) :
    tidied more text = if more then [' '] else [] := by
  induction text with
  | nil => exact absurd rfl hne
  | cons c text ih =>
      rw [List.forall_mem_cons] at h
      rw [tidied, if_pos h.1]
      cases text with
      | nil => rw [tidied, List.append_nil, opensSolid]
      | cons d text =>
          rw [ih h.2 (List.cons_ne_nil _ _), opensSolid, h.2 d List.mem_cons_self]
          rfl

theorem head_dropWhile_isBlank (text : List Char) : ∀ c, (text.dropWhile isBlank).head? = some c → isBlank c = false := by
  intro c hc
  have hstop := List.head?_dropWhile_not isBlank text
  rw [hc] at hstop
  simpa using hstop

/-- Blanks at the beginning are a space in front of something else. -/
theorem tidied_dropWhile (more : Bool) (text : List Char) : tidied more text =
    (if text.takeWhile isBlank ≠ [] ∧ opensSolid more (text.dropWhile isBlank) = true then [' '] else []) ++
      tidied more (text.dropWhile isBlank) := by
  have hwhole := tidied_append more (text.takeWhile isBlank) (text.dropWhile isBlank)
  rw [List.takeWhile_append_dropWhile] at hwhole
  rw [hwhole]
  by_cases hnil : text.takeWhile isBlank = []
  · rw [hnil, if_neg fun h => h.1 rfl]
    rfl
  · rw [tidied_of_blank _ (fun c hc => List.mem_takeWhile_imp hc) hnil]
    simp only [ne_eq, hnil, not_false_eq_true, true_and]

/-- The capital form with single spaces is the tidied text without its first blanks. -/
theorem flatMap_upper_singleSpaced (text : List Char) :
    (singleSpaced text).flatMap upper = tidied false (text.dropWhile isBlank) := by
  induction text using runs_induction (fun c => !isBlank c) with
  | nil => rfl
  | skip c rest hc ih =>
      have hblank : isBlank c = true := by simpa using hc
      rw [singleSpaced_cons hblank, ih, List.dropWhile_cons_of_pos hblank]
  | run run rest hne hrun hstop ih =>
      have hsolid : ∀ c ∈ run, isBlank c = false := fun c hc => by simpa using hrun c hc
      have hdrop : (run ++ rest).dropWhile isBlank = run ++ rest := by
        obtain ⟨c, more, rfl⟩ := List.exists_cons_of_ne_nil hne
        rw [List.cons_append, List.dropWhile_cons_of_neg (by simp [hsolid c List.mem_cons_self])]
      rw [hdrop, tidied_append, tidied_of_solid _ hsolid]
      rcases singleSpaced_append hne hrun hstop with ⟨hsingle, hblank⟩ | ⟨hsingle, d, hd, hdSolid⟩
      · have hrest : tidied false rest = [] := by
          cases rest with
          | nil => rfl
          | cons c rest => exact tidied_of_blank false hblank (List.cons_ne_nil _ _)
        rw [hsingle, hrest, List.append_nil]
      · have hspace : tidied false rest = ' ' :: tidied false (rest.dropWhile isBlank) := by
          have htake : rest.takeWhile isBlank ≠ [] := by
            cases rest with
            | nil => cases hd
            | cons c rest =>
                rw [List.takeWhile_cons_of_pos (by simpa using hstop c rfl)]
                exact List.cons_ne_nil _ _
          have hmore : opensSolid false (rest.dropWhile isBlank) = true := by
            cases hrest : rest.dropWhile isBlank with
            | nil =>
                rw [List.dropWhile_eq_nil_iff.mp hrest d hd] at hdSolid
                cases hdSolid
            | cons c tail =>
                have hhead := head_dropWhile_isBlank rest c (by rw [hrest]; rfl)
                rw [opensSolid, hhead]
                rfl
          rw [tidied_dropWhile, if_pos ⟨htake, hmore⟩]
          rfl
        rw [hsingle, hspace, List.flatMap_append, List.flatMap_cons, ih, upper_of_isBlank (by decide)]
        rfl

theorem tidied_of_isSign (h : isSign c = true) : tidied more (c :: rest) = c :: tidied more rest := by
  rw [tidied_cons_of_not (isBlank_of_isSign h), upper_of_isSign h]
  rfl

theorem opensSolid_tidied (h : opensSolid more text = true) : opensSolid more (tidied more text) = true := by
  cases text with
  | nil => exact h
  | cons c text =>
      have hsolid : isBlank c = false := by simpa [opensSolid] using h
      obtain ⟨d, tail, hupper⟩ := List.exists_cons_of_ne_nil (upper_ne_nil c)
      rw [tidied_cons_of_not hsolid, hupper, List.cons_append, opensSolid,
        isBlank_upper hsolid d (hupper ▸ List.mem_cons_self)]
      rfl

/-- Each character comes from one of the text, a space from a blank. -/
theorem mem_tidied (h : c ∈ tidied more text) : c = ' ' ∨ ∃ d, isBlank d = false ∧ c ∈ upper d := by
  induction text with
  | nil => cases h
  | cons d text ih =>
      rw [tidied, List.mem_append] at h
      rcases h with h | h
      · split at h
        · split at h
          · exact Or.inl (List.mem_singleton.mp h)
          · cases h
        · next hd => exact Or.inr ⟨d, by simpa using hd, h⟩
      · exact ih h

theorem eq_space_of_mem_tidied (h : c ∈ tidied more text) (hblank : isBlank c = true) : c = ' ' := by
  rcases mem_tidied h with rfl | ⟨d, hd, hmem⟩
  · rfl
  · rw [isBlank_upper hd c hmem] at hblank
    cases hblank

/-- A tidied text is tidy. -/
theorem tidied_tidied (more : Bool) (text : List Char) : tidied more (tidied more text) = tidied more text := by
  induction text with
  | nil => rfl
  | cons c text ih =>
      rw [tidied, tidied_append, ih]
      congr 1
      split
      · split
        · next hmore =>
            rw [tidied_of_blank _ (fun _ => isBlank_of_mem_space) (List.cons_ne_nil _ _), if_pos (opensSolid_tidied hmore)]
        · rfl
      · next hc =>
          have hsolid : ∀ d ∈ upper c, isBlank d = false := isBlank_upper (by simpa using hc)
          rw [tidied_of_solid _ hsolid, flatMap_upper_of_self fun d hd => upper_of_mem_upper hd]

theorem head_tidied_of_solid (hc : isBlank c = false) : ∀ d, (tidied more (c :: rest)).head? = some d → isBlank d = false := by
  intro d hd
  rw [tidied_cons_of_not hc, List.head?_append_of_ne_nil _ (upper_ne_nil c)] at hd
  exact isBlank_upper hc d (List.mem_of_head? hd)

/-- A tidied text ends in a space only in front of something else. -/
theorem last_tidied : ∀ c, (tidied more text).getLast? = some c → isBlank c = true → more = true := by
  induction text with
  | nil => exact nofun
  | cons d text ih =>
      intro c hc hblank
      rw [tidied, List.getLast?_append] at hc
      cases hlast : (tidied more text).getLast? with
      | some e =>
          rw [hlast, Option.some_or] at hc
          exact ih c (hlast.trans hc) hblank
      | none =>
          rw [hlast, Option.none_or] at hc
          split at hc
          · split at hc
            · next hmore =>
                cases text with
                | nil => exact hmore
                | cons e text =>
                    have hempty := List.getLast?_eq_none_iff.mp hlast
                    rw [tidied_cons_of_not (by simpa [opensSolid] using hmore), List.append_eq_nil_iff] at hempty
                    exact absurd hempty.1 (upper_ne_nil e)
            · cases hc
          · next hd =>
              rw [isBlank_upper (by simpa using hd) c (List.mem_of_getLast? hc)] at hblank
              cases hblank

/-- No blanks of a tidied text stand side by side. -/
theorem isChain_tidied : (tidied more text).IsChain fun c d => isBlank c = true → isBlank d = false := by
  induction text with
  | nil => exact .nil
  | cons c text ih =>
      rw [tidied, List.isChain_append]
      split
      · split
        · next hmore =>
            refine ⟨.singleton _, ih, fun d hd e he _ => ?_⟩
            cases text with
            | nil => cases he
            | cons next text => exact head_tidied_of_solid (by simpa [opensSolid] using hmore) e he
        · exact ⟨.nil, ih, nofun⟩
      · next hc =>
          have hsolid : ∀ d ∈ upper c, isBlank d = false := isBlank_upper (by simpa using hc)
          refine ⟨List.isChain_iff_forall_rel_of_append_cons_cons.mpr fun d e front rest hcut hblank => ?_, ih,
            fun d hd e _ hblank => ?_⟩
          · rw [hsolid d (by rw [hcut]; simp)] at hblank
            cases hblank
          · rw [hsolid d (List.mem_of_getLast? hd)] at hblank
            cases hblank

theorem singleSpaced_tidied (text : List Char) : SingleSpaced (tidied false (text.dropWhile isBlank)) where
  head_solid := by
    intro d hd
    cases hdrop : text.dropWhile isBlank with
    | nil =>
        rw [hdrop] at hd
        cases hd
    | cons c rest =>
        rw [hdrop] at hd
        exact head_tidied_of_solid (head_dropWhile_isBlank text c (by rw [hdrop]; rfl)) d hd
  last_solid c hc := by
    by_contra hblank
    exact absurd (last_tidied c hc (Bool.of_not_eq_false hblank)) Bool.false_ne_true
  eq_space _ := eq_space_of_mem_tidied
  alone := isChain_tidied

end Tidied

section Signs

variable {more : Bool} {text front rest : List Char} {x y : Char}

theorem count_tidied (hx : isSign x = true) : (tidied more text).count x = text.count x := by
  induction text with
  | nil => rfl
  | cons c text ih =>
      rw [tidied, List.count_append, ih, List.count_cons, Nat.add_comm]
      congr 1
      by_cases hc : c = x
      · subst hc
        rw [isBlank_of_isSign hx, upper_of_isSign hx]
        simp
      · rw [beq_false_of_ne hc, if_neg Bool.false_ne_true]
        refine List.count_eq_zero.mpr fun hmem => ?_
        split at hmem
        · split at hmem
          · obtain rfl := List.mem_singleton.mp hmem
            cases hx
          · cases hmem
        · exact hc ((mem_upper_iff_of_isSign hx).mp hmem)

theorem mem_tidied_iff (hx : isSign x = true) : x ∈ tidied more text ↔ x ∈ text := by
  rw [← List.count_pos_iff, ← List.count_pos_iff, count_tidied hx]

/-- A sign stands at the beginning only where it stood there: blanks go at the end, and stay as a space elsewhere. -/
theorem head_eq_of_tidied (hx : isSign x = true) (h : (tidied more text).head? = some x) : text.head? = some x := by
  induction text with
  | nil => cases h
  | cons c text ih =>
      rw [tidied] at h
      split at h
      · split at h
        · obtain rfl : ' ' = x := Option.some.inj h
          cases hx
        · next hmore =>
            have hhead := ih h
            obtain ⟨rest, rfl⟩ := List.head?_eq_some_iff.mp hhead
            rw [opensSolid, isBlank_of_isSign hx] at hmore
            exact absurd rfl hmore
      · rw [List.head?_append_of_ne_nil _ (upper_ne_nil c)] at h
        rw [(mem_upper_iff_of_isSign hx).mp (List.mem_of_head? h)]
        rfl

/-- A tidied text is cut at a sign as the text was. -/
theorem cut_of_tidied (hx : isSign x = true) (h : tidied more text = front ++ x :: rest) :
    ∃ before after, text = before ++ x :: after ∧ front = tidied true before ∧ rest = tidied more after := by
  induction text generalizing front with
  | nil => exact absurd h.symm (by simp [tidied])
  | cons c text ih =>
      rw [tidied] at h
      rcases cut_of_append h with ⟨tail, hpiece, hrest⟩ | ⟨gap, rfl, htext⟩
      · have hmem : x ∈ front ++ x :: tail := by simp
        rw [← hpiece] at hmem
        split at hmem
        · split at hmem
          · obtain rfl := List.mem_singleton.mp hmem
            cases hx
          · cases hmem
        · next hc =>
            rw [mem_upper_iff_of_isSign hx] at hmem
            subst hmem
            rw [if_neg hc, upper_of_isSign hx] at hpiece
            rcases List.append_eq_singleton_iff.mp hpiece.symm with ⟨rfl, htail⟩ | ⟨-, hnil⟩
            · obtain ⟨-, rfl⟩ := List.cons.inj htail
              exact ⟨[], text, rfl, rfl, hrest⟩
            · cases hnil
      · obtain ⟨before, after, rfl, rfl, rfl⟩ := ih htext
        refine ⟨c :: before, after, rfl, ?_, rfl⟩
        rw [tidied, opensSolid_append, opensSolid, isBlank_of_isSign hx]
        rfl

theorem tidied_append_sign (hx : isSign x = true) (front rest : List Char) :
    tidied more (front ++ x :: rest) = tidied true front ++ x :: tidied more rest := by
  rw [tidied_append, tidied_of_isSign hx, opensSolid, isBlank_of_isSign hx]
  rfl

/-- Two signs stand side by side where they did before. -/
theorem hasPair_tidied (hx : isSign x = true) (hy : isSign y = true) : hasPair x y (tidied more text) = hasPair x y text := by
  rw [Bool.eq_iff_iff, hasPair_iff, hasPair_iff]
  constructor
  · rintro ⟨front, rest, hcut⟩
    obtain ⟨before, after, rfl, -, hafter⟩ := cut_of_tidied hx hcut
    have hhead := head_eq_of_tidied hy (by rw [← hafter]; rfl : (tidied more after).head? = some y)
    obtain ⟨tail, rfl⟩ := List.head?_eq_some_iff.mp hhead
    exact ⟨before, tail, rfl⟩
  · rintro ⟨front, rest, rfl⟩
    exact ⟨tidied true front, tidied more rest, by rw [tidied_append_sign hx, tidied_of_isSign hy]⟩

end Signs

end SqlGate
