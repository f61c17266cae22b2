import SqlGate.Proofs.ClauseEdges

/-! Whether a new clause comes to the end of the main query. Its place is in front of a clause that has to come later,
which is told by its words alone: an offset that is a number, `FOR` with its purpose, `OPTION` with a parenthesis, or
`LOCK IN SHARE MODE`. Such words may stand in the middle of a query for something else, with parts of the query behind
them. -/

namespace SqlGate

open Unicode

/-- The words that begin the parts of a query that come before its row limit, and those that go on with another query. -/
def partPhrases : List (List (List Char)) :=
  [["FROM".toList], ["WHERE".toList], ["GROUP".toList, "BY".toList], ["HAVING".toList],
    ["ORDER".toList, "BY".toList], ["UNION".toList], ["EXCEPT".toList], ["INTERSECT".toList]]

/-- A part of the query begins outside all parentheses, at byte `place` or behind it. -/
def GoesOn (sql : List Char) (place : Nat) : Prop :=
  ∃ phrase ∈ partPhrases, ∃ front rest, TopCut (Outline.of sql).text place front rest ∧
    PhraseAt (Outline.of sql).text (phrase.map Spelled) front

/-- A clause that a new one would be put in front of stands in the main query, with a part of the query behind it. -/
def ClosesEarly (sql : List Char) (top : Bool) : Prop :=
  ∃ main front rest, (Outline.of sql).mainSelect? = some main ∧ TopCut (Outline.of sql).text main.offset front rest ∧
    ((Outline.of sql).closing? top (.between front rest)).isSome ∧ GoesOn sql (byteLength front)

namespace Cursor

theorem isSome_phrase?_iff {keyword : List Char} {keywords : List (List Char)}
    (hkeys : ∀ word ∈ keyword :: keywords, isKeyword word = true) {front rest : List Char} :
    ((between front rest).phrase? (keyword :: keywords)).isSome ↔
      PhraseAt (front ++ rest) ((keyword :: keywords).map Spelled) front := by
  induction keywords generalizing keyword front rest with
  | nil => exact isSome_word?_iff (hkeys keyword List.mem_cons_self)
  | cons next keywords ih =>
      have hkey := hkeys keyword List.mem_cons_self
      have hlater : ∀ word ∈ next :: keywords, isKeyword word = true := fun word hmem =>
        hkeys word (List.mem_cons_of_mem _ hmem)
      have hchain : Opens front → (((between front rest).phrase? (keyword :: next :: keywords)).isSome ↔
          PhraseAt (front ++ rest) ((keyword :: next :: keywords).map Spelled) front) := fun hopens =>
        isSome_blanks_iff (readsWord_word? hkey) (fun _ _ _ _ => ih hlater) hopens
      constructor
      · intro h
        exact (hchain (opens_of_bind_word? hkey h)).mp h
      · intro h
        exact (hchain (opens_of_phrase h)).mpr h

end Cursor

section Parts

variable {sql front rest : List Char} {place other : Nat}

theorem goesOn_iff : GoesOn sql place ↔
    ((Outline.of sql).findTopLevel? place fun c => partPhrases.findSome? c.phrase?).isSome := by
  have hkeys : ∀ phrase ∈ partPhrases, ∃ keyword keywords, phrase = keyword :: keywords ∧
      ∀ word ∈ keyword :: keywords, isKeyword word = true := by
    intro phrase hmem
    have hall : ∀ phrase ∈ partPhrases, phrase ≠ [] ∧ ∀ word ∈ phrase, isKeyword word = true := by decide
    obtain ⟨hne, hwords⟩ := hall phrase hmem
    obtain ⟨keyword, keywords, rfl⟩ := List.exists_cons_of_ne_nil hne
    exact ⟨keyword, keywords, rfl, hwords⟩
  rw [← Option.ne_none_iff_isSome, Ne, Outline.findTopLevel?_eq_none_iff]
  constructor
  · rintro ⟨phrase, hmem, front, rest, hcut, hphrase⟩ hnone
    obtain ⟨keyword, keywords, rfl, hwords⟩ := hkeys phrase hmem
    rw [hcut.eq_append] at hphrase
    have hread := (Cursor.isSome_phrase?_iff hwords).mpr hphrase
    rw [List.findSome?_eq_none_iff.mp (hnone front rest hcut) _ hmem] at hread
    cases hread
  · intro hsome
    by_contra hnot
    refine hsome fun front rest hcut => List.findSome?_eq_none_iff.mpr fun phrase hmem => ?_
    obtain ⟨keyword, keywords, rfl, hwords⟩ := hkeys phrase hmem
    by_contra hread
    have hphrase := (Cursor.isSome_phrase?_iff hwords).mp (Option.isSome_iff_ne_none.mpr hread)
    rw [← hcut.eq_append] at hphrase
    exact hnot ⟨_, hmem, front, rest, hcut, hphrase⟩

instance (sql : List Char) (place : Nat) : Decidable (GoesOn sql place) :=
  decidable_of_iff _ goesOn_iff.symm

theorem GoesOn.mono (h : GoesOn sql place) (hle : other ≤ place) : GoesOn sql other := by
  obtain ⟨phrase, hmem, front, rest, hcut, hphrase⟩ := h
  exact ⟨phrase, hmem, front, rest, ⟨hcut.eq_append, hle.trans hcut.start_le, hcut.depth_eq_zero⟩, hphrase⟩

end Parts

section Closing

variable {sql front rest : List Char} {main : Cursor} {top : Bool}

/-- The first clause that comes later decides. -/
theorem closesEarly_iff_of_first (hmain : (Outline.of sql).mainSelect? = some main)
    (hcut : TopCut (Outline.of sql).text main.offset front rest)
    (hread : ((Outline.of sql).closing? top (.between front rest)).isSome)
    (hfirst : ∀ early late, TopCut (Outline.of sql).text main.offset early late → early.length < front.length →
      (Outline.of sql).closing? top (.between early late) = none) :
    ClosesEarly sql top ↔ GoesOn sql (byteLength front) := by
  constructor
  · rintro ⟨place, early, late, hplace, hcutEarly, hreadEarly, hgoes⟩
    obtain rfl := Option.some.inj (hmain.symm.trans hplace)
    refine hgoes.mono ?_
    by_contra hlt
    obtain ⟨gap, rfl, -⟩ := exists_gap_of_byteLength_le (hcutEarly.eq_append.symm.trans hcut.eq_append)
      (Nat.le_of_not_le hlt)
    have hgap : gap ≠ [] := by
      rintro rfl
      exact hlt (by rw [List.append_nil])
    have hshort : early.length < (early ++ gap).length := by
      rw [List.length_append]
      exact Nat.lt_add_of_pos_right (List.length_pos_iff.mpr hgap)
    rw [hfirst early late hcutEarly hshort] at hreadEarly
    cases hreadEarly
  · intro hgoes
    exact ⟨main, front, rest, hmain, hcut, hread, hgoes⟩

theorem not_closesEarly_of_none (hmain : (Outline.of sql).mainSelect? = some main)
    (hnone : (Outline.of sql).findTopLevel? main.offset ((Outline.of sql).closing? top) = none) :
    ¬ClosesEarly sql top := by
  rintro ⟨place, front, rest, hplace, hcut, hread, -⟩
  obtain rfl := Option.some.inj (hmain.symm.trans hplace)
  rw [Outline.findTopLevel?_eq_none_iff.mp hnone front rest hcut] at hread
  cases hread

theorem closesEarly_iff : ClosesEarly sql top ↔
    (((Outline.of sql).mainSelect?.bind fun main =>
      (Outline.of sql).findTopLevel? main.offset ((Outline.of sql).closing? top)).any
        fun c => decide (GoesOn sql c.offset)) = true := by
  cases hmain : (Outline.of sql).mainSelect? with
  | none =>
      refine iff_of_false ?_ Bool.false_ne_true
      rintro ⟨main, front, rest, hplace, -⟩
      rw [hmain] at hplace
      cases hplace
  | some main =>
      rw [Option.bind_some]
      cases hsearch : (Outline.of sql).findTopLevel? main.offset ((Outline.of sql).closing? top) with
      | none => exact iff_of_false (not_closesEarly_of_none hmain hsearch) Bool.false_ne_true
      | some found =>
          obtain ⟨front, rest, hcut, hread, hfirst⟩ := Outline.findTopLevel?_eq_some_iff.mp hsearch
          obtain rfl := Outline.eq_of_closing? hread
          rw [closesEarly_iff_of_first hmain hcut (Option.isSome_of_mem hread) hfirst, Option.any_some, decide_eq_true_eq]
          rfl

instance (sql : List Char) (top : Bool) : Decidable (ClosesEarly sql top) :=
  decidable_of_iff _ closesEarly_iff.symm

end Closing

end SqlGate
