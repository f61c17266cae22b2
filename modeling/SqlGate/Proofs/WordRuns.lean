import SqlGate.Proofs.Words

/-! The stretches of a text of one kind of character, put together: where the text is cut between two
stretches, its stretches are those of the two parts. The words of a text are its stretches of word
characters. -/

namespace SqlGate

open Unicode

section Runs

variable {p : Char → Bool} {text run left right rest : List Char} {c : Char}

@[simp] theorem runs_nil (p : Char → Bool) : runs p [] = [] := rfl

@[simp] theorem runs_cons_of_not (h : p c = false) : runs p (c :: text) = runs p text := by
  rw [runs, List.foldr_cons, h]
  rfl

theorem runs_foldr_fst (text : List Char) :
    (text.foldr (fun c later => if p c then (c :: later.1, later.2) else ([], runs.close later)) ([], [])).1 =
      text.takeWhile p := by
  induction text with
  | nil => rfl
  | cons c text ih =>
      rw [List.foldr_cons, List.takeWhile_cons]
      split
      · rw [ih]
      · rfl

theorem runs_foldr_append (hrun : ∀ c ∈ run, p c = true) (state : List Char × List (List Char)) :
    run.foldr (fun c later => if p c then (c :: later.1, later.2) else ([], runs.close later)) state =
      (run ++ state.1, state.2) := by
  induction run with
  | nil => rfl
  | cons c run ih =>
      rw [List.forall_mem_cons] at hrun
      rw [List.foldr_cons, ih hrun.2, if_pos hrun.1]
      rfl

/-- A stretch that ends in front of another character is the first one. -/
theorem runs_append_of_stop (hne : run ≠ []) (hrun : ∀ c ∈ run, p c = true)
    (hstop : ∀ c, rest.head? = some c → p c = false) : runs p (run ++ rest) = run :: runs p rest := by
  have hfirst := @runs_foldr_fst p rest
  have hrest : rest.takeWhile p = [] := by
    cases rest with
    | nil => rfl
    | cons c rest => rw [List.takeWhile_cons, hstop c rfl]; rfl
  rw [hrest] at hfirst
  rw [runs, runs, List.foldr_append, runs_foldr_append hrun]
  generalize rest.foldr _ _ = state at hfirst ⊢
  obtain ⟨first, later⟩ := state
  obtain rfl : first = [] := hfirst
  rw [List.append_nil]
  cases run with
  | nil => exact absurd rfl hne
  | cons c run => rfl

/-- A text ends, goes on with another character or with a stretch that ends there. -/
@[elab_as_elim]
theorem runs_induction {motive : List Char → Prop} (p : Char → Bool) (nil : motive [])
    (skip : ∀ c rest, p c = false → motive rest → motive (c :: rest))
    (run : ∀ run rest, run ≠ [] → (∀ c ∈ run, p c = true) → (∀ c, rest.head? = some c → p c = false) →
      motive rest → motive (run ++ rest)) (text : List Char) : motive text := by
  induction hlength : text.length using Nat.strong_induction_on generalizing text with
  | _ length ih =>
    subst hlength
    cases text with
    | nil => exact nil
    | cons c text =>
        by_cases hc : p c = true
        · have hne : (c :: text).takeWhile p ≠ [] := by
            rw [List.takeWhile_cons, hc]
            exact List.cons_ne_nil _ _
          have hpos := List.length_pos_iff.mpr hne
          have hlength := congrArg List.length (@List.takeWhile_append_dropWhile _ p (c :: text))
          rw [List.length_append] at hlength
          rw [← @List.takeWhile_append_dropWhile _ p (c :: text)]
          refine run _ _ hne (fun x hx => List.mem_takeWhile_imp hx) (fun x hx => ?_) (ih _ (by omega) _ rfl)
          have hnot := List.head?_dropWhile_not p (c :: text)
          rw [hx] at hnot
          simpa using hnot
        · exact skip c text (Bool.not_eq_true _ ▸ hc) (ih _ (by simp) text rfl)

theorem runs_of_all (hne : run ≠ []) (hrun : ∀ c ∈ run, p c = true) : runs p run = [run] := by
  have hself : runs p (run ++ []) = [run] := runs_append_of_stop hne hrun nofun
  rwa [List.append_nil] at hself

/-- The stretches of two texts that no stretch goes across. -/
theorem runs_append (left : List Char)
    (hapart : ∀ c d, left.getLast? = some c → right.head? = some d → p c = true → p d = false) :
    runs p (left ++ right) = runs p left ++ runs p right := by
  induction left using runs_induction p with
  | nil => rfl
  | skip c left hc ih =>
      rw [List.cons_append, runs_cons_of_not hc, runs_cons_of_not hc]
      refine ih fun x d hx hd => hapart x d ?_ hd
      rw [List.getLast?_cons, hx]
      rfl
  | run run left hne hrun hstop ih =>
      by_cases hleft : left = []
      · subst hleft
        rw [List.append_nil] at hapart ⊢
        rw [runs_of_all hne hrun]
        refine runs_append_of_stop hne hrun fun d hd => ?_
        exact hapart _ d (List.getLast?_eq_some_getLast hne) hd (hrun _ (List.getLast_mem hne))
      · have hlater := ih fun c d hc hd => hapart c d (by rwa [List.getLast?_append_of_ne_nil _ hleft]) hd
        rw [runs_append_of_stop hne hrun hstop, List.append_assoc, runs_append_of_stop hne hrun, hlater,
          List.cons_append]
        rwa [List.head?_append_of_ne_nil _ hleft]

theorem runs_eq_nil_iff : runs p text = [] ↔ ∀ c ∈ text, p c = false := by
  induction text using runs_induction p with
  | nil => simp
  | skip c rest hc ih =>
      rw [runs_cons_of_not hc, ih, List.forall_mem_cons]
      exact ⟨fun h => ⟨hc, h⟩, fun h => h.2⟩
  | run run rest hne hrun hstop ih =>
      rw [runs_append_of_stop hne hrun hstop]
      constructor
      · exact nofun
      · intro h
        have hnot := h _ (List.mem_append_left _ (List.head_mem hne))
        rw [hrun _ (List.head_mem hne)] at hnot
        cases hnot

end Runs

/-- The stretches of a text are those in front of a word, the word, and those after it. -/
theorem WordAt.runs_eq {text front word rest : List Char} (h : WordAt text front word rest) :
    runs isWord text = runs isWord front ++ word :: runs isWord rest := by
  rw [h.eq_append, runs_append, runs_append_of_stop h.ne_nil h.all_word h.closes]
  intro c d hc _ hcWord
  rw [h.opens c hc] at hcWord
  cases hcWord

/-- A word of a text is one of its stretches of word characters. -/
theorem WordAt.mem_runs {text front word rest : List Char} (h : WordAt text front word rest) :
    word ∈ runs isWord text := by
  rw [h.runs_eq]
  exact List.mem_append_right _ List.mem_cons_self

theorem exists_wordAt_of_mem_runs {text word : List Char} (h : word ∈ runs isWord text) :
    ∃ front rest, WordAt text front word rest := by
  induction text using runs_induction isWord with
  | nil => cases h
  | skip c text hc ih =>
      rw [runs_cons_of_not hc] at h
      obtain ⟨front, rest, hat⟩ := ih h
      have hapart : Apart [c] text := by
        intro x d hx _ hxWord
        obtain rfl : c = x := Option.some.inj hx
        rw [hc] at hxWord
        cases hxWord
      exact ⟨c :: front, rest, hat.append_right hapart⟩
  | run first text hne hrun hstop ih =>
      rw [runs_append_of_stop hne hrun hstop] at h
      rcases List.mem_cons.mp h with rfl | h
      · exact ⟨[], text, rfl, hne, hrun, by simp, hstop⟩
      · obtain ⟨front, rest, hat⟩ := ih h
        exact ⟨first ++ front, rest, hat.append_right fun x d _ hd _ => hstop d hd⟩

/-- Whether no word of a text spells one of the keywords. -/
def Lacks (keywords : List (List Char)) (text : List Char) : Prop :=
  ∀ word ∈ runs isWord text, ¬SpelledAny keywords word

instance (keywords : List (List Char)) (text : List Char) : Decidable (Lacks keywords text) :=
  inferInstanceAs (Decidable (∀ word ∈ runs isWord text, ¬SpelledAny keywords word))

namespace Lacks

variable {keywords : List (List Char)} {text left right : List Char}

theorem nil (keywords : List (List Char)) : Lacks keywords [] := by
  intro word hword
  cases hword

theorem not_spelled (h : Lacks keywords text) {keyword : List Char} (hmem : keyword ∈ keywords) :
    ∀ word ∈ runs isWord text, ¬Spelled keyword word :=
  fun word hword hspelled => h word hword ⟨keyword, hmem, hspelled⟩

theorem append (hleft : Lacks keywords left) (hright : Lacks keywords right) (hapart : Apart left right) :
    Lacks keywords (left ++ right) := by
  intro word hword
  rw [runs_append _ hapart, List.mem_append] at hword
  rcases hword with hword | hword
  · exact hleft word hword
  · exact hright word hword

theorem cons_space (h : Lacks keywords text) : Lacks keywords (' ' :: text) := by
  intro word hword
  rw [runs_cons_of_not (by decide)] at hword
  exact h word hword

theorem concat_space (h : Lacks keywords text) : Lacks keywords (text ++ [' ']) := by
  refine h.append (nil keywords).cons_space fun c d _ hd _ => ?_
  obtain rfl : ' ' = d := Option.some.inj hd
  decide

end Lacks

end SqlGate
