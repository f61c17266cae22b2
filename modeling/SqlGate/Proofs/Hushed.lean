import SqlGate.Proofs.NormalWords
import SqlGate.Proofs.Splice

/-! The text of a statement without comments, piece by piece, and what leaving out more of them does to it:
words and semicolons go, none comes up, and the text begins alike. -/

namespace SqlGate

open Unicode

/-- A text and the same with some of its comments as spaces. -/
inductive Hushed : List Char → List Char → Prop where
  | nil : Hushed [] []
  | keep {c : Char} {text other : List Char} (h : Hushed text other) : Hushed (c :: text) (c :: other)
  | hush {comment text other : List Char} (hopens : comment.head? = some '/' ∨ comment.head? = some '-')
      (hapart : Apart comment text) (h : Hushed text other) : Hushed (comment ++ text) (' ' :: other)

theorem isWord_flatMap_upper_of_getLast {text : List Char} {c d : Char} (hlast : text.getLast? = some c)
    (hd : (text.flatMap upper).getLast? = some d) (hword : isWord d = true) : isWord c = true := by
  obtain ⟨front, rfl⟩ := List.getLast?_eq_some_iff.mp hlast
  rw [List.flatMap_append, List.flatMap_singleton, List.getLast?_append_of_ne_nil _ (upper_ne_nil c)] at hd
  by_contra hnot
  rw [isWord_upper (Bool.not_eq_true _ ▸ hnot) d (List.mem_of_getLast? hd)] at hword
  cases hword

theorem isWord_flatMap_upper_of_head {text : List Char} {c d : Char} (hhead : text.head? = some c)
    (hd : (text.flatMap upper).head? = some d) (hword : isWord c = false) : isWord d = false := by
  obtain ⟨tail, rfl⟩ := List.head?_eq_some_iff.mp hhead
  rw [List.flatMap_cons, List.head?_append_of_ne_nil _ (upper_ne_nil c)] at hd
  exact isWord_upper hword d (List.mem_of_head? hd)

/-- Texts that no word goes across stay so in capitals. -/
theorem Apart.flatMap_upper {left right : List Char} (h : Apart left right) :
    Apart (left.flatMap upper) (right.flatMap upper) := by
  intro c d hc hd hword
  cases hlast : left.getLast? with
  | none =>
      rw [List.getLast?_eq_none_iff] at hlast
      subst hlast
      cases hc
  | some e =>
      cases hhead : right.head? with
      | none =>
          rw [List.head?_eq_none_iff] at hhead
          subst hhead
          cases hd
      | some x =>
          have heWord := isWord_flatMap_upper_of_getLast hlast hc hword
          exact isWord_flatMap_upper_of_head hhead hd (h e x hlast hhead heWord)

/-- A word of a text is one of its words in capitals, if it is a word there. -/
theorem WordAt.flatMap_upper {text front word rest : List Char} (h : WordAt text front word rest)
    (hword : ∀ c ∈ word.flatMap upper, isWord c = true) :
    WordAt (text.flatMap upper) (front.flatMap upper) (word.flatMap upper) (rest.flatMap upper) where
  eq_append := by rw [h.eq_append, List.flatMap_append, List.flatMap_append]
  ne_nil := by
    obtain ⟨c, word, rfl⟩ := List.exists_cons_of_ne_nil h.ne_nil
    rw [List.flatMap_cons]
    exact List.append_ne_nil_of_left_ne_nil (upper_ne_nil c) _
  all_word := hword
  opens c hc := by
    by_contra hcWord
    cases hlast : front.getLast? with
    | none =>
        obtain rfl := List.getLast?_eq_none_iff.mp hlast
        cases hc
    | some d =>
        have hdWord := isWord_flatMap_upper_of_getLast hlast hc (Bool.of_not_eq_false hcWord)
        rw [h.opens d hlast] at hdWord
        cases hdWord
  closes c hc := by
    cases hhead : rest.head? with
    | none =>
        obtain rfl := List.head?_eq_none_iff.mp hhead
        cases hc
    | some d => exact isWord_flatMap_upper_of_head hhead hc (h.closes d hhead)

/-- A text and the same with some of its parts as a space, each one between the words. -/
inductive Dimmed : List Char → List Char → Prop where
  | nil : Dimmed [] []
  | keep {c : Char} {text other : List Char} (h : Dimmed text other) : Dimmed (c :: text) (c :: other)
  | dim {gone text other : List Char} (hopens : ∃ c, gone.head? = some c ∧ isWord c = false)
      (hapart : Apart gone text) (h : Dimmed text other) : Dimmed (gone ++ text) (' ' :: other)

namespace Dimmed

variable {text other : List Char}

theorem append_left (h : Dimmed text other) (front : List Char) : Dimmed (front ++ text) (front ++ other) := by
  induction front with
  | nil => exact h
  | cons c front ih => exact .keep ih

/-- The words that are left are words of the whole text, in order, whatever is in front. -/
theorem sublist_runs (h : Dimmed text other) (left : List Char) :
    (runs isWord (left ++ other.flatMap upper)).Sublist (runs isWord (left ++ text.flatMap upper)) := by
  induction h generalizing left with
  | nil => exact .refl _
  | @keep c text other h ih =>
      rw [List.flatMap_cons, List.flatMap_cons, ← List.append_assoc, ← List.append_assoc]
      exact ih _
  | @dim gone text other hopens hapart h ih =>
      have hspace : Apart left (' ' :: other.flatMap upper) := by
        intro c d _ hd _
        obtain rfl : ' ' = d := Option.some.inj hd
        decide
      have hgone : Apart left ((gone ++ text).flatMap upper) := by
        obtain ⟨c, hc, hcWord⟩ := hopens
        intro x d _ hd _
        exact isWord_flatMap_upper_of_head (by rw [List.head?_append, hc, Option.some_or]) hd hcWord
      rw [List.flatMap_cons, upper_of_isBlank (by decide), List.singleton_append, runs_append _ hspace,
        runs_cons_of_not (by decide), runs_append _ hgone, List.flatMap_append,
        runs_append _ hapart.flatMap_upper]
      exact (List.Sublist.refl _).append ((ih []).trans (List.sublist_append_right _ _))

theorem count_le (h : Dimmed text other) {c : Char} (hc : c ≠ ' ') : other.count c ≤ text.count c := by
  induction h with
  | nil => exact le_rfl
  | keep _ ih =>
      rw [List.count_cons, List.count_cons]
      exact Nat.add_le_add_right ih _
  | @dim gone text other _ _ _ ih =>
      rw [List.count_cons_of_ne hc.symm, List.count_append]
      exact ih.trans (Nat.le_add_left _ _)

end Dimmed

namespace Hushed

variable {text other : List Char}

theorem append_left (h : Hushed text other) (front : List Char) : Hushed (front ++ text) (front ++ other) := by
  induction front with
  | nil => exact h
  | cons c front ih => exact .keep ih

/-- Texts that no word goes across, put together. -/
theorem append {right after : List Char} (h : Hushed text other) (hapart : Apart text right)
    (hright : Hushed right after) : Hushed (text ++ right) (other ++ after) := by
  induction h with
  | nil => exact hright
  | @keep c text other h ih =>
      refine .keep (ih fun x d hx hd => hapart x d ?_ hd)
      rw [List.getLast?_cons, hx]
      rfl
  | @hush comment text other hopens hend h ih =>
      rw [List.append_assoc]
      refine .hush hopens ?_ (ih fun x d hx hd => hapart x d ?_ hd)
      · intro x d hx hd
        cases text with
        | nil => exact hapart x d (by rwa [List.append_nil]) hd
        | cons y text => exact hend x d hx hd
      · rw [List.getLast?_append, hx]
        rfl

theorem mem (h : Hushed text other) {c : Char} (hc : c ∈ other) : c ∈ text ∨ c = ' ' := by
  induction h with
  | nil => cases hc
  | keep _ ih =>
      rcases List.mem_cons.mp hc with rfl | hc
      · exact Or.inl List.mem_cons_self
      · exact (ih hc).imp_left (List.mem_cons_of_mem _)
  | hush _ _ _ ih =>
      rcases List.mem_cons.mp hc with rfl | hc
      · exact Or.inr rfl
      · exact (ih hc).imp_left (List.mem_append_right _)

theorem closed (h : Hushed text other) (hclosed : Closed text) : Closed other := by
  induction h with
  | nil => exact hclosed
  | @keep c text other h ih =>
      by_cases hc : c = ';'
      · subst hc
        have hblank := hclosed [] text rfl
        intro front rest hcut d hd
        have hmem : d ∈ other := by
          cases front with
          | nil => exact (List.cons.inj hcut).2 ▸ hd
          | cons x front =>
              rw [(List.cons.inj hcut).2]
              simp [hd]
        rcases h.mem hmem with hmem | rfl
        · exact hblank d hmem
        · rfl
      · exact (closed_cons_iff hc).mpr (ih ((closed_cons_iff hc).mp hclosed))
  | @hush comment text other _ _ _ ih =>
      refine (closed_cons_iff (by decide)).mpr (ih fun front rest hcut => hclosed (comment ++ front) rest ?_)
      rw [hcut, List.append_assoc]

theorem head_flatMap_upper_of_opens {comment : List Char}
    (hopens : comment.head? = some '/' ∨ comment.head? = some '-') {c : Char}
    (hc : ((comment ++ text).flatMap upper).head? = some c) : isWord c = false ∧ isLeadingChar c = false := by
  rcases hopens with hopen | hopen
  · obtain ⟨comment, rfl⟩ := List.head?_eq_some_iff.mp hopen
    obtain rfl : '/' = c := Option.some.inj hc
    exact ⟨by decide, by decide⟩
  · obtain ⟨comment, rfl⟩ := List.head?_eq_some_iff.mp hopen
    obtain rfl : '-' = c := Option.some.inj hc
    exact ⟨by decide, by decide⟩

/-- The beginning stays. -/
theorem takeWhile_eq (h : Hushed text other) :
    (other.flatMap upper).takeWhile isLeadingChar = (text.flatMap upper).takeWhile isLeadingChar := by
  induction h with
  | nil => rfl
  | @keep c text other h ih =>
      rw [List.flatMap_cons, List.flatMap_cons, List.takeWhile_append, List.takeWhile_append, ih]
  | @hush comment text other hopens hapart h ih =>
      have hspace : ∀ c, ((' ' :: other).flatMap upper).head? = some c → isLeadingChar c = false := by
        intro c hc
        obtain rfl : ' ' = c := Option.some.inj hc
        decide
      have hother : ((' ' :: other).flatMap upper).takeWhile isLeadingChar = [] :=
        (@takeWhile_append_of_head _ [] _ hspace).1
      have htext : ((comment ++ text).flatMap upper).takeWhile isLeadingChar = [] :=
        (@takeWhile_append_of_head _ [] _ fun c hc => (head_flatMap_upper_of_opens hopens hc).2).1
      rw [hother, htext]

/-- A text that begins with a word begins with it still. -/
theorem capitalLead_eq (h : Hushed text other) (hne : capitalLead text ≠ []) :
    capitalLead other = capitalLead text := by
  induction h with
  | nil => rfl
  | @keep c text other h ih =>
      by_cases hblank : isBlank c = true
      · have hdrop : ∀ text : List Char, capitalLead (c :: text) = capitalLead text := by
          intro text
          rw [capitalLead, List.dropWhile_cons_of_pos hblank, ← capitalLead]
        rw [hdrop] at hne
        rw [hdrop, hdrop, ih hne]
      · have hkeep : ∀ text : List Char,
            capitalLead (c :: text) = ((c :: text).flatMap upper).takeWhile isLeadingChar := by
          intro text
          rw [capitalLead, List.dropWhile_cons_of_neg hblank]
        rw [hkeep, hkeep, (Hushed.keep h).takeWhile_eq]
  | @hush comment text other hopens hapart h ih =>
      refine absurd ?_ hne
      have hsolid : (comment ++ text).dropWhile isBlank = comment ++ text := by
        rcases hopens with hopen | hopen
        · obtain ⟨comment, rfl⟩ := List.head?_eq_some_iff.mp hopen
          exact List.dropWhile_cons_of_neg (by decide)
        · obtain ⟨comment, rfl⟩ := List.head?_eq_some_iff.mp hopen
          exact List.dropWhile_cons_of_neg (by decide)
      rw [capitalLead, hsolid]
      exact (@takeWhile_append_of_head _ [] _ fun c hc => (head_flatMap_upper_of_opens hopens hc).2).1

theorem dimmed (h : Hushed text other) : Dimmed text other := by
  induction h with
  | nil => exact .nil
  | keep _ ih => exact .keep ih
  | hush hopens hapart _ ih =>
      refine .dim ?_ hapart ih
      rcases hopens with hopen | hopen
      · exact ⟨'/', hopen, by decide⟩
      · exact ⟨'-', hopen, by decide⟩

/-- No word comes up, whatever is in front. -/
theorem mem_runs (h : Hushed text other) (left : List Char) {word : List Char}
    (hword : word ∈ runs isWord (left ++ other.flatMap upper)) : word ∈ runs isWord (left ++ text.flatMap upper) :=
  (h.dimmed.sublist_runs left).subset hword

end Hushed

end SqlGate
