import SqlGate.Proofs.Nesting

/-! Two texts read side by side. Where the places of two texts are paired so that the simple readers read alike from
paired places, the clauses are read alike from them, and a search that goes through the two texts finds paired things. -/

namespace SqlGate

section Related

variable {α β γ δ : Type} {R : α → β → Prop} {S : γ → δ → Prop} {a first : Option α} {b second : Option β}

theorem rel_of_forall (h : ∀ x, a = some x → ∃ y, b = some y ∧ R x y) (hback : ∀ y, b = some y → a.isSome) :
    Option.Rel R a b := by
  cases ha : a with
  | some x =>
      obtain ⟨y, hy, hxy⟩ := h x ha
      rw [hy]
      exact .some hxy
  | none =>
      cases hb : b with
      | none => exact .none
      | some y =>
          have hsome := hback y hb
          rw [ha] at hsome
          cases hsome

theorem rel_bind {f : α → Option γ} {g : β → Option δ} (h : Option.Rel R a b)
    (hstep : ∀ x y, R x y → Option.Rel S (f x) (g y)) : Option.Rel S (a.bind f) (b.bind g) := by
  cases h with
  | none => exact .none
  | some hxy => exact hstep _ _ hxy

theorem rel_map {f : α → γ} {g : β → δ} (h : Option.Rel R a b) (hstep : ∀ x y, R x y → S (f x) (g y)) :
    Option.Rel S (a.map f) (b.map g) := by
  cases h with
  | none => exact .none
  | some hxy => exact .some (hstep _ _ hxy)

theorem rel_orElse (h : Option.Rel R a b) (hnext : Option.Rel R first second) :
    Option.Rel R (a <|> first) (b <|> second) := by
  cases h with
  | none => exact hnext
  | some hxy => exact .some hxy

theorem rel_isSome (h : Option.Rel R a b) : a.isSome = b.isSome := by
  cases h with
  | none => rfl
  | some hxy => rfl

theorem rel_getD {x : α} {y : β} (h : Option.Rel R a b) (hxy : R x y) : R (a.getD x) (b.getD y) := by
  cases h with
  | none => exact hxy
  | some hfound => exact hfound

theorem rel_findSome? {f : γ → Option α} {g : γ → Option β} {list : List γ}
    (h : ∀ x ∈ list, Option.Rel R (f x) (g x)) : Option.Rel R (list.findSome? f) (list.findSome? g) := by
  induction list with
  | nil => exact .none
  | cons x list ih =>
      rw [List.forall_mem_cons] at h
      rw [List.findSome?_cons, List.findSome?_cons]
      have hfirst := h.1
      generalize f x = found at hfirst
      generalize g x = other at hfirst
      cases hfirst with
      | none => exact ih h.2
      | some hxy => exact .some hxy

end Related

/-- Places of two texts, and counts of them, from which the simple readers read alike. -/
structure ReadAlike (R : Cursor → Cursor → Prop) (C : WrittenCount → WrittenCount → Prop) : Prop where
  opensWord {c again : Cursor} (hc : R c again) : c.opensWord = again.opensWord
  closesWord {c again : Cursor} (hc : R c again) : c.closesWord = again.closesWord
  blanks {c again : Cursor} (hc : R c again) : R c.blanks again.blanks
  blanks? {c again : Cursor} (hc : R c again) : Option.Rel R c.blanks? again.blanks?
  char? {x : Char} (hx : x = ',' ∨ x = '(' ∨ x = ')') {c again : Cursor} (hc : R c again) :
    Option.Rel R (c.char? x) (again.char? x)
  letters? {keyword : List Char} (hkey : isKeyword keyword = true) {c again : Cursor} (hc : R c again) :
    Option.Rel R (c.letters? keyword) (again.letters? keyword)
  digits? {c again : Cursor} (hc : R c again) :
    Option.Rel (fun read reread => R read.2 reread.2 ∧ C (.ofDigits read.1 c read.2) (.ofDigits reread.1 again reread.2))
      c.digits? again.digits?

/-- What is read after `TOP` in two texts. -/
inductive AlikeTop (C : WrittenCount → WrittenCount → Prop) : Cursor.TopForm → Cursor.TopForm → Prop where
  | rows {count again : WrittenCount} (h : C count again) : AlikeTop C (.rows count) (.rows again)
  | percent : AlikeTop C .percent .percent
  | notLiteral : AlikeTop C .notLiteral .notLiteral

namespace ReadAlike

variable {R : Cursor → Cursor → Prop} {C : WrittenCount → WrittenCount → Prop} {c again : Cursor} {keyword : List Char}

theorem word? (h : ReadAlike R C) (hkey : isKeyword keyword = true) (hc : R c again) :
    Option.Rel R (c.word? keyword) (again.word? keyword) := by
  refine rel_bind (h.letters? hkey hc) fun x y hxy => ?_
  rw [h.opensWord hc, h.closesWord hxy]
  split
  · exact .some hxy
  · exact .none

theorem anyWord? (h : ReadAlike R C) {keywords : List (List Char)}
    (hkeys : ∀ keyword ∈ keywords, isKeyword keyword = true) (hc : R c again) :
    Option.Rel R (c.anyWord? keywords) (again.anyWord? keywords) :=
  rel_findSome? fun keyword hmem => h.word? (hkeys keyword hmem) hc

theorem number? (h : ReadAlike R C) (hc : R c again) :
    Option.Rel (fun read reread => R read.2 reread.2 ∧ C (.ofDigits read.1 c read.2) (.ofDigits reread.1 again reread.2))
      c.number? again.number? := by
  refine rel_bind (h.digits? hc) fun x y hxy => ?_
  change Option.Rel _ (if x.2.closesWord then some x else none) (if y.2.closesWord then some y else none)
  rw [h.closesWord hxy.1]
  split
  · exact .some hxy
  · exact .none

theorem count? (h : ReadAlike R C) (hc : R c again) :
    Option.Rel (fun read reread => C read.1 reread.1 ∧ R read.2 reread.2) c.count? again.count? :=
  rel_map (h.number? hc) fun _ _ hxy => ⟨hxy.2, hxy.1⟩

theorem leadingCount? (h : ReadAlike R C) (hc : R c again) :
    Option.Rel (fun read reread => C read.1 reread.1 ∧ R read.2 reread.2) c.leadingCount? again.leadingCount? :=
  rel_map (h.digits? hc) fun _ _ hxy => ⟨hxy.2, hxy.1⟩

theorem fetchCount? (h : ReadAlike R C) (hc : R c again) : Option.Rel C c.fetchCount? again.fetchCount? := by
  refine rel_bind (h.word? (by decide) hc) fun c again hc => ?_
  refine rel_bind (h.blanks? hc) fun c again hc => ?_
  refine rel_bind (h.anyWord? (by decide) hc) fun c again hc => ?_
  refine rel_bind (h.blanks? hc) fun c again hc => ?_
  refine rel_bind (h.count? hc) fun read reread hread => ?_
  refine rel_bind (h.blanks? hread.2) fun c again hc => ?_
  refine rel_bind (h.anyWord? (by decide) hc) fun c again hc => ?_
  refine rel_bind (h.blanks? hc) fun c again hc => ?_
  exact rel_bind (h.word? (by decide) hc) fun c again hc => .some hread.1

theorem offsetRows? (h : ReadAlike R C) (hc : R c again) : Option.Rel R c.offsetRows? again.offsetRows? := by
  refine rel_bind (h.word? (by decide) hc) fun c again hc => ?_
  refine rel_bind (h.blanks? hc) fun c again hc => ?_
  refine rel_bind (h.number? hc) fun read reread hread => ?_
  exact rel_bind (h.blanks? hread.1) fun c again hc => h.anyWord? (by decide) hc

theorem bareOffset? (h : ReadAlike R C) (hc : R c again) : Option.Rel R c.bareOffset? again.bareOffset? := by
  refine rel_bind (h.word? (by decide) hc) fun after place hafter => ?_
  refine rel_bind (h.blanks? hafter) fun after place hafter => ?_
  exact rel_bind (h.number? hafter) fun _ _ _ => .some hc

theorem secondCount? (h : ReadAlike R C) (hc : R c again) : Option.Rel C c.secondCount? again.secondCount? := by
  refine rel_bind (h.number? hc) fun read reread hread => ?_
  refine rel_bind (h.char? (by decide) (h.blanks hread.1)) fun c again hc => ?_
  exact rel_bind (h.count? (h.blanks hc)) fun read reread hread => .some hread.1

theorem limitCount? (h : ReadAlike R C) (hc : R c again) : Option.Rel C c.limitCount? again.limitCount? := by
  refine rel_bind (h.word? (by decide) hc) fun c again hc => ?_
  refine rel_bind (h.blanks? hc) fun c again hc => ?_
  exact rel_orElse (h.secondCount? hc) (rel_map (h.count? hc) fun _ _ hread => hread.1)

theorem orderBy? (h : ReadAlike R C) (hc : R c again) : Option.Rel R c.orderBy? again.orderBy? := by
  refine rel_bind (h.word? (by decide) hc) fun c again hc => ?_
  exact rel_bind (h.blanks? hc) fun c again hc => h.word? (by decide) hc

theorem phrase? (h : ReadAlike R C) {keywords : List (List Char)}
    (hkeys : ∀ keyword ∈ keywords, isKeyword keyword = true) (hc : R c again) :
    Option.Rel R (c.phrase? keywords) (again.phrase? keywords) := by
  induction keywords generalizing c again with
  | nil => exact .some hc
  | cons keyword keywords ih =>
      rw [List.forall_mem_cons] at hkeys
      cases keywords with
      | nil => exact h.word? hkeys.1 hc
      | cons next keywords =>
          refine rel_bind (h.word? hkeys.1 hc) fun c again hc => ?_
          exact rel_bind (h.blanks? hc) fun c again hc => ih hkeys.2 hc

theorem trailingClause? (h : ReadAlike R C) (hc : R c again) :
    Option.Rel R c.trailingClause? again.trailingClause? := by
  have hphrases : ∀ phrase ∈ Cursor.forPhrases, ∀ keyword ∈ phrase, isKeyword keyword = true := by decide
  refine rel_map (R := R) (rel_orElse ?_ (rel_orElse ?_ ?_)) fun _ _ _ => hc
  · refine rel_bind (h.word? (by decide) hc) fun after place hafter => ?_
    refine rel_bind (h.blanks? hafter) fun after place hafter => ?_
    exact rel_findSome? fun phrase hmem => h.phrase? (hphrases phrase hmem) hafter
  · refine rel_bind (h.word? (by decide) hc) fun after place hafter => ?_
    exact h.char? (by decide) (h.blanks hafter)
  · exact h.phrase? (by decide) hc

theorem setQuantifier? (h : ReadAlike R C) (hc : R c again) : Option.Rel R c.setQuantifier? again.setQuantifier? :=
  h.anyWord? (by decide) hc

theorem selectHead? (h : ReadAlike R C) (hc : R c again) : Option.Rel R c.selectHead? again.selectHead? := by
  refine rel_bind (h.letters? (by decide) hc) fun c again hc => ?_
  exact .some (rel_getD (rel_bind (h.blanks? hc) fun c again hc => h.setQuantifier? hc) hc)

theorem parenthesizedCount? (h : ReadAlike R C) (hc : R c again) :
    Option.Rel (fun read reread => C read.1 reread.1 ∧ R read.2 reread.2) c.parenthesizedCount?
      again.parenthesizedCount? := by
  refine rel_bind (h.char? (by decide) hc) fun c again hc => ?_
  refine rel_bind (h.count? (h.blanks hc)) fun read reread hread => ?_
  exact rel_bind (h.char? (by decide) (h.blanks hread.2)) fun c again hc => .some ⟨hread.1, hc⟩

theorem topForm? (h : ReadAlike R C) (hc : R c again) : Option.Rel (AlikeTop C) c.topForm? again.topForm? := by
  refine rel_bind (h.letters? (by decide) hc) fun c again hc => ?_
  refine rel_bind (h.blanks? hc) fun c again hc => ?_
  have hquantifier := rel_bind (h.setQuantifier? hc) fun c again hc => h.blanks? hc
  refine rel_bind (h.word? (by decide) (rel_getD hquantifier hc)) fun c again hc => ?_
  have hcount := rel_orElse (h.parenthesizedCount? (h.blanks hc)) (h.leadingCount? (h.blanks hc))
  generalize (c.blanks.parenthesizedCount? <|> c.blanks.leadingCount?) = read at hcount
  generalize (again.blanks.parenthesizedCount? <|> again.blanks.leadingCount?) = reread at hcount
  cases hcount with
  | none => exact .some .notLiteral
  | @some read reread hread =>
      have hkey : isKeyword "PERCENT".toList = true := by decide
      have hpercent := rel_bind (h.blanks? hread.2) fun c again hc => h.word? hkey hc
      change Option.Rel _ (if _ then _ else _) (if _ then _ else _)
      rw [rel_isSome hpercent]
      split
      · exact .some .percent
      · exact .some (.rows hread.1)

end ReadAlike

/-- What is found first in the one text is found first in the other, if the cuts that a reader reads from are paired in
both directions, in their order. -/
theorem Outline.rel_findTopLevel? {α : Type} {R : α → α → Prop} {read : Cursor → Option α} {sql again : List Char}
    {start next : Nat} (Pair : List Char → List Char → List Char → List Char → Prop)
    (hpair : ∀ front rest found, TopCut (of sql).text start front rest → read (.between front rest) = some found →
      ∃ other later, Pair front rest other later ∧ TopCut (of again).text next other later)
    (hback : ∀ other later found, TopCut (of again).text next other later → read (.between other later) = some found →
      ∃ front rest, Pair front rest other later ∧ TopCut (of sql).text start front rest)
    (hread : ∀ front rest other later, Pair front rest other later →
      Option.Rel R (read (.between front rest)) (read (.between other later)))
    (horder : ∀ early late front rest earlier later other after, Pair early late earlier later →
      Pair front rest other after → earlier.length < other.length → early.length < front.length) :
    Option.Rel R ((of sql).findTopLevel? start read) ((of again).findTopLevel? next read) := by
  refine rel_of_forall (fun found hfound => ?_) fun found hfound => ?_
  · obtain ⟨front, rest, hcut, hfront, hearly⟩ := findTopLevel?_eq_some_iff.mp hfound
    obtain ⟨other, later, hother, hcutOther⟩ := hpair front rest found hcut hfront
    have hrel := hread _ _ _ _ hother
    rw [hfront] at hrel
    generalize hreread : read (.between other later) = reread at hrel
    cases hrel with
    | @some _ value hvalue =>
        refine ⟨value, findTopLevel?_eq_some_iff.mpr ⟨other, later, hcutOther, hreread, ?_⟩, hvalue⟩
        intro early late hcutEarly hlt
        by_contra hsome
        obtain ⟨value, hearlier⟩ := Option.ne_none_iff_exists'.mp hsome
        obtain ⟨before, after, hbefore, hcutBefore⟩ := hback early late value hcutEarly hearlier
        have hnone := hearly before after hcutBefore (horder _ _ _ _ _ _ _ _ hbefore hother hlt)
        have hrelEarly := hread _ _ _ _ hbefore
        rw [hnone, hearlier] at hrelEarly
        cases hrelEarly
  · rw [Option.isSome_iff_ne_none]
    intro hnone
    rw [findTopLevel?_eq_none_iff] at hnone
    obtain ⟨other, later, hcut, hother, -⟩ := findTopLevel?_eq_some_iff.mp hfound
    obtain ⟨front, rest, hpaired, hcutFront⟩ := hback other later found hcut hother
    have hrel := hread _ _ _ _ hpaired
    rw [hnone front rest hcutFront, hother] at hrel
    cases hrel

end SqlGate
