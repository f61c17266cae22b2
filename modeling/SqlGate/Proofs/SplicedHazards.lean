import SqlGate.Proofs.Splice

/-! The hazards of a statement into which code has been put. Each one goes back to a hazard of the
statement before, at the place it had there or further to the left: the new code has no mark of a hazard,
and it comes between the two marks of none. -/

namespace SqlGate

open Unicode

/-- `Moved left old new before after`: what stood at byte `before` stands at byte `after` once `new` has
come in the place of `old` behind the pieces `left`. -/
def Moved (left : List Lexeme) (old new : List Char) (before after : Nat) : Prop :=
  (before = after ∧ after < byteLength (left.flatMap Lexeme.text)) ∨
    ∃ gap, before = byteLength (left.flatMap Lexeme.text) + byteLength old + gap ∧
      after = byteLength (left.flatMap Lexeme.text) + byteLength new + gap

theorem Moved.le {left : List Lexeme} {old new : List Char} {first second firstAfter secondAfter : Nat}
    (hfirst : Moved left old new first firstAfter) (hsecond : Moved left old new second secondAfter)
    (h : firstAfter ≤ secondAfter) : first ≤ second := by
  rcases hfirst with ⟨rfl, hlt⟩ | ⟨gap, rfl, rfl⟩
  · rcases hsecond with ⟨rfl, -⟩ | ⟨gap, rfl, rfl⟩
    · exact h
    · omega
  · rcases hsecond with ⟨rfl, hlt⟩ | ⟨gap, rfl, rfl⟩
    · omega
    · omega

theorem Moved.of_left {left front gap : List Lexeme} {piece : Lexeme} (hleft : left = front ++ piece :: gap)
    (old new : List Char) :
    Moved left old new (byteLength (front.flatMap Lexeme.text)) (byteLength (front.flatMap Lexeme.text)) := by
  refine Or.inl ⟨rfl, ?_⟩
  have hpos := byteLength_pos piece.text_ne_nil
  rw [hleft, List.flatMap_append, List.flatMap_cons, byteLength_append, byteLength_append]
  omega

theorem Moved.of_right (left gap : List Lexeme) (old new : List Char) :
    Moved left old new (byteLength ((left ++ (old.map Lexeme.code ++ gap)).flatMap Lexeme.text))
      (byteLength ((left ++ (new.map Lexeme.code ++ gap)).flatMap Lexeme.text)) := by
  refine Or.inr ⟨byteLength (gap.flatMap Lexeme.text), ?_, ?_⟩ <;>
    simp only [List.flatMap_append, Lexeme.flatMap_text_code, byteLength_append] <;> omega

/-- A piece of a statement with code put in is one of the pieces before or stands in the code. -/
theorem Lexeme.cut_of_joined {left right front later : List Lexeme} {new : List Char} {piece : Lexeme}
    (h : left ++ (new.map code ++ right) = front ++ piece :: later) :
    (∃ gap, left = front ++ piece :: gap ∧ later = gap ++ (new.map code ++ right)) ∨
      (∃ c ∈ new, piece = code c) ∨
      ∃ gap, right = gap ++ piece :: later ∧ front = left ++ (new.map code ++ gap) := by
  rcases List.append_eq_append_iff.mp h with ⟨gap, hfront, hrest⟩ | ⟨gap, hleft, hlater⟩
  · rcases List.append_eq_append_iff.mp hrest with ⟨tail, hgap, hright⟩ | ⟨tail, hcode, htail⟩
    · refine Or.inr (Or.inr ⟨tail, hright, ?_⟩)
      rw [hfront, hgap]
    · cases tail with
      | nil =>
          rw [List.append_nil] at hcode
          rw [List.nil_append] at htail
          exact Or.inr (Or.inr ⟨[], htail.symm, by rw [hfront, hcode, List.append_nil]⟩)
      | cons head tail =>
          obtain ⟨rfl, -⟩ := List.cons.inj htail
          have hmem : piece ∈ new.map code := by
            rw [hcode]
            exact List.mem_append_right _ List.mem_cons_self
          obtain ⟨c, hc, rfl⟩ := List.mem_map.mp hmem
          exact Or.inr (Or.inl ⟨c, hc, rfl⟩)
  · cases gap with
    | cons head gap =>
        obtain ⟨rfl, hgap⟩ := List.cons.inj hlater
        exact Or.inl ⟨gap, hleft, hgap⟩
    | nil =>
        rw [List.nil_append] at hlater
        rw [List.append_nil] at hleft
        cases new with
        | nil => exact Or.inr (Or.inr ⟨[], hlater.symm, by rw [hleft]; simp⟩)
        | cons c new =>
            obtain ⟨rfl, -⟩ := List.cons.inj hlater
            exact Or.inr (Or.inl ⟨c, List.mem_cons_self, rfl⟩)

theorem hasPair_of_append {first second : Char} {left middle right : List Char} (hne : middle ≠ [])
    (hfirst : first ∉ middle) (hsecond : second ∉ middle)
    (h : hasPair first second (left ++ (middle ++ right)) = true) :
    hasPair first second left = true ∨ hasPair first second right = true := by
  obtain ⟨front, rest, htext⟩ := hasPair_iff.mp h
  rcases List.append_eq_append_iff.mp htext with ⟨gap, hfront, hmiddle⟩ | ⟨gap, hleft, hgap⟩
  · rcases List.append_eq_append_iff.mp hmiddle with ⟨tail, hgap, hright⟩ | ⟨tail, hgap, htail⟩
    · exact Or.inr (hasPair_iff.mpr ⟨tail, rest, hright⟩)
    · cases tail with
      | nil => exact Or.inr (hasPair_iff.mpr ⟨[], rest, htail.symm⟩)
      | cons c tail =>
          obtain ⟨rfl, -⟩ := List.cons.inj htail
          exact absurd (by rw [hgap]; simp) hfirst
  · cases gap with
    | nil =>
        obtain ⟨c, middle, rfl⟩ := List.exists_cons_of_ne_nil hne
        obtain ⟨rfl, -⟩ := List.cons.inj hgap
        exact absurd List.mem_cons_self hfirst
    | cons c gap =>
        obtain ⟨rfl, hnext⟩ := List.cons.inj hgap
        cases gap with
        | nil =>
            obtain ⟨d, middle, rfl⟩ := List.exists_cons_of_ne_nil hne
            obtain ⟨rfl, -⟩ := List.cons.inj hnext
            exact absurd List.mem_cons_self hsecond
        | cons d gap =>
            obtain ⟨rfl, -⟩ := List.cons.inj hnext
            exact Or.inl (hasPair_iff.mpr ⟨front, gap, hleft⟩)

theorem hasPair_append_of_left {first second : Char} {left : List Char} (right : List Char)
    (h : hasPair first second left = true) : hasPair first second (left ++ right) = true := by
  obtain ⟨front, rest, rfl⟩ := hasPair_iff.mp h
  exact hasPair_iff.mpr ⟨front, rest ++ right, by simp⟩

theorem hasPair_append_of_right {first second : Char} {right : List Char} (left : List Char)
    (h : hasPair first second right = true) : hasPair first second (left ++ right) = true := by
  obtain ⟨front, rest, rfl⟩ := hasPair_iff.mp h
  exact hasPair_iff.mpr ⟨left ++ front, rest, by simp⟩

/-- Code that is put into a line adds no quoting to it. -/
theorem opensQuoting_of_append {left old new right : List Char} (hnew : ∀ c ∈ new, isClauseChar c = true)
    (hne : new ≠ []) (h : opensQuoting (left ++ (new ++ right)) = true) :
    opensQuoting (left ++ (old ++ right)) = true := by
  rw [opensQuoting, Bool.or_eq_true, List.any_eq_true] at h ⊢
  rcases h with ⟨c, hc, hopens⟩ | hpair
  · left
    refine ⟨c, ?_, hopens⟩
    rcases List.mem_append.mp hc with hleft | hc
    · exact List.mem_append_left _ hleft
    · rcases List.mem_append.mp hc with hmem | hright
      · rw [ofOpening?_of_isClauseChar (hnew c hmem)] at hopens
        cases hopens
      · exact List.mem_append_right _ (List.mem_append_right _ hright)
  · right
    have hslash : '/' ∉ new := fun hmem => ne_of_isClauseChar (hnew _ hmem) rfl rfl
    have hstar : '*' ∉ new := fun hmem => ne_of_isClauseChar (hnew _ hmem) rfl rfl
    rcases hasPair_of_append hne hslash hstar hpair with hleft | hright
    · exact hasPair_append_of_left _ hleft
    · exact hasPair_append_of_right _ (hasPair_append_of_right _ hright)

theorem opensQuoting_line_of_append {left old new right : List Char} (hnew : ∀ c ∈ new, isClauseChar c = true)
    (hne : new ≠ []) (hold : '\n' ∉ old)
    (h : opensQuoting ((left ++ (new ++ right)).takeWhile (· != '\n')) = true) :
    opensQuoting ((left ++ (old ++ right)).takeWhile (· != '\n')) = true := by
  have hnewLine : ∀ c ∈ new, (c != '\n') = true := by
    intro c hc
    exact bne_iff_ne.mpr (ne_of_isClauseChar (hnew c hc) rfl)
  have holdLine : ∀ c ∈ old, (c != '\n') = true := by
    intro c hc
    exact bne_iff_ne.mpr fun heq => hold (heq ▸ hc)
  rw [List.takeWhile_append, List.takeWhile_append_of_pos hnewLine] at h
  rw [List.takeWhile_append, List.takeWhile_append_of_pos holdLine]
  split at h
  · next hline =>
      rw [if_pos hline]
      exact opensQuoting_of_append hnew hne h
  · next hline =>
      rw [if_neg hline]
      exact h

/-- New code that the name of a tag goes into stands in the name as a whole. -/
theorem mem_name_of_append {new right name tail after : List Char} (hdollar : '$' ∉ new)
    (htail : new ++ right = tail ++ '$' :: after) (hname : ∀ c ∈ tail, c ∈ name) : ∀ c ∈ new, c ∈ name := by
  intro c hc
  refine hname c ?_
  rcases List.append_eq_append_iff.mp htail with ⟨late, rfl, -⟩ | ⟨late, rfl, hlate⟩
  · exact List.mem_append_left _ hc
  · cases late with
    | nil => simpa using hc
    | cons d late =>
        obtain ⟨rfl, -⟩ := List.cons.inj hlate
        exact absurd (List.mem_append_right _ List.mem_cons_self) hdollar

/-- No name of a tag goes over a blank, nor has it anything in front of it but a dollar sign and letters. -/
theorem not_isTagName_of_gap {left new front gap name : List Char}
    (hgap : ' ' ∈ new ∨ ∃ c, left.getLast? = some c ∧ isWord c = false ∧ c ≠ '$')
    (hleft : left = front ++ '$' :: gap) (hinside : ∀ c ∈ new, c ∈ name) (hname : ∀ c ∈ gap, c ∈ name) :
    ¬IsTagName name := by
  intro htag
  rcases hgap with hspace | ⟨c, hc, hword, hne⟩
  · have hclass := htag.1 ' ' (hinside ' ' hspace)
    cases hclass
  · rw [hleft, List.getLast?_append, List.getLast?_cons, Option.some_or] at hc
    cases hlast : gap.getLast? with
    | none =>
        rw [hlast] at hc
        exact hne (Option.some.inj hc).symm
    | some d =>
        rw [hlast] at hc
        have hcd : d = c := Option.some.inj hc
        rw [htag.isWord c (hcd ▸ hname d (List.mem_of_getLast? hlast))] at hword
        cases hword

/-- A dollar tag of a text with code put in stands in one of the two parts: the code comes in no tag,
since it has a blank or something other than a word in front of it. -/
theorem dollarTag?_of_append (old : List Char) {left new right front rest : List Char}
    (hnew : ∀ c ∈ new, isClauseChar c = true) (hne : new ≠ [])
    (hgap : ' ' ∈ new ∨ ∃ c, left.getLast? = some c ∧ isWord c = false ∧ c ≠ '$')
    (htext : left ++ (new ++ right) = front ++ '$' :: rest) (htag : (dollarTag? rest).isSome) :
    (∃ gap, left = front ++ '$' :: gap ∧ (dollarTag? (gap ++ (old ++ right))).isSome) ∨
      ∃ gap, right = gap ++ '$' :: rest ∧ front = left ++ (new ++ gap) := by
  have hdollar : '$' ∉ new := fun hmem => ne_of_isClauseChar (hnew _ hmem) rfl rfl
  obtain ⟨name, after, rfl, hname⟩ := isSome_dollarTag?_iff.mp htag
  rcases List.append_eq_append_iff.mp htext with ⟨gap, rfl, hmiddle⟩ | ⟨gap, hleft, hgapRest⟩
  · rcases List.append_eq_append_iff.mp hmiddle with ⟨tail, rfl, hright⟩ | ⟨tail, hmiddleNew, htail⟩
    · exact Or.inr ⟨tail, hright, rfl⟩
    · cases tail with
      | nil => exact Or.inr ⟨[], htail.symm, by rw [hmiddleNew, List.append_nil, List.append_nil]⟩
      | cons c tail =>
          obtain ⟨rfl, -⟩ := List.cons.inj htail
          exact absurd (by rw [hmiddleNew]; simp) hdollar
  · cases gap with
    | nil =>
        cases new with
        | nil => exact Or.inr ⟨[], hgapRest.symm, by simpa using hleft.symm⟩
        | cons c new =>
            obtain ⟨rfl, -⟩ := List.cons.inj hgapRest
            exact absurd List.mem_cons_self hdollar
    | cons c gap =>
        obtain ⟨rfl, htagRest⟩ := List.cons.inj hgapRest
        refine Or.inl ⟨gap, hleft, ?_⟩
        -- The tag has its end in front of the new code.
        rcases List.append_eq_append_iff.mp htagRest with ⟨tail, hgapName, htail⟩ | ⟨tail, hnameGap, htail⟩
        · cases tail with
          | nil =>
              obtain ⟨c, new, rfl⟩ := List.exists_cons_of_ne_nil hne
              obtain ⟨rfl, -⟩ := List.cons.inj htail
              exact absurd List.mem_cons_self hdollar
          | cons c tail =>
              obtain ⟨rfl, -⟩ := List.cons.inj htail
              refine isSome_dollarTag?_iff.mpr ⟨name, tail ++ (old ++ right), ?_, hname⟩
              rw [hgapName]
              simp
        · have hinside := mem_name_of_append hdollar htail fun c hc => hnameGap ▸ List.mem_append_right _ hc
          exact absurd hname
            (not_isTagName_of_gap hgap hleft hinside fun c hc => hnameGap ▸ List.mem_append_left _ hc)

namespace Site

variable {sql old new : List Char} {left right : List Lexeme}

theorem exists_hazard_of_piece (h : Site sql left old right) {front later : List Lexeme} {piece : Lexeme}
    {hazard : Hazard} (hcut : left ++ (new.map Lexeme.code ++ right) = front ++ piece :: later)
    (hhazard : piece.hazard? = some hazard) :
    ∃ before, Moved left old new before (byteLength (front.flatMap Lexeme.text)) ∧
      (before, hazard) ∈ (Outline.of sql).hazards := by
  rcases Lexeme.cut_of_joined hcut with ⟨gap, hleft, hlater⟩ | ⟨c, -, rfl⟩ | ⟨gap, hright, rfl⟩
  · refine ⟨_, .of_left hleft old new, Outline.mem_hazards_of_iff.mpr (Or.inl ?_)⟩
    refine ⟨front, piece, gap ++ (old.map Lexeme.code ++ right), ?_, hhazard, rfl⟩
    rw [h.lexemes_eq, hleft]
    simp
  · cases hhazard
  · refine ⟨_, .of_right left gap old new, Outline.mem_hazards_of_iff.mpr (Or.inl ?_)⟩
    refine ⟨left ++ (old.map Lexeme.code ++ gap), piece, later, ?_, hhazard, rfl⟩
    rw [h.lexemes_eq, hright]
    simp

theorem exists_dollarQuote (h : Site sql left old right) (hnew : ∀ c ∈ new, isClauseChar c = true) (hne : new ≠ [])
    (hgap : ' ' ∈ new ∨ ∃ c, (left.flatMap Lexeme.blanked).getLast? = some c ∧ isWord c = false ∧ c ≠ '$')
    {front rest : List Char}
    (hcut : left.flatMap Lexeme.blanked ++ (new ++ right.flatMap Lexeme.blanked) = front ++ '$' :: rest)
    (htag : (dollarTag? rest).isSome) :
    ∃ before first, Moved left old new before (byteLength front) ∧ first ≤ before ∧
      (first, Hazard.dollarQuote) ∈ (Outline.of sql).hazards := by
  have houtline := h.outline_eq
  have hsize := Lexeme.byteLength_flatMap_blanked left
  rcases dollarTag?_of_append old hnew hne hgap hcut htag with ⟨gap, hleft, hsome⟩ | ⟨gap, hright, hfront⟩
  · obtain ⟨first, hle, hfirst⟩ :=
      Outline.exists_dollarQuote_le (by rw [houtline, hleft, List.append_assoc]; rfl) hsome
    refine ⟨byteLength front, first, Or.inl ⟨rfl, ?_⟩, hle, hfirst⟩
    rw [← hsize, hleft, byteLength_append, byteLength_cons]
    have hpos := '$'.utf8Size_pos
    omega
  · have hcutOld : (Outline.of sql).text = (left.flatMap Lexeme.blanked ++ (old ++ gap)) ++ '$' :: rest := by
      rw [houtline, hright]
      simp
    obtain ⟨first, hle, hfirst⟩ := Outline.exists_dollarQuote_le hcutOld htag
    refine ⟨_, first, Or.inr ⟨byteLength gap, rfl, ?_⟩, ?_, hfirst⟩
    · rw [hfront, byteLength_append, byteLength_append, hsize]
      omega
    · rw [byteLength_append, byteLength_append, hsize] at hle
      omega

/-- A number sign on a line with quoting stands in front of the new code or behind it, and its line had quoting. -/
theorem exists_hashComment (h : Site sql left old right) (hnew : ∀ c ∈ new, isClauseChar c = true) (hne : new ≠ [])
    {front later : List Lexeme} (hcut : left ++ (new.map Lexeme.code ++ right) = front ++ .code '#' :: later)
    (hquoting : opensQuoting (('#' :: later.flatMap Lexeme.text).takeWhile (· != '\n')) = true) :
    ∃ before, Moved left old new before (byteLength (front.flatMap Lexeme.text)) ∧
      (before, Hazard.hashComment) ∈ (Outline.of sql).hazards := by
  have hnewline : '\n' ∉ old := by
    intro hmem
    exact absurd (h.all_word _ hmem) (by decide)
  rcases Lexeme.cut_of_joined hcut with ⟨gap, hleft, hlater⟩ | ⟨c, hc, hcode⟩ | ⟨gap, hright, rfl⟩
  · refine ⟨_, .of_left hleft old new, Outline.mem_hazards_of_iff.mpr (Or.inr (Or.inr ⟨rfl, ?_⟩))⟩
    refine ⟨front, gap ++ (old.map Lexeme.code ++ right), by rw [h.lexemes_eq, hleft]; simp, ?_, rfl⟩
    rw [hlater] at hquoting
    simp only [List.flatMap_append, Lexeme.flatMap_text_code] at hquoting ⊢
    exact @opensQuoting_line_of_append ('#' :: gap.flatMap Lexeme.text) _ _ _ hnew hne hnewline hquoting
  · obtain rfl := Lexeme.code.inj hcode
    exact absurd (hnew _ hc) (by decide)
  · refine ⟨_, .of_right left gap old new, Outline.mem_hazards_of_iff.mpr (Or.inr (Or.inr ⟨rfl, ?_⟩))⟩
    refine ⟨left ++ (old.map Lexeme.code ++ gap), later, ?_, hquoting, rfl⟩
    rw [h.lexemes_eq, hright]
    simp

/-- Each hazard of the statement with the code put in goes back to one at its old place or in front of it. -/
theorem exists_hazard (h : Site sql left old right) (hnew : ∀ c ∈ new, isClauseChar c = true) (hne : new ≠ [])
    (hgap : ' ' ∈ new ∨ ∃ c, (left.flatMap Lexeme.blanked).getLast? = some c ∧ isWord c = false ∧ c ≠ '$')
    {place : Nat} {hazard : Hazard} (hmem : (place, hazard) ∈ (Outline.of (joined left new right)).hazards) :
    ∃ before first, Moved left old new before place ∧ first ≤ before ∧
      (first, hazard) ∈ (Outline.of sql).hazards := by
  have hlexemes := h.lexemes_joined hnew hne
  rcases Outline.mem_hazards_of_iff.mp hmem with ⟨front, piece, later, hcut, hhazard, rfl⟩ | ⟨rfl, hdollar⟩ |
    ⟨rfl, front, later, hcut, hquoting, rfl⟩
  · obtain ⟨before, hmoved, hbefore⟩ := h.exists_hazard_of_piece (hlexemes.symm.trans hcut) hhazard
    exact ⟨before, before, hmoved, le_rfl, hbefore⟩
  · rcases cut_of_mem_dollarQuotesOnto hdollar with hnil | ⟨front, rest, hcut, htag, hplace⟩
    · cases hnil
    · rw [hplace, Nat.zero_add]
      exact h.exists_dollarQuote hnew hne hgap ((h.outline_joined hnew hne).symm.trans hcut) htag
  · obtain ⟨before, hmoved, hbefore⟩ := h.exists_hashComment hnew hne (hlexemes.symm.trans hcut) hquoting
    exact ⟨before, before, hmoved, le_rfl, hbefore⟩

/-- Where an engine reads the statement like any other, it does so once the code is in. -/
theorem hazardFor?_eq_none (h : Site sql left old right) (hnew : ∀ c ∈ new, isClauseChar c = true) (hne : new ≠ [])
    (hgap : ' ' ∈ new ∨ ∃ c, (left.flatMap Lexeme.blanked).getLast? = some c ∧ isWord c = false ∧ c ≠ '$')
    {database : Database} (hnone : (Outline.of sql).hazardFor? database = none) :
    (Outline.of (joined left new right)).hazardFor? database = none := by
  rw [Outline.hazardFor?, List.findSome?_eq_none_iff] at hnone ⊢
  rintro ⟨place, hazard⟩ hmem
  obtain ⟨before, first, -, -, hbefore⟩ := h.exists_hazard hnew hne hgap hmem
  exact hnone (first, hazard) hbefore

end Site

end SqlGate
