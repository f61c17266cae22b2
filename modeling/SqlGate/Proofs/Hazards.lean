import SqlGate.NormalForm
import SqlGate.Proofs.Words

/-! Where hazards are recorded and what that means for comments. A hazard is a piece of its own, or a
dollar tag or a number sign among the code. A comment is left out of the normal form exactly when every
hazard of the statement stands behind its beginning. -/

namespace SqlGate

/-- A name that may stand between the dollar signs of a tag. -/
def IsTagName (name : List Char) : Prop :=
  (∀ c ∈ name, (c.isAlphanum || c == '_') = true) ∧ name.head?.any Char.isDigit = false

theorem dollarTag?_eq_some_iff {text rest : List Char} {size : Nat} :
    dollarTag? text = some (size, rest) ↔
      ∃ name, text = name ++ '$' :: rest ∧ IsTagName name ∧ size = name.length + 1 := by
  constructor
  · intro h
    dsimp only [dollarTag?] at h
    split at h
    · next after hafter =>
        split at h
        · cases h
        · next hdigit =>
            obtain ⟨rfl, rfl⟩ := Prod.mk.inj (Option.some.inj h)
            refine ⟨text.takeWhile fun c => c.isAlphanum || c == '_', ?_, ⟨?_, ?_⟩, rfl⟩
            · rw [← hafter, List.takeWhile_append_dropWhile]
            · exact fun c hc => List.mem_takeWhile_imp (p := fun c => c.isAlphanum || c == '_') hc
            · simpa using hdigit
    · cases h
  · rintro ⟨name, rfl, ⟨hname, hdigit⟩, rfl⟩
    have hstop : ∀ c, ('$' :: rest).head? = some c → (c.isAlphanum || c == '_') = false := by
      intro c hc
      rw [← Option.some.inj hc]
      rfl
    obtain ⟨htake, hdrop⟩ := Lexeme.takeWhile_append_of_stop hname hstop
    simp only [dollarTag?, htake, hdrop, hdigit]
    rfl

theorem isSome_dollarTag?_iff {text : List Char} :
    (dollarTag? text).isSome ↔ ∃ name rest, text = name ++ '$' :: rest ∧ IsTagName name := by
  rw [Option.isSome_iff_exists]
  constructor
  · rintro ⟨⟨size, rest⟩, h⟩
    obtain ⟨name, htext, hname, -⟩ := dollarTag?_eq_some_iff.mp h
    exact ⟨name, rest, htext, hname⟩
  · rintro ⟨name, rest, htext, hname⟩
    exact ⟨_, dollarTag?_eq_some_iff.mpr ⟨name, htext, hname, rfl⟩⟩

theorem IsTagName.toNat_lt {name : List Char} (h : IsTagName name) : ∀ c ∈ name, c.toNat < 0x80 := by
  intro c hc
  have hclass := h.1 c hc
  rw [Char.isAlphanum, Bool.or_eq_true, Bool.or_eq_true, beq_iff_eq] at hclass
  rcases hclass with (halpha | hdigit) | rfl
  · exact toNat_lt_of_isAlpha halpha
  · exact toNat_lt_of_isDigit hdigit
  · decide

theorem IsTagName.isWord {name : List Char} (h : IsTagName name) : ∀ c ∈ name, Unicode.isWord c = true := by
  intro c hc
  rw [Unicode.isWord, if_pos (h.toNat_lt c hc)]
  exact h.1 c hc

theorem IsTagName.byteLength_eq {name : List Char} (h : IsTagName name) : byteLength name = name.length := by
  have hascii : ∀ c ∈ name, c.utf8Size = 1 := by
    intro c hc
    rw [Char.utf8Size_eq_one_iff, UInt32.le_iff_toNat_le]
    exact Nat.le_of_lt_succ (h.toNat_lt c hc)
  clear h
  induction name with
  | nil => rfl
  | cons c name ih =>
      rw [byteLength_cons, hascii c List.mem_cons_self, ih fun d hd => hascii d (List.mem_cons_of_mem c hd),
        List.length_cons, Nat.add_comm]

theorem isPlain_of_isTagName {name : List Char} (h : IsTagName name) : ∀ c ∈ name, Lexeme.isPlain c = true := by
  intro c hc
  have hclass := h.1 c hc
  by_contra hplain
  have hspecial : c = '\x27' ∨ c = '\x22' ∨ c = '\x60' ∨ c = '[' ∨ c = '/' ∨ c = '-' := by
    simp only [Lexeme.isPlain, Quote.ofOpening?, List.find?_cons, Quote.opening] at hplain
    grind
  rcases hspecial with rfl | rfl | rfl | rfl | rfl | rfl <;> exact absurd hclass (by decide)

@[simp] theorem Lexeme.flatMap_blanked_code (text : List Char) : (text.map code).flatMap blanked = text := by
  induction text with
  | nil => rfl
  | cons c text ih => rw [List.map_cons, List.flatMap_cons, ih, blanked, List.singleton_append]

/-- A tag is read as code, so the outline shows it. -/
theorem isSome_dollarTag?_lexemes {name : List Char} (h : IsTagName name) (rest : List Char) :
    (dollarTag? ((lexemes (name ++ '$' :: rest)).flatMap Lexeme.blanked)).isSome := by
  have hplain : ∀ c ∈ name ++ ['$'], Lexeme.isPlain c = true := by
    intro c hc
    rcases List.mem_append.mp hc with hc | hc
    · exact isPlain_of_isTagName h c hc
    · rw [List.mem_singleton.mp hc]
      rfl
  rw [List.append_cons, Lexeme.lexemes_plain_append hplain, isSome_dollarTag?_iff]
  refine ⟨name, (lexemes rest).flatMap Lexeme.blanked, ?_, h⟩
  rw [List.flatMap_append, Lexeme.flatMap_blanked_code, List.append_assoc]
  rfl

theorem mem_dollarQuotesOnto_of_mem {found : List Nat} {place : Nat} (h : place ∈ found) (offset : Nat)
    (text : List Char) : place ∈ dollarQuotesOnto found offset text := by
  fun_induction dollarQuotesOnto found offset text with
  | case1 => exact List.mem_reverse.mpr h
  | case2 found offset rest size after htag ih => exact ih (List.mem_cons_of_mem _ h)
  | case3 found offset rest htag ih => exact ih h
  | case4 found offset c rest hc ih => exact ih h

/-- A dollar tag is found where it stands, unless another one is found further to the left. -/
theorem exists_mem_dollarQuotesOnto {found : List Nat} {offset : Nat} {text front rest : List Char}
    (htext : text = front ++ '$' :: rest) (htag : (dollarTag? rest).isSome) :
    ∃ place ∈ dollarQuotesOnto found offset text, place ≤ offset + byteLength front := by
  fun_induction dollarQuotesOnto found offset text generalizing front with
  | case1 => simp at htext
  | case2 found offset after size later hsome ih =>
      exact ⟨offset, mem_dollarQuotesOnto_of_mem List.mem_cons_self _ _, Nat.le_add_right _ _⟩
  | case3 found offset after hnone ih =>
      cases front with
      | nil =>
          rw [List.nil_append, List.cons.injEq] at htext
          simp [← htext.2, hnone] at htag
      | cons d front =>
          rw [List.cons_append, List.cons.injEq] at htext
          obtain ⟨rfl, htext⟩ := htext
          obtain ⟨place, hplace, hle⟩ := ih htext
          refine ⟨place, hplace, hle.trans (le_of_eq ?_)⟩
          rw [byteLength_cons, Nat.add_assoc]
          rfl
  | case4 found offset c after hc ih =>
      cases front with
      | nil => exact absurd (List.cons.inj htext).1 hc
      | cons d front =>
          rw [List.cons_append, List.cons.injEq] at htext
          obtain ⟨rfl, htext⟩ := htext
          obtain ⟨place, hplace, hle⟩ := ih htext
          refine ⟨place, hplace, hle.trans (le_of_eq ?_)⟩
          rw [byteLength_cons, Nat.add_assoc]

/-- Only places where a dollar tag stands are found. -/
theorem cut_of_mem_dollarQuotesOnto {found : List Nat} {offset place : Nat} {text : List Char}
    (h : place ∈ dollarQuotesOnto found offset text) :
    place ∈ found ∨ ∃ front rest, text = front ++ '$' :: rest ∧ (dollarTag? rest).isSome ∧
      place = offset + byteLength front := by
  fun_induction dollarQuotesOnto found offset text with
  | case1 => exact Or.inl (List.mem_reverse.mp h)
  | case2 found offset after size later hsome ih =>
      rcases ih h with hmem | ⟨front, rest, rfl, htag, rfl⟩
      · rcases List.mem_cons.mp hmem with rfl | hmem
        · exact Or.inr ⟨[], after, rfl, by rw [hsome]; rfl, rfl⟩
        · exact Or.inl hmem
      · obtain ⟨name, hname, htagName, rfl⟩ := dollarTag?_eq_some_iff.mp hsome
        refine Or.inr ⟨'$' :: (name ++ '$' :: front), rest, by rw [hname]; simp, htag, ?_⟩
        simp only [byteLength_cons, byteLength_append, htagName.byteLength_eq,
          show '$'.utf8Size = 1 from rfl]
        omega
  | case3 found offset after hnone ih =>
      rcases ih h with hmem | ⟨front, rest, rfl, htag, rfl⟩
      · exact Or.inl hmem
      · refine Or.inr ⟨'$' :: front, rest, rfl, htag, ?_⟩
        rw [byteLength_cons, Nat.add_assoc]
        rfl
  | case4 found offset c after hc ih =>
      rcases ih h with hmem | ⟨front, rest, rfl, htag, rfl⟩
      · exact Or.inl hmem
      · refine Or.inr ⟨c :: front, rest, rfl, htag, ?_⟩
        rw [byteLength_cons, Nat.add_assoc]

/-- A number sign is found where quoting follows on its line. -/
theorem mem_hashCommentsOnto_iff {found : List Nat} {offset place : Nat} {pieces : List Lexeme} :
    place ∈ hashCommentsOnto found (pieces.flatMap Lexeme.text) (Lexeme.placeOnto [] offset pieces) ↔
      place ∈ found ∨ ∃ front later, pieces = front ++ .code '#' :: later ∧
        opensQuoting (('#' :: later.flatMap Lexeme.text).takeWhile (· != '\n')) = true ∧
        place = offset + byteLength (front.flatMap Lexeme.text) := by
  induction pieces generalizing found offset with
  | nil => simp [Lexeme.placeOnto, hashCommentsOnto]
  | cons piece pieces ih =>
      rw [Lexeme.placeOnto_cons, hashCommentsOnto, List.flatMap_cons, List.drop_left, ih]
      constructor
      · rintro (hmem | ⟨front, later, rfl, hquoting, rfl⟩)
        · split at hmem
          · next hhash =>
              rw [Bool.and_eq_true, decide_eq_true_eq] at hhash
              obtain ⟨rfl, hquoting⟩ := hhash
              rcases List.mem_cons.mp hmem with rfl | hmem
              · exact Or.inr ⟨[], pieces, rfl, hquoting, rfl⟩
              · exact Or.inl hmem
          · exact Or.inl hmem
        · refine Or.inr ⟨piece :: front, later, rfl, hquoting, ?_⟩
          rw [List.flatMap_cons, byteLength_append, Nat.add_assoc]
      · rintro (hmem | ⟨front, later, hpieces, hquoting, rfl⟩)
        · left
          split
          · exact List.mem_cons_of_mem offset hmem
          · exact hmem
        · cases front with
          | nil =>
              obtain ⟨rfl, rfl⟩ := List.cons.inj hpieces
              left
              rw [if_pos]
              · exact List.mem_cons_self
              · rw [Bool.and_eq_true, decide_eq_true_eq]
                exact ⟨rfl, hquoting⟩
          | cons other front =>
              obtain ⟨rfl, rfl⟩ := List.cons.inj hpieces
              refine Or.inr ⟨front, later, rfl, hquoting, ?_⟩
              rw [List.flatMap_cons, byteLength_append, Nat.add_assoc]

namespace Lexeme

variable {body : List Char}

theorem hazard?_bracket_eq_none_iff : (quoted .bracket body).hazard? = none ↔
    (∀ c ∈ body, c ≠ '\x27' ∧ c ≠ '\x22' ∧ c ≠ '\x60') ∧ hasPair '-' '-' body = false ∧
      hasPair '/' '*' body = false := by
  simp [hazard?, Quote.opening, and_assoc]

theorem hazard?_block_eq_none_iff {closed : Bool} : (block body closed).hazard? = none ↔
    (['!'].isPrefixOf body = false ∧ ['M', '!'].isPrefixOf body = false) ∧
      hasPair '/' '*' (if closed then body ++ ['*', '/'] else body) = false := by
  rw [hazard?]
  split
  · next hprefix =>
      rw [Bool.or_eq_true] at hprefix
      constructor
      · exact nofun
      · rintro ⟨⟨hfirst, hsecond⟩, -⟩
        rw [hfirst, hsecond] at hprefix
        rcases hprefix with h | h <;> cases h
  · next hprefix =>
      rw [Bool.or_eq_true, not_or, Bool.not_eq_true, Bool.not_eq_true] at hprefix
      rw [and_iff_right hprefix]
      cases hasPair '/' '*' (if closed then body ++ ['*', '/'] else body) with
      | false => exact iff_of_true rfl rfl
      | true => exact iff_of_false nofun nofun

theorem hazard?_line_eq_none_iff : (line body).hazard? = none ↔ ∀ c, body.head? = some c → Unicode.isBlank c = true := by
  rw [hazard?]
  cases body with
  | nil => simp
  | cons c body => simp

end Lexeme

namespace Outline

/-- The hazards of a statement: pieces, dollar tags and number signs. -/
theorem mem_hazards_of_iff {sql : List Char} {place : Nat} {hazard : Hazard} :
    (place, hazard) ∈ (of sql).hazards ↔
      (∃ front piece later, lexemes sql = front ++ piece :: later ∧ piece.hazard? = some hazard ∧
        place = byteLength (front.flatMap Lexeme.text)) ∨
      (hazard = .dollarQuote ∧ place ∈ dollarQuotesOnto [] 0 (of sql).text) ∨
      (hazard = .hashComment ∧ ∃ front later, lexemes sql = front ++ .code '#' :: later ∧
        opensQuoting (('#' :: later.flatMap Lexeme.text).takeWhile (· != '\n')) = true ∧
        place = byteLength (front.flatMap Lexeme.text)) := by
  have hhash : place ∈ hashCommentsOnto [] sql (placedLexemes sql) ↔
      ∃ front later, lexemes sql = front ++ .code '#' :: later ∧
        opensQuoting (('#' :: later.flatMap Lexeme.text).takeWhile (· != '\n')) = true ∧
        place = byteLength (front.flatMap Lexeme.text) := by
    have hplaced := @mem_hashCommentsOnto_iff [] 0 place (lexemes sql)
    rw [flatMap_text_lexemes] at hplaced
    simpa [placedLexemes] using hplaced
  have hpiece : (∃ placed ∈ placedLexemes sql,
        placed.2.hazard?.map (fun hazard => (placed.1, hazard)) = some (place, hazard)) ↔
      ∃ front piece later, lexemes sql = front ++ piece :: later ∧ piece.hazard? = some hazard ∧
        place = byteLength (front.flatMap Lexeme.text) := by
    simp only [Prod.exists, Option.map_eq_some_iff, Prod.mk.injEq, mem_placedLexemes_iff]
    constructor
    · rintro ⟨_, piece, ⟨front, later, hsql, hplace⟩, _, hhazard, rfl, rfl⟩
      exact ⟨front, piece, later, hsql, hhazard, hplace⟩
    · rintro ⟨front, piece, later, hsql, hhazard, hplace⟩
      exact ⟨place, piece, ⟨front, later, hsql, hplace⟩, hazard, hhazard, rfl, rfl⟩
  change (place, hazard) ∈ hazardsOf sql (placedLexemes sql) (of sql).text ↔ _
  rw [hazardsOf, List.mem_mergeSort, List.mem_append, List.mem_append, List.mem_filterMap, ← hpiece, ← hhash]
  simp only [List.mem_map, Prod.mk.injEq, or_assoc]
  constructor
  · rintro (h | ⟨_, h, rfl, rfl⟩ | ⟨_, h, rfl, rfl⟩)
    · exact Or.inl h
    · exact Or.inr (Or.inl ⟨rfl, h⟩)
    · exact Or.inr (Or.inr ⟨rfl, h⟩)
  · rintro (h | ⟨rfl, h⟩ | ⟨rfl, h⟩)
    · exact Or.inl h
    · exact Or.inr (Or.inl ⟨place, h, rfl, rfl⟩)
    · exact Or.inr (Or.inr ⟨place, h, rfl, rfl⟩)

/-- Where a dollar tag begins in the outline one is recorded, there or further to the left. -/
theorem exists_dollarQuote_le {sql front rest : List Char} (htext : (of sql).text = front ++ '$' :: rest)
    (htag : (dollarTag? rest).isSome) :
    ∃ place ≤ byteLength front, (place, Hazard.dollarQuote) ∈ (of sql).hazards := by
  obtain ⟨place, hmem, hle⟩ := @exists_mem_dollarQuotesOnto [] 0 _ _ _ htext htag
  rw [Nat.zero_add] at hle
  exact ⟨place, hle, mem_hazards_of_iff.mpr (Or.inr (Or.inl ⟨rfl, hmem⟩))⟩

/-- A piece in front of all hazards is none. -/
theorem hazard?_eq_none_of_forall {sql : List Char} {place : Nat} {front later : List Lexeme} {piece : Lexeme}
    (hhazards : ∀ hazard ∈ (of sql).hazards, place < hazard.1) (hsql : lexemes sql = front ++ piece :: later)
    (hle : byteLength (front.flatMap Lexeme.text) ≤ place) : piece.hazard? = none := by
  by_contra hsome
  obtain ⟨kind, hkind⟩ := Option.ne_none_iff_exists'.mp hsome
  have hlt := hhazards _ (mem_hazards_of_iff.mpr (Or.inl ⟨front, piece, later, hsql, hkind, rfl⟩))
  exact absurd hlt (Nat.not_lt.mpr hle)

theorem le_of_firstHazard? {sql : List Char} {first : Nat × Hazard} (h : (of sql).firstHazard? = some first)
    {other : Nat × Hazard} (hother : other ∈ (of sql).hazards) : first.1 ≤ other.1 := by
  have hsorted : (of sql).hazards.Pairwise fun left right => decide (left.1 ≤ right.1) = true :=
    List.pairwise_mergeSort (by simp only [decide_eq_true_eq]; exact fun _ _ _ => Nat.le_trans)
      (by simp only [Bool.or_eq_true, decide_eq_true_eq]; exact fun a b => Nat.le_total a.1 b.1) _
  cases hlist : (of sql).hazards with
  | nil => rw [hlist] at hother; cases hother
  | cons head rest =>
      rw [firstHazard?, hlist] at h
      obtain rfl := Option.some.inj h
      rw [hlist] at hsorted hother
      rcases List.mem_cons.mp hother with rfl | hmem
      · exact Nat.le_refl _
      · simpa using List.rel_of_pairwise_cons hsorted hmem

end Outline

/-- The place up to which the comments of a statement are left out of its normal form. -/
def trustedUntil (sql : List Char) : Nat :=
  match (Outline.of sql).firstHazard? with
  | some (offset, _) => offset
  | none => byteLength sql

theorem lt_trustedUntil_iff {sql : List Char} {offset : Nat} (hsql : offset < byteLength sql) :
    offset < trustedUntil sql ↔ ∀ hazard ∈ (Outline.of sql).hazards, offset < hazard.1 := by
  rw [trustedUntil]
  split
  · next first kind hfirst =>
      constructor
      · exact fun h hazard hmem => h.trans_le (Outline.le_of_firstHazard? hfirst hmem)
      · exact fun h => h (first, kind) (List.mem_of_head? hfirst)
  · next hnone =>
      rw [Outline.firstHazard?, List.head?_eq_none_iff] at hnone
      simp [hnone, hsql]

theorem hazard?_eq_none_of_lt {sql : List Char} {front later : List Lexeme} {piece : Lexeme}
    (hsql : lexemes sql = front ++ piece :: later)
    (hlt : byteLength (front.flatMap Lexeme.text) < trustedUntil sql) : piece.hazard? = none := by
  have hsize : byteLength (front.flatMap Lexeme.text) < byteLength sql := by
    have hpos := byteLength_pos piece.text_ne_nil
    rw [Lexeme.eq_text_append hsql, List.flatMap_cons, byteLength_append, byteLength_append]
    omega
  exact Outline.hazard?_eq_none_of_forall ((lt_trustedUntil_iff hsize).mp hlt) hsql (Nat.le_refl _)

/-- The comments that stand as a space in the normal form, with their places. -/
def strippedComments (sql : List Char) : List (Nat × Lexeme) :=
  (placedLexemes sql).filter fun (offset, lexeme) => lexeme.isComment && offset < trustedUntil sql

/-- Stripping puts a space for these comments and keeps every other piece. -/
theorem stripComments_eq (sql : List Char) :
    stripComments sql = (placedLexemes sql).flatMap fun placed =>
      if placed ∈ strippedComments sql then [' '] else placed.2.text := by
  have hmem : ∀ placed ∈ placedLexemes sql, placed ∈ strippedComments sql ↔
      (placed.2.isComment && decide (placed.1 < trustedUntil sql)) = true := by
    intro placed hplaced
    rw [strippedComments, List.mem_filter]
    exact and_iff_right hplaced
  rw [stripComments, List.flatMap_def, List.flatMap_def]
  refine congrArg List.flatten (List.map_congr_left fun placed hplaced => ?_)
  rw [if_congr (hmem placed hplaced) rfl rfl]
  rfl

/-- A comment is left out exactly when all hazards come later than where it starts. -/
theorem mem_strippedComments_iff {sql : List Char} {place : Nat} {piece : Lexeme} :
    (place, piece) ∈ strippedComments sql ↔
      ∃ front later, lexemes sql = front ++ piece :: later ∧
        place = byteLength (front.flatMap Lexeme.text) ∧ piece.isComment = true ∧
        ∀ hazard ∈ (Outline.of sql).hazards, place < hazard.1 := by
  rw [strippedComments, List.mem_filter, mem_placedLexemes_iff, Bool.and_eq_true, decide_eq_true_eq]
  constructor
  · rintro ⟨⟨front, later, hsql, rfl⟩, hcomment, htrusted⟩
    refine ⟨front, later, hsql, rfl, hcomment, (lt_trustedUntil_iff ?_).mp htrusted⟩
    have hpos := byteLength_pos piece.text_ne_nil
    rw [Lexeme.eq_text_append hsql, List.flatMap_cons, byteLength_append, byteLength_append]
    omega
  · rintro ⟨front, later, hsql, rfl, hcomment, hhazards⟩
    refine ⟨⟨front, later, hsql, rfl⟩, hcomment, (lt_trustedUntil_iff ?_).mpr hhazards⟩
    have hpos := byteLength_pos piece.text_ne_nil
    rw [Lexeme.eq_text_append hsql, List.flatMap_cons, byteLength_append, byteLength_append]
    omega

end SqlGate
