import SqlGate.Proofs.Gaps
import SqlGate.Proofs.SameShape

/-! Corresponding places of two statements of one shape. The simple readers read alike from them, so all the
clauses do, and what is found first in the one outline is found first in the other, at the corresponding place. -/

namespace SqlGate

open Unicode Lexeme

/-- A cut between two pieces of the one statement, and the cut between the corresponding pieces of the other. -/
inductive SameCut (pieces others : List Lexeme) : List Char → List Char → List Char → List Char → Prop where
  | edge {left right before after : List Lexeme} (hpieces : pieces = left ++ right) (hothers : others = before ++ after)
      (hleft : SameShape left before) (hright : SameShape right after) :
      SameCut pieces others (left.flatMap blanked) (right.flatMap blanked) (before.flatMap blanked)
        (after.flatMap blanked)

inductive SamePlace (pieces others : List Lexeme) : Cursor → Cursor → Prop where
  | between {front rest other later : List Char} (h : SameCut pieces others front rest other later) :
      SamePlace pieces others (.between front rest) (.between other later)

/-- The same digits between corresponding pieces. -/
inductive SameCount (pieces others : List Lexeme) : WrittenCount → WrittenCount → Prop where
  | digits {left right before after : List Lexeme} {digits : List Char}
      (hpieces : pieces = left ++ (digits.map code ++ right)) (hothers : others = before ++ (digits.map code ++ after))
      (hleft : SameShape left before) (hright : SameShape right after) :
      SameCount pieces others (.after (left.flatMap blanked) digits) (.after (before.flatMap blanked) digits)

variable {pieces others : List Lexeme} {front rest other later word tail : List Char} {c again : Cursor}

namespace SameCut

theorem symm (h : SameCut pieces others front rest other later) : SameCut others pieces other later front rest := by
  cases h with
  | edge hpieces hothers hleft hright => exact .edge hothers hpieces hleft.symm hright.symm

theorem start (h : SameShape pieces others) :
    SameCut pieces others [] (pieces.flatMap blanked) [] (others.flatMap blanked) :=
  @edge pieces others [] pieces [] others rfl rfl .nil h

theorem sameShape (h : SameCut pieces others front rest other later) : SameShape pieces others := by
  cases h with
  | edge hpieces hothers hleft hright =>
      rw [hpieces, hothers]
      exact hleft.append hright

theorem head?_eq (h : SameCut pieces others front rest other later) : rest.head? = later.head? := by
  cases h with
  | edge _ _ _ hright => exact hright.head?_eq

theorem getLast?_eq (h : SameCut pieces others front rest other later) : front.getLast? = other.getLast? := by
  cases h with
  | edge _ _ hleft _ => exact hleft.getLast?_eq

theorem openAfter_eq (h : SameCut pieces others front rest other later) : openAfter 0 front = openAfter 0 other := by
  cases h with
  | edge _ _ hleft _ => exact hleft.openAfter_eq 0

/-- Behind code that the one text goes on with, the other one having it too. -/
theorem exists_code (h : SameCut pieces others front (word ++ tail) other later)
    (hword : ∀ c ∈ word, ShowsCode c) :
    ∃ final, later = word ++ final ∧ SameCut pieces others (front ++ word) tail (other ++ word) final ∧
      SameCount pieces others (.after front word) (.after other word) := by
  generalize htext : word ++ tail = rest at h
  cases h with
  | @edge left right before after hpieces hothers hleft hright =>
      obtain ⟨right, after, rfl, rfl, hlater, rfl⟩ := hright.exists_code hword htext.symm
      refine ⟨after.flatMap blanked, ?_, ?_, .digits hpieces hothers hleft hlater⟩
      · rw [List.flatMap_append, flatMap_blanked_code]
      · have hcut := @edge pieces others (left ++ word.map code) right (before ++ word.map code) after
          (hpieces.trans (List.append_assoc ..).symm) (hothers.trans (List.append_assoc ..).symm)
          (hleft.append (.refl _)) hlater
        rwa [List.flatMap_append, List.flatMap_append, flatMap_blanked_code] at hcut

/-- Behind the blanks that the two texts go on with. -/
theorem exists_blanks (h : SameCut pieces others front rest other later) :
    ∃ gap tail space final, rest = gap ++ tail ∧ later = space ++ final ∧ (∀ c ∈ gap, isBlank c = true) ∧
      (∀ c ∈ space, isBlank c = true) ∧ (∀ c, tail.head? = some c → isBlank c = false) ∧
      SameCut pieces others (front ++ gap) tail (other ++ space) final := by
  cases h with
  | @edge left right before after hpieces hothers hleft hright =>
      obtain ⟨gap, right, space, after, rfl, rfl, hblanks, hlater, hgap, hspace, hstop⟩ := hright.exists_blanks
      refine ⟨gap.flatMap blanked, right.flatMap blanked, space.flatMap blanked, after.flatMap blanked,
        List.flatMap_append, List.flatMap_append, hgap, hspace, hstop, ?_⟩
      have hcut := @edge pieces others (left ++ gap) right (before ++ space) after
        (hpieces.trans (List.append_assoc ..).symm) (hothers.trans (List.append_assoc ..).symm)
        (hleft.append hblanks) hlater
      rwa [List.flatMap_append, List.flatMap_append] at hcut

/-- Of two cuts the same one comes first in both statements. -/
theorem compare {early late earlier final : List Char} (hearly : SameCut pieces others early late earlier final)
    (h : SameCut pieces others front rest other later) :
    ∃ gap space : List Char, (gap = [] ↔ space = []) ∧
      ((front = early ++ gap ∧ other = earlier ++ space) ∨ (early = front ++ gap ∧ earlier = other ++ space)) := by
  cases hearly with
  | @edge leftEarly rightEarly beforeEarly afterEarly hpieces hothers hleftEarly hrightEarly =>
      cases h with
      | @edge left right before after hpieces' hothers' hleft hright =>
          rcases List.append_eq_append_iff.mp (hpieces.symm.trans hpieces') with ⟨gap, rfl, -⟩ | ⟨gap, rfl, -⟩
          · obtain ⟨space, rfl, hgap⟩ := hleftEarly.exists_space hleft (hothers.symm.trans hothers')
            exact ⟨_, _, hgap.flatMap_eq_nil_iff, Or.inl ⟨List.flatMap_append, List.flatMap_append⟩⟩
          · obtain ⟨space, rfl, hgap⟩ := hleft.exists_space hleftEarly (hothers'.symm.trans hothers)
            exact ⟨_, _, hgap.flatMap_eq_nil_iff, Or.inr ⟨List.flatMap_append, List.flatMap_append⟩⟩

end SameCut

theorem SamePlace.sameShape (h : SamePlace pieces others c again) : SameShape pieces others := by
  cases h with
  | between hcut => exact hcut.sameShape

namespace SameCut

/-- The cut of the other statement that corresponds to a cut outside all parentheses is outside them too. -/
theorem topCut {sql next : List Char} {start place : Cursor}
    (hstart : SamePlace (lexemes sql) (lexemes next) start place)
    (h : SameCut (lexemes sql) (lexemes next) front rest other later)
    (hcut : TopCut (Outline.of sql).text start.offset front rest) :
    TopCut (Outline.of next).text place.offset other later := by
  refine ⟨?_, ?_, ?_⟩
  · cases h with
    | edge _ hothers _ _ => rw [Outline.text_of, hothers, List.flatMap_append]
  · cases hstart with
    | @between early late earlier final hearly =>
        have hle : byteLength early ≤ byteLength front := hcut.start_le
        change byteLength earlier ≤ byteLength other
        obtain ⟨gap, space, hnil, ⟨rfl, rfl⟩ | ⟨rfl, rfl⟩⟩ := hearly.compare h
        · rw [byteLength_append]
          exact Nat.le_add_right _ _
        · have hgap : gap = [] := by
            by_contra hne
            have hpos := byteLength_pos hne
            rw [byteLength_append] at hle
            omega
          rw [hnil.mp hgap, List.append_nil]
  · rw [← hcut.depth_eq_zero]
    exact depthBetween_congr h.openAfter_eq.symm h.head?_eq.symm

theorem exists_topCut {sql next : List Char} {start place : Cursor}
    (hstart : SamePlace (lexemes sql) (lexemes next) start place)
    (hcut : TopCut (Outline.of sql).text start.offset front rest) (hword : ∃ c, rest.head? = some c ∧ isWord c = true) :
    ∃ other later, SameCut (lexemes sql) (lexemes next) front rest other later ∧
      TopCut (Outline.of next).text place.offset other later := by
  have hsame := hstart.sameShape
  have htext := hcut.eq_append
  rw [Outline.text_of] at htext
  obtain ⟨left, right, hpieces, rfl, rfl⟩ := exists_edge_of_isWord htext (Or.inr hword)
  rw [hpieces] at hsame
  obtain ⟨before, after, hothers, hleft, hright⟩ := hsame.exists_cut
  have hedge := SameCut.edge hpieces hothers hleft hright
  exact ⟨_, _, hedge, hedge.topCut hstart hcut⟩

end SameCut

namespace SamePlace

theorem symm (h : SamePlace pieces others c again) : SamePlace others pieces again c := by
  cases h with
  | between hcut => exact .between hcut.symm

theorem opensWord (h : SamePlace pieces others c again) : c.opensWord = again.opensWord := by
  cases h with
  | between hcut =>
      rw [Cursor.opensWord, Cursor.opensWord, Cursor.between, Cursor.between, hcut.getLast?_eq]

theorem closesWord (h : SamePlace pieces others c again) : c.closesWord = again.closesWord := by
  cases h with
  | between hcut =>
      rw [Cursor.closesWord, Cursor.closesWord, Cursor.between, Cursor.between, hcut.head?_eq]

theorem blanks (h : SamePlace pieces others c again) : SamePlace pieces others c.blanks again.blanks := by
  cases h with
  | between hcut =>
      obtain ⟨gap, tail, space, final, rfl, rfl, hgap, hspace, hstop, hlater⟩ := hcut.exists_blanks
      have hstopLater : ∀ c, final.head? = some c → isBlank c = false := hlater.head?_eq ▸ hstop
      rw [Cursor.blanks, Cursor.blanks, Cursor.skipWhile_of_stop hgap hstop,
        Cursor.skipWhile_of_stop hspace hstopLater]
      exact .between hlater

theorem blanks? (h : SamePlace pieces others c again) :
    Option.Rel (SamePlace pieces others) c.blanks? again.blanks? := by
  have hhead : c.rest.head? = again.rest.head? := by
    cases h with
    | between hcut => exact hcut.head?_eq
  rw [Cursor.blanks?, Cursor.blanks?, hhead]
  split
  · exact .some h.blanks
  · exact .none

/-- Both places read alike if what is read at the first one is always read at the second one. -/
theorem rel_of_carry {α : Type} {read : Cursor → Option α}
    {R : List Lexeme → List Lexeme → Cursor → Cursor → α → α → Prop}
    (hcarry : ∀ {pieces others : List Lexeme} {c again : Cursor}, SamePlace pieces others c again →
      ∀ x, read c = some x → ∃ y, read again = some y ∧ R pieces others c again x y)
    (h : SamePlace pieces others c again) : Option.Rel (R pieces others c again) (read c) (read again) := by
  refine rel_of_forall (hcarry h) fun y hy => ?_
  obtain ⟨x, hx, -⟩ := hcarry h.symm y hy
  rw [hx]
  rfl

/-- A reader of a word of code reads alike. -/
theorem rel_of_code {read : Cursor → Option Cursor} {condition : List Char → Prop}
    (hread : ∀ {front rest after}, read (.between front rest) = some after ↔
      ∃ word tail, rest = word ++ tail ∧ condition word ∧ after = .between (front ++ word) tail)
    (hcode : ∀ word, condition word → ∀ c ∈ word, ShowsCode c) (h : SamePlace pieces others c again) :
    Option.Rel (SamePlace pieces others) (read c) (read again) := by
  refine rel_of_carry (R := fun pieces others _ _ => SamePlace pieces others) ?_ h
  intro pieces others c again h x hx
  cases h with
  | between hcut =>
      obtain ⟨word, tail, rfl, hword, rfl⟩ := hread.mp hx
      obtain ⟨final, rfl, hlater, -⟩ := hcut.exists_code (hcode word hword)
      exact ⟨_, hread.mpr ⟨word, final, rfl, hword, rfl⟩, .between hlater⟩

theorem letters? {keyword : List Char} (hkey : isKeyword keyword = true) (h : SamePlace pieces others c again) :
    Option.Rel (SamePlace pieces others) (c.letters? keyword) (again.letters? keyword) :=
  h.rel_of_code Cursor.letters?_eq_some_iff fun _ hword c hc =>
    showsCode_of_isWord (hword.isWord_of_mem hkey c hc)

theorem char? {x : Char} (hx : ShowsCode x) (h : SamePlace pieces others c again) :
    Option.Rel (SamePlace pieces others) (c.char? x) (again.char? x) := by
  have hread : ∀ {front rest after}, (Cursor.between front rest).char? x = some after ↔
      ∃ word tail, rest = word ++ tail ∧ word = [x] ∧ after = .between (front ++ word) tail := by
    intro front rest after
    rw [Cursor.char?_eq_some_iff]
    constructor
    · rintro ⟨tail, rfl, rfl⟩
      exact ⟨[x], tail, rfl, rfl, rfl⟩
    · rintro ⟨word, tail, rfl, rfl, rfl⟩
      exact ⟨tail, rfl, rfl⟩
  refine h.rel_of_code hread fun word hword c hc => ?_
  rw [hword, List.mem_singleton] at hc
  rwa [hc]

/-- The same digits read at corresponding places, with the places behind them. -/
def AlikeDigits (pieces others : List Lexeme) (c again : Cursor) (read reread : List Char × Cursor) : Prop :=
  SamePlace pieces others read.2 reread.2 ∧
    SameCount pieces others (.ofDigits read.1 c read.2) (.ofDigits reread.1 again reread.2)

theorem digits? (h : SamePlace pieces others c again) :
    Option.Rel (AlikeDigits pieces others c again) c.digits? again.digits? := by
  refine rel_of_carry (R := AlikeDigits) ?_ h
  rintro pieces others c again h ⟨digits, after⟩ hdigits
  cases h with
  | between hcut =>
      obtain ⟨tail, rfl, hne, hdigit, hstop, rfl⟩ := Cursor.digits?_eq_some_iff.mp hdigits
      obtain ⟨final, rfl, hlater, hcount⟩ := hcut.exists_code fun c hc =>
        showsCode_of_isWord (isWord_of_isDigit (hdigit c hc))
      have hstopLater : ∀ c, final.head? = some c → isDigit c = false := hlater.head?_eq ▸ hstop
      exact ⟨_, Cursor.digits?_eq_some_iff.mpr ⟨final, rfl, hne, hdigit, hstopLater, rfl⟩, .between hlater, hcount⟩

/-- The simple readers read alike from corresponding places. -/
theorem readAlike (pieces others : List Lexeme) : ReadAlike (SamePlace pieces others) (SameCount pieces others) where
  opensWord := opensWord
  closesWord := closesWord
  blanks := blanks
  blanks? := blanks?
  char? hx _ _ hc := by
    refine hc.char? ⟨?_, fun quote => ?_⟩
    · rcases hx with rfl | rfl | rfl <;> decide
    · rcases hx with rfl | rfl | rfl <;> cases quote <;> decide
  letters? hkey _ _ := letters? hkey
  digits? := digits?

end SamePlace

/-- A reader of something that begins with a word character. -/
def BeginsWord {α : Type} (read : Cursor → Option α) : Prop :=
  ∀ front rest found, read (.between front rest) = some found → ∃ c, rest.head? = some c ∧ isWord c = true

namespace BeginsWord

variable {α : Type} {read : Cursor → Option α}

theorem of_wordAt (h : ∀ front rest found, read (.between front rest) = some found →
    ∃ word after, WordAt (front ++ rest) front word after) : BeginsWord read := by
  intro front rest found hfound
  obtain ⟨word, after, hat⟩ := h front rest found hfound
  exact hat.head_eq rfl

theorem of_word? {keyword : List Char} (hkey : isKeyword keyword = true)
    (h : ∀ c found, read c = some found → (c.word? keyword).isSome) : BeginsWord read := by
  refine of_wordAt fun front rest found hfound => ?_
  obtain ⟨after, hafter⟩ := Option.isSome_iff_exists.mp (h _ found hfound)
  obtain ⟨word, tail, hat, -⟩ := (Cursor.word?_eq_some_iff hkey).mp hafter
  exact ⟨word, tail, hat⟩

theorem bind_word? {keyword : List Char} (hkey : isKeyword keyword = true) (next : Cursor → Cursor → Option α) :
    BeginsWord fun c => (c.word? keyword).bind (next c) :=
  of_word? hkey fun _ _ h => Option.isSome_of_isSome_bind (Option.isSome_of_mem h)

theorem anyWord? {keywords : List (List Char)} (hkeys : ∀ keyword ∈ keywords, isKeyword keyword = true) :
    BeginsWord (·.anyWord? keywords) := by
  refine of_wordAt fun front rest found hfound => ?_
  obtain ⟨keyword, hmem, hread⟩ := (Cursor.anyWord?_eq_some_iff hkeys).mp hfound
  obtain ⟨word, tail, hat, -⟩ := (Cursor.word?_eq_some_iff (hkeys keyword hmem)).mp hread
  exact ⟨word, tail, hat⟩

theorem fetchCount? : BeginsWord Cursor.fetchCount? :=
  bind_word? (by decide) _

theorem offsetRows? : BeginsWord Cursor.offsetRows? :=
  bind_word? (by decide) _

theorem bareOffset? : BeginsWord Cursor.bareOffset? :=
  bind_word? (by decide) _

theorem limitCount? : BeginsWord Cursor.limitCount? :=
  bind_word? (by decide) _

theorem orderBy? : BeginsWord Cursor.orderBy? :=
  bind_word? (by decide) _

theorem trailingClause? : BeginsWord Cursor.trailingClause? := by
  refine of_wordAt fun front rest found hfound => ?_
  obtain ⟨-, hphrase⟩ := Cursor.exists_wordAt_of_trailingClause hfound
  obtain ⟨word, tail, hat, -⟩ := hphrase.exists_wordAt
  exact ⟨word, tail, hat⟩

end BeginsWord

namespace SamePlace

variable {sql next : List Char} {start place : Cursor}

/-- What is found first in the one statement is found first in the other, at the corresponding place. -/
theorem findTopLevel? {α : Type} {R : α → α → Prop} {read : Cursor → Option α}
    (hstart : SamePlace (lexemes sql) (lexemes next) start place) (hword : BeginsWord read)
    (hread : ∀ {c again}, SamePlace (lexemes sql) (lexemes next) c again → Option.Rel R (read c) (read again)) :
    Option.Rel R ((Outline.of sql).findTopLevel? start.offset read)
      ((Outline.of next).findTopLevel? place.offset read) := by
  apply Outline.rel_findTopLevel? (SameCut (lexemes sql) (lexemes next))
  · intro front rest found hcut hfound
    exact SameCut.exists_topCut hstart hcut (hword _ _ _ hfound)
  · intro other later found hcut hfound
    obtain ⟨front, rest, hsame, hfront⟩ := SameCut.exists_topCut hstart.symm hcut (hword _ _ _ hfound)
    exact ⟨front, rest, hsame.symm, hfront⟩
  · exact fun _ _ _ _ hcut => hread (.between hcut)
  · intro early late front rest earlier final other later hearly hcut hlt
    obtain ⟨gap, space, hnil, ⟨rfl, rfl⟩ | ⟨rfl, rfl⟩⟩ := hearly.compare hcut
    · rw [List.length_append] at hlt ⊢
      have hspace : space ≠ [] := by
        rintro rfl
        simp at hlt
      have hpos := List.length_pos_iff.mpr (mt hnil.mp hspace)
      omega
    · rw [List.length_append] at hlt
      omega

end SamePlace

namespace SameShape

variable {sql next : List Char}

/-- The main queries begin at corresponding places. -/
theorem mainSelect? (h : SameShape (lexemes sql) (lexemes next)) :
    Option.Rel (SamePlace (lexemes sql) (lexemes next)) (Outline.of sql).mainSelect? (Outline.of next).mainSelect? := by
  have hkey : isKeyword "SELECT".toList = true := by decide
  apply SamePlace.findTopLevel? (.between (.start h))
  · refine BeginsWord.of_word? hkey fun c found hfound => ?_
    obtain ⟨after, hword, -⟩ := Option.map_eq_some_iff.mp hfound
    exact Option.isSome_of_mem hword
  · intro c again hc
    exact rel_map ((SamePlace.readAlike _ _).word? hkey hc) fun _ _ _ => hc

theorem isBlank_eq (h : SameShape (lexemes sql) (lexemes next)) :
    (Outline.of sql).isBlank = (Outline.of next).isBlank := by
  rw [Outline.isBlank, Outline.isBlank, Outline.text_of, Outline.text_of, h.all_isBlank_eq]

theorem exists_trimEnd (h : SameShape pieces others) :
    ∃ left right before after, pieces = left ++ right ∧ others = before ++ after ∧ SameShape left before ∧
      SameShape right after ∧ trimEnd (pieces.flatMap blanked) = left.flatMap blanked ∧
      trimEnd (others.flatMap blanked) = before.flatMap blanked := by
  obtain ⟨left, right, before, after, rfl, rfl, hleft, hright, hblank, hblankAfter, hstop⟩ := h.exists_blankEnd
  have hstopBefore : ∀ c, (before.flatMap blanked).getLast? = some c → isBlank c = false := hleft.getLast?_eq ▸ hstop
  refine ⟨left, right, before, after, rfl, rfl, hleft, hright, ?_, ?_⟩
  · rw [List.flatMap_append, trimEnd_append hblank hstop]
  · rw [List.flatMap_append, trimEnd_append hblankAfter hstopBefore]

/-- A semicolon that ends what is shown is the last piece. -/
theorem exists_semicolon (h : SameShape pieces others) (hlast : (pieces.flatMap blanked).getLast? = some ';') :
    ∃ left before, pieces = left ++ [code ';'] ∧ others = before ++ [code ';'] ∧ SameShape left before := by
  rcases List.eq_nil_or_concat pieces with rfl | ⟨left, piece, rfl⟩
  · cases hlast
  · rw [List.concat_eq_append, List.flatMap_append, List.flatMap_singleton,
      List.getLast?_append_of_ne_nil _ (blanked_ne_nil piece)] at hlast
    have hcomment : ∀ count, (List.replicate (count + 1) ' ').getLast? ≠ some ';' := by
      intro count
      rw [List.replicate_succ', List.getLast?_concat]
      decide
    have hpiece : piece = code ';' := by
      cases piece with
      | code c =>
          obtain rfl : c = ';' := Option.some.inj hlast
          rfl
      | quoted quote body =>
          rw [blanked, List.getLast?_cons, List.getLast?_concat] at hlast
          cases quote <;> exact absurd (Option.some.inj hlast) (by decide)
      | block body closed =>
          obtain ⟨count, hcount⟩ := exists_blanked_of_isComment (show (block body closed).isComment = true from rfl)
          exact absurd (hcount ▸ hlast) (hcomment count)
      | line body =>
          obtain ⟨count, hcount⟩ := exists_blanked_of_isComment (show (line body).isComment = true from rfl)
          exact absurd (hcount ▸ hlast) (hcomment count)
    subst hpiece
    rw [List.concat_eq_append] at h
    obtain ⟨before, after, rfl, hleft, hsemicolon⟩ := h.exists_cut
    cases hsemicolon with
    | cons hcode hnil =>
        cases hnil
        obtain rfl := eq_code_of_hollow hcode
        exact ⟨left, before, List.concat_eq_append, rfl, hleft⟩

/-- The code ends at corresponding places. -/
theorem exists_endOfCode (h : SameShape (lexemes sql) (lexemes next)) :
    ∃ front rest other later, SameCut (lexemes sql) (lexemes next) front rest other later ∧
      (Outline.of sql).endOfCode = byteLength front ∧ (Outline.of next).endOfCode = byteLength other := by
  obtain ⟨left, right, before, after, hpieces, hothers, hleft, hright, hbody, hbodyNext⟩ := h.exists_trimEnd
  rw [Outline.endOfCode, Outline.endOfCode, Outline.text_of, Outline.text_of, hbody, hbodyNext, ← hleft.getLast?_eq]
  by_cases hsemicolon : (left.flatMap blanked).getLast? = some ';'
  · obtain ⟨left, before, rfl, rfl, hbefore⟩ := hleft.exists_semicolon hsemicolon
    obtain ⟨left, gap, before, space, rfl, rfl, hcode, hgap, htrim, htrimNext⟩ := hbefore.exists_trimEnd
    have hdrop : ∀ pieces : List Lexeme,
        ((pieces ++ [code ';']).flatMap blanked).dropLast = pieces.flatMap blanked := by
      intro pieces
      rw [List.flatMap_append, List.flatMap_singleton, blanked, List.dropLast_concat]
    have hcut := @SameCut.edge (lexemes sql) (lexemes next) left (gap ++ ([code ';'] ++ right)) before
      (space ++ ([code ';'] ++ after)) (by simpa using hpieces) (by simpa using hothers) hcode
      (hgap.append ((refl _).append hright))
    refine ⟨_, _, _, _, hcut, ?_, ?_⟩
    · rw [if_pos hsemicolon, hdrop, htrim]
    · rw [if_pos hsemicolon, hdrop, htrimNext]
  · refine ⟨_, _, _, _, .edge hpieces hothers hleft hright, ?_, ?_⟩
    · rw [if_neg hsemicolon]
    · rw [if_neg hsemicolon]

end SameShape

end SqlGate
