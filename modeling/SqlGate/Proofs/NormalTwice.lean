import SqlGate.Proofs.Shown
import SqlGate.Proofs.Tidied

/-! The normal form of a normal form is itself. Up to the first hazard the pieces of a statement come out again, with a
space or nothing for each comment, and the hazard comes out as a hazard: so the comments that were kept on account of
it are kept again, and nothing in front of it has become a comment. -/

namespace SqlGate

open Unicode

/-- A text and an image of it: signs may be missing there, but none comes up, and none gets to the beginning. -/
structure Fainter (text image : List Char) : Prop where
  count_le : ∀ sign, isSign sign = true → image.count sign ≤ text.count sign
  head_eq : ∀ sign, isSign sign = true → image.head? = some sign → text.head? = some sign

namespace Quote

theorem isSign_opening (quote : Quote) : isSign quote.opening = true := by
  cases quote <;> decide

theorem isSign_closing (quote : Quote) : isSign quote.closing = true := by
  cases quote <;> decide

end Quote

namespace Lexeme

theorem isPlain_of_isSign_eq_false {c : Char} (h : isSign c = false) : isPlain c = true := by
  have hne : ∀ sign, isSign sign = true → c ≠ sign := by
    rintro sign hsign rfl
    rw [h] at hsign
    cases hsign
  have hquote : Quote.ofOpening? c = none := by
    rw [Option.eq_none_iff_forall_ne_some]
    intro quote hquote
    exact hne quote.opening quote.isSign_opening (Quote.opening_of_ofOpening? hquote).symm
  rw [isPlain, hquote, bne_iff_ne.mpr (hne '/' (by decide)), bne_iff_ne.mpr (hne '-' (by decide))]
  rfl

theorem doubled_of_notMem {close : Char} {text : List Char} (h : close ∉ text) : Doubled close text := by
  induction text with
  | nil => exact .nil
  | cons c text ih =>
      rw [List.mem_cons, not_or] at h
      exact .other (Ne.symm h.1) (ih h.2)

/-- A delimiter that is written twice still is: it is no letter, and nothing comes between the two. -/
theorem Doubled.tidied {close : Char} {body : List Char} (h : Doubled close body) (hclose : isSign close = true) :
    Doubled close (tidied true body) := by
  induction h with
  | nil => exact .nil
  | @other c text hc h ih =>
      rw [← List.singleton_append, tidied_append]
      refine (doubled_of_notMem fun hmem => ?_).append ih
      rw [mem_tidied_iff hclose, List.mem_singleton] at hmem
      exact hc hmem.symm
  | pair h ih =>
      rw [tidied_of_isSign hclose, tidied_of_isSign hclose]
      exact .pair ih

end Lexeme

namespace Fainter

variable {text image later : List Char}

theorem trans (h : Fainter text image) (hlater : Fainter image later) : Fainter text later where
  count_le sign hsign := (hlater.count_le sign hsign).trans (h.count_le sign hsign)
  head_eq sign hsign hhead := h.head_eq sign hsign (hlater.head_eq sign hsign hhead)

theorem of_tidied (more : Bool) (text : List Char) : Fainter text (tidied more text) where
  count_le _ hsign := (count_tidied hsign).le
  head_eq _ hsign := head_eq_of_tidied hsign

theorem append {left other : List Char} (hleft : Fainter left other) (hne : left ≠ []) (hother : other ≠ [])
    (h : Fainter text image) : Fainter (left ++ text) (other ++ image) where
  count_le sign hsign := by
    rw [List.count_append, List.count_append]
    exact Nat.add_le_add (hleft.count_le sign hsign) (h.count_le sign hsign)
  head_eq sign hsign := by
    rw [List.head?_append_of_ne_nil _ hne, List.head?_append_of_ne_nil _ hother]
    exact hleft.head_eq sign hsign

/-- A space for a comment has no sign. -/
theorem of_spaced (piece : Lexeme) : Fainter piece.text piece.spaced := by
  rw [Lexeme.spaced]
  split
  · have hspace : ∀ {sign}, isSign sign = true → sign ∉ [' '] := by
      intro sign hsign hmem
      rw [List.mem_singleton.mp hmem] at hsign
      cases hsign
    refine ⟨fun sign hsign => ?_, fun sign hsign hhead => absurd (List.mem_of_head? hhead) (hspace hsign)⟩
    rw [List.count_eq_zero.mpr (hspace hsign)]
    exact Nat.zero_le _
  · exact ⟨fun _ _ => le_rfl, fun _ _ => id⟩

theorem flatMap_spaced (pieces : List Lexeme) (rest : List Char) :
    Fainter (pieces.flatMap Lexeme.text ++ rest) (pieces.flatMap Lexeme.spaced ++ rest) := by
  induction pieces with
  | nil => exact ⟨fun _ _ => le_rfl, fun _ _ => id⟩
  | cons piece pieces ih =>
      have hne : piece.spaced ≠ [] := by
        rw [Lexeme.spaced]
        split
        · exact List.cons_ne_nil _ _
        · exact piece.text_ne_nil
      rw [List.flatMap_cons, List.flatMap_cons, List.append_assoc, List.append_assoc]
      exact (of_spaced piece).append piece.text_ne_nil hne ih

theorem notMem (h : Fainter text image) {sign : Char} (hsign : isSign sign = true) (hnot : sign ∉ text) :
    sign ∉ image := by
  have hle := h.count_le sign hsign
  rw [List.count_eq_zero.mpr hnot] at hle
  exact List.count_eq_zero.mp (Nat.le_zero.mp hle)

theorem not_opensComment (h : Fainter text image) {c : Char} (hnot : ¬Lexeme.OpensComment c text) :
    ¬Lexeme.OpensComment c image := by
  rintro (⟨rfl, hhead⟩ | ⟨rfl, hhead⟩)
  · exact hnot (Or.inl ⟨rfl, h.head_eq '*' (by decide) hhead⟩)
  · exact hnot (Or.inr ⟨rfl, h.head_eq '-' (by decide) hhead⟩)

/-- A quoted span ends in front of the image too, with any body that pairs its delimiters. -/
theorem closes (h : Fainter text image) {close : Char} {body other : List Char} (hclose : isSign close = true)
    (hcloses : Lexeme.Closes close body text) (hother : Lexeme.Doubled close other) :
    Lexeme.Closes close other image := by
  obtain ⟨-, hrest⟩ := hcloses
  refine ⟨hother, ?_⟩
  by_cases hhead : image.head? = some close
  · rcases hrest with hne | ⟨after, rfl, hafter⟩
    · exact absurd (h.head_eq close hclose hhead) hne
    · obtain ⟨tail, rfl⟩ := List.head?_eq_some_iff.mp hhead
      have hle := h.count_le close hclose
      rw [List.count_cons_self, List.count_cons_self, List.count_eq_zero.mpr hafter] at hle
      exact Or.inr ⟨tail, rfl, List.count_eq_zero.mp (by omega)⟩
  · exact Or.inl hhead

end Fainter

namespace Lexeme

variable {text rest image : List Char} {piece : Lexeme} {pieces more : List Lexeme}

/-- What is no sign is read as code, and so is its capital form. -/
theorem exists_lexemes_of_not_isSign {c : Char} (hc : isSign c = false) (solid : Bool) (image : List Char) :
    ∃ others, (∀ other ∈ others, other.isComment = false) ∧
      lexemes (tidied solid [c] ++ image) = others ++ lexemes image := by
  have hplain : ∀ d ∈ tidied solid [c], isPlain d = true := by
    intro d hd
    refine isPlain_of_isSign_eq_false ?_
    by_contra hsign
    rw [mem_tidied_iff (Bool.of_not_eq_false hsign), List.mem_singleton] at hd
    rw [hd] at hsign
    exact hsign hc
  refine ⟨_, fun other hother => ?_, lexemes_plain_append hplain image⟩
  obtain ⟨d, -, rfl⟩ := List.mem_map.mp hother
  rfl

/-- A piece comes out as pieces of the image, a comment as blanks. -/
theorem Reads.exists_lexemes (h : Reads text piece rest) (himage : Fainter rest image) (solid : Bool) :
    ∃ others, (∀ other ∈ others, other.isComment = false) ∧
      lexemes (tidied solid piece.spaced ++ image) = others ++ lexemes image := by
  have hcode : ∀ {c : Char}, isSign c = true → Reads (c :: image) (code c) image →
      ∃ others, (∀ other ∈ others, other.isComment = false) ∧
        lexemes (tidied solid (code c).spaced ++ image) = others ++ lexemes image := by
    intro c hsign hreads
    refine ⟨[code c], fun other hother => ?_, ?_⟩
    · rw [List.mem_singleton.mp hother]
      rfl
    · change lexemes (tidied solid [c] ++ image) = _
      rw [tidied_of_isSign hsign]
      exact hreads.lexemes_eq
  cases h with
  | @plain c rest hquote hcomment =>
      cases hsign : isSign c with
      | false => exact exists_lexemes_of_not_isSign hsign solid image
      | true => exact hcode hsign (.plain hquote (himage.not_opensComment hcomment))
  | unmatched quote hclose =>
      exact hcode quote.isSign_opening (.unmatched quote (himage.notMem quote.isSign_closing hclose))
  | @quoted quote body rest hclose =>
      refine ⟨[Lexeme.quoted quote (tidied true body)], fun other hother => ?_, ?_⟩
      · rw [List.mem_singleton.mp hother]
        rfl
      · have hreads : Reads (quote.opening :: (tidied true body ++ quote.closing :: image))
            (.quoted quote (tidied true body)) image :=
          .quoted quote (himage.closes quote.isSign_closing hclose (hclose.1.tidied quote.isSign_closing))
        change lexemes (tidied solid (quote.opening :: (body ++ [quote.closing])) ++ image) = _
        rw [tidied_of_isSign quote.isSign_opening, tidied_append_sign quote.isSign_closing, List.cons_append,
          List.append_assoc]
        exact hreads.lexemes_eq
  | closedBlock hbody => exact exists_lexemes_of_not_isSign (by decide) solid image
  | openBlock hbody => exact exists_lexemes_of_not_isSign (by decide) solid image
  | line hbody hrest => exact exists_lexemes_of_not_isSign (by decide) solid image

/-- The first pieces of a text come out as pieces, with blanks for the comments, and the rest comes out as if it stood
alone. -/
theorem exists_lexemes_tidied (h : lexemes text = pieces ++ more) :
    ∃ others, (∀ other ∈ others, other.isComment = false) ∧
      lexemes (tidied false (pieces.flatMap spaced ++ more.flatMap Lexeme.text)) =
        others ++ lexemes (tidied false (more.flatMap Lexeme.text)) := by
  induction pieces generalizing text with
  | nil => exact ⟨[], nofun, rfl⟩
  | cons piece pieces ih =>
      obtain ⟨hreads, hlater⟩ := reads_of_lexemes_eq_cons (List.cons_append ▸ h)
      obtain ⟨later, hlaterCode, hlaterEq⟩ := ih hlater
      rw [List.flatMap_append] at hreads
      have himage := (Fainter.flatMap_spaced pieces (more.flatMap Lexeme.text)).trans (.of_tidied false _)
      obtain ⟨others, hothers, heq⟩ := hreads.exists_lexemes himage
        (opensSolid false (pieces.flatMap spaced ++ more.flatMap Lexeme.text))
      refine ⟨others ++ later, List.forall_mem_append.mpr ⟨hothers, hlaterCode⟩, ?_⟩
      rw [List.flatMap_cons, List.append_assoc, tidied_append, heq, hlaterEq, List.append_assoc]

/-- Pieces that begin with a hazard: a piece that is one, a dollar sign that begins a tag, or a number sign with quoting
behind it on its line. -/
inductive Perilous : List Lexeme → Prop where
  | piece {piece : Lexeme} {later : List Lexeme} (hhazard : piece.hazard? ≠ none) : Perilous (piece :: later)
  | dollar {later : List Lexeme} (htag : (dollarTag? (later.flatMap blanked)).isSome) : Perilous (code '$' :: later)
  | hash {later : List Lexeme}
      (hquoting : opensQuoting (('#' :: later.flatMap Lexeme.text).takeWhile (· != '\n')) = true) :
      Perilous (code '#' :: later)

/-- What shows code with no space among it, from the beginning on, begins with that code. -/
theorem exists_eq_map_code {shown : List Char} (hshown : ∀ c ∈ shown, ShowsCode c)
    (h : pieces.flatMap blanked = shown ++ rest) :
    ∃ later, pieces = shown.map code ++ later ∧ later.flatMap blanked = rest := by
  induction shown generalizing pieces with
  | nil => exact ⟨pieces, rfl, h⟩
  | cons c shown ih =>
      rw [List.forall_mem_cons] at hshown
      obtain ⟨later, rfl⟩ := exists_eq_code_cons hshown.1 (by rw [h]; rfl)
      obtain ⟨tail, rfl, htail⟩ := ih hshown.2 (List.cons.inj h).2
      exact ⟨tail, rfl, htail⟩

theorem showsCode_dollar : ShowsCode '$' :=
  ⟨by decide, fun quote => by cases quote <;> decide⟩

end Lexeme

namespace Outline

variable {sql : List Char} {front later : List Lexeme}

/-- Where a hazard is recorded the pieces that follow begin with it. -/
theorem exists_perilous {place : Nat} {hazard : Hazard} (h : (place, hazard) ∈ (of sql).hazards) :
    ∃ front later, lexemes sql = front ++ later ∧ place = byteLength (front.flatMap Lexeme.text) ∧
      Lexeme.Perilous later := by
  rcases mem_hazards_of_iff.mp h with ⟨front, piece, later, hsql, hhazard, hplace⟩ | ⟨-, hmem⟩ |
    ⟨-, front, later, hsql, hquoting, hplace⟩
  · exact ⟨front, _, hsql, hplace, .piece (by rw [hhazard]; exact nofun)⟩
  · rcases cut_of_mem_dollarQuotesOnto hmem with hnil | ⟨front, rest, hcut, htag, hplace⟩
    · cases hnil
    · rw [text_of] at hcut
      obtain ⟨left, right, hsql, rfl, rfl⟩ :=
        Lexeme.exists_cut_of_showsCode Lexeme.showsCode_dollar (fun quote => by cases quote <;> decide) hcut
      rw [Nat.zero_add, Lexeme.byteLength_flatMap_blanked] at hplace
      exact ⟨left, _, hsql, hplace, .dollar htag⟩
  · exact ⟨front, _, hsql, hplace, .hash hquoting⟩

/-- Where pieces begin with a hazard one is recorded there, or further to the left. -/
theorem exists_hazard_of_perilous (hlater : Lexeme.Perilous later) (hsql : lexemes sql = front ++ later) :
    ∃ hazard ∈ (of sql).hazards, hazard.1 ≤ byteLength (front.flatMap Lexeme.text) := by
  cases hlater with
  | piece hhazard =>
      obtain ⟨kind, hkind⟩ := Option.ne_none_iff_exists'.mp hhazard
      exact ⟨_, mem_hazards_of_iff.mpr (Or.inl ⟨front, _, _, hsql, hkind, rfl⟩), le_rfl⟩
  | @dollar later htag =>
      have houtline : (of sql).text = front.flatMap Lexeme.blanked ++ '$' :: later.flatMap Lexeme.blanked := by
        rw [text_of, hsql, List.flatMap_append, List.flatMap_cons]
        rfl
      obtain ⟨place, hle, hmem⟩ := exists_dollarQuote_le houtline htag
      rw [Lexeme.byteLength_flatMap_blanked] at hle
      exact ⟨_, hmem, hle⟩
  | hash hquoting =>
      exact ⟨_, mem_hazards_of_iff.mpr (Or.inr (Or.inr ⟨rfl, front, _, hsql, hquoting, rfl⟩)), le_rfl⟩

end Outline

/-- The first hazard begins with a piece: the comments in front of it are left out, and from it on nothing is. -/
theorem exists_front_of_firstHazard? {sql : List Char} {place : Nat} {kind : Hazard}
    (h : (Outline.of sql).firstHazard? = some (place, kind)) :
    ∃ front later, lexemes sql = front ++ later ∧ place = byteLength (front.flatMap Lexeme.text) ∧
      stripComments sql = front.flatMap Lexeme.spaced ++ later.flatMap Lexeme.text ∧ Lexeme.Perilous later := by
  obtain ⟨front, later, hsql, rfl, hperilous⟩ := Outline.exists_perilous (List.mem_of_head? h)
  have htrusted : trustedUntil sql = byteLength (front.flatMap Lexeme.text) := by
    unfold trustedUntil
    rw [h]
  refine ⟨front, later, hsql, rfl, ?_, hperilous⟩
  rw [stripComments_eq_shown, htrusted, hsql, Lexeme.shown_append, Lexeme.shown_eq_spaced (Nat.zero_add _).le,
    Lexeme.shown_eq_text (Nat.zero_add _).ge]

/-- The pieces in front of the first hazard: their comments are left out, and all else stays. -/
theorem exists_front (sql : List Char) :
    ∃ front later, lexemes sql = front ++ later ∧
      stripComments sql = front.flatMap Lexeme.spaced ++ later.flatMap Lexeme.text ∧
      (later = [] ∨ Lexeme.Perilous later) := by
  cases hfirst : (Outline.of sql).firstHazard? with
  | some first =>
      obtain ⟨front, later, hsql, -, hstrip, hperilous⟩ := exists_front_of_firstHazard? hfirst
      exact ⟨front, later, hsql, hstrip, Or.inr hperilous⟩
  | none =>
      have htrusted : trustedUntil sql = byteLength sql := by
        unfold trustedUntil
        rw [hfirst]
      refine ⟨lexemes sql, [], (List.append_nil _).symm, ?_, Or.inl rfl⟩
      rw [stripComments_eq_shown, htrusted, Lexeme.shown_eq_spaced, List.flatMap_nil, List.append_nil]
      rw [flatMap_text_lexemes, Nat.zero_add]

/-- No comment is left out where a hazard comes in front of the first one. -/
theorem stripComments_eq_self {sql : List Char} {front later : List Lexeme} (hsql : lexemes sql = front ++ later)
    (hfront : ∀ piece ∈ front, piece.isComment = false) (hlater : later = [] ∨ Lexeme.Perilous later) :
    stripComments sql = sql := by
  have hnone : ∀ placed, placed ∉ strippedComments sql := by
    rintro ⟨place, piece⟩ hmem
    obtain ⟨before, after, hcut, hplace, hcomment, hhazards⟩ := mem_strippedComments_iff.mp hmem
    rcases cut_of_append (hsql.symm.trans hcut) with ⟨tail, rfl, -⟩ | ⟨gap, rfl, hrest⟩
    · rw [hfront piece (by simp)] at hcomment
      cases hcomment
    · rcases hlater with rfl | hperilous
      · exact absurd hrest.symm (by simp)
      · obtain ⟨hazard, hhazard, hle⟩ := Outline.exists_hazard_of_perilous hperilous hsql
        have hlt := hhazards hazard hhazard
        rw [hplace, List.flatMap_append, byteLength_append] at hlt
        omega
  rw [stripComments_eq]
  simp only [hnone, if_false]
  have hpieces := flatMap_text_lexemes sql
  rwa [← map_snd_placedLexemes, List.flatMap_map] at hpieces

theorem normalForm_eq_tidied (sql : List Char) : normalForm sql = tidied false ((stripComments sql).dropWhile isBlank) :=
  flatMap_upper_singleSpaced (stripComments sql)

theorem Lexeme.Perilous.exists_sign {pieces : List Lexeme} (h : Perilous pieces) :
    ∃ sign rest, isSign sign = true ∧ pieces.flatMap Lexeme.text = sign :: rest := by
  cases h with
  | @piece piece later hhazard =>
      cases piece with
      | code c => exact absurd rfl hhazard
      | quoted quote body => exact ⟨_, _, quote.isSign_opening, rfl⟩
      | block body closed => exact ⟨'/', _, by decide, rfl⟩
      | line body => exact ⟨'-', _, by decide, rfl⟩
  | dollar htag => exact ⟨'$', _, by decide, rfl⟩
  | hash hquoting => exact ⟨'#', _, by decide, rfl⟩

section Hazards

variable {more : Bool} {text : List Char}

/-- Which signs of a class are in a text can be told by the tidied one. -/
theorem any_tidied {p : Char → Bool} (hp : ∀ c, p c = true → isSign c = true) : (tidied more text).any p = text.any p := by
  rw [Bool.eq_iff_iff, List.any_eq_true, List.any_eq_true]
  constructor
  · rintro ⟨c, hc, hpc⟩
    exact ⟨c, (mem_tidied_iff (hp c hpc)).mp hc, hpc⟩
  · rintro ⟨c, hc, hpc⟩
    exact ⟨c, (mem_tidied_iff (hp c hpc)).mpr hc, hpc⟩

theorem opensQuoting_tidied : opensQuoting (tidied more text) = opensQuoting text := by
  have hopens : ∀ c, (Quote.ofOpening? c).isSome = true → isSign c = true := by
    intro c hc
    obtain ⟨quote, hquote⟩ := Option.isSome_iff_exists.mp hc
    rw [← Quote.opening_of_ofOpening? hquote]
    exact quote.isSign_opening
  rw [opensQuoting, opensQuoting, any_tidied hopens, hasPair_tidied (by decide) (by decide)]

theorem opensQuoting_append_of_left {left : List Char} (right : List Char) (h : opensQuoting left = true) :
    opensQuoting (left ++ right) = true := by
  rw [opensQuoting, Bool.or_eq_true] at h ⊢
  rcases h with hquote | hpair
  · rw [List.any_append, hquote]
    exact Or.inl rfl
  · exact Or.inr (hasPair_append_of_left right hpair)

/-- A beginning in capitals stays. -/
theorem isPrefixOf_tidied {start : List Char} (hstart : start.all (fun c => !isBlank c && upper c == [c]) = true)
    (h : start.isPrefixOf text = true) : start.isPrefixOf (tidied more text) = true := by
  simp only [List.all_eq_true, Bool.and_eq_true, Bool.not_eq_true', beq_iff_eq] at hstart
  obtain ⟨rest, rfl⟩ := List.isPrefixOf_iff_prefix.mp h
  rw [tidied_append, tidied_of_solid _ fun c hc => (hstart c hc).1, flatMap_upper_of_self fun c hc => (hstart c hc).2,
    List.isPrefixOf_iff_prefix]
  exact List.prefix_append _ _

namespace Lexeme

theorem hazard?_quoted_tidied (quote : Quote) (body : List Char) :
    (quoted quote (tidied more body)).hazard? = (quoted quote body).hazard? := by
  have hsigns : ∀ c, decide (c ∈ [Quote.single.opening, Quote.double.opening, Quote.backtick.opening]) = true →
      isSign c = true := by
    intro c hc
    have hall : [Quote.single.opening, Quote.double.opening, Quote.backtick.opening].all isSign = true := by decide
    exact List.all_eq_true.mp hall c (of_decide_eq_true hc)
  cases quote with
  | single | double => simp only [hazard?, mem_tidied_iff (show isSign '\\' = true by decide)]
  | backtick => rfl
  | bracket =>
      rw [hazard?, hazard?, any_tidied hsigns, hasPair_tidied (by decide) (by decide),
        hasPair_tidied (by decide) (by decide)]

theorem hazard?_block_tidied {closed : Bool} {body : List Char} (h : (block body closed).hazard? ≠ none) :
    (block (tidied closed body) closed).hazard? ≠ none := by
  rw [Ne, hazard?_block_eq_none_iff] at h ⊢
  rintro ⟨⟨hfirst, hsecond⟩, hnested⟩
  refine h ⟨⟨?_, ?_⟩, ?_⟩
  · by_contra hprefix
    rw [isPrefixOf_tidied (by decide) (Bool.of_not_eq_false hprefix)] at hfirst
    cases hfirst
  · by_contra hprefix
    rw [isPrefixOf_tidied (by decide) (Bool.of_not_eq_false hprefix)] at hsecond
    cases hsecond
  · rw [← @hasPair_tidied closed _ _ _ (show isSign '/' = true by decide) (show isSign '*' = true by decide)]
    cases closed with
    | false => exact hnested
    | true =>
        change hasPair '/' '*' (tidied true (body ++ '*' :: ['/'])) = false
        rw [tidied_append_sign (by decide)]
        exact hnested

/-- A hazard at the beginning of a text is one at the beginning of the tidied text. A line comment comes to take up all
the rest, for the end of its line has become a space. -/
theorem Reads.exists_hazard {rest : List Char} {piece : Lexeme} (h : Reads text piece rest)
    (hhazard : piece.hazard? ≠ none) :
    ∃ other after, Reads (SqlGate.tidied false text) other after ∧ other.hazard? ≠ none := by
  cases h with
  | plain hquote hcomment => exact absurd rfl hhazard
  | unmatched quote hclose => exact absurd rfl hhazard
  | @quoted quote body rest hclose =>
      refine ⟨.quoted quote (SqlGate.tidied true body), SqlGate.tidied false rest, ?_, ?_⟩
      · rw [tidied_of_isSign quote.isSign_opening, tidied_append_sign quote.isSign_closing]
        exact .quoted quote ((Fainter.of_tidied false rest).closes quote.isSign_closing hclose
          (hclose.1.tidied quote.isSign_closing))
      · rwa [hazard?_quoted_tidied]
  | @closedBlock body rest hbody =>
      refine ⟨.block (SqlGate.tidied true body) true, SqlGate.tidied false rest, ?_, hazard?_block_tidied hhazard⟩
      rw [tidied_of_isSign (by decide), tidied_of_isSign (by decide), tidied_append_sign (by decide),
        tidied_of_isSign (by decide)]
      exact .closedBlock (by rwa [hasPair_tidied (by decide) (by decide)])
  | @openBlock body hbody =>
      refine ⟨.block (SqlGate.tidied false body) false, [], ?_, hazard?_block_tidied hhazard⟩
      rw [tidied_of_isSign (by decide), tidied_of_isSign (by decide)]
      exact .openBlock (by rwa [hasPair_tidied (by decide) (by decide)])
  | @line body rest hbody hrest =>
      refine ⟨.line (SqlGate.tidied false (body ++ rest)), [], ?_, ?_⟩
      · have hline : ∀ c ∈ SqlGate.tidied false (body ++ rest), endsLine c = false := by
          intro c hc
          by_contra hends
          rw [Bool.not_eq_false, endsLine, Bool.or_eq_true, beq_iff_eq, beq_iff_eq] at hends
          rcases hends with rfl | rfl
          · exact absurd (eq_space_of_mem_tidied hc rfl) (by decide)
          · exact absurd (eq_space_of_mem_tidied hc rfl) (by decide)
        rw [tidied_of_isSign (by decide), tidied_of_isSign (by decide)]
        have hend : ∀ c, ([] : List Char).head? = some c → endsLine c = true := by
          intro c hc
          cases hc
        have hreads : Reads _ _ [] := .line hline hend
        rwa [List.append_nil] at hreads
      · rw [Ne, hazard?_line_eq_none_iff, not_forall] at hhazard
        obtain ⟨c, hc⟩ := hhazard
        rw [Classical.not_imp, Bool.not_eq_true] at hc
        obtain ⟨tail, rfl⟩ := List.head?_eq_some_iff.mp hc.1
        obtain ⟨d, late, hupper⟩ := List.exists_cons_of_ne_nil (upper_ne_nil c)
        rw [Ne, hazard?_line_eq_none_iff, List.cons_append, tidied_cons_of_not hc.2, hupper]
        intro hblank
        have hsolid := isBlank_upper hc.2 d (hupper ▸ List.mem_cons_self)
        rw [hblank d rfl] at hsolid
        cases hsolid

end Lexeme

/-- A tag in capitals is a tag. -/
theorem IsTagName.flatMap_upper {name : List Char} (h : IsTagName name) : IsTagName (name.flatMap upper) := by
  have hascii : ∀ c ∈ name, upper c = [c.toUpper] ∧ (c.toUpper.isAlphanum || c.toUpper == '_') = true ∧
      c.toUpper.isDigit = c.isDigit := by
    intro c hc
    exact of_ascii (motive := fun c => (c.isAlphanum || c == '_') = true → upper c = [c.toUpper] ∧
      (c.toUpper.isAlphanum || c.toUpper == '_') = true ∧ c.toUpper.isDigit = c.isDigit) (by decide +kernel)
      (h.toNat_lt c hc) (h.1 c hc)
  refine ⟨fun d hd => ?_, ?_⟩
  · obtain ⟨c, hc, hdUpper⟩ := List.mem_flatMap.mp hd
    obtain ⟨hupper, hclass, -⟩ := hascii c hc
    rw [hupper, List.mem_singleton] at hdUpper
    rw [hdUpper]
    exact hclass
  · cases name with
    | nil => rfl
    | cons c name =>
        obtain ⟨hupper, -, hsame⟩ := hascii c List.mem_cons_self
        rw [List.flatMap_cons, hupper]
        exact hsame.trans h.2

namespace Lexeme

/-- A tag of code stands in the text as it is shown. -/
theorem exists_tag {later : List Lexeme} (h : (dollarTag? (later.flatMap blanked)).isSome) :
    ∃ name rest, IsTagName name ∧ later.flatMap Lexeme.text = name ++ '$' :: rest := by
  obtain ⟨name, rest, hname, htag⟩ := isSome_dollarTag?_iff.mp h
  have hshows : ∀ c ∈ name ++ ['$'], ShowsCode c := by
    intro c hc
    rcases List.mem_append.mp hc with hc | hc
    · exact showsCode_of_isWord (htag.isWord c hc)
    · exact List.mem_singleton.mp hc ▸ showsCode_dollar
  obtain ⟨after, rfl, -⟩ := exists_eq_map_code hshows (hname.trans (List.append_cons name '$' rest))
  refine ⟨name, after.flatMap Lexeme.text, htag, ?_⟩
  rw [List.flatMap_append, flatMap_text_code, List.append_assoc]
  rfl

theorem perilous_of_tag {name : List Char} (h : IsTagName name) (rest : List Char) :
    Perilous (lexemes ('$' :: (name ++ '$' :: rest))) := by
  rw [(reads_plain (by decide) _).lexemes_eq]
  exact .dollar (isSome_dollarTag?_lexemes h rest)

end Lexeme

/-- Pieces that begin with a hazard come out as pieces that begin with one. -/
theorem Lexeme.Perilous.tidied {pieces : List Lexeme} (h : Perilous pieces)
    (hpieces : lexemes (pieces.flatMap Lexeme.text) = pieces) :
    Perilous (lexemes (tidied false (pieces.flatMap Lexeme.text))) := by
  cases h with
  | @piece piece later hhazard =>
      obtain ⟨hreads, -⟩ := reads_of_lexemes_eq_cons hpieces
      obtain ⟨other, after, hother, hstill⟩ := hreads.exists_hazard hhazard
      rw [hother.lexemes_eq]
      exact .piece hstill
  | @dollar later htag =>
      obtain ⟨name, rest, hname, htext⟩ := exists_tag htag
      have hsolid : ∀ c ∈ name, isBlank c = false := fun c hc => isBlank_eq_false_of_isWord (hname.isWord c hc)
      change Perilous (lexemes (SqlGate.tidied false ('$' :: later.flatMap Lexeme.text)))
      rw [htext, tidied_of_isSign (by decide), tidied_append_sign (by decide), tidied_of_solid _ hsolid]
      exact perilous_of_tag hname.flatMap_upper _
  | @hash later hquoting =>
      have hline : ∀ c ∈ '#' :: SqlGate.tidied false (later.flatMap Lexeme.text), (c != '\n') = true := by
        intro c hc
        rcases List.mem_cons.mp hc with rfl | hc
        · rfl
        · refine bne_iff_ne.mpr ?_
          rintro rfl
          exact absurd (eq_space_of_mem_tidied hc rfl) (by decide)
      have hwhole : opensQuoting ('#' :: later.flatMap Lexeme.text) = true := by
        rw [← List.takeWhile_append_dropWhile (p := (· != '\n')) (l := '#' :: later.flatMap Lexeme.text)]
        exact opensQuoting_append_of_left _ hquoting
      change Perilous (lexemes (SqlGate.tidied false ('#' :: later.flatMap Lexeme.text)))
      rw [tidied_of_isSign (by decide), (reads_plain (by decide) _).lexemes_eq]
      refine .hash ?_
      rw [flatMap_text_lexemes, List.takeWhile_eq_self_iff.mpr hline, ← tidied_of_isSign (by decide),
        opensQuoting_tidied, hwhole]

end Hazards

/-- A normal form keeps all of its comments: each one was kept on account of a hazard, which is still there. -/
theorem stripComments_normalForm (sql : List Char) : stripComments (normalForm sql) = normalForm sql := by
  obtain ⟨front, later, hsql, hstrip, hlater⟩ := exists_front sql
  obtain ⟨others, hothers, hwhole⟩ := Lexeme.exists_lexemes_tidied hsql
  have hstill : lexemes (tidied false (later.flatMap Lexeme.text)) = [] ∨
      Lexeme.Perilous (lexemes (tidied false (later.flatMap Lexeme.text))) := by
    rcases hlater with rfl | hperilous
    · exact Or.inl lexemes_nil
    · exact Or.inr (hperilous.tidied (Lexeme.lexemes_of_eq_append hsql))
  rw [← hstrip, tidied_dropWhile, ← normalForm_eq_tidied] at hwhole
  split at hwhole
  · -- The space in front is a piece of its own.
    have hspace : lexemes ([' '] ++ normalForm sql) = .code ' ' :: lexemes (normalForm sql) :=
      (Lexeme.reads_plain rfl (normalForm sql)).lexemes_eq
    rw [hwhole] at hspace
    cases others with
    | nil =>
        have htext := congrArg (List.flatMap Lexeme.text) hspace
        rw [List.nil_append, flatMap_text_lexemes] at htext
        rcases hlater with rfl | hperilous
        · cases htext
        · obtain ⟨sign, rest, hsign, hlaterText⟩ := hperilous.exists_sign
          rw [hlaterText, tidied_of_isSign hsign] at htext
          obtain rfl : sign = ' ' := (List.cons.inj htext).1
          cases hsign
    | cons other others =>
        obtain ⟨-, hnormal⟩ := List.cons.inj hspace
        exact stripComments_eq_self hnormal.symm (fun piece hmem => hothers piece (List.mem_cons_of_mem _ hmem)) hstill
  · exact stripComments_eq_self hwhole hothers hstill

theorem singleSpaced_normalForm (sql : List Char) : SingleSpaced (normalForm sql) := by
  rw [normalForm_eq_tidied]
  exact singleSpaced_tidied (stripComments sql)

theorem normalForm_normalForm (sql : List Char) : normalForm (normalForm sql) = normalForm sql := by
  have hdrop : (normalForm sql).dropWhile isBlank = normalForm sql := by
    cases hnormal : normalForm sql with
    | nil => rfl
    | cons c rest =>
        have hsolid := (singleSpaced_normalForm sql).head_solid c (by rw [hnormal]; rfl)
        rw [List.dropWhile_cons_of_neg (by simp [hsolid])]
  rw [normalForm_eq_tidied, stripComments_normalForm, hdrop, normalForm_eq_tidied, tidied_tidied]

-- The line comment is kept on account of the tag, and comes to run to the end.
example : normalForm "select/**/$a$ -- x\n\tfrom stra\u00dfe".toList = "SELECT $A$ -- X FROM STRASSE".toList := by
  decide +kernel

/-- The normal form of a statement is one: it has single spaces only, it is the normal form of itself, and the statement
is classified and commented on by it as it is by the statement. -/
theorem isNormal_normalForm (sql : List Char) :
    SingleSpaced (normalForm sql) ∧ normalForm (normalForm sql) = normalForm sql ∧
      (∀ mode, classify mode (normalForm sql) = classify mode sql) ∧
      ∀ classification offset, advise (normalForm sql) classification offset = advise sql classification offset := by
  refine ⟨singleSpaced_normalForm sql, normalForm_normalForm sql, fun mode => ?_, fun classification offset => ?_⟩
  · rw [classify, classify, normalForm_normalForm]
  · rw [advise, advise, normalForm_normalForm]

end SqlGate
