import SqlGate.Proofs.LimitFrame

/-! How the outline of a statement lies on it. Byte for byte the outline shows the statement or a space, by the piece
that the byte belongs to; it can be cut wherever the statement can; its depths are those of the parentheses in the code;
and its code ends between two pieces. -/

namespace SqlGate

open Unicode

section Bytes

/-- The bytes of a text in UTF-8. -/
def utf8Bytes (text : List Char) : List UInt8 :=
  text.flatMap String.utf8EncodeChar

@[simp] theorem length_utf8Bytes (text : List Char) : (utf8Bytes text).length = byteLength text := by
  induction text with
  | nil => rfl
  | cons c rest ih =>
      rw [utf8Bytes, List.flatMap_cons, List.length_append, ← utf8Bytes, ih, String.length_utf8EncodeChar,
        byteLength_cons]

theorem utf8Bytes_append (left right : List Char) : utf8Bytes (left ++ right) = utf8Bytes left ++ utf8Bytes right :=
  List.flatMap_append

theorem utf8Bytes_spaces (count : Nat) : utf8Bytes (spaces count) = List.replicate count 0x20 := by
  induction count with
  | zero => rfl
  | succ count ih =>
      rw [spaces, List.replicate_succ, utf8Bytes, List.flatMap_cons, ← utf8Bytes, ← spaces, ih]
      rfl

/-- The bytes of a part are those of the whole text, from the place of the part on. -/
theorem getElem?_utf8Bytes (front part later : List Char) {within : Nat} (h : within < byteLength part) :
    (utf8Bytes (front ++ (part ++ later)))[byteLength front + within]? = (utf8Bytes part)[within]? := by
  rw [utf8Bytes_append, utf8Bytes_append, ← length_utf8Bytes front, List.getElem?_append_right (Nat.le_add_right _ _),
    Nat.add_sub_cancel_left, List.getElem?_append_left (by rwa [length_utf8Bytes])]

theorem isSome_splitAtByte?_iff {text : List Char} {place : Nat} :
    (splitAtByte? place text).isSome ↔ ∃ left right, text = left ++ right ∧ byteLength left = place := by
  constructor
  · intro h
    obtain ⟨⟨left, right⟩, hcut⟩ := Option.isSome_iff_exists.mp h
    obtain ⟨htext, hplace⟩ := splitAtByte?_eq_some hcut
    exact ⟨left, right, htext, hplace⟩
  · rintro ⟨left, right, rfl, rfl⟩
    rw [splitAtByte?_append]
    rfl

/-- Each byte of joined texts belongs to one of them. -/
theorem exists_cut_of_lt {α : Type} {shows : α → List Char} {items : List α} {place : Nat}
    (h : place < byteLength (items.flatMap shows)) :
    ∃ front item later within, items = front ++ item :: later ∧
      place = byteLength (front.flatMap shows) + within ∧ within < byteLength (shows item) := by
  induction items generalizing place with
  | nil => exact absurd h (Nat.not_lt_zero place)
  | cons item items ih =>
      rw [List.flatMap_cons, byteLength_append] at h
      by_cases hitem : place < byteLength (shows item)
      · exact ⟨[], item, items, place, rfl, (Nat.zero_add place).symm, hitem⟩
      · obtain ⟨front, inner, later, within, rfl, hplace, hwithin⟩ :=
          ih (show place - byteLength (shows item) < byteLength (items.flatMap shows) by omega)
        refine ⟨item :: front, inner, later, within, rfl, ?_, hwithin⟩
        rw [List.flatMap_cons, byteLength_append]
        omega

theorem exists_char_of_lt {text : List Char} {place : Nat} (h : place < byteLength text) :
    ∃ front c later within, text = front ++ c :: later ∧ place = byteLength front + within ∧ within < c.utf8Size := by
  have hsame : ∀ text : List Char, text.flatMap (fun c => [c]) = text := fun text => List.flatMap_singleton' text
  obtain ⟨front, c, later, within, htext, hplace, hwithin⟩ :=
    exists_cut_of_lt (show place < byteLength (text.flatMap fun c => [c]) by rwa [hsame])
  rw [hsame] at hplace
  exact ⟨front, c, later, within, htext, hplace, hwithin⟩

/-- A text of characters of one byte can be cut at each byte. -/
theorem isSome_splitAtByte?_of_size {text : List Char} {place : Nat} (hsize : ∀ c ∈ text, c.utf8Size = 1)
    (h : place ≤ byteLength text) : (splitAtByte? place text).isSome := by
  rw [isSome_splitAtByte?_iff]
  rcases Nat.lt_or_eq_of_le h with hlt | rfl
  · obtain ⟨front, c, later, within, rfl, hplace, hwithin⟩ := exists_char_of_lt hlt
    rw [hsize c (by simp)] at hwithin
    exact ⟨front, c :: later, rfl, by omega⟩
  · exact ⟨text, [], (List.append_nil text).symm, rfl⟩

end Bytes

namespace Lexeme

/-- Whether the outline keeps a byte of a piece: a byte of code, or the delimiter at either end of a quoted span. -/
def keeps : Lexeme → Nat → Bool
  | .code _, _ => true
  | .quoted _ body, within => within = 0 || within = byteLength body + 1
  | .block _ _, _ | .line _, _ => false

theorem utf8Size_of_mem_blanked {piece : Lexeme} (h : piece.isCode = false) : ∀ c ∈ piece.blanked, c.utf8Size = 1 := by
  intro c hc
  rcases mem_blanked_cases hc with rfl | rfl | ⟨quote, rfl | rfl⟩
  · cases h
  · rfl
  · exact quote.utf8Size_opening
  · exact quote.utf8Size_closing

/-- The delimiters of a quoted span are its first and last byte, whatever stands between them. -/
theorem getElem?_delimiters (quote : Quote) (inner : List Char) :
    (utf8Bytes (quote.opening :: (inner ++ [quote.closing])))[0]? = (utf8Bytes [quote.opening])[0]? ∧
      (utf8Bytes (quote.opening :: (inner ++ [quote.closing])))[byteLength inner + 1]? =
        (utf8Bytes [quote.closing])[0]? := by
  have hopening : byteLength [quote.opening] = 1 := quote.utf8Size_opening
  have hclosing : byteLength [quote.closing] = 1 := quote.utf8Size_closing
  constructor
  · exact getElem?_utf8Bytes [] [quote.opening] (inner ++ [quote.closing])
      (show 0 < byteLength [quote.opening] by omega)
  · have hlast := getElem?_utf8Bytes (quote.opening :: inner) [quote.closing] []
      (show 0 < byteLength [quote.closing] by omega)
    rw [byteLength_cons, quote.utf8Size_opening, Nat.add_zero, Nat.add_comm 1] at hlast
    exact hlast

theorem getElem?_inside (quote : Quote) {inner : List Char} {place : Nat} (h : place < byteLength inner) :
    (utf8Bytes (quote.opening :: (inner ++ [quote.closing])))[1 + place]? = (utf8Bytes inner)[place]? := by
  have hpart := getElem?_utf8Bytes [quote.opening] inner [quote.closing] h
  rwa [byteLength_cons, quote.utf8Size_opening, byteLength_nil] at hpart

/-- A piece is shown byte for byte: what it keeps, and spaces. -/
theorem getElem?_blanked (piece : Lexeme) {within : Nat} (h : within < byteLength piece.text) :
    (utf8Bytes piece.blanked)[within]? =
      if piece.keeps within then (utf8Bytes piece.text)[within]? else some 0x20 := by
  have hspace : ∀ {count place}, place < count → (utf8Bytes (spaces count))[place]? = some 0x20 := by
    intro count place hlt
    rw [utf8Bytes_spaces, List.getElem?_replicate, if_pos hlt]
  cases piece with
  | code c => rfl
  | quoted quote body =>
      obtain ⟨hfirst, hlast⟩ := getElem?_delimiters quote body
      obtain ⟨hopening, hclosing⟩ := getElem?_delimiters quote (spaces (byteLength body))
      rw [byteLength_spaces] at hclosing
      by_cases hkeeps : within = 0 ∨ within = byteLength body + 1
      · rw [if_pos (by simpa [keeps] using hkeeps)]
        rcases hkeeps with rfl | rfl
        · exact hopening.trans hfirst.symm
        · exact hclosing.trans hlast.symm
      · rw [if_neg (by simpa [keeps] using hkeeps)]
        have hsize : byteLength (quoted quote body).text = byteLength body + 2 := by
          rw [text, byteLength_cons, byteLength_append, byteLength_cons, quote.utf8Size_opening,
            quote.utf8Size_closing, byteLength_nil]
          omega
        obtain ⟨place, rfl⟩ : ∃ place, within = 1 + place := ⟨within - 1, by omega⟩
        have hinside : place < byteLength body := by omega
        calc (utf8Bytes (quoted quote body).blanked)[1 + place]?
            = (utf8Bytes (spaces (byteLength body)))[place]? := getElem?_inside quote (by rwa [byteLength_spaces])
          _ = some 0x20 := hspace hinside
  | block body closed => exact hspace h
  | line body => exact hspace h

/-- The number of parentheses open at the bytes of a piece behind others. An opening one counts behind itself, a closing
one at itself. -/
def depthBehind (front : List Lexeme) (piece : Lexeme) : Nat :=
  if piece = .code ')' then front.foldl nested 0 - 1 else front.foldl nested 0

theorem depthBetween_blanked {front : List Lexeme} {piece : Lexeme} {head tail : List Char} {c : Char}
    (h : piece.blanked = head ++ c :: tail) (later : List Char) :
    depthBetween (front.flatMap blanked ++ head) (c :: (tail ++ later)) = depthBehind front piece := by
  rw [depthBetween, openAfter_append, openAfter_flatMap_blanked, depthBehind]
  by_cases hcode : ∃ d, piece = code d
  · obtain ⟨d, rfl⟩ := hcode
    have hhead : head = [] := by
      by_contra hne
      exact blanked_code_ne_append d hne (List.cons_ne_nil c tail) h
    subst hhead
    obtain rfl : d = c := (List.cons.inj h).1
    by_cases hclose : d = ')'
    · rw [if_pos hclose, if_pos (congrArg code hclose)]
      rfl
    · rw [if_neg hclose, if_neg fun hsame => hclose (code.inj hsame)]
      rfl
  · have hplain : ∀ d ∈ head ++ c :: tail, d ≠ '(' ∧ d ≠ ')' := fun d hd =>
      (eq_code_or_ne_paren (h ▸ hd)).resolve_left fun hsame => hcode ⟨d, hsame⟩
    have hhead : ∀ d ∈ head, d ≠ '(' ∧ d ≠ ')' := fun d hd => hplain d (List.mem_append_left _ hd)
    rw [if_neg (hplain c (by simp)).2, if_neg fun hclose => hcode ⟨_, hclose⟩,
      openAfter_of_notMem (fun hmem => (hhead _ hmem).1 rfl) (fun hmem => (hhead _ hmem).2 rfl)]

end Lexeme

/-- The piece of a statement that a byte belongs to, with the pieces in front of it and its bytes in front of that one. -/
structure ByteOf (sql : List Char) (place : Nat) (front : List Lexeme) (piece : Lexeme) (within : Nat) : Prop where
  cut : ∃ later, lexemes sql = front ++ piece :: later
  place_eq : place = byteLength (front.flatMap Lexeme.text) + within
  within_lt : within < byteLength piece.text

theorem exists_byteOf {sql : List Char} {place : Nat} (h : place < byteLength sql) :
    ∃ front piece within, ByteOf sql place front piece within := by
  rw [← flatMap_text_lexemes sql] at h
  obtain ⟨front, piece, later, within, hcut, hplace, hwithin⟩ := exists_cut_of_lt h
  exact ⟨front, piece, within, ⟨later, hcut⟩, hplace, hwithin⟩

namespace ByteOf

variable {sql : List Char} {place within : Nat} {front : List Lexeme} {piece : Lexeme}

theorem getElem?_outline (h : ByteOf sql place front piece within) : (utf8Bytes (Outline.of sql).text)[place]? =
    if piece.keeps within then (utf8Bytes sql)[place]? else some 0x20 := by
  obtain ⟨later, hcut⟩ := h.cut
  have hshown : (Outline.of sql).text =
      front.flatMap Lexeme.blanked ++ (piece.blanked ++ later.flatMap Lexeme.blanked) := by
    rw [Outline.text_of, hcut, List.flatMap_append, List.flatMap_cons]
  have hsql : sql = front.flatMap Lexeme.text ++ (piece.text ++ later.flatMap Lexeme.text) := by
    rw [← List.flatMap_cons, ← List.flatMap_append, ← hcut, flatMap_text_lexemes]
  have hblanked : within < byteLength piece.blanked := piece.byteLength_blanked ▸ h.within_lt
  calc (utf8Bytes (Outline.of sql).text)[place]?
      = (utf8Bytes piece.blanked)[within]? := by
        rw [hshown, h.place_eq, ← Lexeme.byteLength_flatMap_blanked, getElem?_utf8Bytes _ _ _ hblanked]
    _ = if piece.keeps within then (utf8Bytes piece.text)[within]? else some 0x20 :=
        piece.getElem?_blanked h.within_lt
    _ = if piece.keeps within then (utf8Bytes sql)[place]? else some 0x20 := by
        rw [h.place_eq]
        conv_rhs => rw [hsql, getElem?_utf8Bytes _ _ _ h.within_lt]

theorem depthAt (h : ByteOf sql place front piece within) :
    (Outline.of sql).depthAt place = Lexeme.depthBehind front piece := by
  obtain ⟨later, hcut⟩ := h.cut
  have hblanked : within < byteLength piece.blanked := piece.byteLength_blanked ▸ h.within_lt
  obtain ⟨head, c, tail, inner, hpiece, hplace, hinner⟩ := exists_char_of_lt hblanked
  have hshown : (Outline.of sql).text =
      (front.flatMap Lexeme.blanked ++ head) ++ c :: (tail ++ later.flatMap Lexeme.blanked) := by
    rw [Outline.text_of, hcut, List.flatMap_append, List.flatMap_cons, hpiece]
    simp
  have hbytes : place = byteLength (front.flatMap Lexeme.blanked ++ head) + inner := by
    rw [h.place_eq, hplace, byteLength_append, Lexeme.byteLength_flatMap_blanked, Nat.add_assoc]
  rw [Outline.depthAt, Outline.depths_of, hshown, hbytes, getD_nesting_within _ _ hinner,
    Lexeme.depthBetween_blanked hpiece]

end ByteOf

namespace Outline

/-- What is a cut of the statement is one of its outline: within a piece other than code every byte shown is one. -/
theorem isSome_splitAtByte?_of {sql : List Char} {place : Nat} (h : (splitAtByte? place sql).isSome) :
    (splitAtByte? place (of sql).text).isSome := by
  obtain ⟨left, right, hsql, rfl⟩ := isSome_splitAtByte?_iff.mp h
  rw [isSome_splitAtByte?_iff, text_of]
  rw [← flatMap_text_lexemes sql] at hsql
  rcases Lexeme.exists_cut_of_flatMap hsql with ⟨front, later, hcut, rfl, -⟩ |
    ⟨front, piece, later, head, tail, hcut, hpiece, hhead, htail, rfl, -⟩
  · exact ⟨front.flatMap Lexeme.blanked, later.flatMap Lexeme.blanked, by rw [hcut, List.flatMap_append],
      Lexeme.byteLength_flatMap_blanked front⟩
  · have hcode : piece.isCode = false := by
      cases piece with
      | code c => exact absurd hpiece (Lexeme.blanked_code_ne_append c hhead htail)
      | quoted quote body => rfl
      | block body closed => rfl
      | line body => rfl
    have hle : byteLength head ≤ byteLength piece.blanked := by
      rw [piece.byteLength_blanked, hpiece, byteLength_append]
      exact Nat.le_add_right _ _
    obtain ⟨shown, hidden, hblanked, hsize⟩ := isSome_splitAtByte?_iff.mp
      (isSome_splitAtByte?_of_size (Lexeme.utf8Size_of_mem_blanked hcode) hle)
    refine ⟨front.flatMap Lexeme.blanked ++ shown, hidden ++ later.flatMap Lexeme.blanked, ?_, ?_⟩
    · rw [hcut, List.flatMap_append, List.flatMap_cons, hblanked]
      simp
    · rw [byteLength_append, byteLength_append, Lexeme.byteLength_flatMap_blanked, hsize]

/-- The place after the code of a statement: it lies between two pieces and behind all that is shown but blanks and one
semicolon at most, and no blank stands in front of it. -/
structure EndsCode (outline : Outline) (sql : List Char) (place : Nat) : Prop where
  cut : ∃ front later, lexemes sql = front ++ later ∧
    splitAtByte? place sql = some (front.flatMap Lexeme.text, later.flatMap Lexeme.text)
  codeBetween : CodeBetween sql place place
  outline_cut : ∃ code later, splitAtByte? place outline.text = some (code, later) ∧
    (∀ c, code.getLast? = some c → Unicode.isBlank c = false) ∧ (∀ c ∈ later, Unicode.isBlank c = true ∨ c = ';') ∧
    later.count ';' ≤ 1

theorem endsCode_endOfCode (sql : List Char) : (of sql).EndsCode sql (of sql).endOfCode := by
  obtain ⟨code, rest, htext, hend, hlast, hrest, hcount⟩ := exists_cut_endOfCode sql
  have hedge : ∃ front later, lexemes sql = front ++ later ∧ front.flatMap Lexeme.blanked = code := by
    by_cases hcode : code = []
    · exact ⟨[], lexemes sql, rfl, hcode.symm⟩
    · have hsolid : ∃ c, code.getLast? = some c ∧ Unicode.isBlank c = false :=
        ⟨code.getLast hcode, List.getLast?_eq_some_getLast hcode,
          (hlast _ (List.getLast?_eq_some_getLast hcode)).1⟩
      obtain ⟨front, later, hcut, hfront, -⟩ :=
        Lexeme.exists_edge_of_blank_rest ((text_of sql).symm.trans htext) hsolid hrest
      exact ⟨front, later, hcut, hfront⟩
  obtain ⟨front, later, hcut, rfl⟩ := hedge
  rw [Lexeme.byteLength_flatMap_blanked] at hend
  refine ⟨⟨front, later, hcut, ?_⟩, ?_, _, rest, ?_, fun c hc => (hlast c hc).1, hrest, hcount⟩
  · rw [hend, Lexeme.eq_text_append hcut]
    exact splitAtByte?_append _ _
  · rw [hend]
    exact @codeBetween_of_lexemes sql [] front later hcut
  · rw [hend, htext, ← Lexeme.byteLength_flatMap_blanked]
    exact splitAtByte?_append _ _

/-- An outline that lies on a statement byte for byte. -/
structure LiesOn (outline : Outline) (sql : List Char) : Prop where
  byteLength_eq : byteLength outline.text = byteLength sql
  covered {place : Nat} (h : place < byteLength sql) : ∃ front piece within, ByteOf sql place front piece within
  byte_eq {place : Nat} {front : List Lexeme} {piece : Lexeme} {within : Nat} (h : ByteOf sql place front piece within) :
    (utf8Bytes outline.text)[place]? = if piece.keeps within then (utf8Bytes sql)[place]? else some 0x20
  boundary {place : Nat} (h : (splitAtByte? place sql).isSome) : (splitAtByte? place outline.text).isSome
  depth_eq {place : Nat} {front : List Lexeme} {piece : Lexeme} {within : Nat} (h : ByteOf sql place front piece within) :
    outline.depthAt place = Lexeme.depthBehind front piece
  endsCode : outline.EndsCode sql outline.endOfCode

/-- The outline of a statement is as long as the statement and shows, at each byte, that byte or a space, by the piece
that it belongs to. It can be cut where the statement can, knows how many parentheses of the code are open at each byte,
and ends the code between two pieces. -/
theorem of_liesOn (sql : List Char) : (of sql).LiesOn sql where
  byteLength_eq := byteLength_text_of sql
  covered := exists_byteOf
  byte_eq := ByteOf.getElem?_outline
  boundary := isSome_splitAtByte?_of
  depth_eq := ByteOf.depthAt
  endsCode := endsCode_endOfCode sql

-- The bytes of a letter and of the parentheses that are hidden are spaces; the depth is that of the two shown.
example : (of "f('é(')/* ) */;".toList).text = "f('   ')       ;".toList ∧ (of "f('é(')/* ) */;".toList).endOfCode = 8 ∧
    (of "f('é(')/* ) */;".toList).depths = #[0, 0, 1, 1, 1, 1, 1, 0, 0, 0, 0, 0, 0, 0, 0, 0] := by
  decide +kernel

end Outline

end SqlGate
