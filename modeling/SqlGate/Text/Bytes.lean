/-! Places in a text, counted in bytes of UTF-8. A text is a list of characters; a place is the
number of bytes before it, and only the ends of characters are places at which a text can be cut.
Cutting at the size of a beginning of the text gives back that beginning. -/

namespace SqlGate

/-- The number of bytes of a text in UTF-8. -/
def byteLength (text : List Char) : Nat :=
  text.foldr (fun c size => c.utf8Size + size) 0

@[simp] theorem byteLength_nil : byteLength [] = 0 := rfl

@[simp] theorem byteLength_cons (c : Char) (rest : List Char) :
    byteLength (c :: rest) = c.utf8Size + byteLength rest := rfl

@[simp] theorem byteLength_append (left right : List Char) :
    byteLength (left ++ right) = byteLength left + byteLength right := by
  induction left with
  | nil => rw [List.nil_append, byteLength_nil, Nat.zero_add]
  | cons c left ih => rw [List.cons_append, byteLength_cons, byteLength_cons, ih, Nat.add_assoc]

theorem byteLength_reverse (text : List Char) : byteLength text.reverse = byteLength text := by
  induction text with
  | nil => rfl
  | cons c rest ih =>
      rw [List.reverse_cons, byteLength_append, ih, byteLength_cons, byteLength_cons, byteLength_nil]
      omega

theorem byteLength_pos {text : List Char} (h : text ≠ []) : 0 < byteLength text := by
  cases text with
  | nil => exact absurd rfl h
  | cons c rest =>
      have := c.utf8Size_pos
      rw [byteLength_cons]
      omega

/-- A text of that many spaces: one byte each, so it fills the place of any text of that size. -/
def spaces (count : Nat) : List Char :=
  List.replicate count ' '

@[simp] theorem byteLength_spaces (count : Nat) : byteLength (spaces count) = count := by
  induction count with
  | zero => rfl
  | succ count ih =>
      rw [spaces, List.replicate_succ, byteLength_cons, ← spaces, ih]
      change 1 + count = count + 1
      omega

/-- Cuts the text before the given byte; `none` inside a character and past the end. -/
def splitAtByte? (offset : Nat) (text : List Char) : Option (List Char × List Char) :=
  go [] offset text
where
  /-- Here `passed` holds the characters before the cut, the last one first. -/
  go (passed : List Char) : Nat → List Char → Option (List Char × List Char)
    | 0, rest => some (passed.reverse, rest)
    | _ + 1, [] => none
    | bytes + 1, c :: rest =>
      if c.utf8Size ≤ bytes + 1 then go (c :: passed) (bytes + 1 - c.utf8Size) rest else none

theorem splitAtByte?_go_append (passed left right : List Char) :
    splitAtByte?.go passed (byteLength left) (left ++ right) = some (passed.reverse ++ left, right) := by
  induction left generalizing passed with
  | nil => simp [splitAtByte?.go]
  | cons c rest ih =>
      have hpos := c.utf8Size_pos
      obtain ⟨bytes, hbytes⟩ : ∃ bytes, byteLength (c :: rest) = bytes + 1 :=
        ⟨byteLength (c :: rest) - 1, by rw [byteLength_cons]; omega⟩
      have hrest : bytes + 1 - c.utf8Size = byteLength rest := by
        rw [← hbytes, byteLength_cons]
        omega
      have hle : c.utf8Size ≤ bytes + 1 := by
        rw [← hbytes, byteLength_cons]
        omega
      rw [hbytes, List.cons_append, splitAtByte?.go, if_pos hle, hrest, ih]
      simp

theorem splitAtByte?_append (left right : List Char) :
    splitAtByte? (byteLength left) (left ++ right) = some (left, right) := by
  simpa [splitAtByte?] using splitAtByte?_go_append [] left right

theorem splitAtByte?_go_eq_some {passed text left right : List Char} {bytes : Nat}
    (h : splitAtByte?.go passed bytes text = some (left, right)) :
    left ++ right = passed.reverse ++ text ∧ byteLength left = byteLength passed + bytes := by
  fun_induction splitAtByte?.go passed bytes text with
  | case1 passed rest =>
      obtain ⟨rfl, rfl⟩ := Prod.mk.inj (Option.some.inj h)
      exact ⟨rfl, byteLength_reverse passed⟩
  | case2 => cases h
  | case3 passed bytes c rest hle ih =>
      obtain ⟨htext, hsize⟩ := ih h
      constructor
      · simpa using htext
      · rw [hsize, byteLength_cons]
        omega
  | case4 => cases h

/-- The two parts of a cut make up the text, and the first one has the size asked for. -/
theorem splitAtByte?_eq_some {offset : Nat} {text left right : List Char}
    (h : splitAtByte? offset text = some (left, right)) :
    text = left ++ right ∧ byteLength left = offset := by
  obtain ⟨htext, hsize⟩ := splitAtByte?_go_eq_some h
  exact ⟨by simpa using htext.symm, by simpa using hsize⟩

end SqlGate
