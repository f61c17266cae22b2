import SqlGate.Proofs.Readers
import SqlGate.Proofs.Splice

/-! The depth of parentheses at a cut of the outline, and what is found outside all parentheses: the
first cut from a place on at which a reader gives something. -/

namespace SqlGate

/-- The parentheses that are open after a text in front of which `depth` are open. -/
def openAfter (depth : Nat) (text : List Char) : Nat :=
  text.foldl (fun depth c => if c = '(' then depth + 1 else if c = ')' then depth - 1 else depth) depth

/-- The depth of the character at a cut; none at the end of the text. -/
def depthBetween (front : List Char) : List Char → Nat
  | [] => 0
  | c :: _ => if c = ')' then openAfter 0 front - 1 else openAfter 0 front

theorem openAfter_append (depth : Nat) (left right : List Char) :
    openAfter depth (left ++ right) = openAfter (openAfter depth left) right :=
  List.foldl_append

theorem openAfter_of_notMem {text : List Char} (hopen : '(' ∉ text) (hclose : ')' ∉ text) (depth : Nat) :
    openAfter depth text = depth := by
  induction text generalizing depth with
  | nil => rfl
  | cons c text ih =>
      rw [List.mem_cons, not_or] at hopen hclose
      rw [openAfter, List.foldl_cons, if_neg (Ne.symm hopen.1), if_neg (Ne.symm hclose.1), ← openAfter,
        ih hopen.2 hclose.2]

theorem depthBetween_congr {front other rest after : List Char} (hopen : openAfter 0 front = openAfter 0 other)
    (hhead : rest.head? = after.head?) : depthBetween front rest = depthBetween other after := by
  cases rest with
  | nil =>
      rw [List.head?_nil] at hhead
      rw [List.head?_eq_none_iff.mp hhead.symm]
      rfl
  | cons c rest =>
      rw [List.head?_cons] at hhead
      obtain ⟨tail, rfl⟩ := List.head?_eq_some_iff.mp hhead.symm
      rw [depthBetween, depthBetween, hopen]

namespace Lexeme

/-- The number of open parentheses behind a piece in front of which `depth` are open: code opens and closes them. -/
def nested (depth : Nat) : Lexeme → Nat
  | .code c => if c = '(' then depth + 1 else if c = ')' then depth - 1 else depth
  | .quoted _ _ | .block _ _ | .line _ => depth

theorem nested_of_isComment {piece : Lexeme} (h : piece.isComment = true) (depth : Nat) : nested depth piece = depth := by
  cases piece with
  | code c => cases h
  | quoted quote body => cases h
  | block body closed => rfl
  | line body => rfl

/-- No parenthesis is shown but of code. -/
theorem eq_code_or_ne_paren {piece : Lexeme} {c : Char} (hc : c ∈ piece.blanked) :
    piece = code c ∨ c ≠ '(' ∧ c ≠ ')' := by
  rcases mem_blanked_cases hc with hcode | rfl | ⟨quote, rfl | rfl⟩
  · exact Or.inl hcode
  · exact Or.inr (by decide)
  · exact Or.inr (by cases quote <;> decide)
  · exact Or.inr (by cases quote <;> decide)

theorem openAfter_blanked (depth : Nat) (piece : Lexeme) : openAfter depth piece.blanked = nested depth piece := by
  by_cases hcode : ∃ c, piece = code c
  · obtain ⟨c, rfl⟩ := hcode
    rfl
  · have hplain : ∀ c ∈ piece.blanked, c ≠ '(' ∧ c ≠ ')' := fun c hc =>
      (eq_code_or_ne_paren hc).resolve_left fun hsame => hcode ⟨c, hsame⟩
    rw [openAfter_of_notMem (fun hmem => (hplain _ hmem).1 rfl) (fun hmem => (hplain _ hmem).2 rfl)]
    cases piece with
    | code c => exact absurd ⟨c, rfl⟩ hcode
    | _ => rfl

theorem openAfter_flatMap_blanked (depth : Nat) (pieces : List Lexeme) :
    openAfter depth (pieces.flatMap blanked) = pieces.foldl nested depth := by
  induction pieces generalizing depth with
  | nil => rfl
  | cons piece pieces ih => rw [List.flatMap_cons, openAfter_append, openAfter_blanked, ih, List.foldl_cons]

end Lexeme

namespace nesting

theorem fst_foldl_read (state : Nat × Array Nat) (text : List Char) :
    (text.foldl read state).1 = openAfter state.1 text := by
  induction text generalizing state with
  | nil => rfl
  | cons c text ih =>
      obtain ⟨depth, depths⟩ := state
      rw [List.foldl_cons, ih, openAfter, openAfter, List.foldl_cons]
      congr 1
      by_cases hopen : c = '('
      · simp [read, hopen]
      · by_cases hclose : c = ')'
        · simp [read, hclose]
        · simp [read, hopen, hclose]

theorem getElem?_read (state : Nat × Array Nat) (c : Char) {place : Nat} (hplace : place < state.2.size) :
    (read state c).2[place]? = state.2[place]? := by
  obtain ⟨depth, depths⟩ := state
  have hne : place ≠ depths.size := Nat.ne_of_lt hplace
  by_cases hopen : c = '('
  · simp [read, hopen, Array.getElem?_push, hne]
  · by_cases hclose : c = ')'
    · simp [read, hclose, Array.getElem?_push, hne]
    · simp only [read, hopen, hclose, if_false]
      exact Array.getElem?_append_left hplace

/-- What has been written of the depths stays. -/
theorem getElem?_foldl_read (state : Nat × Array Nat) (text : List Char) {place : Nat}
    (hplace : place < state.2.size) : (text.foldl read state).2[place]? = state.2[place]? := by
  induction text generalizing state with
  | nil => rfl
  | cons c text ih =>
      have hgrown : place < (read state c).2.size := by
        have hsize := size_foldl state [c]
        rw [List.foldl_cons, List.foldl_nil] at hsize
        omega
      rw [List.foldl_cons, ih _ hgrown, getElem?_read state c hplace]

theorem getElem?_read_within (state : Nat × Array Nat) {c : Char} {within : Nat} (hwithin : within < c.utf8Size) :
    (read state c).2[state.2.size + within]? = some (if c = ')' then state.1 - 1 else state.1) := by
  by_cases hopen : c = '('
  · subst hopen
    obtain rfl : within = 0 := Nat.lt_one_iff.mp hwithin
    simp [read]
  · by_cases hclose : c = ')'
    · subst hclose
      obtain rfl : within = 0 := Nat.lt_one_iff.mp hwithin
      simp [read]
    · simp [read, hopen, hclose, hwithin]

end nesting

/-- All bytes of a character have its depth. -/
theorem getD_nesting_within (front rest : List Char) {c : Char} {within : Nat} (hwithin : within < c.utf8Size) :
    (nesting (front ++ c :: rest)).getD (byteLength front + within) 0 = depthBetween front (c :: rest) := by
  have hsize : (front.foldl nesting.read (0, #[])).2.size = byteLength front := by
    rw [nesting.size_foldl]
    simp
  have hgrown : byteLength front + within < (nesting.read (front.foldl nesting.read (0, #[])) c).2.size := by
    have hstep := nesting.size_foldl (front.foldl nesting.read (0, #[])) [c]
    rw [List.foldl_cons, List.foldl_nil, hsize, byteLength_cons, byteLength_nil] at hstep
    omega
  rw [Array.getD_eq_getD_getElem?, nesting, List.foldl_append, List.foldl_cons,
    nesting.getElem?_foldl_read _ _ hgrown]
  have hread := nesting.getElem?_read_within (front.foldl nesting.read (0, #[])) hwithin
  rw [hsize, nesting.fst_foldl_read] at hread
  rw [hread]
  rfl

theorem getD_nesting (front rest : List Char) :
    (nesting (front ++ rest)).getD (byteLength front) 0 = depthBetween front rest := by
  cases rest with
  | nil =>
      rw [List.append_nil, Array.getD_eq_getD_getElem?, ← size_nesting front, Array.getElem?_size]
      rfl
  | cons c rest => exact getD_nesting_within front rest c.utf8Size_pos

namespace Cursor

variable {α : Type} {read : Cursor → Option α} {found : α}

/-- What is found is read at the first cut at which anything can be read. -/
theorem find?_between_eq_some_iff {front rest : List Char} :
    (between front rest).find? read = some found ↔
      ∃ passed after, rest = passed ++ after ∧ read (between (front ++ passed) after) = some found ∧
        ∀ early late, rest = early ++ late → early.length < passed.length →
          read (between (front ++ early) late) = none := by
  induction rest generalizing front with
  | nil =>
      rw [find?_between_nil]
      constructor
      · intro h
        exact ⟨[], [], rfl, by rwa [List.append_nil], by simp⟩
      · rintro ⟨passed, after, hrest, h, -⟩
        obtain ⟨rfl, rfl⟩ := List.append_eq_nil_iff.mp hrest.symm
        rwa [List.append_nil] at h
  | cons x rest ih =>
      rw [find?_between_cons]
      cases hread : read (between front (x :: rest)) with
      | some value =>
          constructor
          · intro h
            exact ⟨[], x :: rest, rfl, by rwa [List.append_nil, hread], by simp⟩
          · rintro ⟨passed, after, hrest, h, hearly⟩
            cases passed with
            | nil =>
                rw [List.nil_append] at hrest
                rwa [List.append_nil, ← hrest, hread] at h
            | cons y passed =>
                have hnone := hearly [] (x :: rest) rfl (by simp)
                rw [List.append_nil, hread] at hnone
                cases hnone
      | none =>
          refine ih.trans ?_
          constructor
          · rintro ⟨passed, after, rfl, h, hearly⟩
            refine ⟨x :: passed, after, rfl, by simpa using h, ?_⟩
            intro early late hrest hlt
            cases early with
            | nil =>
                rw [List.nil_append] at hrest
                rw [List.append_nil, ← hrest, hread]
            | cons y early =>
                obtain ⟨rfl, htail⟩ := List.cons.inj hrest
                simpa using hearly early late htail (by simpa using hlt)
          · rintro ⟨passed, after, hrest, h, hearly⟩
            cases passed with
            | nil =>
                rw [List.nil_append] at hrest
                rw [List.append_nil, ← hrest, hread] at h
                cases h
            | cons y passed =>
                obtain ⟨rfl, htail⟩ := List.cons.inj hrest
                refine ⟨passed, after, htail, by simpa using h, ?_⟩
                intro early late hsplit hlt
                simpa using hearly (x :: early) late (by rw [hsplit]; rfl) (by simpa using hlt)

end Cursor

/-- A cut of a text outside all parentheses, at byte `start` or a later one. -/
structure TopCut (text : List Char) (start : Nat) (front rest : List Char) : Prop where
  eq_append : text = front ++ rest
  start_le : start ≤ byteLength front
  depth_eq_zero : depthBetween front rest = 0

namespace Outline

theorem isTopLevel_iff {sql front rest : List Char} (h : (of sql).text = front ++ rest) :
    (of sql).isTopLevel (byteLength front) = true ↔ depthBetween front rest = 0 := by
  rw [isTopLevel, depthAt, depths_of, h, getD_nesting, decide_eq_true_eq]

section Search

variable {α : Type} {sql : List Char} {start : Nat} {read : Cursor → Option α} {found : α}

/-- The reader of a search, which looks outside all parentheses and from `start` on. -/
theorem readTop_eq {front rest : List Char} (h : (of sql).text = front ++ rest) :
    (if start ≤ (Cursor.between front rest).offset ∧ (of sql).isTopLevel (Cursor.between front rest).offset then
      read (Cursor.between front rest) else none) =
      if start ≤ byteLength front ∧ depthBetween front rest = 0 then read (Cursor.between front rest)
      else none := by
  refine if_congr (and_congr_right fun _ => ?_) rfl rfl
  exact isTopLevel_iff h

/-- What is found outside all parentheses is read at the first cut there that gives something. -/
theorem findTopLevel?_eq_some_iff :
    (of sql).findTopLevel? start read = some found ↔
      ∃ front rest, TopCut (of sql).text start front rest ∧ read (.between front rest) = some found ∧
        ∀ early late, TopCut (of sql).text start early late → early.length < front.length →
          read (.between early late) = none := by
  rw [findTopLevel?, Cursor.start_eq_between, Cursor.find?_between_eq_some_iff]
  simp only [List.nil_append]
  constructor
  · rintro ⟨front, rest, htext, hread, hearly⟩
    rw [readTop_eq htext] at hread
    split at hread
    · next htop =>
        refine ⟨front, rest, ⟨htext, htop.1, htop.2⟩, hread, fun early late hcut hlt => ?_⟩
        have hnone := hearly early late hcut.eq_append hlt
        rwa [readTop_eq hcut.eq_append, if_pos ⟨hcut.start_le, hcut.depth_eq_zero⟩] at hnone
    · cases hread
  · rintro ⟨front, rest, hcut, hread, hearly⟩
    refine ⟨front, rest, hcut.eq_append, ?_, fun early late htext hlt => ?_⟩
    · rw [readTop_eq hcut.eq_append, if_pos ⟨hcut.start_le, hcut.depth_eq_zero⟩, hread]
    · rw [readTop_eq htext]
      split
      · next htop => exact hearly early late ⟨htext, htop.1, htop.2⟩ hlt
      · rfl

theorem findTopLevel?_eq_none_iff :
    (of sql).findTopLevel? start read = none ↔
      ∀ front rest, TopCut (of sql).text start front rest → read (.between front rest) = none := by
  rw [findTopLevel?, Cursor.start_eq_between, Cursor.find?_between_eq_none_iff]
  simp only [List.nil_append]
  constructor
  · intro h front rest hcut
    have hnone := h front rest hcut.eq_append
    rwa [readTop_eq hcut.eq_append, if_pos ⟨hcut.start_le, hcut.depth_eq_zero⟩] at hnone
  · intro h front rest htext
    rw [readTop_eq htext]
    split
    · next htop => exact h front rest ⟨htext, htop.1, htop.2⟩
    · rfl

end Search

end Outline

end SqlGate
