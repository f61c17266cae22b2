import SqlGate.Proofs.Gaps

/-! A count written anew is found again: with other digits in its place, the main query begins where it did
and the count is the slot of the limit as before. -/

namespace SqlGate

open Unicode

namespace Cursor

variable {before after : List Char} {x : Char}

theorem letters?_of_isDigit {keyword : List Char} (hkey : isKeyword keyword = true) (hx : isDigit x = true) :
    (between before (x :: after)).letters? keyword = none := by
  by_contra hsome
  obtain ⟨found, hfound⟩ := Option.ne_none_iff_exists'.mp hsome
  obtain ⟨word, rest, htext, hspelled, -⟩ := letters?_eq_some_iff.mp hfound
  cases word with
  | nil => exact hspelled.ne_nil hkey rfl
  | cons c word =>
      obtain ⟨rfl, -⟩ := List.cons.inj htext
      rw [hspelled.isDigit_eq_false hkey x List.mem_cons_self] at hx
      cases hx

theorem word?_of_isDigit {keyword : List Char} (hkey : isKeyword keyword = true) (hx : isDigit x = true) :
    (between before (x :: after)).word? keyword = none := by
  rw [word?, letters?_of_isDigit hkey hx]
  rfl

theorem anyWord?_of_isDigit {keywords : List (List Char)} (hkeys : ∀ keyword ∈ keywords, isKeyword keyword = true)
    (hx : isDigit x = true) : (between before (x :: after)).anyWord? keywords = none := by
  rw [anyWord?, List.findSome?_eq_none_iff]
  intro keyword hmem
  exact word?_of_isDigit (hkeys keyword hmem) hx

theorem fetchCount?_of_isDigit (hx : isDigit x = true) : (between before (x :: after)).fetchCount? = none := by
  rw [fetchCount?, word?_of_isDigit (by decide) hx]
  rfl

theorem limitCount?_of_isDigit (hx : isDigit x = true) : (between before (x :: after)).limitCount? = none := by
  rw [limitCount?, word?_of_isDigit (by decide) hx]
  rfl

end Cursor

namespace Recount

variable {front digits other rest sql again before gap : List Char} {main : Cursor} {count : WrittenCount}

/-- The place in front of the digits that a place in front of them is alike to. -/
theorem Alike.eq_between {c : Cursor}
    (h : Alike (before ++ gap) digits other rest (.between before (gap ++ (digits ++ rest))) c) (hne : gap ≠ []) :
    c = .between before (gap ++ (other ++ rest)) := by
  have hpos := List.length_pos_iff.mpr hne
  generalize hc : Cursor.between before (gap ++ (digits ++ rest)) = place at h
  cases h with
  | @before read later hfront =>
      have hrest : gap ++ (digits ++ rest) = later ++ (digits ++ rest) := congrArg Cursor.rest hc
      obtain rfl := List.append_cancel_right hrest
      obtain rfl := List.append_cancel_right hfront
      rfl
  | @after read later hrest =>
      have htail : gap ++ (digits ++ rest) = later := congrArg Cursor.rest hc
      have hlength := congrArg List.length htail
      rw [hrest] at hlength
      simp only [List.length_append] at hlength
      omega

theorem mainSelect? (h : Recount (before ++ gap) digits other rest)
    (hsql : (Outline.of sql).text = before ++ gap ++ (digits ++ rest))
    (hagain : (Outline.of again).text = before ++ gap ++ (other ++ rest)) (hne : gap ≠ [])
    (hmain : (Outline.of sql).mainSelect? = some (.between before (gap ++ (digits ++ rest)))) :
    (Outline.of again).mainSelect? = some (.between before (gap ++ (other ++ rest))) := by
  have hread : ∀ c place, Alike (before ++ gap) digits other rest c place →
      Option.Rel (Alike (before ++ gap) digits other rest) ((c.word? "SELECT".toList).map fun _ => c)
        ((place.word? "SELECT".toList).map fun _ => place) := fun c place hc =>
    rel_map (h.readAlike.word? (by decide) hc) fun _ _ _ => hc
  have hdigit : ∀ left x right, isDigit x = true →
      ((Cursor.between left (x :: right)).word? "SELECT".toList).map (fun _ => Cursor.between left (x :: right)) = none := by
    intro left x right hx
    rw [Cursor.word?_of_isDigit (by decide) hx]
    rfl
  have hrel := h.findTopLevel? hsql hagain (Nat.zero_le _) hread hdigit
  rw [Outline.mainSelect?] at hmain ⊢
  rw [hmain] at hrel
  generalize (Outline.of again).findTopLevel? 0 _ = found at hrel
  cases hrel with
  | some halike => rw [Alike.eq_between halike hne]

theorem search (h : Recount front digits other rest) (hsql : (Outline.of sql).text = front ++ (digits ++ rest))
    (hagain : (Outline.of again).text = front ++ (other ++ rest)) {start : Nat} (hstart : start ≤ byteLength front)
    {read : Cursor → Option WrittenCount}
    (hread : ∀ c place, Alike front digits other rest c place → Option.Rel (AlikeCount front other) (read c) (read place))
    (hdigit : ∀ left x right, isDigit x = true → read (.between left (x :: right)) = none)
    (hfound : (Outline.of sql).findTopLevel? start read = some (.after front digits)) :
    (Outline.of again).findTopLevel? start read = some (.after front other) := by
  have hrel := h.findTopLevel? hsql hagain hstart hread hdigit
  rw [hfound] at hrel
  generalize (Outline.of again).findTopLevel? start read = found at hrel
  cases hrel with
  | some hcount => rw [hcount rfl]

theorem search_eq_none {α : Type} {R : α → α → Prop} (h : Recount front digits other rest)
    (hsql : (Outline.of sql).text = front ++ (digits ++ rest))
    (hagain : (Outline.of again).text = front ++ (other ++ rest)) {start : Nat} (hstart : start ≤ byteLength front)
    {read : Cursor → Option α}
    (hread : ∀ c place, Alike front digits other rest c place → Option.Rel R (read c) (read place))
    (hdigit : ∀ left x right, isDigit x = true → read (.between left (x :: right)) = none)
    (hnone : (Outline.of sql).findTopLevel? start read = none) :
    (Outline.of again).findTopLevel? start read = none := by
  have hrel := h.findTopLevel? hsql hagain hstart hread hdigit
  rw [hnone] at hrel
  generalize (Outline.of again).findTopLevel? start read = found at hrel
  cases hrel with
  | none => rfl

/-- The count of a `TOP` stays its count. -/
theorem topForm?_again (h : Recount (before ++ gap) digits other rest)
    (htop : (Cursor.between before (gap ++ (digits ++ rest))).topForm? = some (.rows (.after (before ++ gap) digits))) :
    (Cursor.between before (gap ++ (other ++ rest))).topForm? = some (.rows (.after (before ++ gap) other)) := by
  have hrel := h.readAlike.topForm? (Alike.before rfl)
  rw [htop] at hrel
  generalize (Cursor.between before (gap ++ (other ++ rest))).topForm? = found at hrel
  cases hrel with
  | some htopForm =>
      cases htopForm with
      | rows hcount => rw [hcount rfl]

/-- The count stays the slot of the limit when it is written anew. -/
theorem slotAt (h : Recount (before ++ gap) digits other rest)
    (hsql : (Outline.of sql).text = before ++ gap ++ (digits ++ rest))
    (hagain : (Outline.of again).text = before ++ gap ++ (other ++ rest)) {offset : Nat} {top : Bool}
    (hslot : SlotAt sql (.between before (gap ++ (digits ++ rest))) offset top
      (.written (.after (before ++ gap) digits))) :
    SlotAt again (.between before (gap ++ (other ++ rest))) offset top (.written (.after (before ++ gap) other)) := by
  have hstart : byteLength before ≤ byteLength (before ++ gap) := by
    rw [byteLength_append]
    exact Nat.le_add_right _ _
  generalize hcount : Slot.written (.after (before ++ gap) digits) = slot at hslot
  cases hslot with
  | fetch hfetch =>
      obtain rfl := Slot.written.inj hcount
      refine .fetch (h.search hsql hagain hstart (fun _ _ => h.readAlike.fetchCount?) ?_ hfetch)
      exact fun _ _ _ => Cursor.fetchCount?_of_isDigit
  | offsetRows hfetch hoffset => cases hcount
  | top hpaging htop =>
      obtain rfl := Slot.written.inj hcount
      refine .top ?_ ?_
      · refine h.search_eq_none hsql hagain hstart (fun _ _ hc => h.readAlike.anyWord? (by decide) hc) ?_ hpaging
        exact fun _ _ _ => Cursor.anyWord?_of_isDigit (by decide)
      · exact h.topForm?_again htop
  | page hpaging htop hpos => exact absurd hcount.symm (Slot.atEnd_ne_written _ _ _ _ _ _)
  | head hpaging htop hzero hhead => cases hcount
  | limit hfetch hlimit =>
      obtain rfl := Slot.written.inj hcount
      refine .limit ?_ ?_
      · refine h.search_eq_none hsql hagain hstart (fun _ _ => h.readAlike.fetchCount?) ?_ hfetch
        exact fun _ _ _ => Cursor.fetchCount?_of_isDigit
      · refine h.search hsql hagain hstart (fun _ _ => h.readAlike.limitCount?) ?_ hlimit
        exact fun _ _ _ => Cursor.limitCount?_of_isDigit
  | bareOffset hfetch hlimit hoffset => cases hcount
  | pageLimit hpaging hpos => exact absurd hcount.symm (Slot.atEnd_ne_written _ _ _ _ _ _)
  | newLimit hpaging hzero => exact absurd hcount.symm (Slot.atEnd_ne_written _ _ _ _ _ _)

end Recount

end SqlGate
