import SqlGate.Proofs.LimitTwice

/-! Where the limit of a statement comes to stand behind a number sign. MySQL and MariaDB read `#` to the end of
the line for a comment, and a limit in it is none. A number sign that has quoting behind it on its line is a
hazard, and such a statement is left as it is; any other one is passed over. -/

namespace SqlGate

open Unicode

/-- In front of a place and on its line the statement has a number sign in its code, and `line` is the rest of the
line from that sign on. -/
def HashInFront (sql : List Char) (place : Nat) (line : List Char) : Prop :=
  ∃ front later gap rest, lexemes sql = front ++ .code '#' :: later ∧ later.flatMap Lexeme.text = gap ++ rest ∧
    '\n' ∉ gap ∧ place = byteLength (front.flatMap Lexeme.text) + byteLength ('#' :: gap) ∧
    line = ('#' :: later.flatMap Lexeme.text).takeWhile (· != '\n')

/-- The place of the count or of the new clause. -/
def Slot.place : Slot → Nat
  | written count => count.start
  | clause place _ _ _ => place

theorem hashInFront_iff {sql line : List Char} {left right : List Lexeme} (h : lexemes sql = left ++ right) :
    HashInFront sql (byteLength (left.flatMap Lexeme.text)) line ↔
      ∃ front tail, left = front ++ .code '#' :: tail ∧ '\n' ∉ tail.flatMap Lexeme.text ∧
        line = ('#' :: (tail ++ right).flatMap Lexeme.text).takeWhile (· != '\n') := by
  constructor
  · rintro ⟨front, later, gap, rest, hcut, htext, hgap, hplace, rfl⟩
    rw [h] at hcut
    rw [byteLength_cons] at hplace
    have hpos := '#'.utf8Size_pos
    rcases cut_of_append hcut with ⟨tail, rfl, rfl⟩ | ⟨more, rfl, -⟩
    · refine ⟨front, tail, rfl, ?_, rfl⟩
      have hsize : byteLength (tail.flatMap Lexeme.text) = byteLength gap := by
        simp only [List.flatMap_append, List.flatMap_cons, byteLength_append, byteLength_cons, Lexeme.text,
          byteLength_nil] at hplace
        omega
      rw [List.flatMap_append] at htext
      rwa [(eq_of_byteLength_eq htext hsize).1]
    · -- The sign would stand behind the edge.
      rw [List.flatMap_append, byteLength_append] at hplace
      omega
  · rintro ⟨front, tail, rfl, hline, rfl⟩
    refine ⟨front, tail ++ right, tail.flatMap Lexeme.text, right.flatMap Lexeme.text, ?_, ?_, hline, ?_, rfl⟩
    · rw [h, List.append_assoc, List.cons_append]
    · rw [List.flatMap_append]
    · simp only [List.flatMap_append, List.flatMap_cons, byteLength_append, byteLength_cons, Lexeme.text,
        byteLength_nil, Nat.add_zero]

theorem exists_hashInFront_iff {sql again : List Char} {left right more : List Lexeme}
    (hsql : lexemes sql = left ++ right) (hagain : lexemes again = left ++ more) :
    (∃ line, HashInFront again (byteLength (left.flatMap Lexeme.text)) line) ↔
      ∃ line, HashInFront sql (byteLength (left.flatMap Lexeme.text)) line := by
  have hsame : ∀ {text : List Char} {pieces : List Lexeme}, lexemes text = left ++ pieces →
      ((∃ line, HashInFront text (byteLength (left.flatMap Lexeme.text)) line) ↔
        ∃ front tail, left = front ++ .code '#' :: tail ∧ '\n' ∉ tail.flatMap Lexeme.text) := by
    intro text pieces htext
    constructor
    · rintro ⟨line, hline⟩
      obtain ⟨front, tail, hleft, htail, -⟩ := (hashInFront_iff htext).mp hline
      exact ⟨front, tail, hleft, htail⟩
    · rintro ⟨front, tail, hleft, htail⟩
      exact ⟨_, (hashInFront_iff htext).mpr ⟨front, tail, hleft, htail, rfl⟩⟩
  rw [hsame hsql, hsame hagain]

theorem HashInFront.opensQuoting_eq_false {sql line : List Char} {place : Nat} (h : HashInFront sql place line)
    {database : Database} (hnone : (Outline.of sql).hazardFor? database = none)
    (haffects : Hazard.hashComment.affects database = true) : opensQuoting line = false := by
  obtain ⟨front, later, gap, rest, hcut, -, -, -, rfl⟩ := h
  by_contra hquoting
  have hmem : (byteLength (front.flatMap Lexeme.text), Hazard.hashComment) ∈ (Outline.of sql).hazards :=
    Outline.mem_hazards_of_iff.mpr
      (Or.inr (Or.inr ⟨rfl, front, later, hcut, Bool.of_not_eq_false hquoting, rfl⟩))
  have hskipped := List.findSome?_eq_none_iff.mp hnone _ hmem
  dsimp only at hskipped
  rw [if_pos haffects] at hskipped
  cases hskipped

theorem SlotAt.exists_left {limiter : Limiter} {timing : Timing} {sql : List Char} {main : Cursor}
    {limit offset : Nat} {slot : Slot} {limited : Limited}
    (hslot : SlotAt sql main offset limiter.database.usesTop slot)
    (haccepts : limiter.Accepts timing sql main) (hlimit : limiter.limit sql ⟨limit, offset⟩ timing = .ok limited) :
    ∃ left right more, slot.place = byteLength (left.flatMap Lexeme.text) ∧ lexemes sql = left ++ right ∧
      lexemes limited.text = left ++ more := by
  cases slot with
  | written count =>
      obtain ⟨left, digits, right, hcount, hsite, -⟩ := Limiter.exists_written haccepts hslot
      have hplace : (Slot.written count).place = byteLength (left.flatMap Lexeme.text) := by
        rw [← Lexeme.byteLength_flatMap_blanked, hcount]
        rfl
      rw [Limiter.limit_written haccepts hslot hcount hsite rfl] at hlimit
      rw [← Except.ok.inj hlimit]
      split
      · exact ⟨left, _, _, hplace, hsite.lexemes_eq, hsite.lexemes_eq⟩
      · exact ⟨left, _, _, hplace, hsite.lexemes_eq,
          hsite.lexemes_joined (fun _ hc => isClauseChar_of_mem_decimal hc) Nat.toDigits_ne_nil⟩
  | clause place lead tail page =>
      obtain ⟨left, right, haround, hsite, hplace, -⟩ := Limiter.exists_clause haccepts hslot
      rw [Limiter.limit_clause haccepts hslot hsite hplace] at hlimit
      rw [← Except.ok.inj hlimit]
      rw [Lexeme.byteLength_flatMap_blanked] at hplace
      exact ⟨left, right, _, hplace, hsite.lexemes_eq,
        hsite.lexemes_joined (haround.all_numbered limit) (by simp)⟩

/-- Where MySQL and MariaDB are reported a limit, it stands behind a number sign on its line exactly where such a
sign is there in the statement before, and then nothing is quoted on that line. -/
theorem Limiter.hashInFront_apply {limiter : Limiter} {category : Category} {sql : List Char} {window : RowWindow}
    {timing : Timing} (hdatabase : limiter.database = .mySql ∨ limiter.database = .mariaDb)
    (hreports : (limiter.apply category sql window timing).outcome.effectiveLimit?.isSome) :
    ∃ main slot, limiter.Accepts timing sql main ∧ SlotAt sql main window.offset false slot ∧
      (slot.plan window.limit).apply sql = .ok (limiter.apply category sql window timing) ∧
      ((∃ line, HashInFront (limiter.apply category sql window timing).text slot.place line) ↔
        ∃ line, HashInFront sql slot.place line ∧ opensQuoting line = false) := by
  obtain ⟨limit, offset⟩ := window
  have htop : limiter.database.usesTop = false := by
    rcases hdatabase with h | h <;> rw [h] <;> rfl
  have haffects : Hazard.hashComment.affects limiter.database = true := by
    rcases hdatabase with h | h <;> rw [h] <;> rfl
  generalize hresult : limiter.apply category sql ⟨limit, offset⟩ timing = limited at hreports
  rw [apply] at hresult
  split at hresult
  · rw [run] at hresult
    split at hresult
    · next found hlimit =>
        subst hresult
        obtain ⟨main, slot, haccepts, hslot, happly⟩ := limit_eq_ok_iff.mp hlimit
        refine ⟨main, slot, haccepts, htop ▸ hslot, happly, ?_⟩
        obtain ⟨left, right, more, hplace, hsql, hagain⟩ := hslot.exists_left haccepts hlimit
        rw [hplace, exists_hashInFront_iff hsql hagain]
        refine exists_congr fun line => ⟨fun hline => ⟨hline, ?_⟩, And.left⟩
        exact hline.opensQuoting_eq_false haccepts.hazardFor?_eq_none haffects
    · rw [← hresult] at hreports
      cases hreports
  · rw [← hresult] at hreports
    cases hreports

/-- One number sign stands in a string and one in a comment, and none in the code. -/
theorem Limiter.hashInFront_apply_quoted :
    ((Limiter.usual .mySql).apply .readOnly "SELECT '#', a FROM t -- #\nWHERE a > 1".toList ⟨100, 0⟩).outcome =
        .inserted 100 ∧
      ∃ main slot, SlotAt "SELECT '#', a FROM t -- #\nWHERE a > 1".toList main 0 false slot ∧
        ¬∃ line, HashInFront ((Limiter.usual .mySql).apply .readOnly
          "SELECT '#', a FROM t -- #\nWHERE a > 1".toList ⟨100, 0⟩).text slot.place line := by
  have houtcome : ((Limiter.usual .mySql).apply .readOnly "SELECT '#', a FROM t -- #\nWHERE a > 1".toList
      ⟨100, 0⟩).outcome = .inserted 100 := by decide +kernel
  obtain ⟨main, slot, -, hslot, -, hiff⟩ := @hashInFront_apply (.usual .mySql) .readOnly
    "SELECT '#', a FROM t -- #\nWHERE a > 1".toList ⟨100, 0⟩ .atOnce (Or.inl rfl) (by rw [houtcome]; rfl)
  refine ⟨houtcome, main, slot, hslot, fun hhash => ?_⟩
  obtain ⟨line, ⟨front, later, gap, rest, hcut, -⟩, -⟩ := hiff.mp hhash
  have hmem : Lexeme.code '#' ∈ lexemes "SELECT '#', a FROM t -- #\nWHERE a > 1".toList := by
    rw [hcut]
    simp
  exact absurd hmem (by decide +kernel)

/-- Behind a number sign a new limit is put at the end of the line, and a limit that is there is read. -/
theorem Limiter.exists_hashInFront_of_reported :
    ((Limiter.usual .mySql).apply .readOnly "SELECT * FROM t # all rows".toList ⟨100, 0⟩ =
        ⟨"SELECT * FROM t # all rows LIMIT 100".toList, .inserted 100⟩ ∧
      ∃ line, HashInFront "SELECT * FROM t # all rows LIMIT 100".toList 26 line) ∧
    ((Limiter.usual .mySql).apply .readOnly "SELECT * FROM t # LIMIT 5".toList ⟨100, 0⟩ =
        ⟨"SELECT * FROM t # LIMIT 5".toList, .withinLimit 5⟩ ∧
      ∃ line, HashInFront "SELECT * FROM t # LIMIT 5".toList 24 line) := by
  refine ⟨⟨by decide +kernel, "# all rows LIMIT 100".toList, ?_⟩, ⟨by decide +kernel, "# LIMIT 5".toList, ?_⟩⟩
  · exact ⟨"SELECT * FROM t ".toList.map .code, " all rows LIMIT 100".toList.map .code, " all rows".toList,
      " LIMIT 100".toList, by decide +kernel, by decide, by decide, by decide, by decide⟩
  · exact ⟨"SELECT * FROM t ".toList.map .code, " LIMIT 5".toList.map .code, " LIMIT ".toList, "5".toList,
      by decide +kernel, by decide, by decide, by decide, by decide⟩

end SqlGate
