import SqlGate.Proofs.LimitFrame
import SqlGate.Proofs.OneLimit

/-! Where a new clause is put and what it stands next to there. It goes behind words of its own, in front of a clause
that has to come later, or to the end of the code, and it keeps apart from the words on both sides. A clause that goes
behind words ends without a space, so a point that follows goes on with its number or its last word. -/

namespace SqlGate

open Unicode

/-- The limiter puts `clause` between the parts `before` and `after` of a statement: that is the edit it plans. -/
structure Limiter.PutsIn (limiter : Limiter) (sql : List Char) (window : RowWindow) (limited : Limited)
    (before clause after : List Char) : Prop where
  sql_eq : sql = before ++ after
  text_eq : limited.text = before ++ (clause ++ after)
  exists_plan : ∃ main, (Outline.of sql).mainSelect? = some main ∧
    Plan.forDatabase limiter.database (.of sql) main window =
      .ok ⟨some ⟨byteLength before, byteLength before, clause⟩, limited.outcome⟩

/-- Reads the clause that a new one is put in front of: an offset that is written as a number, where the main query
has one, and else a clause that has to come last. -/
def Outline.closing? (outline : Outline) (top : Bool) (c : Cursor) : Option Cursor :=
  if outline.writesOffset top then c.bareOffset? else c.trailingClause?

/-- The places of new clauses: behind words that they go on from, in front of the first clause that comes later, or at
the end of the code where there is none. -/
inductive ClausePlace (sql : List Char) (main : Cursor) (top : Bool) (page : Option Nat) (tail front rest : List Char) :
    Prop where
  | behind (htop : top = true) (hpage : page = none) (htail : tail = [] ∨ tail = " ROWS ONLY".toList)
  | inFront (hcut : TopCut (Outline.of sql).text main.offset front rest)
      (hread : ((Outline.of sql).closing? top (.between front rest)).isSome)
      (hfirst : ∀ early late, TopCut (Outline.of sql).text main.offset early late → early.length < front.length →
        (Outline.of sql).closing? top (.between early late) = none)
  | atEnd (hnone : (Outline.of sql).findTopLevel? main.offset ((Outline.of sql).closing? top) = none)
      (hrest : ∀ c ∈ rest, isBlank c = true ∨ c = ';')

namespace Outline

variable {sql front rest : List Char} {top : Bool}

theorem closing?_eq_bareOffset? (h : (of sql).writesOffset top = true) :
    (of sql).closing? top = Cursor.bareOffset? := by
  funext c
  rw [closing?, if_pos h]

theorem closing?_eq_trailingClause? (h : (of sql).writesOffset top = false) :
    (of sql).closing? top = Cursor.trailingClause? := by
  funext c
  rw [closing?, if_neg (Bool.not_eq_true _ ▸ h)]

theorem eq_of_closing? {after : Cursor} (h : (of sql).closing? top (.between front rest) = some after) :
    after = .between front rest := by
  rw [closing?] at h
  split at h
  · exact (Cursor.exists_wordAt_of_bareOffset h).1
  · exact (Cursor.exists_wordAt_of_trailingClause h).1

theorem head_of_closing? (h : ((of sql).closing? top (.between front rest)).isSome) :
    ∃ c, rest.head? = some c ∧ isWord c = true := by
  obtain ⟨after, hafter⟩ := Option.isSome_iff_exists.mp h
  rw [closing?] at hafter
  split at hafter
  · obtain ⟨-, hphrase⟩ := Cursor.exists_wordAt_of_bareOffset hafter
    obtain ⟨word, later, hat, -⟩ := hphrase.exists_wordAt
    exact hat.head_eq rfl
  · obtain ⟨-, hphrase⟩ := Cursor.exists_wordAt_of_trailingClause hafter
    obtain ⟨word, later, hat, -⟩ := hphrase.exists_wordAt
    exact hat.head_eq rfl

end Outline

namespace SlotAt

variable {sql lead tail front rest : List Char} {main : Cursor} {place offset : Nat} {page : Option Nat} {top : Bool}

/-- The place at the end of the main query, where the query writes no offset as a number. -/
theorem clausePlace_atEnd {more less : List Char} {named : Option Nat}
    (hmain : (Outline.of sql).mainSelect? = some main) (hwrites : (Outline.of sql).writesOffset top = false)
    (htext : (Outline.of sql).text = front ++ rest) (hplace : place = byteLength front)
    (hslot : Slot.clause place lead tail page = .atEnd (.of sql) main more less named) :
    ClausePlace sql main top page tail front rest := by
  have hclosing := Outline.closing?_eq_trailingClause? hwrites
  rw [Slot.atEnd] at hslot
  split at hslot
  · next trailing htrailing =>
      obtain ⟨early, late, hcut, hread, hfirst⟩ := Outline.findTopLevel?_eq_some_iff.mp htrailing
      obtain ⟨rfl, -⟩ := Cursor.exists_wordAt_of_trailingClause hread
      obtain ⟨hoffset, -⟩ := Slot.clause.inj hslot
      obtain ⟨rfl, rfl⟩ := eq_of_byteLength_eq (htext.symm.trans hcut.eq_append) (hplace.symm.trans hoffset)
      rw [← hclosing] at hread hfirst
      exact .inFront hcut (Option.isSome_of_mem hread) hfirst
  · next hnone =>
      obtain ⟨hend, -⟩ := Slot.clause.inj hslot
      obtain ⟨before, after, -, hphrase, -⟩ := Outline.mainSelect?_eq_some_iff.mp hmain
      obtain ⟨word, later, hat, -⟩ := hphrase.exists_wordAt
      obtain ⟨gap, last, hcut, hcode, -, hlast⟩ := Outline.exists_endOfCode hat
      obtain ⟨rfl, rfl⟩ := eq_of_byteLength_eq (htext.symm.trans hcut) (hplace.symm.trans (hend.trans hcode))
      rw [← hclosing] at hnone
      exact .atEnd hnone hlast

theorem clausePlace (h : SlotAt sql main offset top (.clause place lead tail page))
    (hmain : (Outline.of sql).mainSelect? = some main) (htext : (Outline.of sql).text = front ++ rest)
    (hplace : place = byteLength front) : ClausePlace sql main top page tail front rest := by
  have hwrites : ∀ {keywords : List (List Char)}, "OFFSET".toList ∈ keywords →
      (Outline.of sql).findTopLevel? main.offset (·.anyWord? keywords) = none →
        (Outline.of sql).writesOffset top = false := by
    intro keywords hmem hnone
    have hrows := Outline.findTopLevel?_eq_none_of_anyWord? hnone fun _ _ _ => Cursor.anyWord?_of_offsetRows? hmem
    have hbare := Outline.findTopLevel?_eq_none_of_anyWord? hnone fun _ _ _ => Cursor.anyWord?_of_bareOffset? hmem
    unfold Outline.writesOffset
    rw [hmain]
    dsimp only
    rw [hrows, hbare, Option.isSome_none, ite_self]
  generalize hslot : Slot.clause place lead tail page = slot at h
  cases h with
  | fetch hcount => cases hslot
  | offsetRows hfetch hoffset =>
      obtain ⟨-, -, rfl, rfl⟩ := Slot.clause.inj hslot
      exact .behind rfl rfl (Or.inr rfl)
  | top hpaging hcount => cases hslot
  | page hpaging htop hpos => exact clausePlace_atEnd hmain (hwrites (by decide) hpaging) htext hplace hslot
  | head hpaging htop hzero hhead =>
      obtain ⟨-, -, rfl, rfl⟩ := Slot.clause.inj hslot
      exact .behind rfl rfl (Or.inl rfl)
  | limit hfetch hcount => cases hslot
  | bareOffset hfetch hlimit hoffset =>
      obtain ⟨rfl, -⟩ := Slot.clause.inj hslot
      have hclosing : (Outline.of sql).closing? false = Cursor.bareOffset? := by
        refine Outline.closing?_eq_bareOffset? ?_
        simp [Outline.writesOffset, hmain, hoffset]
      obtain ⟨early, late, hcut, hread, hfirst⟩ := Outline.findTopLevel?_eq_some_iff.mp hoffset
      obtain ⟨rfl, -⟩ := Cursor.exists_wordAt_of_bareOffset hread
      obtain ⟨rfl, rfl⟩ := eq_of_byteLength_eq (htext.symm.trans hcut.eq_append) hplace.symm
      rw [← hclosing] at hread hfirst
      exact .inFront hcut (Option.isSome_of_mem hread) hfirst
  | pageLimit hpaging hpos => exact clausePlace_atEnd hmain (hwrites (by decide) hpaging) htext hplace hslot
  | newLimit hpaging hzero => exact clausePlace_atEnd hmain (hwrites (by decide) hpaging) htext hplace hslot

end SlotAt

theorem Limiter.exists_putsIn {limiter : Limiter} {category : Category} {sql : List Char} {window : RowWindow}
    {timing : Timing} {limit offset : Nat}
    (hadded : (limiter.apply category sql window timing).outcome = .inserted limit ∨
      (limiter.apply category sql window timing).outcome = .paginated offset limit) :
    ∃ main lead tail page left right, (Outline.of sql).mainSelect? = some main ∧ Site sql left [] right ∧
      Insertion (left.flatMap Lexeme.blanked) (lead ++ (Nat.toDigits 10 window.limit ++ tail))
        (right.flatMap Lexeme.blanked) ∧
      ClausePlace sql main limiter.database.usesTop page tail (left.flatMap Lexeme.blanked)
        (right.flatMap Lexeme.blanked) ∧
      (limiter.apply category sql window timing).outcome = Slot.outcome page window.limit ∧
      limiter.PutsIn sql window (limiter.apply category sql window timing) (left.flatMap Lexeme.text)
        (lead ++ (Nat.toDigits 10 window.limit ++ tail)) (right.flatMap Lexeme.text) := by
  obtain ⟨main, place, lead, tail, page, haccepts, hslot, -⟩ := exists_clause_of_outcome hadded
  have hmain := haccepts.mainSelect?_eq
  obtain ⟨front, rest, hgap⟩ := hslot.exists_gapAt hmain
  obtain ⟨left, right, hsite, rfl, rfl⟩ := hgap.site
  have hlimited := Except.ok.inj
    ((limit_of_added hadded).symm.trans (limit_clause haccepts hslot hsite hgap.place_eq window.limit))
  refine ⟨main, lead, tail, page, left, right, hmain, hsite, hgap.insertion window.limit,
    hslot.clausePlace hmain hgap.eq_append hgap.place_eq, by rw [hlimited], hsite.eq_joined, ?_, main, hmain, ?_⟩
  · rw [hlimited, joined, List.append_assoc]
  · rw [hlimited, ← Lexeme.byteLength_flatMap_blanked, ← hgap.place_eq]
    exact Plan.forDatabase_eq_ok_iff.mpr ⟨_, hslot, rfl⟩

/-- Nothing goes on over the edges of a clause: no word does, and no point goes on with its last word or number. -/
structure StandsApart (before clause after : List Char) : Prop where
  left : Apart before clause
  right : Apart clause after
  point : ∀ c, clause.getLast? = some c → isWord c = true → after.head? ≠ some '.'

namespace Site

variable {sql old code : List Char} {left right : List Lexeme}

theorem apart_left (h : Site sql left old right) (hapart : Apart (left.flatMap Lexeme.blanked) code) :
    Apart (left.flatMap Lexeme.text) code := by
  intro c d hc hd hword
  rw [← Lexeme.shown_zero 0] at hc
  exact hapart c d (Lexeme.getLast_of_shown h.settled hc hword) hd hword

end Site

theorem Lexeme.apart_right {code : List Char} {right : List Lexeme} (hapart : Apart code (right.flatMap blanked)) :
    Apart code (right.flatMap Lexeme.text) := by
  intro c d hc hd hword
  by_contra hdWord
  rw [← shown_zero 0] at hd
  exact hdWord (hapart c d hc (head_blanked_of_shown hd (Bool.of_not_eq_false hdWord)) hword)

namespace ClausePlace

variable {sql tail front : List Char} {main : Cursor} {page : Option Nat} {top : Bool} {right : List Lexeme}

/-- A point follows only a clause that goes behind words of a query of SQL Server. -/
theorem of_point (h : ClausePlace sql main top page tail front (right.flatMap Lexeme.blanked))
    (hpoint : (right.flatMap Lexeme.text).head? = some '.') :
    top = true ∧ page = none ∧ (tail = [] ∨ tail = " ROWS ONLY".toList) := by
  rw [← Lexeme.shown_zero 0] at hpoint
  have hhead := Lexeme.head_blanked_of_ne hpoint (by decide)
  cases h with
  | behind htop hpage htail => exact ⟨htop, hpage, htail⟩
  | inFront hcut hread hfirst =>
      obtain ⟨c, hc, hword⟩ := Outline.head_of_closing? hread
      rw [hhead] at hc
      obtain rfl := Option.some.inj hc
      exact absurd hword (by decide)
  | atEnd hnone hrest => exact absurd (hrest _ (List.mem_of_head? hhead)) (by decide)

end ClausePlace

theorem exists_getLast_of_behind {tail : List Char} (htail : tail = [] ∨ tail = " ROWS ONLY".toList) (lead : List Char)
    (limit : Nat) : ∃ c, (lead ++ (Nat.toDigits 10 limit ++ tail)).getLast? = some c ∧ isWord c = true := by
  rcases htail with rfl | rfl
  · have hne : Nat.toDigits 10 limit ≠ [] := Nat.toDigits_ne_nil
    refine ⟨(Nat.toDigits 10 limit).getLast hne, ?_, ?_⟩
    · rw [List.append_nil, List.getLast?_append_of_ne_nil _ hne, List.getLast?_eq_some_getLast hne]
    · exact isWord_of_isDigit (isDigit_of_mem_decimal (List.getLast_mem hne))
  · refine ⟨'Y', ?_, by decide⟩
    rw [← List.append_assoc, List.getLast?_append_of_ne_nil _ (by decide)]
    rfl

/-- Wherever a clause is added it stands apart from what is next to it, exactly unless a point follows it, and a point
follows only the `TOP` or the `FETCH` that a query of SQL Server is given without an offset. -/
theorem Limiter.standsApart_iff {limiter : Limiter} {category : Category} {sql : List Char} {window : RowWindow}
    {timing : Timing} {limit offset : Nat}
    (hadded : (limiter.apply category sql window timing).outcome = .inserted limit ∨
      (limiter.apply category sql window timing).outcome = .paginated offset limit) :
    ∃ before clause after, limiter.PutsIn sql window (limiter.apply category sql window timing) before clause after ∧
      (StandsApart before clause after ↔ after.head? ≠ some '.') ∧
      (after.head? = some '.' → limiter.database.usesTop = true ∧
        (limiter.apply category sql window timing).outcome = .inserted window.limit) := by
  obtain ⟨main, lead, tail, page, left, right, hmain, hsite, hinsertion, hplace, houtcome, hputs⟩ :=
    exists_putsIn hadded
  refine ⟨_, _, _, hputs, ⟨fun hapart hpoint => ?_, fun hpoint => ?_⟩, fun hpoint => ?_⟩
  · obtain ⟨-, -, htail⟩ := hplace.of_point hpoint
    obtain ⟨c, hlast, hword⟩ := exists_getLast_of_behind htail lead window.limit
    exact hapart.point c hlast hword hpoint
  · exact ⟨hsite.apart_left hinsertion.apart_left, Lexeme.apart_right hinsertion.apart_right, fun _ _ _ => hpoint⟩
  · obtain ⟨htop, rfl, -⟩ := hplace.of_point hpoint
    exact ⟨htop, houtcome⟩

/-- A parenthesis may stand right behind a new `TOP`. -/
theorem Limiter.standsApart_iff_parenthesis : ∃ sql : List Char, sql = "SELECT(a)FROM t".toList ∧
    ((usual .sqlServer).apply .readOnly sql ⟨100, 0⟩).outcome = .inserted 100 ∧
    ∃ before clause after, (usual .sqlServer).PutsIn sql ⟨100, 0⟩ ((usual .sqlServer).apply .readOnly sql ⟨100, 0⟩)
      before clause after ∧ StandsApart before clause after := by
  have hadded : ((usual .sqlServer).apply .readOnly "SELECT(a)FROM t".toList ⟨100, 0⟩).outcome = .inserted 100 := by
    decide +kernel
  obtain ⟨before, clause, after, hputs, hapart, -⟩ := @standsApart_iff (usual .sqlServer) .readOnly
    "SELECT(a)FROM t".toList ⟨100, 0⟩ .atOnce 100 0 (Or.inl hadded)
  refine ⟨_, rfl, hadded, before, clause, after, hputs, hapart.mpr fun hpoint => ?_⟩
  have hmem : '.' ∈ "SELECT(a)FROM t".toList := by
    rw [hputs.sql_eq]
    exact List.mem_append_right _ (List.mem_of_head? hpoint)
  exact absurd hmem (by decide)

/-- A number that begins with a point stands right behind `SELECT`, and goes on with the number of a new `TOP`. -/
theorem Limiter.not_standsApart_of_point : ∃ sql : List Char, sql = "SELECT.5 FROM t".toList ∧
    (usual .sqlServer).apply .readOnly sql ⟨100, 0⟩ = ⟨"SELECT TOP 100.5 FROM t".toList, .inserted 100⟩ ∧
    (usual .sqlServer).PutsIn sql ⟨100, 0⟩ ⟨"SELECT TOP 100.5 FROM t".toList, .inserted 100⟩
      "SELECT".toList " TOP 100".toList ".5 FROM t".toList ∧
    ¬StandsApart "SELECT".toList " TOP 100".toList ".5 FROM t".toList := by
  have hplan : ((Outline.of "SELECT.5 FROM t".toList).mainSelect?.map fun main =>
      decide (Plan.forDatabase .sqlServer (.of "SELECT.5 FROM t".toList) main ⟨100, 0⟩ =
        .ok ⟨some ⟨6, 6, " TOP 100".toList⟩, .inserted 100⟩)) = some true := by
    decide +kernel
  obtain ⟨main, hmain, hplan⟩ := Option.map_eq_some_iff.mp hplan
  refine ⟨_, rfl, by decide +kernel, ⟨by decide, by decide, main, hmain, of_decide_eq_true hplan⟩, fun hapart => ?_⟩
  exact hapart.point '0' (by decide) (by decide) (by decide)

end SqlGate
