import SqlGate.Proofs.LimitTwice
import SqlGate.Proofs.StillRead

/-! Limiting a read leaves it a read. The clauses that are put in have no word that speaks against a statement,
so the gate lets the limited statement pass as it let the first one. -/

namespace SqlGate

open Unicode

namespace Clean

variable {mode : Mode} {text lead tail : List Char}

theorem cons_space (h : Clean mode text) : Clean mode (' ' :: text) := by
  rw [Clean, List.flatMap_cons, upper_of_isBlank (by decide)]
  exact Lacks.cons_space h

theorem concat_space (h : Clean mode text) : Clean mode (text ++ [' ']) := by
  rw [Clean, List.flatMap_append, List.flatMap_singleton, upper_of_isBlank (by decide)]
  exact Lacks.concat_space h

/-- The words of the clauses are harmless. -/
theorem of_clauseWords (mode : Mode) : ∀ text ∈ [" FETCH NEXT ", " ROWS ONLY", " TOP ", "LIMIT ", " OFFSET ", " ", "",
    "OFFSET ", "ORDER BY (SELECT NULL) OFFSET ", " ROWS FETCH NEXT "].map String.toList, Clean mode text := by
  cases mode with
  | standard => decide +kernel
  | readOnly => decide +kernel

theorem pageLead (mode : Mode) (outline : Outline) (main : Cursor) (offset : Nat) :
    Clean mode (Slot.pageLead outline main offset) := by
  obtain ⟨words, hwords, hpage⟩ := Slot.pageLead_eq_append outline main offset
  have hclean : Clean mode words ∧ Around words " ROWS FETCH NEXT ".toList := by
    rcases hwords with rfl | rfl
    · exact ⟨of_clauseWords mode _ (by decide), .of_all (by decide) (by decide) (fun _ => rfl) (fun _ => rfl) rfl rfl⟩
    · exact ⟨of_clauseWords mode _ (by decide), .of_all (by decide) (by decide) (fun _ => rfl) (fun _ => rfl) rfl rfl⟩
  rw [hpage]
  exact Clean.numbered hclean.2 hclean.1 (of_clauseWords mode _ (by decide)) offset

theorem atEnd {outline : Outline} {main : Cursor} {more less : List Char} {named page : Option Nat} {place : Nat}
    (hlead : Clean mode more) (htail : Clean mode less)
    (hslot : Slot.atEnd outline main more less named = .clause place lead tail page) :
    Clean mode lead ∧ Clean mode tail := by
  rcases Slot.atEnd_cases hslot.symm with ⟨rfl, rfl⟩ | ⟨rfl, rfl⟩
  · exact ⟨hlead, htail.concat_space⟩
  · exact ⟨hlead.cons_space, htail⟩

end Clean

/-- The words around the number of a new clause are harmless. -/
theorem SlotAt.clean (mode : Mode) {sql lead tail : List Char} {main : Cursor} {place offset : Nat} {page : Option Nat}
    {top : Bool} (h : SlotAt sql main offset top (.clause place lead tail page)) :
    Clean mode lead ∧ Clean mode tail := by
  have hwords := Clean.of_clauseWords mode
  generalize hslot : Slot.clause place lead tail page = slot at h
  cases h with
  | fetch hcount => cases hslot
  | offsetRows hfetch hoffset =>
      obtain ⟨-, rfl, rfl, -⟩ := Slot.clause.inj hslot
      exact ⟨hwords _ (by decide), hwords _ (by decide)⟩
  | top hpaging hcount => cases hslot
  | page hpaging htop hpos =>
      exact Clean.atEnd (.pageLead mode _ main offset) (hwords _ (by decide)) hslot.symm
  | head hpaging htop hzero hhead =>
      obtain ⟨-, rfl, rfl, -⟩ := Slot.clause.inj hslot
      exact ⟨hwords _ (by decide), hwords _ (by decide)⟩
  | limit hfetch hcount => cases hslot
  | bareOffset hfetch hlimit hoffset =>
      obtain ⟨-, rfl, rfl, -⟩ := Slot.clause.inj hslot
      exact ⟨hwords _ (by decide), hwords _ (by decide)⟩
  | pageLimit hpaging hpos =>
      have htail := Clean.numbered .offset (hwords _ (by decide)) (hwords _ (by decide)) offset
      rw [List.append_nil] at htail
      exact Clean.atEnd (hwords _ (by decide)) htail hslot.symm
  | newLimit hpaging hzero => exact Clean.atEnd (hwords _ (by decide)) (hwords _ (by decide)) hslot.symm

namespace Limiter

variable {limiter : Limiter} {timing : Timing} {mode : Mode} {sql : List Char} {main : Cursor} {window : RowWindow}
  {limited : Limited}

/-- What a read is limited to is a read. -/
theorem harmless_limit (hread : Harmless mode (stripComments sql)) (h : limiter.limit sql window timing = .ok limited) :
    Harmless mode (stripComments limited.text) := by
  obtain ⟨limit, offset⟩ := window
  obtain ⟨main, slot, haccepts, hslot, -⟩ := limit_eq_ok_iff.mp h
  have hmain := haccepts.mainSelect?_eq
  cases slot with
  | written count =>
      obtain ⟨front, digits, rest, hin⟩ := hslot.exists_countIn hmain
      obtain ⟨left, right, hsite, hleft, hright⟩ := hin.site
      rw [limit_written haccepts hslot hin.countAt.count_eq hsite hleft] at h
      rw [← Except.ok.inj h]
      split
      · exact hread
      · exact hin.harmless hmain hsite hleft hright hread limit
  | clause place lead tail page =>
      obtain ⟨front, rest, hgap⟩ := hslot.exists_gapAt hmain
      obtain ⟨left, right, hsite, hleft, hright⟩ := hgap.site
      obtain ⟨hlead, htail⟩ := hslot.clean mode
      rw [limit_clause haccepts hslot hsite (by rw [hleft]; exact hgap.place_eq)] at h
      rw [← Except.ok.inj h]
      exact hgap.harmless hmain hsite hleft hright hread hlead htail limit

theorem harmless_apply (hread : Harmless mode (stripComments sql)) (category : Category) (window : RowWindow) :
    Harmless mode (stripComments (limiter.apply category sql window timing).text) := by
  rcases apply_cases limiter category sql window timing with hlimit | ⟨obstacle, hkept⟩ | hkept
  · exact harmless_limit hread hlimit
  · rw [hkept]
    exact hread
  · rw [hkept]
    exact hread

end Limiter

namespace Gate

variable {gate : Gate} {request : Request} {timing again : Timing}

theorem harmless_statement (hread : (gate.evaluate request timing).classification.category = .readOnly) :
    Harmless (gate.modeFor request) (stripComments (gate.evaluate request timing).statement.toList) := by
  have hsql : Harmless (gate.modeFor request) (stripComments request.sql.toList) := harmless_of_category hread
  rcases gate.evaluate_cases request timing with ⟨limited, rfl, hstatement, -⟩ | ⟨hstatement, -⟩
  · rw [hstatement, String.toList_ofList]
    exact Limiter.harmless_apply hsql _ _
  · rw [hstatement]
    exact hsql

/-- The statement that the gate gives back for a read is classified as a `SELECT` again and let pass again under
the same request, whatever was put into it: no semicolon of it comes before anything but blanks and comments that
are left out. -/
theorem evaluate_statement (hread : (gate.evaluate request timing).classification.category = .readOnly) :
    classify (gate.modeFor request) (gate.evaluate request timing).statement.toList = .readOnly ∧
      (gate.evaluate { request with sql := (gate.evaluate request timing).statement } again).isAllowed = true ∧
      Closed (stripComments (gate.evaluate request timing).statement.toList) := by
  have hstatement := harmless_statement hread
  have hclassify := hstatement.classify_eq
  refine ⟨hclassify, ?_, hstatement.closed⟩
  rw [Evaluation.isAllowed, evaluate]
  dsimp only
  rw [judge, verdict]
  change (authorize (classify (gate.modeFor request) (gate.evaluate request timing).statement.toList) _ _).isAllowed =
    true
  rw [hclassify]
  rfl

theorem evaluate_statement_semicolon : ∃ (gate : Gate) (request : Request),
    request.sql = "SELECT id FROM t -- all; of them\n;" ∧
      (gate.evaluate request).classification.category = .readOnly ∧
      (gate.evaluate request).statement = "SELECT id FROM t LIMIT 5 -- all; of them\n;" ∧
      classify (gate.modeFor request) (gate.evaluate request).statement.toList = .readOnly ∧
      (gate.evaluate { request with sql := (gate.evaluate request).statement }).isAllowed = true ∧
      Closed (stripComments (gate.evaluate request).statement.toList) := by
  let gate : Gate := ⟨{ database := .postgres }, rfl⟩
  let request : Request := { sql := "SELECT id FROM t -- all; of them\n;", maxRows := some 5 }
  have hread : (gate.evaluate request).classification.category = .readOnly := by decide +kernel
  exact ⟨gate, request, rfl, hread, by decide +kernel, evaluate_statement hread⟩

end Gate

end SqlGate
