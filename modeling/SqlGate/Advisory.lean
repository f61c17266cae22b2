import SqlGate.NormalForm

/-! Remarks on a statement for whoever is going to read its result. They are drawn from its normal
form and its classification, and do not bear on the decision. -/

namespace SqlGate

inductive Advisory where
  /-- A read with neither a condition nor a row limit. -/
  | unboundedResult
  /-- An offset was asked for, and the statement has no offset clause of its own. -/
  | manualPagination (offset : Nat)
  | dataModification
  | dataRemoval
  /-- An update or a deletion without a condition. -/
  | affectsAllRows (operation : Operation)
  deriving DecidableEq, Repr

namespace Advisory

def message : Advisory → String
  | .unboundedResult => "Query has no WHERE clause or row limit and may return a large result set"
  | .manualPagination offset =>
    s!"Offset {offset} requested but the query has no OFFSET/FETCH clause; page boundaries depend on " ++
      "row order, add an ORDER BY for stable pages"
  | .dataModification => "This statement will modify data"
  | .dataRemoval => "This statement will permanently remove data"
  | .affectsAllRows operation =>
    operation.name ++ " has no WHERE clause and will affect every row in the table"

/-- Remarks on the size of a result and on its pages, for reads. -/
def onResult (text : List Char) (offset : Option Nat) : List Advisory :=
  let limitWords := ["TOP".toList, "LIMIT".toList, "FETCH".toList]
  let size :=
    if !hasWord "WHERE".toList text && (firstWord? limitWords text).isNone then [unboundedResult] else []
  let pages := match offset with
    | some offset =>
      if 0 < offset && !hasWord "OFFSET".toList text then [manualPagination offset] else []
    | none => []
  size ++ pages

/-- Remarks on the rows that a statement changes or takes away. -/
def onRows (text : List Char) (classification : Classification) : List Advisory :=
  let change :=
    if classification.category.removesData then [dataRemoval]
    else if classification.category.modifiesData then [dataModification]
    else []
  let everyRow :=
    if classification.category ∈ [.update, .delete] && !hasWord "WHERE".toList text then
      [affectsAllRows classification.operation]
    else []
  change ++ everyRow

end Advisory

/-- The remarks on a statement for which an offset may have been asked. -/
def advise (sql : List Char) (classification : Classification) (offset : Option Nat) : List Advisory :=
  let text := normalForm sql
  (if classification.isReadOnly then Advisory.onResult text offset else []) ++
    Advisory.onRows text classification

end SqlGate
