import SqlGate.Limit.Edit

/-! Limiting the rows of a read. The clauses of the main query are looked up in the outline of the
statement, outside all parentheses and from its select word on, and one edit lowers the limit that is
there or adds one. Where that cannot be done with certainty, or not in time, the statement stays as it is. -/

namespace SqlGate

namespace Plan

def cap (count : WrittenCount) (limit : Nat) : Plan :=
  if count.value ≤ limit then ⟨none, .withinLimit count.value⟩
  else ⟨some ⟨count.start, count.stop, (toString limit).toList⟩, .capped count.value limit⟩

/-- Adds a clause at the end of the main query, in front of a clause that has to come last. -/
def append (outline : Outline) (main : Cursor) (clause : String) (outcome : Outcome) : Plan :=
  match outline.findTopLevel? main.offset Cursor.trailingClause? with
  | some trailing => ⟨some (.insertion trailing.offset (clause ++ " ")), outcome⟩
  | none => ⟨some (.insertion outline.endOfCode (" " ++ clause)), outcome⟩

/-- Limits a query of SQL Server whose main select word is at `main`: by its `FETCH` clause, next to
its `OFFSET` clause, by its `TOP`, with both clauses at its end, or with a `TOP` of its own. -/
def ofTop (outline : Outline) (main : Cursor) (window : RowWindow) : Except Obstacle Plan :=
  match outline.findTopLevel? main.offset Cursor.fetchCount? with
  | some count => .ok (cap count window.limit)
  | none =>
    match outline.findTopLevel? main.offset Cursor.offsetRows? with
    | some after =>
      .ok ⟨some (.insertion after.offset s!" FETCH NEXT {window.limit} ROWS ONLY"),
        .inserted window.limit⟩
    | none =>
      if (outline.findTopLevel? main.offset
          (·.anyWord? ["OFFSET".toList, "FETCH".toList])).isSome then
        .error (.unreadableLimit .paging)
      else
        match main.topForm? with
        | some (.rows count) => .ok (cap count window.limit)
        | some .percent => .error (.unreadableLimit .topPercent)
        | some .notLiteral => .error (.unreadableLimit .topExpression)
        | none =>
          if 0 < window.offset then
            -- The engine takes an offset only after an order.
            let order :=
              if (outline.findTopLevel? main.offset Cursor.orderBy?).isSome then ""
              else "ORDER BY (SELECT NULL) "
            .ok (append outline main
              (order ++ s!"OFFSET {window.offset} ROWS FETCH NEXT {window.limit} ROWS ONLY")
              (.paginated window.offset window.limit))
          else
            match main.selectHead? with
            | some head =>
              .ok ⟨some (.insertion head.offset s!" TOP {window.limit}"), .inserted window.limit⟩
            | none => .error .noMainSelect

/-- Limits a query of the other engines: by its `FETCH` or `LIMIT` clause, in front of its `OFFSET`
clause, or with a clause at its end. -/
def ofLimit (outline : Outline) (main : Cursor) (window : RowWindow) : Except Obstacle Plan :=
  match outline.findTopLevel? main.offset Cursor.fetchCount? with
  | some count => .ok (cap count window.limit)
  | none =>
    match outline.findTopLevel? main.offset Cursor.limitCount? with
    | some count => .ok (cap count window.limit)
    | none =>
      match outline.findTopLevel? main.offset Cursor.bareOffset? with
      | some clause =>
        .ok ⟨some (.insertion clause.offset s!"LIMIT {window.limit} "), .inserted window.limit⟩
      | none =>
        if (outline.findTopLevel? main.offset
            (·.anyWord? ["OFFSET".toList, "FETCH".toList, "LIMIT".toList])).isSome then
          .error (.unreadableLimit .limitOrPaging)
        else if 0 < window.offset then
          .ok (append outline main s!"LIMIT {window.limit} OFFSET {window.offset}"
            (.paginated window.offset window.limit))
        else
          .ok (append outline main s!"LIMIT {window.limit}" (.inserted window.limit))

def forDatabase (database : Database) (outline : Outline) (main : Cursor) (window : RowWindow) :
    Except Obstacle Plan :=
  if database.usesTop then ofTop outline main window else ofLimit outline main window

end Plan

/-- The first select word outside all parentheses. -/
def Outline.mainSelect? (outline : Outline) : Option Cursor :=
  outline.findTopLevel? 0 fun c => (c.word? "SELECT".toList).map fun _ => c

/-- What a statement is limited by: the dialect, the time that may be spent on it, and its size. -/
structure Limiter where
  database : Database
  /-- In milliseconds. -/
  budget : Nat
  /-- The size in bytes above which statements are left as they are. -/
  maxBytes : Nat
  deriving DecidableEq, Repr

namespace Limiter

/-- The limiter for a dialect with the usual bounds on time and size. -/
def usual (database : Database) : Limiter :=
  ⟨database, 50, 1024 * 1024⟩

/-- Limits a read to a window, or says what stands in the way. -/
def limit (limiter : Limiter) (sql : List Char) (window : RowWindow) (timing : Timing := .atOnce) :
    Except Obstacle Limited :=
  if limiter.maxBytes < byteLength sql then .error (.tooLarge (byteLength sql) limiter.maxBytes)
  else
    let outline := Outline.of sql
    if outline.isBlank then .error .emptyStatement
    else
      match outline.hazardFor? limiter.database with
      | some hazard => .error (.ambiguousQuoting hazard)
      | none =>
        if Timing.isOver limiter.budget timing.search then .error (.outOfTime limiter.budget)
        else
          match outline.mainSelect? with
          | none => .error .noMainSelect
          | some main =>
            match Plan.forDatabase limiter.database outline main window with
            | .error obstacle => .error obstacle
            | .ok plan =>
              if Timing.isOver limiter.budget timing.edit then .error (.outOfTime limiter.budget)
              else plan.apply sql

/-- Limits a read to a window, or leaves it as it is and says why. -/
def run (limiter : Limiter) (sql : List Char) (window : RowWindow) (timing : Timing := .atOnce) : Limited :=
  match limiter.limit sql window timing with
  | .ok limited => limited
  | .error obstacle => ⟨sql, .fallback obstacle⟩

/-- Limits a statement of the given category: only reads are limited. -/
def apply (limiter : Limiter) (category : Category) (sql : List Char) (window : RowWindow)
    (timing : Timing := .atOnce) : Limited :=
  if category = .readOnly then limiter.run sql window timing else ⟨sql, .notApplicable⟩

/-- Two passes over a statement come to the same where their clocks agree. -/
theorem limit_of_agrees {limiter : Limiter} {timing again : Timing} (h : timing.Agrees again limiter.budget)
    (sql : List Char) (window : RowWindow) : limiter.limit sql window timing = limiter.limit sql window again := by
  rw [limit, limit, h.search_eq, h.edit_eq]

theorem apply_of_agrees {limiter : Limiter} {timing again : Timing} (h : timing.Agrees again limiter.budget)
    (category : Category) (sql : List Char) (window : RowWindow) :
    limiter.apply category sql window timing = limiter.apply category sql window again := by
  rw [apply, apply, run, run, limit_of_agrees h]

end Limiter

/-- Limits a statement to a number of rows, with the usual bounds on time and size. No rows at all
count as one. -/
def limitRows (category : Category) (database : Database) (limit : Nat) (offset : Option Nat)
    (sql : List Char) (timing : Timing := .atOnce) : Limited :=
  (Limiter.usual database).apply category sql ⟨max 1 limit, offset.getD 0⟩ timing

end SqlGate
