import SqlGate.Proofs.SamePlaces

/-! What stands in quoted spans and comments does not steer the limit of a query: two statements of one shape
without hazards are limited alike, with the same outcome and the same edit at corresponding places. -/

namespace SqlGate

open Lexeme

/-- Plans that leave both statements alone, or that put one text in the place of the same code between corresponding
pieces of both. -/
inductive SamePlan (pieces others : List Lexeme) : Plan → Plan → Prop where
  | keep {outcome : Outcome} (h : outcome.isModified = false) :
      SamePlan pieces others ⟨none, outcome⟩ ⟨none, outcome⟩
  | edit {left right before after : List Lexeme} {old new : List Char} {outcome : Outcome}
      (hpieces : pieces = left ++ (old.map code ++ right)) (hothers : others = before ++ (old.map code ++ after))
      (hleft : SameShape left before) (hright : SameShape right after) (h : outcome.isModified = true) :
      SamePlan pieces others
        ⟨some ⟨byteLength (left.flatMap blanked), byteLength (left.flatMap blanked) + byteLength old, new⟩, outcome⟩
        ⟨some ⟨byteLength (before.flatMap blanked), byteLength (before.flatMap blanked) + byteLength old, new⟩, outcome⟩

/-- The same obstacle, or things that correspond. -/
inductive Agree {α β : Type} (R : α → β → Prop) : Except Obstacle α → Except Obstacle β → Prop where
  | error (obstacle : Obstacle) : Agree R (.error obstacle) (.error obstacle)
  | ok {x : α} {y : β} (h : R x y) : Agree R (.ok x) (.ok y)

/-- Two statements that were both left alone, or edited in the same way at corresponding places, with one outcome. -/
inductive SameLimited (sql next : List Char) : Limited → Limited → Prop where
  | unchanged {outcome : Outcome} (h : outcome.isModified = false) :
      SameLimited sql next ⟨sql, outcome⟩ ⟨next, outcome⟩
  | edited {left right before after : List Lexeme} {old new : List Char} {outcome : Outcome}
      (hsql : lexemes sql = left ++ (old.map code ++ right)) (hnext : lexemes next = before ++ (old.map code ++ after))
      (hleft : SameShape left before) (hright : SameShape right after) (h : outcome.isModified = true) :
      SameLimited sql next ⟨joined left new right, outcome⟩ ⟨joined before new after, outcome⟩

namespace SamePlan

variable {pieces others : List Lexeme} {count recount : WrittenCount} {c again : Cursor} {outcome : Outcome}

theorem cap (h : SameCount pieces others count recount) (limit : Nat) :
    SamePlan pieces others (.cap count limit) (.cap recount limit) := by
  cases h with
  | @digits left right before after digits hpieces hothers hleft hright =>
      by_cases hle : (WrittenCount.after (left.flatMap blanked) digits).value ≤ limit
      · have hleNext : (WrittenCount.after (before.flatMap blanked) digits).value ≤ limit := hle
        rw [Plan.cap, Plan.cap, if_pos hle, if_pos hleNext]
        exact .keep rfl
      · have hleNext : ¬(WrittenCount.after (before.flatMap blanked) digits).value ≤ limit := hle
        have hstop : ∀ front : List Char,
            (WrittenCount.after front digits).stop = byteLength front + byteLength digits := fun front =>
          byteLength_append front digits
        rw [Plan.cap, Plan.cap, if_neg hle, if_neg hleNext, hstop, hstop]
        exact .edit hpieces hothers hleft hright rfl

theorem insertion (h : SamePlace pieces others c again) (text : String) (houtcome : outcome.isModified = true) :
    SamePlan pieces others ⟨some (.insertion c.offset text), outcome⟩
      ⟨some (.insertion again.offset text), outcome⟩ := by
  cases h with
  | between hcut =>
      cases hcut with
      | @edge left right before after hpieces hothers hleft hright =>
          exact @edit pieces others left right before after [] text.toList outcome hpieces hothers hleft hright houtcome

variable {sql next : List Char} {main place : Cursor} {window : RowWindow}

theorem append (hmain : SamePlace (lexemes sql) (lexemes next) main place) (clause : String)
    (houtcome : outcome.isModified = true) :
    SamePlan (lexemes sql) (lexemes next) (.append (.of sql) main clause outcome)
      (.append (.of next) place clause outcome) := by
  have htrailing := hmain.findTopLevel? .trailingClause? (SamePlace.readAlike _ _).trailingClause?
  rw [Plan.append, Plan.append]
  generalize (Outline.of sql).findTopLevel? main.offset Cursor.trailingClause? = found at htrailing ⊢
  generalize (Outline.of next).findTopLevel? place.offset Cursor.trailingClause? = other at htrailing ⊢
  cases htrailing with
  | some hplace => exact insertion hplace _ houtcome
  | none =>
      obtain ⟨front, rest, other, later, hcut, hend, hendNext⟩ := hmain.sameShape.exists_endOfCode
      rw [hend, hendNext]
      exact insertion (.between hcut) _ houtcome

/-- The engines with `TOP` limit both alike. -/
theorem ofTop (hmain : SamePlace (lexemes sql) (lexemes next) main place) :
    Agree (SamePlan (lexemes sql) (lexemes next)) (Plan.ofTop (.of sql) main window)
      (Plan.ofTop (.of next) place window) := by
  have hread := SamePlace.readAlike (lexemes sql) (lexemes next)
  have hfetch := hmain.findTopLevel? .fetchCount? hread.fetchCount?
  have hoffset := hmain.findTopLevel? .offsetRows? hread.offsetRows?
  have hkeys : ∀ keyword ∈ ["OFFSET".toList, "FETCH".toList], isKeyword keyword = true := by decide
  have hpaging := rel_isSome (hmain.findTopLevel? (.anyWord? hkeys) (hread.anyWord? hkeys))
  have horder := rel_isSome (hmain.findTopLevel? .orderBy? hread.orderBy?)
  rw [Plan.ofTop, Plan.ofTop, hpaging, horder]
  generalize (Outline.of sql).findTopLevel? main.offset Cursor.fetchCount? = count at hfetch ⊢
  generalize (Outline.of next).findTopLevel? place.offset Cursor.fetchCount? = recount at hfetch ⊢
  cases hfetch with
  | some hcount => exact .ok (cap hcount _)
  | none =>
      generalize (Outline.of sql).findTopLevel? main.offset Cursor.offsetRows? = found at hoffset ⊢
      generalize (Outline.of next).findTopLevel? place.offset Cursor.offsetRows? = other at hoffset ⊢
      cases hoffset with
      | some hplace => exact .ok (insertion hplace _ rfl)
      | none =>
          dsimp only
          split
          · exact .error _
          · have htop := hread.topForm? hmain
            generalize main.topForm? = form at htop ⊢
            generalize place.topForm? = reform at htop ⊢
            cases htop with
            | some hform =>
                cases hform with
                | rows hcount => exact .ok (cap hcount _)
                | percent => exact .error _
                | notLiteral => exact .error _
            | none =>
                dsimp only
                split
                · exact .ok (append hmain _ rfl)
                · have hhead := hread.selectHead? hmain
                  generalize main.selectHead? = head at hhead ⊢
                  generalize place.selectHead? = rehead at hhead ⊢
                  cases hhead with
                  | some hplace => exact .ok (insertion hplace _ rfl)
                  | none => exact .error _

/-- The other engines limit both alike. -/
theorem ofLimit (hmain : SamePlace (lexemes sql) (lexemes next) main place) :
    Agree (SamePlan (lexemes sql) (lexemes next)) (Plan.ofLimit (.of sql) main window)
      (Plan.ofLimit (.of next) place window) := by
  have hread := SamePlace.readAlike (lexemes sql) (lexemes next)
  have hfetch := hmain.findTopLevel? .fetchCount? hread.fetchCount?
  have hlimit := hmain.findTopLevel? .limitCount? hread.limitCount?
  have hoffset := hmain.findTopLevel? .bareOffset? hread.bareOffset?
  have hkeys : ∀ keyword ∈ ["OFFSET".toList, "FETCH".toList, "LIMIT".toList], isKeyword keyword = true := by decide
  have hpaging := rel_isSome (hmain.findTopLevel? (.anyWord? hkeys) (hread.anyWord? hkeys))
  rw [Plan.ofLimit, Plan.ofLimit, hpaging]
  generalize (Outline.of sql).findTopLevel? main.offset Cursor.fetchCount? = count at hfetch ⊢
  generalize (Outline.of next).findTopLevel? place.offset Cursor.fetchCount? = recount at hfetch ⊢
  cases hfetch with
  | some hcount => exact .ok (cap hcount _)
  | none =>
      generalize (Outline.of sql).findTopLevel? main.offset Cursor.limitCount? = count at hlimit ⊢
      generalize (Outline.of next).findTopLevel? place.offset Cursor.limitCount? = recount at hlimit ⊢
      cases hlimit with
      | some hcount => exact .ok (cap hcount _)
      | none =>
          generalize (Outline.of sql).findTopLevel? main.offset Cursor.bareOffset? = found at hoffset ⊢
          generalize (Outline.of next).findTopLevel? place.offset Cursor.bareOffset? = other at hoffset ⊢
          cases hoffset with
          | some hplace => exact .ok (insertion hplace _ rfl)
          | none =>
              dsimp only
              split
              · exact .error _
              · split
                · exact .ok (append hmain _ rfl)
                · exact .ok (append hmain _ rfl)

theorem forDatabase (hmain : SamePlace (lexemes sql) (lexemes next) main place) (database : Database)
    (window : RowWindow) :
    Agree (SamePlan (lexemes sql) (lexemes next)) (Plan.forDatabase database (.of sql) main window)
      (Plan.forDatabase database (.of next) place window) := by
  rw [Plan.forDatabase, Plan.forDatabase]
  split
  · exact ofTop hmain
  · exact ofLimit hmain

theorem apply {plan replan : Plan} (h : SamePlan (lexemes sql) (lexemes next) plan replan) :
    Agree (SameLimited sql next) (plan.apply sql) (replan.apply next) := by
  cases h with
  | keep houtcome => exact .ok (.unchanged houtcome)
  | @edit left right before after old new outcome hsql hnext hleft hright houtcome =>
      have hedit : ∀ {text : List Char} {left right : List Lexeme}, lexemes text = left ++ (old.map code ++ right) →
          Plan.apply ⟨some ⟨byteLength (left.flatMap blanked), byteLength (left.flatMap blanked) + byteLength old, new⟩,
            outcome⟩ text = .ok ⟨joined left new right, outcome⟩ := by
        intro text left right htext
        rw [eq_joined_of_lexemes htext]
        simp only [Plan.apply, appliedTo?_joined]
      rw [hedit hsql, hedit hnext]
      exact .ok (.edited hsql hnext hleft hright houtcome)

end SamePlan

namespace Limiter

variable {limiter : Limiter} {timing again : Timing} {sql next : List Char}

theorem agree_limit (hshape : SameShape (lexemes sql) (lexemes next))
    (hsql : (Outline.of sql).hazardFor? limiter.database = none)
    (hnext : (Outline.of next).hazardFor? limiter.database = none) (hsize : byteLength sql ≤ limiter.maxBytes)
    (hsizeNext : byteLength next ≤ limiter.maxBytes) (window : RowWindow) :
    Agree (SameLimited sql next) (limiter.limit sql window timing) (limiter.limit next window timing) := by
  have hmain := hshape.mainSelect?
  rw [limit, limit, if_neg (Nat.not_lt.mpr hsize), if_neg (Nat.not_lt.mpr hsizeNext)]
  simp only [hsql, hnext, hshape.isBlank_eq]
  generalize (Outline.of sql).mainSelect? = main at hmain ⊢
  generalize (Outline.of next).mainSelect? = place at hmain ⊢
  split
  · exact .error _
  · split
    · exact .error _
    · cases hmain with
      | none => exact .error _
      | @some main place hplace =>
          have hplan := SamePlan.forDatabase hplace limiter.database window
          dsimp only
          generalize Plan.forDatabase limiter.database (.of sql) main window = plan at hplan ⊢
          generalize Plan.forDatabase limiter.database (.of next) place window = replan at hplan ⊢
          cases hplan with
          | error obstacle => exact .error obstacle
          | ok h =>
              dsimp only
              split
              · exact .error _
              · exact h.apply

/-- Two statements that differ in what their quoted spans and comments hold, and in nothing else, are limited alike
by two passes that are given up together if at all: the outcome is the same, and both stay as they are or have the
same edit at corresponding places. -/
theorem sameLimited_apply {category : Category} {window : RowWindow} (hshape : SameShape (lexemes sql) (lexemes next))
    (hsql : (Outline.of sql).hazardFor? limiter.database = none)
    (hnext : (Outline.of next).hazardFor? limiter.database = none) (hsize : byteLength sql ≤ limiter.maxBytes)
    (hsizeNext : byteLength next ≤ limiter.maxBytes) (htime : timing.Agrees again limiter.budget) :
    SameLimited sql next (limiter.apply category sql window timing) (limiter.apply category next window again) := by
  rw [← apply_of_agrees htime, Limiter.apply, Limiter.apply]
  split
  · have hagree : Agree (SameLimited sql next) (limiter.limit sql window timing) (limiter.limit next window timing) :=
      agree_limit hshape hsql hnext hsize hsizeNext window
    rw [run, run]
    generalize limiter.limit sql window timing = limited at hagree ⊢
    generalize limiter.limit next window timing = relimited at hagree ⊢
    cases hagree with
    | error obstacle => exact .unchanged rfl
    | ok h => exact h
  · exact .unchanged rfl

/-- A clause in a string and one in a comment change nothing: both statements get their limit in front of comments. -/
theorem sameLimited_apply_hidden : ∃ sql next : List Char,
    sql = "SELECT 'LIMIT 5)' FROM t /* LIMIT 1 */ -- (".toList ∧ next = "SELECT '' FROM t /**/ --".toList ∧
    SameShape (lexemes sql) (lexemes next) ∧
    (usual .postgres).apply .readOnly sql ⟨10, 0⟩ =
      ⟨"SELECT 'LIMIT 5)' FROM t LIMIT 10 /* LIMIT 1 */ -- (".toList, .inserted 10⟩ ∧
    SameLimited sql next ((usual .postgres).apply .readOnly sql ⟨10, 0⟩)
      ((usual .postgres).apply .readOnly next ⟨10, 0⟩) := by
  have hshape : SameShape (lexemes "SELECT 'LIMIT 5)' FROM t /* LIMIT 1 */ -- (".toList)
      (lexemes "SELECT '' FROM t /**/ --".toList) := by decide +kernel
  refine ⟨_, _, rfl, rfl, hshape, by decide +kernel, ?_⟩
  exact sameLimited_apply hshape (by decide +kernel) (by decide +kernel) (by decide +kernel) (by decide +kernel)
    (.refl .atOnce _)

end Limiter

end SqlGate
