import SqlGate.Proofs.NormalWords

/-! The rules that a statement is classified by, told by its words. The text without comments says whether a second
statement follows, and the words of the normal form, from left to right, say the rest: a word that changes rows
decides before an administrative one, wherever it stands, and the leftmost administrative one before how the statement
begins. -/

namespace SqlGate

open Unicode

/-- Whether something that is no blank follows a semicolon. -/
def Continued (text : List Char) : Prop :=
  ∃ front rest, text = front ++ ';' :: rest ∧ ∃ c ∈ rest, isBlank c = false

/-- Whether one of the words of a text spells the keyword. -/
def Mentions (keyword text : List Char) : Prop :=
  ∃ word ∈ runs isWord text, Spelled keyword word

instance (keyword text : List Char) : Decidable (Mentions keyword text) :=
  inferInstanceAs (Decidable (∃ word ∈ runs isWord text, Spelled keyword word))

/-- Whether the first word of a text, which begins where the text does, is the keyword. -/
def BeginsWith (keyword text : List Char) : Prop :=
  ∃ rest, text = keyword ++ rest ∧ ∀ c, rest.head? = some c → isLeadingChar c = false

/-- Whether a normal form is a query: it begins with the select word, or with the word that introduces common table
expressions, and then a select word is among its words. -/
def IsQuery (text : List Char) : Prop :=
  BeginsWith "SELECT".toList text ∨ BeginsWith "WITH".toList text ∧ Mentions "SELECT".toList text

/-- The words that change rows, in the order in which they decide, each with what it makes of a statement. -/
def modifying : List (List Char × Classification) :=
  [("TRUNCATE".toList, ⟨.truncate, .truncate⟩), ("DELETE".toList, ⟨.delete, .delete⟩),
    ("INSERT".toList, ⟨.insert, .insert⟩), ("UPDATE".toList, ⟨.update, .update⟩)]

/-- The words that no statement may have in a mode. -/
def Mode.administering : Mode → List (List Char)
  | .standard =>
    ["DROP", "CREATE", "ALTER", "EXECUTE", "EXEC", "MERGE", "BULK", "GRANT", "REVOKE", "DENY"].map String.toList
  | .readOnly =>
    ["DROP", "CREATE", "ALTER", "EXECUTE", "EXEC", "MERGE", "BULK", "GRANT", "REVOKE", "DENY", "USE", "SET", "DBCC",
      "BACKUP", "RESTORE", "RECONFIGURE"].map String.toList

/-- What the rules on single words let pass. -/
structure Unremarkable (mode : Mode) (stripped normal : List Char) : Prop where
  single : ¬Continued stripped
  preserving : Lacks (modifying.map (·.1)) normal
  unprivileged : Lacks mode.administering normal

/-- What the rules say of a statement, by its text without comments and its normal form. -/
inductive Ruled (mode : Mode) (stripped normal : List Char) : Classification → Prop where
  /-- A second statement follows. -/
  | continued (h : Continued stripped) : Ruled mode stripped normal (.dangerous .multipleStatements)
  /-- A word changes rows: the first one of the list that is among the words decides. -/
  | modification {keyword : List Char} {found : Classification} {earlier later : List (List Char × Classification)}
      (single : ¬Continued stripped) (hlist : modifying = earlier ++ (keyword, found) :: later)
      (hword : Mentions keyword normal) (hearlier : ∀ entry ∈ earlier, ¬Mentions entry.1 normal) :
      Ruled mode stripped normal found
  /-- A word is administrative: the leftmost one decides. -/
  | administrative {early late : List (List Char)} {word : List Char} (single : ¬Continued stripped)
      (preserving : Lacks (modifying.map (·.1)) normal) (hwords : runs isWord normal = early ++ word :: late)
      (hword : SpelledAny mode.administering word) (hearly : ∀ other ∈ early, ¬SpelledAny mode.administering other) :
      Ruled mode stripped normal (.dangerous ((Operation.ofKeyword? word).getD .nonSelectStatement))
  | nonSelect (h : Unremarkable mode stripped normal) (hquery : ¬IsQuery normal) :
      Ruled mode stripped normal (.dangerous .nonSelectStatement)
  | selectInto (h : Unremarkable mode stripped normal) (hquery : IsQuery normal)
      (hinto : Mentions "INTO".toList normal) : Ruled mode stripped normal (.dangerous .selectInto)
  | read (h : Unremarkable mode stripped normal) (hquery : IsQuery normal)
      (hinto : ¬Mentions "INTO".toList normal) : Ruled mode stripped normal .readOnly

theorem not_continued_iff {text : List Char} : ¬Continued text ↔ Closed text := by
  constructor
  · intro h front rest htext c hc
    by_contra hblank
    exact h ⟨front, rest, htext, c, hc, Bool.eq_false_iff.mpr hblank⟩
  · rintro h ⟨front, rest, htext, c, hc, hblank⟩
    rw [h front rest htext c hc] at hblank
    cases hblank

theorem isStacked_normalForm_iff (sql : List Char) :
    isStacked (normalForm sql) = true ↔ Continued (stripComments sql) := by
  rw [← not_iff_not, Bool.not_eq_true, isStacked_normalForm, not_continued_iff]

/-- The table of the classifier holds the words that change rows. -/
theorem modifications_eq_modifying :
    modifications.map (fun (operation, category) => (operation.letters, ⟨category, operation⟩)) = modifying := by
  decide

/-- The tables of the classifier hold the administrative words. -/
theorem administrative_eq_administering (mode : Mode) :
    mode.administrative.map Operation.letters = mode.administering := by
  cases mode with
  | standard => decide
  | readOnly => decide

theorem isKeyword_of_mem_modifying : ∀ entry ∈ modifying, isKeyword entry.1 = true := by
  decide

theorem isKeyword_of_mem_administering {mode : Mode} : ∀ keyword ∈ mode.administering, isKeyword keyword = true := by
  cases mode with
  | standard => decide
  | readOnly => decide

section Words

variable {keyword text front rest word : List Char} {keywords early late : List (List Char)}

theorem WordAt.apart (h : WordAt text front word rest) (later : List Char) : Apart front later := by
  intro c d hc _ hcWord
  rw [h.opens c hc] at hcWord
  cases hcWord

/-- A list of words cut at one of them is the words of the text in front of it and behind it. -/
theorem exists_wordAt_of_runs_eq (h : runs isWord text = early ++ word :: late) :
    ∃ front rest, WordAt text front word rest ∧ runs isWord front = early := by
  induction text using runs_induction isWord generalizing early with
  | nil => cases early <;> cases h
  | skip c text hc ih =>
      rw [runs_cons_of_not hc] at h
      obtain ⟨front, rest, hat, hfront⟩ := ih h
      have hapart : Apart [c] text := by
        intro x d hx _ hxWord
        obtain rfl : c = x := Option.some.inj hx
        rw [hc] at hxWord
        cases hxWord
      exact ⟨c :: front, rest, hat.append_right hapart, by rw [runs_cons_of_not hc, hfront]⟩
  | run first text hne hrun hstop ih =>
      rw [runs_append_of_stop hne hrun hstop] at h
      cases early with
      | nil =>
          obtain ⟨rfl, -⟩ := List.cons.inj h
          exact ⟨[], text, ⟨rfl, hne, hrun, by simp, hstop⟩, rfl⟩
      | cons other early =>
          obtain ⟨rfl, htail⟩ := List.cons.inj h
          obtain ⟨front, rest, hat, hfront⟩ := ih htail
          refine ⟨first ++ front, rest, hat.append_right fun x d _ hd _ => hstop d hd, ?_⟩
          rw [runs_append_of_stop hne hrun fun c hc => hstop c ?_, hfront]
          rw [hat.eq_append, List.head?_append, hc]
          rfl

/-- One of the keywords is read, as it is written, where a word spells it. -/
theorem spelling?_eq_some_iff (hkeys : ∀ keyword ∈ keywords, isKeyword keyword = true) :
    (keywords.findSome? fun keyword => ((Cursor.between front text).word? keyword).map fun _ =>
      (Cursor.between front text).rest.take keyword.length) = some word ↔
      ∃ rest, WordAt (front ++ text) front word rest ∧ SpelledAny keywords word := by
  have hread : ∀ {found : List Char}, (keywords.findSome? fun keyword =>
      ((Cursor.between front text).word? keyword).map fun _ =>
        (Cursor.between front text).rest.take keyword.length) = some found →
      ∃ rest, WordAt (front ++ text) front found rest ∧ SpelledAny keywords found := by
    intro found hfound
    obtain ⟨keyword, hmem, hmap⟩ := List.exists_of_findSome?_eq_some hfound
    obtain ⟨after, hafter, rfl⟩ := Option.map_eq_some_iff.mp hmap
    obtain ⟨written, rest, hat, hspelled, -⟩ := (Cursor.word?_eq_some_iff (hkeys keyword hmem)).mp hafter
    obtain rfl : text = written ++ rest := List.append_cancel_left hat.eq_append
    have htake : (Cursor.between front (written ++ rest)).rest.take keyword.length = written := by
      change (written ++ rest).take keyword.length = written
      rw [hspelled.length_eq, List.take_left]
    rw [htake]
    exact ⟨rest, hat, keyword, hmem, hspelled⟩
  refine ⟨hread, ?_⟩
  rintro ⟨rest, hat, keyword, hmem, hspelled⟩
  cases hfound : keywords.findSome? fun keyword => ((Cursor.between front text).word? keyword).map fun _ =>
      (Cursor.between front text).rest.take keyword.length with
  | none =>
      rw [List.findSome?_eq_none_iff] at hfound
      have hnone := hfound keyword hmem
      rw [(Cursor.word?_eq_some_iff (hkeys keyword hmem)).mpr ⟨word, rest, hat, hspelled, rfl⟩] at hnone
      cases hnone
  | some other =>
      obtain ⟨after, hother, -⟩ := hread hfound
      rw [(hat.unique hother).1]

/-- The leftmost word that spells a keyword is found, as it is written. -/
theorem firstWord?_eq_some_iff (hkeys : ∀ keyword ∈ keywords, isKeyword keyword = true) :
    firstWord? keywords text = some word ↔
      ∃ early late, runs isWord text = early ++ word :: late ∧ SpelledAny keywords word ∧
        ∀ other ∈ early, ¬SpelledAny keywords other := by
  rw [firstWord?, Cursor.start_eq_between, Cursor.find?_between_eq_some_iff]
  simp only [List.nil_append, spelling?_eq_some_iff hkeys]
  constructor
  · rintro ⟨front, rest, rfl, ⟨after, hat, hspelled⟩, hearly⟩
    refine ⟨runs isWord front, runs isWord after, hat.runs_eq, hspelled, fun other hmem hother => ?_⟩
    -- A word in front of the place would have been found there.
    obtain ⟨before, between, hbefore⟩ := exists_wordAt_of_mem_runs hmem
    have hwhole := hbefore.append_left (hat.apart rest)
    have hshorter : before.length < front.length := by
      have hlength := congrArg List.length hbefore.eq_append
      rw [List.length_append, List.length_append] at hlength
      have hpos := List.length_pos_iff.mpr hbefore.ne_nil
      omega
    have hnone := hearly before _ hwhole.eq_append hshorter
    rw [(spelling?_eq_some_iff hkeys).mpr ⟨_, hwhole.eq_append ▸ hwhole, hother⟩] at hnone
    cases hnone
  · rintro ⟨early, late, hwords, hspelled, hearly⟩
    obtain ⟨front, rest, hat, rfl⟩ := exists_wordAt_of_runs_eq hwords
    refine ⟨front, word ++ rest, hat.eq_append, ⟨rest, hat.eq_append ▸ hat, hspelled⟩, fun before after htext hlt => ?_⟩
    rw [Option.eq_none_iff_forall_ne_some]
    intro other hother
    obtain ⟨later, hat', hspelled'⟩ := (spelling?_eq_some_iff hkeys).mp hother
    rw [← htext, hat.eq_append] at hat'
    rcases hat'.of_append (hat.apart _) with ⟨gap, -, hin⟩ | ⟨gap, rfl, -⟩
    · exact hearly other hin.mem_runs hspelled'
    · rw [List.length_append] at hlt
      omega

theorem leadingWord?_eq_some_iff (hne : keyword ≠ []) (hall : keyword.all isLeadingChar = true) :
    leadingWord? text = some keyword ↔ BeginsWith keyword text := by
  have hread : leadingWord? text =
      if text.takeWhile isLeadingChar = [] then none else some (text.takeWhile isLeadingChar) := by
    have hlead : text.takeWhile (fun c => isAlphanumeric c || c == '_') = text.takeWhile isLeadingChar := rfl
    rw [leadingWord?, hlead]
    split
    · next hempty => rw [if_pos hempty]
    · next hempty => rw [if_neg hempty]
  rw [hread]
  constructor
  · intro h
    split at h
    · cases h
    · obtain rfl := Option.some.inj h
      refine ⟨text.dropWhile isLeadingChar, List.takeWhile_append_dropWhile.symm, fun c hc => ?_⟩
      have hstop := List.head?_dropWhile_not isLeadingChar text
      rw [hc] at hstop
      simpa using hstop
  · rintro ⟨rest, rfl, hstop⟩
    rw [(Lexeme.takeWhile_append_of_stop (List.all_eq_true.mp hall) hstop).1, if_neg hne]

theorem isSelect_iff : isSelect text = true ↔ IsQuery text := by
  have hselect := @leadingWord?_eq_some_iff "SELECT".toList text (by decide) (by decide)
  have hwith := @leadingWord?_eq_some_iff "WITH".toList text (by decide) (by decide)
  rw [IsQuery, ← hselect, ← hwith, Mentions, ← hasWord_iff (by decide), isSelect]
  cases leadingWord? text with
  | none => simp
  | some word => simp

theorem lacks_iff (hkeys : ∀ keyword ∈ keywords, isKeyword keyword = true) :
    Lacks keywords text ↔ ∀ keyword ∈ keywords, hasWord keyword text = false := by
  constructor
  · intro h keyword hmem
    rw [← Bool.not_eq_true, hasWord_iff (hkeys keyword hmem)]
    rintro ⟨word, hword, hspelled⟩
    exact h word hword ⟨keyword, hmem, hspelled⟩
  · rintro h word hword ⟨keyword, hmem, hspelled⟩
    have hnone := h keyword hmem
    rw [← Bool.not_eq_true, hasWord_iff (hkeys keyword hmem)] at hnone
    exact hnone ⟨word, hword, hspelled⟩

theorem modification?_eq_none_iff_lacks : modification? text = none ↔ Lacks (modifying.map (·.1)) text := by
  rw [modification?_eq_none_iff, lacks_iff (by decide), ← modifications_eq_modifying, List.map_map]
  rfl

theorem administrative?_eq_none_iff_lacks {mode : Mode} :
    administrative? mode text = none ↔ Lacks mode.administering text := by
  rw [administrative?_eq_none_iff, lacks_iff isKeyword_of_mem_administering, administrative_eq_administering]

/-- The first word of the list that is among those of the text decides. -/
theorem modification?_eq_some_iff {found : Classification} : modification? text = some found ↔
    ∃ keyword earlier later, modifying = earlier ++ (keyword, found) :: later ∧ Mentions keyword text ∧
      ∀ entry ∈ earlier, ¬Mentions entry.1 text := by
  have hread : modification? text = (modifying.find? fun entry => hasWord entry.1 text).map (·.2) := by
    rw [modification?, ← modifications_eq_modifying, List.find?_map, Option.map_map]
    rfl
  have hmentions : ∀ entry ∈ modifying, (hasWord entry.1 text = true ↔ Mentions entry.1 text) :=
    fun entry hmem => hasWord_iff (isKeyword_of_mem_modifying entry hmem)
  rw [hread, Option.map_eq_some_iff]
  simp only [List.find?_eq_some_iff_append, Bool.not_eq_true']
  constructor
  · rintro ⟨⟨keyword, found⟩, ⟨hword, earlier, later, hlist, hearlier⟩, rfl⟩
    rw [hlist] at hmentions
    refine ⟨keyword, earlier, later, hlist, (hmentions _ List.mem_append_cons_self).mp hword, fun entry hin => ?_⟩
    rw [← hmentions entry (List.mem_append_left _ hin), hearlier entry hin]
    exact Bool.false_ne_true
  · rintro ⟨keyword, earlier, later, hlist, hword, hearlier⟩
    rw [hlist] at hmentions
    refine ⟨(keyword, found), ⟨(hmentions _ List.mem_append_cons_self).mpr hword, earlier, later, hlist,
      fun entry hin => ?_⟩, rfl⟩
    exact Bool.eq_false_iff.mpr fun htrue =>
      hearlier entry hin ((hmentions entry (List.mem_append_left _ hin)).mp htrue)

/-- The leftmost administrative word decides. -/
theorem administrative?_eq_some_iff {mode : Mode} {found : Classification} : administrative? mode text = some found ↔
    ∃ early word late, runs isWord text = early ++ word :: late ∧ SpelledAny mode.administering word ∧
      (∀ other ∈ early, ¬SpelledAny mode.administering other) ∧
      found = .dangerous ((Operation.ofKeyword? word).getD .nonSelectStatement) := by
  rw [administrative?, Option.map_eq_some_iff]
  simp only [administrative_eq_administering, firstWord?_eq_some_iff isKeyword_of_mem_administering]
  constructor
  · rintro ⟨word, ⟨early, late, hwords, hword, hearly⟩, rfl⟩
    exact ⟨early, word, late, hwords, hword, hearly, rfl⟩
  · rintro ⟨early, word, late, hwords, hword, hearly, rfl⟩
    exact ⟨word, ⟨early, late, hwords, hword, hearly⟩, rfl⟩

end Words

section Rules

variable {mode : Mode} {sql : List Char} {found : Classification}

theorem Unremarkable.verdictOn_eq (h : Unremarkable mode (stripComments sql) (normalForm sql)) :
    verdictOn mode (normalForm sql) = ⟨.selectFamily, selectFamily (normalForm sql)⟩ := by
  have hstacked : isStacked (normalForm sql) = false := by
    rw [← Bool.not_eq_true, isStacked_normalForm_iff]
    exact h.single
  rw [verdictOn, hstacked, modification?_eq_none_iff_lacks.mpr h.preserving,
    administrative?_eq_none_iff_lacks.mpr h.unprivileged]
  rfl

/-- What the rules say is the classification. -/
theorem Ruled.classify_eq (h : Ruled mode (stripComments sql) (normalForm sql) found) : classify mode sql = found := by
  cases h with
  | continued hcontinued =>
      rw [classify, verdictOn, (isStacked_normalForm_iff sql).mpr hcontinued]
      rfl
  | modification hsingle hlist hword hearlier =>
      rw [← isStacked_normalForm_iff, Bool.not_eq_true] at hsingle
      rw [classify, verdictOn, hsingle,
        modification?_eq_some_iff.mpr ⟨_, _, _, hlist, hword, hearlier⟩]
      rfl
  | administrative hsingle hpreserving hwords hword hearly =>
      rw [← isStacked_normalForm_iff, Bool.not_eq_true] at hsingle
      rw [classify, verdictOn, hsingle, modification?_eq_none_iff_lacks.mpr hpreserving,
        administrative?_eq_some_iff.mpr ⟨_, _, _, hwords, hword, hearly, rfl⟩]
      rfl
  | nonSelect hplain hquery =>
      rw [← isSelect_iff, Bool.not_eq_true] at hquery
      rw [classify, hplain.verdictOn_eq, selectFamily, hquery]
      rfl
  | selectInto hplain hquery hinto =>
      rw [classify, hplain.verdictOn_eq, selectFamily, isSelect_iff.mpr hquery, (hasWord_iff (by decide)).mpr hinto]
      rfl
  | read hplain hquery hinto =>
      have hnone : hasWord "INTO".toList (normalForm sql) = false :=
        Bool.eq_false_iff.mpr fun htrue => hinto ((hasWord_iff (by decide)).mp htrue)
      rw [classify, hplain.verdictOn_eq, selectFamily, isSelect_iff.mpr hquery, hnone]
      rfl

/-- The rules say something of every statement. -/
theorem exists_ruled (mode : Mode) (sql : List Char) :
    ∃ found, Ruled mode (stripComments sql) (normalForm sql) found := by
  by_cases hsingle : Continued (stripComments sql)
  · exact ⟨_, .continued hsingle⟩
  cases hmodification : modification? (normalForm sql) with
  | some found =>
      obtain ⟨_, _, _, hlist, hword, hearlier⟩ := modification?_eq_some_iff.mp hmodification
      exact ⟨_, .modification hsingle hlist hword hearlier⟩
  | none =>
      have hpreserving := modification?_eq_none_iff_lacks.mp hmodification
      cases hadministrative : administrative? mode (normalForm sql) with
      | some found =>
          obtain ⟨_, _, _, hwords, hword, hearly, -⟩ := administrative?_eq_some_iff.mp hadministrative
          exact ⟨_, .administrative hsingle hpreserving hwords hword hearly⟩
      | none =>
          have hplain : Unremarkable mode (stripComments sql) (normalForm sql) :=
            ⟨hsingle, hpreserving, administrative?_eq_none_iff_lacks.mp hadministrative⟩
          by_cases hquery : IsQuery (normalForm sql)
          · by_cases hinto : Mentions "INTO".toList (normalForm sql)
            · exact ⟨_, .selectInto hplain hquery hinto⟩
            · exact ⟨_, .read hplain hquery hinto⟩
          · exact ⟨_, .nonSelect hplain hquery⟩

/-- No keyword names the operation of a second statement. -/
theorem Ruled.continued_of_multipleStatements {stripped normal : List Char}
    (h : Ruled mode stripped normal (.dangerous .multipleStatements)) : Continued stripped := by
  generalize hfound : Classification.dangerous .multipleStatements = found at h
  cases h with
  | continued h => exact h
  | @modification keyword found earlier later hsingle hlist hword hearlier =>
      have hall : ∀ entry ∈ modifying, entry.2 ≠ .dangerous .multipleStatements := by decide
      have hmem : (keyword, found) ∈ modifying := by
        rw [hlist]
        exact List.mem_append_cons_self
      exact absurd hfound.symm (hall _ hmem)
  | @administrative early late word hsingle hpreserving hwords hword hearly =>
      have hall : ∀ operation ∈ Operation.keywords, operation ≠ .multipleStatements := by decide
      have hoperation : .multipleStatements = (Operation.ofKeyword? word).getD .nonSelectStatement :=
        congrArg Classification.operation hfound
      cases hnamed : Operation.ofKeyword? word with
      | none =>
          rw [hnamed] at hoperation
          cases hoperation
      | some operation =>
          rw [hnamed] at hoperation
          exact absurd hoperation.symm (hall operation (List.mem_of_find?_eq_some hnamed))
  | nonSelect => cases hfound
  | selectInto => cases hfound
  | read => cases hfound

/-- A statement is classified as the rules say, and as several statements exactly where one of its semicolons is
followed by more than blanks. -/
theorem classify_eq_iff_ruled (mode : Mode) (sql : List Char) (found : Classification) :
    (classify mode sql = found ↔ Ruled mode (stripComments sql) (normalForm sql) found) ∧
      (classify mode sql = .dangerous .multipleStatements ↔ Continued (stripComments sql)) := by
  have hruled : ∀ {other : Classification}, classify mode sql = other ↔
      Ruled mode (stripComments sql) (normalForm sql) other := by
    intro other
    constructor
    · rintro rfl
      obtain ⟨other, hother⟩ := exists_ruled mode sql
      rwa [hother.classify_eq]
    · exact Ruled.classify_eq
  exact ⟨hruled, fun h => (hruled.mp h).continued_of_multipleStatements, fun h => hruled.mpr (.continued h)⟩

-- The administrative word stands in front of the one that changes rows, which decides all the same.
example : classify .readOnly "EXEC p; -- then\nDELETE FROM t".toList = .dangerous .multipleStatements ∧
    classify .readOnly "EXEC p -- then\nDELETE FROM t".toList = ⟨.delete, .delete⟩ := by
  decide +kernel

end Rules

end SqlGate
