import SqlGate.CommandLine
import SqlGate.Proofs.Numerals
import SqlGate.Proofs.Slots

/-! The settings that an environment gives. It gives some exactly where each variable that is set is of use, the bounds
on rows go together and there is time. Each field then is what its own variable stands for, and a gate opens with them
for whatever engine. The bound on the size of statements is not looked at: it may be zero, and a gate with such a bound
limits nothing. -/

namespace SqlGate

open Unicode

/-- No blanks are left at the ends that could be left out again. -/
theorem trim_trim (text : List Char) : trim (trim text) = trim text := by
  obtain ⟨tail, htext, -, hlast⟩ := exists_trimEnd (text.dropWhile isBlank)
  have hhead : (trim text).dropWhile isBlank = trim text := by
    cases htrim : trim text with
    | nil => rfl
    | cons c rest =>
        have hstop := List.head?_dropWhile_not isBlank text
        rw [htext, ← trim, htrim, List.cons_append, List.head?_cons] at hstop
        rw [List.dropWhile_cons_of_neg (by simpa using hstop)]
  calc trim (trim text) = trimEnd (trim text) := by rw [trim, hhead]
    _ = trimEnd (trim text ++ []) := by rw [List.append_nil]
    _ = trim text := trimEnd_append (fun c hc => absurd hc List.not_mem_nil) hlast

theorem Mode.parse_trim (text : String) : parse (String.ofList (trim text.toList)) = parse text := by
  rw [parse, parse, String.toList_ofList, trim_trim]

theorem Database.parse_trim (text : String) : parse (String.ofList (trim text.toList)) = parse text := by
  rw [parse, parse, String.toList_ofList, trim_trim]

section Results

variable {ε δ α β : Type}

theorem mapError_eq_ok_iff {wrap : ε → δ} {result : Except ε α} {value : α} :
    result.mapError wrap = .ok value ↔ result = .ok value := by
  cases result with
  | error cause => simp [Except.mapError]
  | ok found => simp [Except.mapError]

/-- Two steps give a value exactly where the first one gives something from which the second one gives the value. -/
theorem bind_eq_ok_iff {result : Except ε α} {next : α → Except ε β} {value : β} :
    result >>= next = .ok value ↔ ∃ found, result = .ok found ∧ next found = .ok value := by
  cases result with
  | error cause => simp [bind, Except.bind]
  | ok found => simp [bind, Except.bind]

end Results

/-- The environment in which the given variables are set and no others. -/
def environmentOf (given : List (String × String)) (variableName : String) : Option String :=
  given.lookup variableName

/-- What a variable stands for: the usual value where it is not set, and else what is read off its text without the
blanks around it. -/
def StandsFor {α : Type} (Reads : List Char → α → Prop) (usual : α) : Option String → α → Prop
  | none, value => value = usual
  | some text, value => Reads (trim text.toList) value

def WritesMode (text : List Char) (mode : Mode) : Prop :=
  Mode.parse (String.ofList text) = .ok mode

/-- The engine that two variables stand for: the one that the first names, else the one that the connection URL in the
second leads to, and the usual one where neither is set. -/
inductive StandsForDatabase (usual : Database) : Option String → Option String → Database → Prop where
  | named {text : String} {url : Option String} {database : Database}
      (hname : Database.parse (String.ofList (trim text.toList)) = .ok database) :
      StandsForDatabase usual (some text) url database
  | url {url : String} {database : Database} (hurl : Database.ofUrl url = .ok database) :
      StandsForDatabase usual none (some url) database
  | unset : StandsForDatabase usual none none usual

namespace Settings

variable {environment : String → Option String} {settings : Settings}

theorem countFrom_eq_ok_iff {variableName : String} {usual count : Nat} :
    countFrom environment variableName usual = .ok count ↔
      StandsFor WritesCount usual (environment variableName) count := by
  rw [countFrom]
  split
  · next hunset => rw [hunset, StandsFor, Except.ok.injEq, eq_comm]
  · next text hset => rw [hset, StandsFor, mapError_eq_ok_iff, readCount_eq_ok_iff]

theorem modeFrom_eq_ok_iff {usual mode : Mode} : modeFrom environment usual = .ok mode ↔
    StandsFor WritesMode usual (environment "SQL_GUARD_MODE") mode := by
  rw [modeFrom]
  split
  · next hunset => rw [hunset, StandsFor, Except.ok.injEq, eq_comm]
  · next text hset => rw [hset, StandsFor, mapError_eq_ok_iff, WritesMode, Mode.parse_trim]

theorem databaseFrom_eq_ok_iff {usual database : Database} : databaseFrom environment usual = .ok database ↔
    StandsForDatabase usual (environment "SQL_GUARD_DATABASE_TYPE") (environment "DATABASE_DSN") database := by
  rw [databaseFrom]
  split
  · next text hset =>
      rw [hset, mapError_eq_ok_iff, ← Database.parse_trim]
      constructor
      · exact .named
      · rintro ⟨hname⟩
        exact hname
  · next hunset =>
      rw [hunset]
      split
      · next url hset =>
          rw [hset, mapError_eq_ok_iff]
          constructor
          · exact .url
          · intro h
            cases h with
            | url hurl => exact hurl
      · next hnone =>
          rw [hnone, Except.ok.injEq]
          constructor
          · rintro rfl
            exact .unset
          · intro h
            cases h with
            | unset => rfl

/-- Settings each field of which is what its own variable stands for. -/
structure ReadFrom (settings : Settings) (environment : String → Option String) : Prop where
  ceiling : StandsFor WritesCount 10000 (environment "SQL_GUARD_MAX_ROWS_CEILING") settings.bounds.ceiling
  usual : StandsFor WritesCount 1000 (environment "SQL_GUARD_DEFAULT_MAX_ROWS") settings.bounds.usual
  mode : StandsFor WritesMode .standard (environment "SQL_GUARD_MODE") settings.mode
  budget : StandsFor WritesCount 50 (environment "SQL_GUARD_REWRITE_BUDGET_MS") settings.budget
  maxBytes : StandsFor WritesCount (1024 * 1024) (environment "SQL_GUARD_MAX_STATEMENT_BYTES") settings.maxBytes
  database : StandsForDatabase .sqlServer (environment "SQL_GUARD_DATABASE_TYPE") (environment "DATABASE_DSN")
    settings.database

theorem ofEnvironment_eq_ok_iff : ofEnvironment environment = .ok settings ↔
    settings.ReadFrom environment ∧ settings.validate = .ok () := by
  simp only [ofEnvironment, bind_eq_ok_iff, countFrom_eq_ok_iff, modeFrom_eq_ok_iff, databaseFrom_eq_ok_iff,
    mapError_eq_ok_iff]
  constructor
  · rintro ⟨ceiling, hceiling, usual, husual, mode, hmode, budget, hbudget, maxBytes, hmaxBytes, database, hdatabase,
      ⟨⟩, hvalid, hsettings⟩
    obtain rfl := Except.ok.inj hsettings
    exact ⟨⟨hceiling, husual, hmode, hbudget, hmaxBytes, hdatabase⟩, hvalid⟩
  · rintro ⟨hread, hvalid⟩
    exact ⟨_, hread.ceiling, _, hread.usual, _, hread.mode, _, hread.budget, _, hread.maxBytes, _, hread.database,
      (), hvalid, rfl⟩

/-- The size of statements is bounded by zero exactly where its variable writes a zero. -/
theorem ReadFrom.maxBytes_pos_iff (h : settings.ReadFrom environment) : 0 < settings.maxBytes ↔
    ∀ text, environment "SQL_GUARD_MAX_STATEMENT_BYTES" = some text → ¬WritesCount (trim text.toList) 0 := by
  have hmaxBytes := h.maxBytes
  cases hset : environment "SQL_GUARD_MAX_STATEMENT_BYTES" with
  | none =>
      rw [hset] at hmaxBytes
      have hsize : settings.maxBytes = 1024 * 1024 := hmaxBytes
      simp [hsize]
  | some text =>
      rw [hset] at hmaxBytes
      have hwrites : WritesCount (trim text.toList) settings.maxBytes := hmaxBytes
      simp only [Option.some.injEq, forall_eq']
      constructor
      · intro hpos hzero
        have hsame := (readCount_eq_ok_iff.mpr hzero).symm.trans (readCount_eq_ok_iff.mpr hwrites)
        exact hpos.ne (Except.ok.inj hsame)
      · intro hzero
        refine Nat.pos_of_ne_zero fun hsize => hzero ?_
        rwa [hsize] at hwrites

end Settings

namespace Limiter

variable {limiter : Limiter}

/-- Where no bytes are allowed every statement is too large, but for the empty one. -/
theorem limit_ne_ok_of_maxBytes (h : limiter.maxBytes = 0) (sql : List Char) (window : RowWindow) (timing : Timing)
    (limited : Limited) : limiter.limit sql window timing ≠ .ok limited := by
  intro hlimit
  unfold limit at hlimit
  split at hlimit
  · cases hlimit
  · next hsize =>
      have hnil : sql = [] := by
        by_contra hne
        exact hsize (h ▸ byteLength_pos hne)
      have hblank : (Outline.of sql).isBlank = true := by
        rw [Outline.isBlank, Outline.text_of, hnil, lexemes_nil]
        rfl
      dsimp only at hlimit
      rw [if_pos hblank] at hlimit
      cases hlimit

theorem apply_of_maxBytes (h : limiter.maxBytes = 0) (category : Category) (sql : List Char) (window : RowWindow)
    (timing : Timing) : (limiter.apply category sql window timing).text = sql ∧
      (limiter.apply category sql window timing).outcome.effectiveLimit? = none := by
  rcases limiter.apply_cases category sql window timing with hlimit | ⟨obstacle, hkept⟩ | hkept
  · exact absurd hlimit (limit_ne_ok_of_maxBytes h sql window timing _)
  · exact hkept ▸ ⟨rfl, rfl⟩
  · exact hkept ▸ ⟨rfl, rfl⟩

end Limiter

namespace Gate

variable {gate : Gate}

/-- A gate that allows statements of no bytes only hands every statement on as it is, and without a limit. -/
theorem evaluate_of_maxBytes (h : gate.settings.maxBytes = 0) (request : Request) (timing : Timing) :
    (gate.evaluate request timing).statement = request.sql ∧
      ∀ outcome, (gate.evaluate request timing).outcome = some outcome → outcome.effectiveLimit? = none := by
  rcases gate.evaluate_cases request timing with ⟨limited, rfl, hstatement, houtcome⟩ | ⟨hstatement, houtcome⟩
  · have hbytes : gate.settings.limiter.maxBytes = 0 := h
    obtain ⟨htext, hnone⟩ := Limiter.apply_of_maxBytes hbytes (gate.verdict request).classification.category
      request.sql.toList (gate.window request) timing
    rw [hstatement, houtcome, htext, String.ofList_toList]
    refine ⟨rfl, fun outcome hsame => ?_⟩
    rw [← Option.some.inj hsame]
    exact hnone
  · rw [hstatement, houtcome]
    refine ⟨rfl, fun outcome hsame => ?_⟩
    cases hsame

end Gate

namespace Settings

variable {environment : String → Option String} {settings : Settings}

/-- Settings of an environment with which a gate opens, whatever engine takes the place of theirs. -/
structure Working (settings : Settings) (environment : String → Option String) : Prop where
  readFrom : settings.ReadFrom environment
  ceiling_pos : 0 < settings.bounds.ceiling
  usual_pos : 0 < settings.bounds.usual
  usual_le_ceiling : settings.bounds.usual ≤ settings.bounds.ceiling
  budget_pos : 0 < settings.budget
  opens (database : Database) : ∃ gate, Gate.ofSettings { settings with database } = .ok gate ∧
    gate.settings = { settings with database }
  starts {arguments : List String} {options : CommandLine.Options}
    (harguments : CommandLine.Options.parse arguments = some options) :
    ∃ gate, CommandLine.start arguments environment = .ok (options, gate) ∧
      gate.settings = { settings with database := options.database.getD settings.database }

theorem working_of_ofEnvironment (h : ofEnvironment environment = .ok settings) : settings.Working environment := by
  obtain ⟨hread, hvalid⟩ := ofEnvironment_eq_ok_iff.mp h
  obtain ⟨hbounds, hbudget⟩ := validate_eq_ok_iff.mp hvalid
  obtain ⟨hceiling, husual, hle⟩ := RowBounds.validate_eq_ok_iff.mp hbounds
  have hopens : ∀ database, ∃ gate, Gate.ofSettings { settings with database } = .ok gate ∧
      gate.settings = { settings with database } := by
    intro database
    have hsame : ({ settings with database } : Settings).validate = .ok () := hvalid
    exact ⟨_, Gate.ofSettings_of_valid hsame, rfl⟩
  refine ⟨hread, hceiling, husual, hle, hbudget, hopens, ?_⟩
  intro arguments options harguments
  obtain ⟨gate, hgate, hsettings⟩ := hopens (options.database.getD settings.database)
  refine ⟨gate, ?_, hsettings⟩
  rw [CommandLine.start, harguments]
  dsimp only
  rw [h]
  dsimp only
  rw [hgate]

/-- An environment is accepted exactly where it gives settings that a gate works with, whatever the engine: each field
is what its own variable stands for, the bounds on rows are positive and in order, and there is time. The bound on the
size of statements then is positive exactly unless its variable writes a zero. -/
theorem ofEnvironment_eq_ok_iff_working : ofEnvironment environment = .ok settings ↔
    settings.Working environment ∧
      (0 < settings.maxBytes ↔
        ∀ text, environment "SQL_GUARD_MAX_STATEMENT_BYTES" = some text → ¬WritesCount (trim text.toList) 0) := by
  constructor
  · intro h
    have hworking := working_of_ofEnvironment h
    exact ⟨hworking, hworking.readFrom.maxBytes_pos_iff⟩
  · rintro ⟨hworking, -⟩
    have hbounds : settings.bounds.validate = .ok () :=
      RowBounds.validate_eq_ok_iff.mpr ⟨hworking.ceiling_pos, hworking.usual_pos, hworking.usual_le_ceiling⟩
    exact ofEnvironment_eq_ok_iff.mpr
      ⟨hworking.readFrom, validate_eq_ok_iff.mpr ⟨hbounds, hworking.budget_pos⟩⟩

-- Numerals may have blanks around them, a sign and zeros; an engine that is named wins over a connection URL.
example : ofEnvironment (environmentOf [("SQL_GUARD_MAX_ROWS_CEILING", " +0500\n"),
    ("SQL_GUARD_DEFAULT_MAX_ROWS", "500"), ("SQL_GUARD_MODE", " Strict "), ("SQL_GUARD_DATABASE_TYPE", "MySQL"),
    ("DATABASE_DSN", "postgres://db/app")]) = .ok ⟨⟨500, 500⟩, .readOnly, .mySql, 50, 1024 * 1024⟩ := by
  decide +kernel

/-- A size of zero is accepted although the variable has to be positive, and with it the gate limits no read. -/
theorem exists_maxBytes_eq_zero : ∃ environment settings,
    environment = environmentOf [("SQL_GUARD_MAX_STATEMENT_BYTES", "0")] ∧
    ofEnvironment environment = .ok settings ∧ ¬0 < settings.maxBytes ∧
    ∃ gate, Gate.ofSettings settings = .ok gate ∧
      ∀ request timing, (gate.evaluate request timing).statement = request.sql ∧
        ∀ outcome, (gate.evaluate request timing).outcome = some outcome → outcome.effectiveLimit? = none := by
  have hread : ofEnvironment (environmentOf [("SQL_GUARD_MAX_STATEMENT_BYTES", "0")]) =
      .ok ⟨⟨10000, 1000⟩, .standard, .sqlServer, 50, 0⟩ := by
    decide +kernel
  obtain ⟨gate, hgate, hsettings⟩ := (working_of_ofEnvironment hread).opens .sqlServer
  have hzero : gate.settings.maxBytes = 0 := by rw [hsettings]
  exact ⟨_, _, rfl, hread, by decide, gate, hgate, Gate.evaluate_of_maxBytes hzero⟩

end Settings

end SqlGate
