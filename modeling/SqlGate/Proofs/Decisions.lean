import SqlGate.Proofs.GluedNumbers

/-! What the gate decides about a statement, and on what that depends: on the statement, on the mode and, for removals
only, on the confirmation. The clock has a say only in how a read is limited. So a refusal says what can be done about
it, and the strict mode refuses more than the standard one without treating what it lets pass in any other way. -/

namespace SqlGate

open Unicode

/-- The three kinds of decision, each with what the decisions on the same classification have in common. -/
inductive Decided (classification : Classification) (mode : Mode) : Bool → Decision → Prop where
  | allowed {confirmed : Bool} (hconfirmed : authorize classification true mode = .allowed) :
      Decided classification mode confirmed .allowed
  | blocked {confirmed : Bool}
      (hall : ∀ confirmed, authorize classification confirmed mode = .blocked classification.operation) :
      Decided classification mode confirmed (.blocked classification.operation)
  | requiresConfirmation (hread : classification.isReadOnly = false)
      (hconfirmed : authorize classification true mode = .allowed) :
      Decided classification mode false (.requiresConfirmation classification.operation)

theorem decided_authorize (classification : Classification) (confirmed : Bool) (mode : Mode) :
    Decided classification mode confirmed (authorize classification confirmed mode) := by
  obtain ⟨category, operation⟩ := classification
  cases category with
  | readOnly => exact .allowed rfl
  | dangerous => exact .blocked fun _ => rfl
  | insert | update =>
      cases mode with
      | standard => exact .allowed rfl
      | readOnly => exact .blocked fun _ => rfl
  | delete | truncate =>
      cases mode with
      | standard =>
          cases confirmed with
          | true => exact .allowed rfl
          | false => exact .requiresConfirmation rfl rfl
      | readOnly => exact .blocked fun _ => rfl

theorem authorize_of_isReadOnly {classification : Classification} (h : classification.isReadOnly = true)
    (confirmed : Bool) (mode : Mode) : authorize classification confirmed mode = .allowed := by
  obtain ⟨category, operation⟩ := classification
  obtain rfl : category = .readOnly := by simpa [Classification.isReadOnly] using h
  rfl

/-- What is allowed is allowed when confirmed. -/
theorem authorize_of_confirmed {classification : Classification} {confirmed : Bool} {mode : Mode}
    (h : authorize classification confirmed mode = .allowed) : authorize classification true mode = .allowed := by
  have hdecided := decided_authorize classification confirmed mode
  rw [h] at hdecided
  cases hdecided with
  | allowed hconfirmed => exact hconfirmed

/-- The strict mode lets reads pass and nothing else. -/
theorem isReadOnly_of_authorize {classification : Classification} {confirmed : Bool}
    (h : authorize classification confirmed .readOnly = .allowed) : classification.isReadOnly = true := by
  obtain ⟨category, operation⟩ := classification
  cases category with
  | readOnly => rfl
  | _ => cases h

/-- A refusal of a statement by the policy on account of an operation. -/
inductive Refuses (operation : Operation) (statement : String) : Refusal → Prop where
  | blocked : Refuses operation statement (.blocked operation statement)
  | confirmationRequired : Refuses operation statement (.confirmationRequired operation statement)

namespace Evaluation

/-- What comes out of an evaluation that allows its statement. -/
def prepared (evaluation : Evaluation) : PreparedStatement :=
  ⟨evaluation.statement, evaluation.classification, evaluation.outcome, evaluation.advisories⟩

variable {evaluation : Evaluation}

theorem isAllowed_iff : evaluation.isAllowed = true ↔ evaluation.decision = .allowed := by
  rw [isAllowed, Decision.isAllowed, decide_eq_true_eq]

theorem toPrepared_of_allowed (h : evaluation.decision = .allowed) :
    evaluation.toPrepared = .ok evaluation.prepared := by
  rw [toPrepared, h]
  rfl

theorem toPrepared_of_blocked {reason : Operation} (h : evaluation.decision = .blocked reason) :
    evaluation.toPrepared = .error (.blocked reason evaluation.statement) := by
  rw [toPrepared, h]
  rfl

theorem toPrepared_of_requiresConfirmation {reason : Operation}
    (h : evaluation.decision = .requiresConfirmation reason) :
    evaluation.toPrepared = .error (.confirmationRequired reason evaluation.statement) := by
  rw [toPrepared, h]
  rfl

theorem toPrepared_eq_ok_iff {prepared : PreparedStatement} : evaluation.toPrepared = .ok prepared ↔
    evaluation.isAllowed = true ∧ prepared = evaluation.prepared := by
  rw [isAllowed_iff]
  cases hdecision : evaluation.decision with
  | allowed =>
      rw [toPrepared_of_allowed hdecision, Except.ok.injEq, and_iff_right rfl]
      exact eq_comm
  | blocked reason =>
      rw [toPrepared_of_blocked hdecision]
      exact iff_of_false nofun fun h => nomatch h.1
  | requiresConfirmation reason =>
      rw [toPrepared_of_requiresConfirmation hdecision]
      exact iff_of_false nofun fun h => nomatch h.1

end Evaluation

namespace Gate

variable {gate another : Gate} {request other : Request} {timing again : Timing}

/-- The decision on a request. The clock has no say in it. -/
def decision (gate : Gate) (request : Request) : Decision :=
  gate.judge request (gate.verdict request).classification

theorem decision_evaluate (gate : Gate) (request : Request) (timing : Timing) :
    (gate.evaluate request timing).decision = gate.decision request := rfl

theorem classification_evaluate (gate : Gate) (request : Request) (timing : Timing) :
    (gate.evaluate request timing).classification = (gate.verdict request).classification := rfl

theorem isAllowed_evaluate (gate : Gate) (request : Request) (timing : Timing) :
    (gate.evaluate request timing).isAllowed = true ↔ gate.decision request = .allowed := by
  rw [Evaluation.isAllowed_iff, decision_evaluate]

theorem verdict_congr (hsql : other.sql = request.sql) (hmode : another.modeFor other = gate.modeFor request) :
    another.verdict other = gate.verdict request := by
  rw [verdict, verdict, hsql, hmode]

/-- Only a read that is allowed is limited. -/
theorem evaluate_of_not_limited (h : ¬(gate.decision request = .allowed ∧
    (gate.verdict request).classification.isReadOnly = true)) (timing : Timing) :
    (gate.evaluate request timing).statement = request.sql ∧ (gate.evaluate request timing).outcome = none := by
  have hnone : gate.limited? request (gate.verdict request).classification timing = none := by
    refine if_neg fun hboth => h ?_
    rw [Bool.and_eq_true, Decision.isAllowed, decide_eq_true_eq] at hboth
    exact hboth
  rw [evaluate]
  dsimp only
  rw [hnone]
  exact ⟨rfl, rfl⟩

theorem statement_of_refused (h : gate.decision request ≠ .allowed) (timing : Timing) :
    (gate.evaluate request timing).statement = request.sql :=
  (evaluate_of_not_limited (fun hboth => h hboth.1) timing).1

/-- The mode and the confirmation enter an evaluation by way of the classification and the decision only, and the clock
by way of the passes that it gives up. -/
theorem evaluate_congr (htime : timing.Agrees again gate.settings.budget) (hsql : other.sql = request.sql)
    (hrows : other.maxRows = request.maxRows) (hoffset : other.offset = request.offset)
    (hclassification : (gate.verdict other).classification = (gate.verdict request).classification)
    (hdecision : gate.decision other = gate.decision request) :
    gate.evaluate other again = gate.evaluate request timing := by
  rw [decision, decision] at hdecision
  change timing.Agrees again gate.settings.limiter.budget at htime
  have hwindow : gate.window other = gate.window request := by
    rw [window, window, hrows, hoffset]
  have hlimited : gate.limited? other (gate.verdict other).classification again =
      gate.limited? request (gate.verdict request).classification timing := by
    rw [limited?, limited?, hdecision, hclassification, hwindow, hsql, Limiter.apply_of_agrees htime]
  rw [evaluate, evaluate, hlimited, hdecision, hclassification, hsql, hoffset]

theorem evaluate_of_agrees (htime : timing.Agrees again gate.settings.budget) :
    gate.evaluate request again = gate.evaluate request timing :=
  evaluate_congr htime rfl rfl rfl rfl rfl

/-- What the gate answers to a request, next to what it finds about the request and to what it answers to others. Each
answer may be given at another time: the clock has a say only in how a statement that comes out is limited. -/
structure AnswersTruly (gate : Gate) (request : Request) : Prop where
  /-- A statement comes out exactly where it is allowed. -/
  exists_prepare_iff : ∀ timing again, (∃ prepared, gate.prepare request timing = .ok prepared) ↔
    (gate.evaluate request again).isAllowed = true
  /-- It comes out with all that is found about it by passes that are given up together if at all. -/
  prepare_eq_ok_iff : ∀ timing again, timing.Agrees again gate.settings.budget → ∀ prepared,
    gate.prepare request again = .ok prepared ↔
      (gate.evaluate request timing).isAllowed = true ∧ prepared = (gate.evaluate request timing).prepared
  /-- A refusal carries the statement of the request and the operation that it is classified by. -/
  refuses : ∀ timing again refusal, gate.prepare request timing = .error refusal →
    Refuses (gate.evaluate request again).classification.operation request.sql refusal
  /-- Where confirming is said to help, the confirmed statement comes out as it is. -/
  of_resolvedByConfirming : ∀ timing again refusal, gate.prepare request timing = .error refusal →
    refusal.resolvedByConfirming = true →
      ∃ prepared, gate.prepare { request with confirmed := true } again = .ok prepared ∧ prepared.sql = request.sql
  /-- What is blocked in a mode is blocked in it by every gate, at any time and whatever else is asked for. -/
  of_blocked : ∀ timing again operation statement, gate.prepare request timing = .error (.blocked operation statement) →
    ∀ (another : Gate) (other : Request), other.sql = request.sql → another.modeFor other = gate.modeFor request →
      another.prepare other again = .error (.blocked operation statement)
  /-- What is allowed needs no confirmation, and none changes it. -/
  of_allowed : ∀ timing again, timing.Agrees again gate.settings.budget →
    (gate.evaluate request timing).isAllowed = true →
      gate.evaluate { request with confirmed := true } again = gate.evaluate request timing

theorem prepare_of_allowed (h : gate.decision request = .allowed) (timing : Timing) :
    gate.prepare request timing = .ok (gate.evaluate request timing).prepared :=
  Evaluation.toPrepared_of_allowed h

/-- A refused statement is handed back as it came in. -/
theorem prepare_of_blocked {reason : Operation} (h : gate.decision request = .blocked reason) (timing : Timing) :
    gate.prepare request timing = .error (.blocked reason request.sql) := by
  rw [prepare, Evaluation.toPrepared_of_blocked h, statement_of_refused (by rw [h]; exact nofun)]

theorem prepare_of_requiresConfirmation {reason : Operation} (h : gate.decision request = .requiresConfirmation reason)
    (timing : Timing) : gate.prepare request timing = .error (.confirmationRequired reason request.sql) := by
  rw [prepare, Evaluation.toPrepared_of_requiresConfirmation h, statement_of_refused (by rw [h]; exact nofun)]

/-- A refusal is for good, or confirming lifts it from a statement that is no read. -/
theorem refused_cases {refusal : Refusal} (h : gate.prepare request timing = .error refusal) :
    (refusal = .blocked (gate.verdict request).classification.operation request.sql ∧
      ∀ confirmed, authorize (gate.verdict request).classification confirmed (gate.modeFor request) =
        .blocked (gate.verdict request).classification.operation) ∨
    (refusal = .confirmationRequired (gate.verdict request).classification.operation request.sql ∧
      (gate.verdict request).classification.isReadOnly = false ∧
      authorize (gate.verdict request).classification true (gate.modeFor request) = .allowed) := by
  have hdecided : Decided (gate.verdict request).classification (gate.modeFor request) request.confirmed
      (gate.decision request) := decided_authorize _ _ _
  generalize hdecision : gate.decision request = decision at hdecided
  generalize request.confirmed = confirmed at hdecided
  cases hdecided with
  | allowed =>
      rw [prepare_of_allowed hdecision] at h
      cases h
  | blocked hall =>
      rw [prepare_of_blocked hdecision] at h
      exact Or.inl ⟨(Except.error.inj h).symm, hall⟩
  | requiresConfirmation hread hconfirmed =>
      rw [prepare_of_requiresConfirmation hdecision] at h
      exact Or.inr ⟨(Except.error.inj h).symm, hread, hconfirmed⟩

/-- The answers of a gate are true: a refusal tells the statement, the operation that it is refused for, and whether
confirming helps, and nothing else that the caller or the settings could change makes up for a blocked statement. -/
theorem answersTruly (gate : Gate) (request : Request) : gate.AnswersTruly request where
  exists_prepare_iff timing again := by
    simp only [prepare, Evaluation.toPrepared_eq_ok_iff, isAllowed_evaluate]
    constructor
    · rintro ⟨prepared, hallowed, -⟩
      exact hallowed
    · intro hallowed
      exact ⟨_, hallowed, rfl⟩
  prepare_eq_ok_iff timing again htime prepared := by
    rw [prepare, evaluate_of_agrees htime, Evaluation.toPrepared_eq_ok_iff]
  refuses timing again refusal hrefusal := by
    rw [classification_evaluate]
    rcases refused_cases hrefusal with ⟨rfl, -⟩ | ⟨rfl, -⟩
    · exact .blocked
    · exact .confirmationRequired
  of_resolvedByConfirming timing again refusal hrefusal hresolved := by
    rcases refused_cases hrefusal with ⟨rfl, -⟩ | ⟨rfl, hread, hconfirmed⟩
    · cases hresolved
    · have hverdict : gate.verdict { request with confirmed := true } = gate.verdict request := verdict_congr rfl rfl
      have hdecision : gate.decision { request with confirmed := true } = .allowed := by
        rw [decision, hverdict]
        exact hconfirmed
      refine ⟨_, prepare_of_allowed hdecision again, (evaluate_of_not_limited (fun hboth => ?_) again).1⟩
      rw [hverdict, hread] at hboth
      cases hboth.2
  of_blocked timing again operation statement hrefusal another other hsql hmode := by
    rcases refused_cases hrefusal with ⟨hblocked, hall⟩ | ⟨hconfirmable, -⟩
    · have hother : another.decision other = .blocked (gate.verdict request).classification.operation := by
        rw [decision, judge, verdict_congr hsql hmode, hmode]
        exact hall other.confirmed
      rw [prepare_of_blocked hother, hblocked, hsql]
    · cases hconfirmable
  of_allowed timing again htime hallowed := by
    rw [isAllowed_evaluate] at hallowed
    have hverdict : gate.verdict { request with confirmed := true } = gate.verdict request := verdict_congr rfl rfl
    refine evaluate_congr htime rfl rfl rfl (by rw [hverdict]) ?_
    rw [hallowed, decision, hverdict]
    exact authorize_of_confirmed hallowed

end Gate

/-- The words that the strict mode takes for administrative and the standard mode does not. -/
def sessionWords : List (List Char) :=
  ["USE", "SET", "DBCC", "BACKUP", "RESTORE", "RECONFIGURE"].map String.toList

theorem administrative_readOnly :
    Mode.readOnly.administrative.map Operation.letters =
      Mode.standard.administrative.map Operation.letters ++ sessionWords := by
  decide

/-- What is one read in the strict mode is one read in the standard mode. -/
theorem Harmless.standard {text : List Char} (h : Harmless .readOnly text) : Harmless .standard text where
  closed := h.closed
  lead := h.lead
  clean word hword := by
    rintro ⟨keyword, hmem, hspelled⟩
    exact h.clean word hword ⟨keyword, mem_banned_of_standard .readOnly keyword hmem, hspelled⟩

theorem classify_standard_of_isReadOnly {sql : List Char} (h : (classify .readOnly sql).isReadOnly = true) :
    classify .standard sql = classify .readOnly sql := by
  have hread : Harmless .readOnly (stripComments sql) :=
    harmless_of_category (by simpa [Classification.isReadOnly] using h)
  rw [hread.classify_eq, hread.standard.classify_eq]

/-- A word of the session is an administrative keyword of the strict mode. -/
theorem administrative?_readOnly_eq_none_iff {text : List Char} : administrative? .readOnly text = none ↔
    administrative? .standard text = none ∧ ¬∃ word ∈ runs isWord text, SpelledAny sessionWords word := by
  have hkeys : ∀ keyword ∈ sessionWords, isKeyword keyword = true := by decide
  rw [administrative?_eq_none_iff, administrative?_eq_none_iff, administrative_readOnly, List.forall_mem_append]
  refine and_congr_right' ?_
  constructor
  · rintro h ⟨word, hword, keyword, hmem, hspelled⟩
    exact absurd ((hasWord_iff (hkeys keyword hmem)).mpr ⟨word, hword, hspelled⟩) (by rw [h keyword hmem]; exact nofun)
  · intro h keyword hmem
    rw [← Bool.not_eq_true, hasWord_iff (hkeys keyword hmem)]
    rintro ⟨word, hword, hspelled⟩
    exact h ⟨word, hword, keyword, hmem, hspelled⟩

theorem category_of_administrative? {mode : Mode} {text : List Char} {classification : Classification}
    (h : administrative? mode text = some classification) : classification.category = .dangerous := by
  rw [administrative?, Option.map_eq_some_iff] at h
  obtain ⟨keyword, -, rfl⟩ := h
  rfl

/-- The strict mode takes for dangerous what is a read with a word of the session, and all else for what the standard
mode takes it for. -/
theorem category_verdictOn_readOnly (text : List Char) :
    (verdictOn .readOnly text).classification.category =
      if (verdictOn .standard text).classification.category = .readOnly ∧
          ∃ word ∈ runs isWord text, SpelledAny sessionWords word then .dangerous
      else (verdictOn .standard text).classification.category := by
  rw [verdictOn, verdictOn]
  cases hstacked : isStacked text with
  | true => rfl
  | false =>
      simp only [Bool.false_eq_true, if_false]
      cases hmodification : modification? text with
      | some classification =>
          have hcategory : classification.category ≠ .readOnly := by
            rw [modification?, Option.map_eq_some_iff] at hmodification
            obtain ⟨⟨operation, category⟩, hfound, rfl⟩ := hmodification
            have hcategories : ∀ entry ∈ modifications, entry.2 ≠ .readOnly := by decide
            exact hcategories _ (List.mem_of_find?_eq_some hfound)
          exact (if_neg fun h => hcategory h.1).symm
      | none =>
          cases hstandard : administrative? .standard text with
          | some classification =>
              obtain ⟨strict, hstrict⟩ : ∃ strict, administrative? .readOnly text = some strict := by
                rw [← Option.ne_none_iff_exists', Ne, administrative?_readOnly_eq_none_iff, hstandard]
                exact fun h => absurd h.1 (Option.some_ne_none _)
              rw [hstrict]
              dsimp only
              rw [category_of_administrative? hstandard, category_of_administrative? hstrict]
              rfl
          | none =>
              by_cases hword : ∃ word ∈ runs isWord text, SpelledAny sessionWords word
              · obtain ⟨strict, hstrict⟩ : ∃ strict, administrative? .readOnly text = some strict := by
                  rw [← Option.ne_none_iff_exists', Ne, administrative?_readOnly_eq_none_iff]
                  exact fun h => h.2 hword
                rw [hstrict]
                dsimp only
                rw [category_of_administrative? hstrict, selectFamily]
                split
                · rfl
                · split
                  · rfl
                  · exact (if_pos ⟨rfl, hword⟩).symm
              · rw [administrative?_readOnly_eq_none_iff.mpr ⟨hstandard, hword⟩]
                exact (if_neg fun h => hword h.2).symm

/-- A request judged by the policy of a mode, confirmed or not. -/
def Request.judgedIn (request : Request) (mode : Mode) (confirmed : Bool) : Request :=
  { request with mode := some mode, confirmed }

/-- The strict mode only restricts: what it allows is allowed in the standard mode and treated alike there by passes
that are given up together if at all, and it takes the same statements for the same, apart from reads with a word of
the session, which it takes for dangerous. -/
theorem Gate.strict_restricts (gate : Gate) (request : Request) :
    (∀ strictly freely timing again, timing.Agrees again gate.settings.budget →
      (gate.evaluate (request.judgedIn .readOnly strictly) timing).isAllowed = true →
        gate.evaluate (request.judgedIn .standard freely) again =
          gate.evaluate (request.judgedIn .readOnly strictly) timing) ∧
      ∀ sql, (classify .readOnly sql).category =
        if (classify .standard sql).category = .readOnly ∧
            ∃ word ∈ runs isWord (normalForm sql), SpelledAny sessionWords word then .dangerous
        else (classify .standard sql).category := by
  refine ⟨fun strictly freely timing again htime hallowed => ?_, fun sql => category_verdictOn_readOnly _⟩
  rw [isAllowed_evaluate] at hallowed
  have hread := isReadOnly_of_authorize hallowed
  have hclassification : (gate.verdict (request.judgedIn .standard freely)).classification =
      (gate.verdict (request.judgedIn .readOnly strictly)).classification :=
    classify_standard_of_isReadOnly hread
  refine evaluate_congr htime rfl rfl rfl hclassification ?_
  rw [hallowed, decision, hclassification]
  exact authorize_of_isReadOnly hread freely .standard

end SqlGate
