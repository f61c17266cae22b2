import SqlGate.Proofs.Nesting
import SqlGate.Proofs.Splice

/-! Clauses as phrases: words in a row with nothing but blanks between them. A clause that is put into a
text is a phrase of its own, so no phrase of the new text goes across its beginning unless one of the later
words of the phrase is the first word of the clause. -/

namespace SqlGate

open Unicode

/-- Words that fulfil the conditions one after the other, from the end of `front` on. -/
inductive PhraseAt (text : List Char) : List (List Char → Prop) → List Char → Prop where
  | word {condition : List Char → Prop} {front word rest : List Char} (hat : WordAt text front word rest)
      (hword : condition word) : PhraseAt text [condition] front
  | words {condition next : List Char → Prop} {later : List (List Char → Prop)}
      {front word gap rest : List Char} (hat : WordAt text front word (gap ++ rest)) (hword : condition word)
      (hne : gap ≠ []) (hgap : ∀ c ∈ gap, isBlank c = true)
      (hlater : PhraseAt text (next :: later) (front ++ (word ++ gap))) :
      PhraseAt text (condition :: next :: later) front

/-- A clause that can be put between two texts: it stays apart from the words of both and closes the
parentheses that it opens. -/
structure Insertion (left clause right : List Char) : Prop where
  all_clause : ∀ c ∈ clause, isClauseChar c = true
  space_mem : ' ' ∈ clause
  balanced : ∀ depth, openAfter depth clause = depth
  apart_left : Apart left clause
  apart_right : Apart clause right
  apart : Apart left right

/-- The word that a text begins with, blanks aside, is this one. -/
def FirstWord (text first : List Char) : Prop :=
  ∀ front word rest, WordAt text front word rest → (∀ c ∈ front, isBlank c = true) → word = first

theorem WordAt.exists_head {text front word rest : List Char} (h : WordAt text front word rest) :
    ∃ c tail, word ++ rest = c :: tail ∧ isWord c = true := by
  obtain ⟨c, tail, rfl⟩ := List.exists_cons_of_ne_nil h.ne_nil
  exact ⟨c, tail ++ rest, rfl, h.all_word c List.mem_cons_self⟩

namespace Insertion

variable {left clause right front word rest first : List Char} {tokens : List (List Char → Prop)}

theorem ne_nil (h : Insertion left clause right) : clause ≠ [] :=
  List.ne_nil_of_mem h.space_mem

/-- No word goes from the left part into what follows it. -/
theorem apart_rest (h : Insertion left clause right) : Apart left (clause ++ right) := by
  intro c d hc hd
  rw [List.head?_append_of_ne_nil _ h.ne_nil] at hd
  exact h.apart_left c d hc hd

/-- A word of the new text is a word of one of its three parts. -/
theorem word_cases (h : Insertion left clause right) (hat : WordAt (left ++ (clause ++ right)) front word rest) :
    (∃ gap, rest = gap ++ (clause ++ right) ∧ WordAt left front word gap) ∨
      (∃ lead gap, front = left ++ lead ∧ rest = gap ++ right ∧ WordAt clause lead word gap) ∨
      ∃ gap, front = left ++ (clause ++ gap) ∧ WordAt right gap word rest := by
  rcases hat.of_append h.apart_rest with hleft | ⟨lead, rfl, hlater⟩
  · exact Or.inl hleft
  · rcases hlater.of_append h.apart_right with ⟨gap, rfl, hclause⟩ | ⟨gap, rfl, hright⟩
    · exact Or.inr (Or.inl ⟨lead, gap, rfl, rfl, hclause⟩)
    · exact Or.inr (Or.inr ⟨gap, rfl, hright⟩)

/-- A word that begins where the left part has not ended is a word of the left part. -/
theorem wordAt_left (h : Insertion left clause right) (hat : WordAt (left ++ (clause ++ right)) front word rest)
    {gap : List Char} (hgap : left = front ++ gap) (hne : gap ≠ []) :
    ∃ after, rest = after ++ (clause ++ right) ∧ WordAt left front word after := by
  have hpos := List.length_pos_iff.mpr hne
  have hlength := congrArg List.length hgap
  rw [List.length_append] at hlength
  rcases h.word_cases hat with hleft | ⟨lead, after, hfront, -, -⟩ | ⟨after, hfront, -⟩
  · exact hleft
  · rw [hfront, List.length_append] at hlength
    omega
  · rw [hfront, List.length_append] at hlength
    omega

/-- A word that begins behind the clause is a word of the right part. -/
theorem wordAt_right (h : Insertion left clause right) {gap : List Char}
    (hat : WordAt (left ++ (clause ++ right)) (left ++ (clause ++ gap)) word rest) : WordAt right gap word rest := by
  have hword := List.length_pos_iff.mpr hat.ne_nil
  have hclause := List.length_pos_iff.mpr h.ne_nil
  rcases h.word_cases hat with ⟨after, -, hleft⟩ | ⟨lead, after, hfront, -, hinside⟩ | ⟨after, hfront, hright⟩
  · have hlength := congrArg List.length hleft.eq_append
    simp only [List.length_append] at hlength
    omega
  · have hlead := List.append_cancel_left hfront
    have hlength := congrArg List.length hinside.eq_append
    simp only [← hlead, List.length_append] at hlength
    omega
  · obtain rfl := List.append_cancel_left (List.append_cancel_left hfront)
    exact hright

/-- The next word behind the left part, blanks aside, is the first word of the clause. -/
theorem eq_first (h : Insertion left clause right) (hfirst : FirstWord clause first)
    (hsolid : ∃ c ∈ clause, isBlank c = false) {gap : List Char} (hgap : ∀ c ∈ gap, isBlank c = true)
    (hat : WordAt (left ++ (clause ++ right)) (left ++ gap) word rest) : word = first := by
  have hword := List.length_pos_iff.mpr hat.ne_nil
  rcases h.word_cases hat with ⟨after, -, hleft⟩ | ⟨lead, after, hfront, -, hinside⟩ | ⟨after, hfront, -⟩
  · have hlength := congrArg List.length hleft.eq_append
    simp only [List.length_append] at hlength
    omega
  · obtain rfl := List.append_cancel_left hfront
    exact hfirst _ _ _ hinside hgap
  · obtain ⟨c, hc, hblank⟩ := hsolid
    rw [hgap c (by rw [List.append_cancel_left hfront]; exact List.mem_append_left _ hc)] at hblank
    cases hblank

end Insertion

namespace PhraseAt

variable {text left clause right front first : List Char} {tokens : List (List Char → Prop)}
  {condition : List Char → Prop}

theorem exists_wordAt (h : PhraseAt text (condition :: tokens) front) :
    ∃ word rest, WordAt text front word rest ∧ condition word := by
  cases h with
  | word hat hword => exact ⟨_, _, hat, hword⟩
  | words hat hword => exact ⟨_, _, hat, hword⟩

/-- No phrase goes into the clause over words that are not its first one. -/
theorem of_left (h : PhraseAt text tokens front) (hinsertion : Insertion left clause right)
    (hfirst : FirstWord clause first) (hsolid : ∃ c ∈ clause, isBlank c = false)
    (htext : text = left ++ (clause ++ right)) (htail : ∀ condition ∈ tokens.tail, ¬condition first)
    (hleft : ∃ gap, left = front ++ gap ∧ gap ≠ []) : PhraseAt (left ++ right) tokens front := by
  subst htext
  obtain ⟨remain, hremain, hne⟩ := hleft
  induction h generalizing remain with
  | word hat hword =>
      obtain ⟨after, -, hat⟩ := hinsertion.wordAt_left hat hremain hne
      exact .word (hat.append_left hinsertion.apart) hword
  | @words condition next later front word gap rest hat hword hgapNe hgap hlater ih =>
      obtain ⟨after, hafter, hatLeft⟩ := hinsertion.wordAt_left hat hremain hne
      obtain ⟨nextWord, nextRest, hnextAt, hnext⟩ := hlater.exists_wordAt
      have hstop : ∀ lead, (∀ c ∈ lead, isBlank c = true) → front ++ (word ++ gap) = left ++ lead → False := by
        intro lead hlead hfront
        rw [hfront] at hnextAt
        rw [hinsertion.eq_first hfirst hsolid hlead hnextAt] at hnext
        exact htail next List.mem_cons_self hnext
      -- The blanks end in the left part, or they go into the clause up to its first word.
      rcases List.append_eq_append_iff.mp hafter with ⟨tail, rfl, -⟩ | ⟨tail, rfl, -⟩
      · by_cases htailNil : tail = []
        · subst htailNil
          refine absurd (hstop [] (by simp) ?_) id
          rw [List.append_nil, hatLeft.eq_append, List.append_nil]
        · have hleftTail : left = front ++ (word ++ gap) ++ tail := by
            rw [hatLeft.eq_append]
            simp
          have hwhole := hatLeft.append_left hinsertion.apart
          rw [List.append_assoc] at hwhole
          refine .words hwhole hword hgapNe hgap (ih ?_ tail hleftTail htailNil)
          exact fun condition hmem => htail condition (List.mem_cons_of_mem _ hmem)
      · refine absurd (hstop tail (fun c hc => hgap c (List.mem_append_right _ hc)) ?_) id
        rw [hatLeft.eq_append]
        simp

/-- A phrase behind the clause is a phrase without it. -/
theorem of_right (h : PhraseAt text tokens front) (hinsertion : Insertion left clause right)
    (htext : text = left ++ (clause ++ right)) {gap : List Char} (hfront : front = left ++ (clause ++ gap)) :
    PhraseAt (left ++ right) tokens (left ++ gap) := by
  subst htext
  induction h generalizing gap with
  | word hat hword =>
      subst hfront
      exact .word ((hinsertion.wordAt_right hat).append_right hinsertion.apart) hword
  | @words condition next later front word blanks rest hat hword hne hblanks hlater ih =>
      subst hfront
      refine .words ((hinsertion.wordAt_right hat).append_right hinsertion.apart) hword hne hblanks ?_
      rw [List.append_assoc]
      exact ih (by simp)

end PhraseAt

namespace Insertion

variable {left clause right front rest first : List Char} {condition : List Char → Prop}
  {tokens : List (List Char → Prop)} {start : Nat}

theorem openAfter_eq (h : Insertion left clause right) (gap : List Char) :
    openAfter 0 (left ++ (clause ++ gap)) = openAfter 0 (left ++ gap) := by
  rw [openAfter_append, openAfter_append, h.balanced, ← openAfter_append]

/-- A phrase outside all parentheses was there before, in front of the clause or behind it, or it begins
with a word of the clause. -/
theorem phrase_cases (h : Insertion left clause right) (hfirst : FirstWord clause first)
    (hsolid : ∃ c ∈ clause, isBlank c = false) (hstart : start ≤ byteLength left)
    (hcut : TopCut (left ++ (clause ++ right)) start front rest)
    (hphrase : PhraseAt (left ++ (clause ++ right)) (condition :: tokens) front)
    (htail : ∀ later ∈ tokens, ¬later first) :
    (∃ gap, left = front ++ gap ∧ gap ≠ [] ∧ TopCut (left ++ right) start front (gap ++ right) ∧
        PhraseAt (left ++ right) (condition :: tokens) front) ∨
      (∃ lead word gap, front = left ++ lead ∧ WordAt clause lead word gap ∧ condition word) ∨
      ∃ gap, front = left ++ (clause ++ gap) ∧ TopCut (left ++ right) start (left ++ gap) rest ∧
        PhraseAt (left ++ right) (condition :: tokens) (left ++ gap) := by
  obtain ⟨word, after, hat, hword⟩ := hphrase.exists_wordAt
  obtain ⟨htext, hle, hdepth⟩ := hcut
  rcases h.word_cases hat with ⟨tail, -, hleft⟩ | ⟨lead, gap, hfront, -, hinside⟩ | ⟨gap, hfront, hright⟩
  · have hne : word ++ tail ≠ [] := by simp [hleft.ne_nil]
    refine Or.inl ⟨word ++ tail, hleft.eq_append, hne, ⟨?_, hle, ?_⟩, ?_⟩
    · rw [hleft.eq_append, List.append_assoc]
    · have hrest : rest = (word ++ tail) ++ (clause ++ right) := by
        rw [hleft.eq_append, List.append_assoc] at htext
        exact (List.append_cancel_left htext).symm
      rw [hrest] at hdepth
      rw [← hdepth]
      refine depthBetween_congr rfl ?_
      rw [List.head?_append_of_ne_nil _ hne, List.head?_append_of_ne_nil _ hne]
    · exact hphrase.of_left h hfirst hsolid rfl htail ⟨_, hleft.eq_append, hne⟩
  · exact Or.inr (Or.inl ⟨lead, word, gap, hfront, hinside, hword⟩)
  · refine Or.inr (Or.inr ⟨gap, hfront, ⟨?_, ?_, ?_⟩, hphrase.of_right h rfl hfront⟩)
    · rw [hfront, List.append_assoc, List.append_assoc] at htext
      rw [List.append_assoc, List.append_cancel_left (List.append_cancel_left htext)]
    · rw [byteLength_append]
      omega
    · rw [hfront] at hdepth
      rw [← hdepth]
      exact depthBetween_congr (h.openAfter_eq gap).symm rfl

end Insertion

/-- No word goes on behind the text. -/
def Opens (front : List Char) : Prop :=
  ∀ c, front.getLast? = some c → isWord c = false

section Blanks

variable {gap : List Char}

theorem opens_append_blanks (front : List Char) (hne : gap ≠ []) (hgap : ∀ c ∈ gap, isBlank c = true) :
    Opens (front ++ gap) := by
  intro c hc
  rw [List.getLast?_append_of_ne_nil _ hne] at hc
  exact isWord_eq_false_of_isBlank (hgap c (List.mem_of_getLast? hc))

theorem isWord_of_head_blanks (rest : List Char) (hne : gap ≠ []) (hgap : ∀ c ∈ gap, isBlank c = true) :
    ∀ c, (gap ++ rest).head? = some c → isWord c = false := by
  intro c hc
  rw [List.head?_append_of_ne_nil _ hne] at hc
  exact isWord_eq_false_of_isBlank (hgap c (List.mem_of_head? hc))

end Blanks

/-- A reader that reads one word of a kind and stops behind it. -/
structure ReadsWord {β : Type} (read : Cursor → Option β) (place : β → Cursor)
    (condition : List Char → Prop) : Prop where
  exists_word {front rest : List Char} {found : β} (hopens : Opens front)
    (h : read (.between front rest) = some found) :
    ∃ word after, WordAt (front ++ rest) front word after ∧ condition word ∧
      place found = .between (front ++ word) after
  exists_found {front word after : List Char} (hat : WordAt (front ++ (word ++ after)) front word after)
    (hword : condition word) :
    ∃ found, read (.between front (word ++ after)) = some found ∧ place found = .between (front ++ word) after

/-- Whether a word is made of digits. -/
def IsNumber (word : List Char) : Prop :=
  ∀ c ∈ word, isDigit c = true

instance (word : List Char) : Decidable (IsNumber word) :=
  decidable_of_iff (word.all isDigit = true) List.all_eq_true

namespace Cursor

theorem readsWord_word? {keyword : List Char} (hkey : isKeyword keyword = true) :
    ReadsWord (·.word? keyword) id (Spelled keyword) where
  exists_word _ h := by
    obtain ⟨word, after, hat, hword, rfl⟩ := (word?_eq_some_iff hkey).mp h
    exact ⟨word, after, hat, hword, rfl⟩
  exists_found hat hword := ⟨_, (word?_eq_some_iff hkey).mpr ⟨_, _, hat, hword, rfl⟩, rfl⟩

theorem readsWord_anyWord? {keywords : List (List Char)}
    (hkeys : ∀ keyword ∈ keywords, isKeyword keyword = true) :
    ReadsWord (·.anyWord? keywords) id (SpelledAny keywords) where
  exists_word hopens h := by
    obtain ⟨keyword, hmem, hread⟩ := (anyWord?_eq_some_iff hkeys).mp h
    obtain ⟨word, after, hat, hword, hplace⟩ := (readsWord_word? (hkeys keyword hmem)).exists_word hopens hread
    exact ⟨word, after, hat, ⟨keyword, hmem, hword⟩, hplace⟩
  exists_found hat hword := by
    obtain ⟨keyword, hmem, hspelled⟩ := hword
    obtain ⟨found, hread, hplace⟩ := (readsWord_word? (hkeys keyword hmem)).exists_found hat hspelled
    exact ⟨found, (anyWord?_eq_some_iff hkeys).mpr ⟨keyword, hmem, hread⟩, hplace⟩

theorem number?_eq_some_iff {front rest digits : List Char} {after : Cursor} :
    (between front rest).number? = some (digits, after) ↔
      ∃ later, rest = digits ++ later ∧ digits ≠ [] ∧ IsNumber digits ∧
        (∀ c, later.head? = some c → isWord c = false) ∧ after = between (front ++ digits) later := by
  rw [number?, Option.bind_eq_bind, Option.bind_eq_some_iff]
  constructor
  · rintro ⟨⟨read, place⟩, hread, hends⟩
    obtain ⟨later, rfl, hne, hdigits, -, rfl⟩ := digits?_eq_some_iff.mp hread
    change (if _ then _ else _) = _ at hends
    split at hends
    · next hcloses =>
        obtain ⟨rfl, rfl⟩ := Prod.mk.inj (Option.some.inj hends)
        exact ⟨later, rfl, hne, hdigits, closesWord_between.mp hcloses, rfl⟩
    · cases hends
  · rintro ⟨later, rfl, hne, hdigits, hcloses, rfl⟩
    refine ⟨_, digits?_eq_some_iff.mpr ⟨later, rfl, hne, hdigits,
      fun c hc => isDigit_eq_false_of_isWord_eq_false (hcloses c hc), rfl⟩, ?_⟩
    change (if _ then _ else _) = _
    rw [if_pos (closesWord_between.mpr hcloses)]

theorem readsWord_number? : ReadsWord number? (·.2) IsNumber where
  exists_word := by
    rintro front rest ⟨digits, place⟩ hopens h
    obtain ⟨later, rfl, hne, hdigits, hcloses, rfl⟩ := number?_eq_some_iff.mp h
    exact ⟨digits, later, ⟨rfl, hne, fun c hc => isWord_of_isDigit (hdigits c hc), hopens, hcloses⟩, hdigits, rfl⟩
  exists_found hat hword :=
    ⟨_, number?_eq_some_iff.mpr ⟨_, rfl, hat.ne_nil, hword, hat.closes, rfl⟩, rfl⟩

theorem readsWord_count? : ReadsWord count? (·.2) IsNumber where
  exists_word := by
    intro front rest found hopens h
    rw [count?, Option.map_eq_some_iff] at h
    obtain ⟨read, hread, rfl⟩ := h
    exact readsWord_number?.exists_word hopens hread
  exists_found := by
    intro front word after hat hword
    obtain ⟨found, hread, hplace⟩ := readsWord_number?.exists_found hat hword
    refine ⟨(.ofDigits found.1 (.between front (word ++ after)) found.2, found.2), ?_, hplace⟩
    rw [count?, hread]
    rfl

theorem isSome_last_iff {β γ : Type} {read : Cursor → Option β} {place : β → Cursor}
    {condition : List Char → Prop} (h : ReadsWord read place condition) (result : β → γ) {front rest : List Char}
    (hopens : Opens front) :
    ((read (between front rest)).bind fun found => some (result found)).isSome ↔
      PhraseAt (front ++ rest) [condition] front := by
  constructor
  · intro hsome
    cases hread : read (between front rest) with
    | none =>
        rw [hread] at hsome
        cases hsome
    | some found =>
        obtain ⟨word, after, hat, hword, -⟩ := h.exists_word hopens hread
        exact .word hat hword
  · intro hphrase
    obtain ⟨word, after, hat, hword⟩ := hphrase.exists_wordAt
    obtain rfl := List.append_cancel_left hat.eq_append
    obtain ⟨found, hread, -⟩ := h.exists_found hat hword
    rw [hread]
    rfl

/-- A word, blanks, and a phrase after them. -/
theorem isSome_blanks_iff {β γ : Type} {read : Cursor → Option β} {place : β → Cursor}
    {condition next : List Char → Prop} {tokens : List (List Char → Prop)} {later : β → Cursor → Option γ}
    (h : ReadsWord read place condition)
    (hlater : ∀ found front rest, Opens front →
      ((later found (between front rest)).isSome ↔ PhraseAt (front ++ rest) (next :: tokens) front))
    {front rest : List Char} (hopens : Opens front) :
    ((read (between front rest)).bind fun found => (place found).blanks?.bind (later found)).isSome ↔
      PhraseAt (front ++ rest) (condition :: next :: tokens) front := by
  constructor
  · intro hsome
    rw [Option.isSome_iff_exists] at hsome
    obtain ⟨result, hresult⟩ := hsome
    obtain ⟨found, hread, hresult⟩ := Option.bind_eq_some_iff.mp hresult
    obtain ⟨stop, hblanks, hresult⟩ := Option.bind_eq_some_iff.mp hresult
    obtain ⟨word, after, hat, hword, hplace⟩ := h.exists_word hopens hread
    rw [hplace] at hblanks
    obtain ⟨gap, tail, rfl, hne, hgap, -, rfl⟩ := blanks?_eq_some_iff.mp hblanks
    have hphrase := (hlater found _ _ (opens_append_blanks _ hne hgap)).mp (by rw [hresult]; rfl)
    rw [hat.eq_append]
    refine .words (by rw [← hat.eq_append]; exact hat) hword hne hgap ?_
    simpa using hphrase
  · intro hphrase
    cases hphrase with
    | @words _ _ _ _ word gap tail hat hword hne hgap hnext =>
        obtain rfl := List.append_cancel_left hat.eq_append
        obtain ⟨found, hread, hplace⟩ := h.exists_found hat hword
        obtain ⟨nextWord, nextRest, hnextAt, -⟩ := hnext.exists_wordAt
        have htail : tail = nextWord ++ nextRest := by
          have htext := hnextAt.eq_append
          simpa using htext
        have hstop : ∀ c, tail.head? = some c → isBlank c = false := by
          intro c hc
          obtain ⟨d, late, hhead, hd⟩ := hnextAt.exists_head
          rw [htail, hhead] at hc
          obtain rfl := Option.some.inj hc
          exact isBlank_eq_false_of_isWord hd
        have hblanks : (place found).blanks? = some (between (front ++ word ++ gap) tail) := by
          rw [hplace]
          exact blanks?_eq_some_iff.mpr ⟨gap, tail, rfl, hne, hgap, hstop, rfl⟩
        rw [hread, Option.bind_some, hblanks, Option.bind_some]
        refine (hlater found _ _ (opens_append_blanks _ hne hgap)).mpr ?_
        simpa using hnext

/-- The words of `FETCH NEXT n ROWS ONLY`. -/
def fetchPhrase : List (List Char → Prop) :=
  [Spelled "FETCH".toList, SpelledAny ["NEXT".toList, "FIRST".toList], IsNumber,
    SpelledAny ["ROWS".toList, "ROW".toList], Spelled "ONLY".toList]

/-- The words of `LIMIT n`. -/
def limitPhrase : List (List Char → Prop) :=
  [Spelled "LIMIT".toList, IsNumber]

variable {front rest : List Char}

theorem isSome_word?_iff {keyword : List Char} (hkey : isKeyword keyword = true) :
    ((between front rest).word? keyword).isSome ↔ PhraseAt (front ++ rest) [Spelled keyword] front := by
  constructor
  · intro h
    obtain ⟨after, hread⟩ := Option.isSome_iff_exists.mp h
    obtain ⟨word, tail, hat, hword, -⟩ := (word?_eq_some_iff hkey).mp hread
    exact .word hat hword
  · intro h
    obtain ⟨word, tail, hat, hword⟩ := h.exists_wordAt
    rw [(word?_eq_some_iff hkey).mpr ⟨word, tail, hat, hword, rfl⟩]
    rfl

theorem opens_of_bind_word? {γ : Type} {keyword : List Char} (hkey : isKeyword keyword = true)
    {later : Cursor → Option γ} (h : (((between front rest).word? keyword).bind later).isSome) : Opens front := by
  obtain ⟨result, hresult⟩ := Option.isSome_iff_exists.mp h
  obtain ⟨after, hread, -⟩ := Option.bind_eq_some_iff.mp hresult
  obtain ⟨word, tail, hat, -⟩ := (word?_eq_some_iff hkey).mp hread
  exact hat.opens

theorem opens_of_phrase {text front : List Char} {condition : List Char → Prop} {tokens : List (List Char → Prop)}
    (h : PhraseAt text (condition :: tokens) front) : Opens front := by
  obtain ⟨word, tail, hat, -⟩ := h.exists_wordAt
  exact hat.opens

theorem isSome_fetchCount?_iff : (between front rest).fetchCount?.isSome ↔ PhraseAt (front ++ rest) fetchPhrase front := by
  have hfirst : isKeyword "FETCH".toList = true := by decide
  have hchain : Opens front → ((between front rest).fetchCount?.isSome ↔ PhraseAt (front ++ rest) fetchPhrase front) := by
    intro hopens
    refine isSome_blanks_iff (readsWord_word? hfirst) (fun _ front rest hopens => ?_) hopens
    refine isSome_blanks_iff (readsWord_anyWord? (by decide)) (fun _ front rest hopens => ?_) hopens
    refine isSome_blanks_iff readsWord_count? (fun found front rest hopens => ?_) hopens
    refine isSome_blanks_iff (readsWord_anyWord? (by decide)) (fun _ front rest hopens => ?_) hopens
    exact isSome_last_iff (readsWord_word? (by decide)) (fun _ => found.1) hopens
  constructor
  · intro h
    exact (hchain (opens_of_bind_word? hfirst h)).mp h
  · intro h
    exact (hchain (opens_of_phrase h)).mpr h

/-- A count with an offset in front of it is a count too. -/
theorem isSome_secondCount?_imp (h : (between front rest).secondCount?.isSome) :
    (between front rest).count?.isSome := by
  obtain ⟨count, hcount⟩ := Option.isSome_iff_exists.mp h
  obtain ⟨found, hread, -⟩ := Option.bind_eq_some_iff.mp hcount
  rw [count?, hread]
  rfl

theorem isSome_limitCount?_iff : (between front rest).limitCount?.isSome ↔ PhraseAt (front ++ rest) limitPhrase front := by
  have hfirst : isKeyword "LIMIT".toList = true := by decide
  have hchain : Opens front → ((between front rest).limitCount?.isSome ↔ PhraseAt (front ++ rest) limitPhrase front) := by
    intro hopens
    refine isSome_blanks_iff (readsWord_word? hfirst) (fun _ front rest hopens => ?_) hopens
    rw [← isSome_last_iff readsWord_count? (·.1) hopens]
    constructor
    · intro h
      cases hsecond : (between front rest).secondCount? with
      | some count =>
          obtain ⟨found, hfound⟩ := Option.isSome_iff_exists.mp (isSome_secondCount?_imp (Option.isSome_of_mem hsecond))
          rw [hfound]
          rfl
      | none =>
          rw [hsecond] at h
          cases hcount : (between front rest).count? with
          | some found => rfl
          | none =>
              rw [hcount] at h
              cases h
    · intro h
      cases hsecond : (between front rest).secondCount? with
      | some count => rfl
      | none =>
          cases hcount : (between front rest).count? with
          | some found => rfl
          | none =>
              rw [hcount] at h
              cases h
  constructor
  · intro h
    exact (hchain (opens_of_bind_word? hfirst h)).mp h
  · intro h
    exact (hchain (opens_of_phrase h)).mpr h

end Cursor

end SqlGate
