import EarleyChart.Proofs.Delimiting
import EarleyChart.Proofs.Expectations

/-!
Contract: the descent's diagnosis beside the chart's.

Where tokens are no document, both parsers fail behind the longest beginning of a document. There the
chart expects what can follow (`exists_failure_of_outcome`), and the descent what `Descent.Tells` says
(`exists_failure_of_descendTokens`), so that `diagnoses_agree_iff` can tell where they differ.
-/

namespace EarleyChart.Document

open Declaration

variable {tokens before : List Token} {limits : Limits}

/-- A parse fails at the token behind those before it, or at the end of the tokens. -/
inductive FailsAt (tokens before : List Token) (diagnosis : Diagnosis) :
    Except ParseError Value → Prop where
  | token {after : List Token} (parts : tokens = before ++ diagnosis.token :: after) :
      FailsAt tokens before diagnosis (.error (.unexpectedToken diagnosis))
  | ends (all : before = tokens) (sentinel : diagnosis.token = Token.endOfInput tokens.getLast?) :
      FailsAt tokens before diagnosis (.error (.unexpectedEnd diagnosis))

/-- The tokens are the longest beginning of `tokens` that some document has. -/
structure LastViable (tokens before : List Token) : Prop where
  viable : declaration.Viable before
  refuses : ∀ {token after}, tokens = before ++ token :: after →
    ¬ declaration.Viable (before ++ [token])

/-- What the descent reports where it fails: the names that can follow but for the one that it leaves
out, and a column that counts the refused token unless a document is complete before it. -/
structure DescentReports (tokens before : List Token) (diagnosis : Diagnosis) : Prop where
  covers : Covers Spells before diagnosis.expected
  onTime : before = tokens ∨ (∃ value, Spells value before) → diagnosis.column = before.length
  late : ¬ (before = tokens ∨ ∃ value, Spells value before) →
    diagnosis.column = before.length + 1

theorem covers_spells_nil : Covers Spells [] Descent.valueStart :=
  covers_of_follows_iff (by simp [EndsInBracket]) Descent.follows_spells

section Complete

variable {value : Value} (spells : Spells value before)
include spells

/-- Nothing follows a document. -/
theorem not_follows_of_spells (name : String) : ¬ Follows Spells before name := by
  intro follows
  obtain ⟨other, token, tail, _, otherSpells⟩ := follows
  have same : before = before ++ token :: tail :=
    covered_unique spells otherSpells (List.append_nil _).symm
  simp at same

theorem lastViable_of_spells : LastViable tokens before where
  viable := by
    rw [← List.append_nil before] at spells
    exact viable_of_spells spells
  refuses _ := not_viable_of_spells spells _

/-- Behind a document nothing is expected, and the token there is not counted. -/
theorem descentReports_of_spells {diagnosis : Diagnosis} (column : diagnosis.column = before.length)
    (expectsNothing : diagnosis.expected = []) : DescentReports tokens before diagnosis where
  covers := by
    rw [expectsNothing]
    exact covers_of_follows_iff (Descent.not_endsInBracket_of_spells spells) fun name =>
      iff_of_false (not_follows_of_spells spells name) List.not_mem_nil
  onTime _ := column
  late incomplete := absurd (.inr ⟨value, spells⟩) incomplete

end Complete

namespace Descent.Stops

variable {rest : List Token} {expected : List String}
  (stops : Stops Spells valueStart before rest expected)
include stops

theorem not_spells (value : Value) : ¬ Spells value before := by
  intro spells
  exact stops.incomplete spells (List.append_nil before)

theorem covers : Covers Spells before expected := by
  by_cases taken : before = []
  · subst taken
    rw [stops.atBeginning rfl]
    exact covers_spells_nil
  · exact stops.inside taken

theorem lastViable (split : tokens = before ++ rest) : LastViable tokens before where
  viable := by
    obtain ⟨name, value, token, tail, _, spells⟩ := stops.continues
    exact viable_of_spells spells
  refuses := by
    intro token after parts viable
    obtain ⟨value, tail, spells⟩ := exists_spells_of_viable viable
    have sameRest : rest = token :: after := List.append_cancel_left (split.symm.trans parts)
    apply stops.refuses token
    · rw [sameRest]
      rfl
    · exact ⟨value, token, tail, rfl, spells⟩

/-- Inside a document the descent counts the token that it refuses. -/
theorem exists_failure (split : tokens = before ++ rest) {error : ParseError}
    (reports : ((start tokens).past before rest).Reports expected error) :
    ∃ diagnosis, FailsAt tokens before diagnosis (.error error) ∧
      DescentReports tokens before diagnosis := by
  cases reports with
  | @token token after isNext =>
      change rest = token :: after at isNext
      subst isNext
      refine ⟨_, .token split, stops.covers, ?_, ?_⟩
      · intro ended
        rcases ended with rfl | ⟨value, spells⟩
        · simp at split
        · exact absurd spells (stops.not_spells value)
      · intro _
        show 0 + before.length + 1 = _
        omega
  | ends ended =>
      change rest = [] at ended
      subst ended
      rw [List.append_nil] at split
      subst split
      refine ⟨_, .ends rfl ?_, stops.covers, ?_, ?_⟩
      · show Token.endOfInput (tokens.getLast?.or none) = _
        rw [Option.or_none]
      · exact fun _ => Nat.zero_add _
      · exact fun unfinished => absurd (.inl rfl) unfinished

end Descent.Stops

/-- The descent fails behind the longest beginning of a document. -/
theorem exists_failure_of_descendTokens (notDocument : ∀ value, ¬ Spells value tokens) :
    ∃ before rest diagnosis, tokens = before ++ rest ∧ LastViable tokens before ∧
      FailsAt tokens before diagnosis (descendTokens tokens) ∧
        DescentReports tokens before diagnosis := by
  have enough : 2 * (Descent.start tokens).rest.length + 1 ≤ 2 * tokens.length + 2 := by
    simp [Descent.start]
  have reads := (Descent.reads_within _).1 enough
  have tells := (Descent.tells_within _).1 enough
  unfold descendTokens
  generalize Descent.value (2 * tokens.length + 2) (Descent.start tokens) = result at reads tells ⊢
  cases reads with
  | @read value covered rest split spells unique =>
      change tokens = covered ++ rest at split
      cases rest with
      | nil =>
          rw [List.append_nil] at split
          exact absurd (split ▸ spells) (notDocument value)
      | cons extra after =>
          refine ⟨covered, extra :: after, _, split, lastViable_of_spells spells, .token split, ?_⟩
          exact descentReports_of_spells spells (Nat.zero_add _) rfl
  | stuck =>
      cases tells with
      | @stuck before rest error expected split reports stops =>
          change tokens = before ++ rest at split
          obtain ⟨diagnosis, fails, descentReports⟩ := stops.exists_failure split reports
          exact ⟨before, rest, diagnosis, split, stops.lastViable split, fails, descentReports⟩

theorem follows_iff_generates (name : String) :
    Follows Spells before name ↔
      ∃ rest, declaration.Generates (spelling before ++ .terminal name :: rest) := by
  constructor
  · intro follows
    obtain ⟨value, token, tail, rfl, spells⟩ := follows
    obtain ⟨tree, derivation⟩ := exists_isDerivation_iff.mpr (mem_language_iff.mpr ⟨value, spells⟩)
    have generates : declaration.Generates (spelling (before ++ token :: tail)) :=
      derives_of_forest derivation
    exact ⟨spelling tail, by simpa using generates⟩
  · intro generated
    obtain ⟨rest, generates⟩ := generated
    have viable : declaration.Viable (before ++ [tokenNamed name]) :=
      ⟨rest, by simpa [name_tokenNamed] using generates⟩
    obtain ⟨value, tail, spells⟩ := exists_spells_of_viable viable
    exact ⟨value, tokenNamed name, tail, name_tokenNamed name, spells⟩

/-- The chart fails behind the longest beginning of a document, where it expects what can follow. -/
theorem exists_failure_of_outcome {rest : List Token} {result : Except ParseError Value}
    (outcome : declaration.Outcome tokens result) (notDocument : ∀ value, ¬ Spells value tokens)
    (split : tokens = before ++ rest) (last : LastViable tokens before) :
    ∃ diagnosis, FailsAt tokens before diagnosis result ∧ diagnosis.column = before.length ∧
      ∀ name, name ∈ diagnosis.expected ↔ Follows Spells before name := by
  have atBefore : tokens.take before.length = before := by
    rw [split, List.take_left]
  have expects {diagnosis : Diagnosis} (failed : result = .error (.unexpectedToken diagnosis) ∨
      result = .error (.unexpectedEnd diagnosis)) (sameColumn : diagnosis.column = before.length)
      (name : String) : name ∈ diagnosis.expected ↔ Follows Spells before name := by
    rw [follows_iff_generates, (outcome.expectsExactly failed).exact, sameColumn, atBefore]
  cases rest with
  | nil =>
      rw [List.append_nil] at split
      subst split
      cases outcome with
      | @accepted value tree derivation valued =>
          have spells : Spells value tokens :=
            means_start_iff_spells.mp (Declaration.means_start_iff.mpr ⟨tree, derivation, valued⟩)
          exact absurd spells (notDocument value)
      | refused read _ impossible _ =>
          have inside := (List.getElem?_eq_some_iff.mp read).1
          have viable := last.viable
          rw [← List.take_length (l := tokens)] at viable
          exact absurd (viable_take_of_le inside viable) impossible
      | unfinished sentinel atEnd _ _ _ =>
          exact ⟨_, .ends rfl sentinel, atEnd, expects (.inr rfl) atEnd⟩
  | cons token after =>
      have inside : before.length < tokens.length := by
        rw [split, List.length_append, List.length_cons]
        omega
      have atToken : tokens.take (before.length + 1) = before ++ [token] := by
        rw [split, List.take_length_add_append]
        rfl
      have viable := last.viable
      have impossible := last.refuses split
      rw [← atBefore] at viable
      rw [← atToken] at impossible
      obtain ⟨diagnosis, rfl, sameColumn⟩ :=
        (outcome.refused_iff before.length).mpr ⟨inside, viable, impossible⟩
      have read := outcome.read
      rw [sameColumn, split, List.getElem?_append_right (Nat.le_refl _), Nat.sub_self] at read
      have sameToken : token = diagnosis.token := Option.some.inj read
      exact ⟨diagnosis, .token (sameToken ▸ split), sameColumn, expects (.inl rfl) sameColumn⟩

/-- How the two diagnoses of tokens that are no document differ, wherever no limit cuts the parse by
the chart short. -/
theorem diagnoses_of_withinLimits (fits : tokens.length < UInt32.size)
    (within : WithinLimits (parseTokens limits tokens))
    (rejected : tokens.map Token.name ∉ declaration.language) :
    ∃ before chart descent, FailsAt tokens before chart (parseTokens limits tokens) ∧
      FailsAt tokens before descent (descendTokens tokens) ∧
      chart.column = before.length ∧
      (∀ name, name ∈ chart.expected ↔ name ∈ descent.expected ∨ LeftOut before name) ∧
      ((∀ name, name ∈ descent.expected ↔ name ∈ chart.expected) ↔ ¬ EndsInBracket before) ∧
      (descent.column = chart.column ↔ before = tokens ∨ ∃ value, Spells value before) ∧
      (descent.column ≠ chart.column → descent.column = chart.column + 1) := by
  have notDocument (value : Value) : ¬ Spells value tokens := fun spells =>
    rejected (mem_language_iff.mpr ⟨value, spells⟩)
  obtain ⟨before, rest, descent, split, last, descentFails, reports⟩ :=
    exists_failure_of_descendTokens notDocument
  have outcome : declaration.Outcome tokens (parseTokens limits tokens) :=
    outcome_of_build build_declaration (sizesFit_declaration fits) within
  obtain ⟨chart, chartFails, chartColumn, expects⟩ :=
    exists_failure_of_outcome outcome notDocument split last
  have names (name : String) :
      name ∈ chart.expected ↔ name ∈ descent.expected ∨ LeftOut before name := by
    rw [expects, reports.covers.exact]
  refine ⟨before, chart, descent, chartFails, descentFails, chartColumn, names, ?_, ?_, ?_⟩
  · constructor
    · intro same ends
      have leftOut : LeftOut before "right_bracket" := ⟨rfl, ends⟩
      exact reports.covers.apart _ leftOut ((same _).mpr ((names _).mpr (.inr leftOut)))
    · intro closed name
      rw [names]
      exact (or_iff_left fun leftOut => closed leftOut.2).symm
  · rw [chartColumn]
    constructor
    · intro same
      by_contra incomplete
      have late := reports.late incomplete
      omega
    · exact reports.onTime
  · intro different
    rw [chartColumn] at different ⊢
    exact reports.late fun complete => different (reports.onTime complete)

/-- Where tokens are no document, the chart and the descent fail at one place. The chart's column is
the number of tokens before it, and its names are those of the descent and the bracket that the
descent leaves out. So the names agree unless an opening bracket is the last token before that place,
and the columns agree at the end of the tokens and behind a whole document, but nowhere else. -/
theorem diagnoses_agree_iff (fits : tokens.length < UInt32.size)
    (allowed : limits.Allow tokens.length)
    (rejected : tokens.map Token.name ∉ declaration.language) :
    ∃ before chart descent, FailsAt tokens before chart (parseTokens limits tokens) ∧
      FailsAt tokens before descent (descendTokens tokens) ∧
      chart.column = before.length ∧
      (∀ name, name ∈ chart.expected ↔ name ∈ descent.expected ∨ LeftOut before name) ∧
      ((∀ name, name ∈ descent.expected ↔ name ∈ chart.expected) ↔ ¬ EndsInBracket before) ∧
      (descent.column = chart.column ↔ before = tokens ∨ ∃ value, Spells value before) ∧
      (descent.column ≠ chart.column → descent.column = chart.column + 1) :=
  diagnoses_of_withinLimits fits (withinLimits_of_allow build_declaration allowed) rejected

/-- The syntax errors of both parsers have the token and the terminals of their diagnoses. -/
theorem errors_repeat_diagnoses (limits : Limits) (tokens : List Token) {error : ParseError}
    (failed : parseTokens limits tokens = .error error ∨ descendTokens tokens = .error error) :
    error.RepeatsDiagnosis := by
  rcases failed with byChart | byDescent
  · exact run_repeatsDiagnosis build_declaration byChart
  · have descends := descends_descendTokens tokens
    rw [byDescent] at descends
    cases descends with
    | refused _ _ _ => exact ⟨rfl, rfl⟩
    | unfinished _ _ _ => exact ⟨rfl, rfl⟩

theorem rejected_of_descendTokens {failure : ParseError}
    (failed : descendTokens tokens = .error failure) :
    tokens.map Token.name ∉ declaration.language := by
  intro member
  obtain ⟨value, spells⟩ := mem_language_iff.mp member
  have descends := descends_descendTokens tokens
  rw [failed] at descends
  cases descends with
  | @refused diagnosis before after parts _ impossible =>
      have split : tokens = (before ++ [diagnosis.token]) ++ after := by
        rw [parts, List.append_assoc]
        rfl
      rw [split] at spells
      exact impossible (viable_of_spells spells)
  | unfinished _ _ notDocument => exact notDocument value spells

/-- An opening bracket with a comma behind it. -/
def commaInBracket : List Token :=
  [⟨"left_bracket", "[", 1, 1, 0⟩, ⟨"comma", ",", 1, 2, 1⟩]

theorem descendTokens_commaInBracket : descendTokens commaInBracket =
    .error (.unexpectedToken ⟨⟨"comma", ",", 1, 2, 1⟩, 2, Descent.valueStart, [], 0⟩) := by
  rfl

theorem commaInBracket_diagnoses :
    commaInBracket.map Token.name ∉ declaration.language ∧
      ∃ before chart descent, FailsAt commaInBracket before chart (parseTokens {} commaInBracket) ∧
        FailsAt commaInBracket before descent (descendTokens commaInBracket) ∧
        chart.column = before.length ∧
        (∀ name, name ∈ chart.expected ↔ name ∈ descent.expected ∨ LeftOut before name) ∧
        (descent.column ≠ chart.column → descent.column = chart.column + 1) := by
  have rejected := rejected_of_descendTokens descendTokens_commaInBracket
  have allowed : Limits.Allow {} commaInBracket.length := ⟨.inr (by decide), rfl⟩
  obtain ⟨before, chart, descent, chartFails, descentFails, column, names, _, _, late⟩ :=
    diagnoses_agree_iff (by decide) allowed rejected
  exact ⟨rejected, before, chart, descent, chartFails, descentFails, column, names, late⟩

/-- Both differences at once: the descent counts the comma and does not expect the bracket. -/
theorem commaInBracket_diagnoses_differ : ∃ chart descent,
    parseTokens {} commaInBracket = .error (.unexpectedToken chart) ∧
      descendTokens commaInBracket = .error (.unexpectedToken descent) ∧
      chart.column = 1 ∧ descent.column = 2 ∧
      "right_bracket" ∈ chart.expected ∧ "right_bracket" ∉ descent.expected := by
  have reported : (match parseTokens {} commaInBracket with
      | .error (.unexpected chart _ _) =>
          chart.column == 1 && chart.expected.contains "right_bracket"
      | _ => false) = true := by
    decide +kernel
  split at reported
  next chart token expected failed =>
    obtain ⟨rfl, rfl⟩ := errors_repeat_diagnoses {} commaInBracket (.inl failed)
    obtain ⟨column, listed⟩ := Bool.and_eq_true_iff.mp reported
    exact ⟨chart, _, failed, descendTokens_commaInBracket, beq_iff_eq.mp column, rfl,
      List.contains_iff_mem.mp listed, by decide⟩
  next => contradiction

end EarleyChart.Document
