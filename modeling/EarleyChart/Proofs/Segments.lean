import EarleyChart.Proofs.Lexing
import EarleyChart.Proofs.Positions

/-!
Contract: the way of a lexer through an input.

A candidate is what a rule takes off the start of a text. `Lexer.Walks` follows the choices of a lexer
from one segment of an input to the next, up to where nothing is chosen. The segments cover the input
up to there, and its tokens are those of the segments that are not passed over (`Lexer.exists_walk`). Of
the engine only the boundaries of its matches are asked; which of the candidates is chosen, and what
the set has to do with it, is left to `EarleyChart.Proofs.Segmentation`.
-/

namespace EarleyChart

/-- The characters that a rule takes off the start of a text, with the place of the rule. -/
structure Candidate where
  index : Nat
  rule : LexerRule
  taken : List Char

namespace Candidate

/-- A rule takes the characters off a text, and not none. -/
structure Fits (candidate : Candidate) (rules : List LexerRule) (text : List Char) : Prop where
  listed : rules[candidate.index]? = some candidate.rule
  something : candidate.taken ≠ []
  starts : candidate.taken <+: text
  matched : candidate.rule.find? text = some (Utf8.size candidate.taken)

/-- The match that the lexer finds for a candidate. -/
def found (candidate : Candidate) : LexerMatch :=
  ⟨candidate.index, candidate.rule, Utf8.size candidate.taken⟩

variable {candidate other : Candidate} {rules : List LexerRule} {text : List Char}

theorem Fits.matchRule? (fits : candidate.Fits rules text) :
    Lexer.matchRule? text (candidate.rule, candidate.index) = some candidate.found :=
  Lexer.matchRule?_eq_some_iff.mpr ⟨_, fits.matched, Utf8.size_pos fits.something, rfl⟩

/-- At one place only one candidate fits. -/
theorem Fits.eq_of_index (fits : candidate.Fits rules text) (otherFits : other.Fits rules text)
    (same : candidate.index = other.index) : candidate = other := by
  obtain ⟨index, rule, taken⟩ := candidate
  obtain ⟨otherIndex, otherRule, otherTaken⟩ := other
  obtain rfl : index = otherIndex := same
  obtain rfl : rule = otherRule := Option.some.inj (fits.listed.symm.trans otherFits.listed)
  have sameSize := Option.some.inj (fits.matched.symm.trans otherFits.matched)
  obtain rfl : taken = otherTaken := Utf8.eq_of_size_eq fits.starts otherFits.starts sameSize
  rfl

/-- The match of a rule that ends its matches on boundaries is that of a candidate. -/
theorem exists_of_matchRule? {rule : LexerRule} {index : Nat} (listed : rules[index]? = some rule)
    (boundaries : rule.EndsAtBoundaries) {found : LexerMatch}
    (matched : Lexer.matchRule? text (rule, index) = some found) :
    ∃ candidate : Candidate, candidate.Fits rules text ∧ candidate.index = index ∧
      candidate.found = found := by
  obtain ⟨length, isMatch, positive, rfl⟩ := Lexer.matchRule?_eq_some_iff.mp matched
  obtain ⟨taken, starts, rfl⟩ := boundaries text length isMatch
  have something : taken ≠ [] := by
    rintro rfl
    exact Nat.lt_irrefl _ positive
  exact ⟨⟨index, rule, taken⟩, ⟨listed, something, starts, isMatch⟩, rfl, rfl⟩

end Candidate

namespace Lexer

variable {lexer : Lexer} {text : List Char}

theorem exists_candidate_of_bestMatch? (boundaries : lexer.EndsAtBoundaries) {found : LexerMatch}
    (chosen : lexer.bestMatch? text = some found) :
    ∃ candidate : Candidate, candidate.Fits lexer.rules text ∧ candidate.found = found := by
  obtain ⟨⟨rule, index⟩, member, matched⟩ := exists_entry_of_bestOf chosen
  have listed := List.mem_zipIdx_iff_getElem?.mp (List.mem_of_mem_filter member)
  have boundariesHere := boundaries rule (List.mem_of_getElem? listed)
  obtain ⟨candidate, fits, _, same⟩ := Candidate.exists_of_matchRule? listed boundariesHere matched
  exact ⟨candidate, fits, same⟩

/-- At the end of a text there is nothing to choose. -/
theorem bestMatch?_nil (boundaries : lexer.EndsAtBoundaries) : lexer.bestMatch? [] = none := by
  cases chosen : lexer.bestMatch? [] with
  | none => rfl
  | some found =>
      obtain ⟨candidate, fits, _⟩ := exists_candidate_of_bestMatch? boundaries chosen
      exact absurd (List.prefix_nil.mp fits.starts) fits.something

/-- A part of an input: what the candidate takes that is chosen at a byte offset. -/
structure Segment extends Candidate where
  start : Nat

/-- The lexer goes through an input from a byte offset on by the candidates that it chooses, and stops
where it chooses none. -/
inductive Walks (lexer : Lexer) (input : List Char) :
    (offset : Nat) → List Segment → (stop : Nat) → Prop where
  | stops {offset : Nat} (stuck : lexer.bestMatch? (Utf8.drop offset input) = none) :
      Walks lexer input offset [] offset
  | goesOn {offset stop : Nat} {candidate : Candidate} {others : List Segment}
      (fits : candidate.Fits lexer.rules (Utf8.drop offset input))
      (chosen : lexer.bestMatch? (Utf8.drop offset input) = some candidate.found)
      (further : Walks lexer input (offset + Utf8.size candidate.taken) others stop) :
      Walks lexer input offset (⟨candidate, offset⟩ :: others) stop

namespace Segment

/-- Whether there is a token for the segment. -/
def isKept (segment : Segment) : Bool :=
  !segment.rule.definition.ignore

/-- The token of a segment of an input. -/
def token (input : String) (segment : Segment) : Token where
  kind := segment.rule.definition.name
  text := String.ofList segment.taken
  line := (Position.ofOffset input segment.start).line
  column := (Position.ofOffset input segment.start).column
  offset := segment.start

end Segment

/-- The tokens of the segments that are not passed over. -/
def keptTokens (input : String) (segments : List Segment) : List Token :=
  (segments.filter Segment.isKept).map (Segment.token input)

/-- The error at the place where the lexer stops, if that is before the end of an input. -/
def failure? (input : String) (stop : Nat) : Option ParseError :=
  (Utf8.drop stop input.toList).head?.map (.unrecognized (Position.ofOffset input stop))

section Run

variable {offset stop : Nat} {segments : List Segment}

/-- The places on the way lie one behind the other. -/
theorem Walks.ordered {chars : List Char} (walks : lexer.Walks chars offset segments stop) :
    (∀ place ∈ segments.map Segment.start ++ [stop], offset ≤ place) ∧
      (segments.map Segment.start ++ [stop]).Pairwise (· < ·) := by
  induction walks with
  | stops _ => simp
  | @goesOn offset stop candidate others fits _ _ inductionHypothesis =>
      obtain ⟨later, ordered⟩ := inductionHypothesis
      have passes := Utf8.size_pos fits.something
      have after : ∀ place ∈ others.map Segment.start ++ [stop], offset < place := by
        intro place member
        have bound := later place member
        omega
      refine ⟨?_, List.pairwise_cons.mpr ⟨after, ordered⟩⟩
      intro place member
      rcases List.mem_cons.mp member with rfl | inOthers
      · exact Nat.le_refl _
      · exact Nat.le_of_lt (after place inOthers)

/-- A segment ends before the next ones start. -/
theorem Walks.apart {chars : List Char} (walks : lexer.Walks chars offset segments stop) :
    segments.Pairwise fun first second =>
      first.start + Utf8.size first.taken ≤ second.start := by
  induction walks with
  | stops _ => exact .nil
  | goesOn _ _ further inductionHypothesis =>
      refine .cons ?_ inductionHypothesis
      intro second member
      exact further.ordered.1 second.start
        (List.mem_append_left _ (List.mem_map_of_mem member))

/-- What fits behind the first part of an input comes next in it. -/
theorem next_of_fits {chars before rest : List Char} {candidate : Candidate}
    (fits : candidate.Fits lexer.rules (Utf8.drop offset chars)) (parts : chars = before ++ rest)
    (reached : offset = Utf8.size before) :
    ∃ after, chars = before ++ candidate.taken ++ after ∧
      offset + Utf8.size candidate.taken = Utf8.size (before ++ candidate.taken) := by
  have starts := fits.starts
  rw [reached, parts, Utf8.drop_size_append] at starts
  obtain ⟨after, rfl⟩ := starts
  exact ⟨after, parts.trans (List.append_assoc ..).symm, by rw [reached, Utf8.size_append]⟩

/-- The segments cover an input up to the place where the lexer stops. -/
theorem Walks.covers {chars before rest : List Char}
    (walks : lexer.Walks chars offset segments stop) (parts : chars = before ++ rest)
    (reached : offset = Utf8.size before) :
    ∃ passed after, chars = passed ++ after ∧ stop = Utf8.size passed := by
  induction walks generalizing before rest with
  | stops _ => exact ⟨before, rest, parts, reached⟩
  | goesOn fits _ _ inductionHypothesis =>
      obtain ⟨after, further, reachedNext⟩ := next_of_fits fits parts reached
      exact inductionHypothesis further reachedNext

/-- A segment lies in an input where it starts. -/
theorem Walks.parts {chars before rest : List Char}
    (walks : lexer.Walks chars offset segments stop) (parts : chars = before ++ rest)
    (reached : offset = Utf8.size before) {segment : Segment} (member : segment ∈ segments) :
    ∃ passed after, chars = passed ++ segment.taken ++ after ∧
      segment.start = Utf8.size passed := by
  induction walks generalizing before rest with
  | stops _ => contradiction
  | goesOn fits _ _ inductionHypothesis =>
      obtain ⟨after, further, reachedNext⟩ := next_of_fits fits parts reached
      rcases List.mem_cons.mp member with rfl | inOthers
      · exact ⟨before, after, further, reached⟩
      · exact inductionHypothesis further reachedNext inOthers

/-- The lexer stops at the end of an input or before a character of it, which then is the error. -/
theorem Walks.ends {input : String} (walks : lexer.Walks input.toList 0 segments stop) :
    stop = Utf8.size input.toList ∧ failure? input stop = none ∨
      stop < Utf8.size input.toList ∧ ∃ position found,
        position.offset = stop ∧ (Utf8.drop stop input.toList).head? = some found ∧
        failure? input stop = some (.unrecognized position found) := by
  obtain ⟨passed, after, parts, rfl⟩ := walks.covers (List.nil_append _).symm Utf8.size_nil.symm
  rw [failure?, Position.ofOffset_size parts, parts, Utf8.drop_size_append, Utf8.size_append]
  cases after with
  | nil => exact .inl ⟨rfl, rfl⟩
  | cons c after =>
      have more := Utf8.size_pos (List.cons_ne_nil c after)
      exact .inr ⟨Nat.lt_add_of_pos_right more, _, c, Position.offset_advance_start passed, rfl, rfl⟩

/-- Tokenizing goes through an input, and has the tokens of the segments that are kept, with an error
where it stops before the end. By induction on the bound: every step takes a character off. -/
theorem tokensFrom_eq (boundaries : lexer.EndsAtBoundaries) {input : String}
    {before rest : List Char} (parts : input.toList = before ++ rest) {bound : Nat}
    (enough : rest.length ≤ bound) :
    ∃ segments stop, lexer.Walks input.toList (Utf8.size before) segments stop ∧
      lexer.tokensFrom bound (Position.start.advance before) rest =
        (keptTokens input segments).map .ok ++ (failure? input stop).toList.map .error := by
  have remaining {before rest : List Char} (parts : input.toList = before ++ rest) :
      Utf8.drop (Utf8.size before) input.toList = rest := by
    rw [parts, Utf8.drop_size_append]
  induction bound generalizing before rest with
  | zero =>
      obtain rfl := List.length_eq_zero_iff.mp (Nat.le_zero.mp enough)
      refine ⟨[], Utf8.size before, .stops ?_, ?_⟩
      · rw [remaining parts, bestMatch?_nil boundaries]
      · rw [failure?, remaining parts]
        rfl
  | succ bound inductionHypothesis =>
      cases chosen : lexer.bestMatch? rest with
      | none =>
          refine ⟨[], Utf8.size before, .stops (by rw [remaining parts, chosen]), ?_⟩
          rw [failure?, remaining parts, Position.ofOffset_size parts]
          cases rest with
          | nil => rfl
          | cons c rest =>
              simp only [tokensFrom, chosen]
              rfl
      | some found =>
          obtain ⟨candidate, fits, rfl⟩ := exists_candidate_of_bestMatch? boundaries chosen
          obtain ⟨after, rfl⟩ := fits.starts
          have passes := List.length_pos_iff.mpr fits.something
          rw [List.length_append] at enough
          obtain ⟨segments, stop, walks, same⟩ :=
            inductionHypothesis (parts.trans (List.append_assoc ..).symm) (by omega)
          rw [Utf8.size_append] at walks
          rw [Position.advance_append] at same
          refine ⟨⟨candidate, Utf8.size before⟩ :: segments, stop, .goesOn ?_ ?_ walks, ?_⟩
          · rw [remaining parts]
            exact fits
          · rw [remaining parts, chosen]
          · rw [tokensFrom_append fits.something chosen, same]
            by_cases ignored : candidate.rule.definition.ignore = true
            · simp [keptTokens, Segment.isKept, ignored]
            · simp [keptTokens, Segment.isKept, ignored, Segment.token, tokenOf,
                Position.ofOffset_size parts]

/-- The tokens of an input, and the way through it. -/
theorem exists_walk (boundaries : lexer.EndsAtBoundaries) (input : String) :
    ∃ segments stop, lexer.Walks input.toList 0 segments stop ∧
      lexer.tokens input =
        (keptTokens input segments).map .ok ++ (failure? input stop).toList.map .error :=
  tokensFrom_eq boundaries (List.nil_append _).symm (Nat.le_refl _)

end Run

/-- Words in lines; the breaks between the lines are passed over. -/
def wordsByLine : Lexer :=
  ofPatterns
    [⟨{ name := "word", pattern := "[a-zé]+" },
      .concat (.assert .textStart)
        (.plus (.one (.union (.range 'a' 'z') (.single 'é'))) true)⟩,
     ⟨{ name := "break", pattern := "\\n", ignore := true },
      .concat (.assert .textStart) (.one (.single '\n'))⟩]

end Lexer

end EarleyChart
