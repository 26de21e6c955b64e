import Mathlib.Data.List.Induction
import EarleyChart.Proofs.Segments

/-!
Contract: tokenizing is maximal munch.

`Lexer.Prefers` singles out the longest candidate, of the longest ones that with the highest priority,
and of those the first. `Lexer.Visits` goes through an input by preferred candidates until there is none, and
in one way only (`Visits.unique`). If the set of a lexer reports the rules that match, the choices of the
lexer are the preferred candidates (`Walks.visits`). `Lexer.tokens_follow_maximal_munch` says that the tokens
of an input are those of the candidates that are not passed over, and that what remains, if anything,
is an error.
-/

namespace EarleyChart

namespace Candidate

/-- One candidate gives way to another: it takes fewer bytes, or as many with a rule of lower
priority, or of the same priority and not before the other one. -/
def GivesWay (candidate best : Candidate) : Prop :=
  Utf8.size candidate.taken < Utf8.size best.taken ∨
    candidate.taken = best.taken ∧
      (candidate.rule.definition.priority < best.rule.definition.priority ∨
        candidate.rule.definition.priority = best.rule.definition.priority ∧
          best.index ≤ candidate.index)

variable {candidate middle best : Candidate} {rules : List LexerRule} {text : List Char}

theorem GivesWay.refl (candidate : Candidate) : candidate.GivesWay candidate :=
  .inr ⟨rfl, .inr ⟨rfl, Nat.le_refl _⟩⟩

theorem GivesWay.trans (first : candidate.GivesWay middle) (second : middle.GivesWay best) :
    candidate.GivesWay best := by
  rcases first with shorter | ⟨same, first⟩
  · rcases second with further | ⟨same, _⟩
    · exact .inl (shorter.trans further)
    · exact .inl (same ▸ shorter)
  · rcases second with shorter | ⟨furtherSame, second⟩
    · exact .inl (same ▸ shorter)
    · exact .inr ⟨same.trans furtherSame, by omega⟩

theorem GivesWay.total (fits : candidate.Fits rules text) (bestFits : best.Fits rules text) :
    candidate.GivesWay best ∨ best.GivesWay candidate := by
  rcases Nat.lt_trichotomy (Utf8.size candidate.taken) (Utf8.size best.taken) with
    shorter | same | longer
  · exact .inl (.inl shorter)
  · have sameTaken := Utf8.eq_of_size_eq fits.starts bestFits.starts same
    simp only [GivesWay, sameTaken, true_and]
    omega
  · exact .inr (.inl longer)

/-- Candidates that fit and give way to each other are the same. -/
theorem GivesWay.antisymm (fits : candidate.Fits rules text) (bestFits : best.Fits rules text)
    (first : candidate.GivesWay best) (second : best.GivesWay candidate) : candidate = best := by
  have sameTaken : candidate.taken = best.taken := by
    rcases first with shorter | ⟨same, _⟩
    · rcases second with longer | ⟨same, _⟩
      · omega
      · exact same.symm
    · exact same
  have sameIndex : candidate.index = best.index := by
    simp only [GivesWay, sameTaken, Nat.lt_irrefl, true_and, false_or] at first second
    omega
  exact fits.eq_of_index bestFits sameIndex

section MoreRules

variable {rule : LexerRule}

/-- A candidate of more rules is one of the first rules or of the last one. -/
theorem fits_append_cases (fits : candidate.Fits (rules ++ [rule]) text) :
    candidate.Fits rules text ∨ candidate.index = rules.length ∧ candidate.rule = rule := by
  have listed := fits.listed
  rw [List.getElem?_append] at listed
  split at listed
  next => exact .inl ⟨listed, fits.something, fits.starts, fits.matched⟩
  next outside =>
    right
    obtain ⟨inside, same⟩ := List.getElem?_eq_some_iff.mp listed
    rw [List.length_singleton] at inside
    refine ⟨by omega, ?_⟩
    rw [← same]
    simp [Nat.lt_one_iff.mp inside]

theorem Fits.append (fits : candidate.Fits rules text) :
    candidate.Fits (rules ++ [rule]) text := by
  have inside := (List.getElem?_eq_some_iff.mp fits.listed).1
  exact ⟨(List.getElem?_append_left inside).trans fits.listed, fits.something, fits.starts,
    fits.matched⟩

end MoreRules

end Candidate

namespace Lexer

variable {lexer : Lexer} {text : List Char}

/-- The candidate that every other one gives way to. -/
structure Prefers (rules : List LexerRule) (text : List Char) (best : Candidate) : Prop where
  fits : best.Fits rules text
  best : ∀ {other : Candidate}, other.Fits rules text → other.GivesWay best

/-- What is chosen at the start of a text: the preferred candidate, if there are candidates. -/
inductive Chooses (rules : List LexerRule) (text : List Char) : Option LexerMatch → Prop where
  | nothing (stuck : ∀ candidate : Candidate, ¬ candidate.Fits rules text) :
      Chooses rules text none
  | best {best : Candidate} (prefers : Prefers rules text best) :
      Chooses rules text (some best.found)

section Selection

variable {rules : List LexerRule} {rule : LexerRule} {candidate best : Candidate}

/-- A candidate of a further rule is better exactly if it does not give way. -/
theorem isBetter_iff (fits : candidate.Fits rules text) (bestFits : best.Fits rules text)
    (later : best.index ≤ candidate.index) :
    isBetter candidate.found best.found = true ↔ ¬ candidate.GivesWay best := by
  simp only [isBetter, Bool.or_eq_true, Bool.and_eq_true, decide_eq_true_eq, beq_iff_eq]
  simp only [Candidate.found]
  rcases Nat.lt_trichotomy (Utf8.size candidate.taken) (Utf8.size best.taken) with
    shorter | same | longer
  · exact iff_of_false (by omega) (not_not_intro (.inl shorter))
  · have sameTaken := Utf8.eq_of_size_eq fits.starts bestFits.starts same
    simp only [Candidate.GivesWay, sameTaken, true_and]
    omega
  · refine iff_of_true (.inl longer) fun givesWay => ?_
    rcases givesWay with less | ⟨same, _⟩
    · omega
    · rw [same] at longer
      exact Nat.lt_irrefl _ longer

theorem bestOf_append (rules : List LexerRule) (rule : LexerRule) (text : List Char) :
    bestOf (rules ++ [rule]).zipIdx text =
      match matchRule? text (rule, rules.length) with
      | none => bestOf rules.zipIdx text
      | some candidate => chooseBetter (bestOf rules.zipIdx text) candidate := by
  rw [bestOf, List.zipIdx_append, List.filterMap_append, List.foldl_append, List.zipIdx_cons,
    List.zipIdx_nil, Nat.zero_add]
  cases matched : matchRule? text (rule, rules.length) with
  | none => rw [List.filterMap_cons_none matched]; rfl
  | some candidate => rw [List.filterMap_cons_some matched]; rfl

/-- A rule without a candidate does not change the choice. -/
theorem Chooses.append {chosen : Option LexerMatch} (chooses : Chooses rules text chosen)
    (unmatched : matchRule? text (rule, rules.length) = none) :
    Chooses (rules ++ [rule]) text chosen := by
  have earlier {candidate : Candidate} (fits : candidate.Fits (rules ++ [rule]) text) :
      candidate.Fits rules text := by
    rcases Candidate.fits_append_cases fits with inRules | ⟨isLast, rfl⟩
    · exact inRules
    · rw [← isLast, fits.matchRule?] at unmatched
      contradiction
  cases chooses with
  | nothing stuck => exact .nothing fun candidate fits => stuck candidate (earlier fits)
  | best prefers => exact .best ⟨prefers.fits.append, fun fits => prefers.best (earlier fits)⟩

/-- The candidate of a further rule is chosen unless it gives way to the choice before. -/
theorem Chooses.chooseBetter {chosen : Option LexerMatch} (chooses : Chooses rules text chosen)
    (fits : candidate.Fits (rules ++ [rule]) text) (isLast : candidate.index = rules.length) :
    Chooses (rules ++ [rule]) text (chooseBetter chosen candidate.found) := by
  have cases {other : Candidate} (otherFits : other.Fits (rules ++ [rule]) text) :
      other.Fits rules text ∨ other = candidate := by
    refine (Candidate.fits_append_cases otherFits).imp_right fun otherLast => ?_
    exact otherFits.eq_of_index fits (otherLast.1.trans isLast.symm)
  cases chooses with
  | nothing stuck =>
      refine .best ⟨fits, fun other => ?_⟩
      rcases cases other with inRules | rfl
      · exact absurd inRules (stuck _)
      · exact .refl _
  | @best best prefers =>
      have bestFits : best.Fits (rules ++ [rule]) text := prefers.fits.append
      have earlier : best.index < candidate.index :=
        isLast ▸ (List.getElem?_eq_some_iff.mp prefers.fits.listed).1
      have better := isBetter_iff fits bestFits (Nat.le_of_lt earlier)
      rw [Lexer.chooseBetter]
      split
      next isBetter =>
        have givesWay := (Candidate.GivesWay.total fits bestFits).resolve_left (better.mp isBetter)
        refine .best ⟨fits, fun other => ?_⟩
        rcases cases other with inRules | rfl
        · exact (prefers.best inRules).trans givesWay
        · exact .refl _
      next notBetter =>
        have givesWay := not_not.mp (mt better.mpr notBetter)
        refine .best ⟨bestFits, fun other => ?_⟩
        rcases cases other with inRules | rfl
        · exact prefers.best inRules
        · exact givesWay

/-- The preferred candidate is chosen. By induction from the last rule, for the earlier ones have been
tried before it. -/
theorem chooses_bestOf (boundaries : ∀ rule ∈ rules, rule.EndsAtBoundaries) (text : List Char) :
    Chooses rules text (bestOf rules.zipIdx text) := by
  induction rules using List.reverseRecOn with
  | nil => exact .nothing fun candidate fits => by simpa using fits.listed
  | append_singleton rules rule inductionHypothesis =>
      have earlier : ∀ rule ∈ rules, rule.EndsAtBoundaries := fun other member =>
        boundaries other (List.mem_append_left _ member)
      have last : (rules ++ [rule])[rules.length]? = some rule := List.getElem?_concat_length
      rw [bestOf_append]
      cases matched : matchRule? text (rule, rules.length) with
      | none => exact (inductionHypothesis earlier).append matched
      | some found =>
          obtain ⟨candidate, fits, isLast, rfl⟩ :=
            Candidate.exists_of_matchRule? last (boundaries rule List.mem_concat_self) matched
          exact (inductionHypothesis earlier).chooseBetter fits isLast

theorem Prefers.unique {other : Candidate} (prefers : Prefers rules text best)
    (otherPrefers : Prefers rules text other) : best = other :=
  Candidate.GivesWay.antisymm prefers.fits otherPrefers.fits (otherPrefers.best prefers.fits)
    (prefers.best otherPrefers.fits)

/-- Under both laws of the engine the lexer chooses the preferred candidate. -/
theorem chooses_bestMatch? (boundaries : lexer.EndsAtBoundaries) (agrees : lexer.SetAgrees)
    (text : List Char) : Chooses lexer.rules text (lexer.bestMatch? text) := by
  rw [bestMatch?_eq_bestOf agrees]
  exact chooses_bestOf boundaries text

end Selection

/-- The lexer goes through an input from a byte offset on, by the preferred candidates, and stops
where there is no candidate. -/
inductive Visits (lexer : Lexer) (input : List Char) :
    (offset : Nat) → List Segment → (stop : Nat) → Prop where
  | stops {offset : Nat}
      (stuck : ∀ candidate : Candidate, ¬ candidate.Fits lexer.rules (Utf8.drop offset input)) :
      Visits lexer input offset [] offset
  | goesOn {offset stop : Nat} {chosen : Candidate} {others : List Segment}
      (prefers : Prefers lexer.rules (Utf8.drop offset input) chosen)
      (further : Visits lexer input (offset + Utf8.size chosen.taken) others stop) :
      Visits lexer input offset (⟨chosen, offset⟩ :: others) stop

section Run

variable {chars : List Char} {offset stop : Nat} {segments : List Segment}

/-- There is one way only through an input. -/
theorem Visits.unique (visits : lexer.Visits chars offset segments stop)
    {others : List Segment} {otherStop : Nat}
    (otherVisits : lexer.Visits chars offset others otherStop) :
    others = segments ∧ otherStop = stop := by
  induction visits generalizing others with
  | stops stuck =>
      cases otherVisits with
      | stops _ => exact ⟨rfl, rfl⟩
      | goesOn prefers _ => exact absurd prefers.fits (stuck _)
  | goesOn prefers _ inductionHypothesis =>
      cases otherVisits with
      | stops stuck => exact absurd prefers.fits (stuck _)
      | goesOn otherPrefers further =>
          obtain rfl := prefers.unique otherPrefers
          obtain ⟨rfl, rfl⟩ := inductionHypothesis further
          exact ⟨rfl, rfl⟩

/-- The choices of a lexer are the preferred candidates. -/
theorem Walks.visits (boundaries : lexer.EndsAtBoundaries) (agrees : lexer.SetAgrees)
    (walks : lexer.Walks chars offset segments stop) : lexer.Visits chars offset segments stop := by
  induction walks with
  | @stops offset stuck =>
      have chooses := chooses_bestMatch? boundaries agrees (Utf8.drop offset chars)
      rw [stuck] at chooses
      cases chooses with
      | nothing stuck => exact .stops stuck
  | @goesOn offset stop candidate others fits chosen _ inductionHypothesis =>
      have chooses := chooses_bestMatch? boundaries agrees (Utf8.drop offset chars)
      generalize isChoice : lexer.bestMatch? (Utf8.drop offset chars) = choice at chooses
      rw [chosen] at isChoice
      cases chooses with
      | nothing _ => contradiction
      | @best best prefers =>
          have sameIndex : candidate.index = best.index :=
            congrArg LexerMatch.index (Option.some.inj isChoice)
          obtain rfl := fits.eq_of_index prefers.fits sameIndex
          exact .goesOn prefers inductionHypothesis

/-- Going through an input from its start by preferred candidates, which can be done in one way only,
the lexer finds a token for every segment that it does not pass over, and one error where it stops
before the end. -/
theorem tokens_follow_maximal_munch {lexer : Lexer} (boundaries : lexer.EndsAtBoundaries)
    (agrees : lexer.SetAgrees) (input : String) :
    ∃ segments stop,
      lexer.Visits input.toList 0 segments stop ∧
      (∀ {others : List Segment} {otherStop : Nat},
        lexer.Visits input.toList 0 others otherStop → others = segments ∧ otherStop = stop) ∧
      (segments.map Segment.start ++ [stop]).Pairwise (· < ·) ∧
      (∀ segment ∈ segments,
        Utf8.slice? segment.start (segment.start + Utf8.size segment.taken) input.toList =
          some segment.taken) ∧
      (stop = Utf8.size input.toList ∧
          lexer.tokens input = (keptTokens input segments).map .ok ∧
          lexer.tokenize input = .ok (keptTokens input segments) ∨
        stop < Utf8.size input.toList ∧
          ∃ position found,
            position.offset = stop ∧ (Utf8.drop stop input.toList).head? = some found ∧
            lexer.tokens input =
              (keptTokens input segments).map .ok ++ [.error (.unrecognized position found)] ∧
            lexer.tokenize input = .error (.unrecognized position found)) ∧
      ((∃ tokens, lexer.tokenize input = .ok tokens) ↔ stop = Utf8.size input.toList) := by
  obtain ⟨segments, stop, walks, found⟩ := exists_walk boundaries input
  have visits := walks.visits boundaries agrees
  have all := tokenize_of_tokens found
  refine ⟨segments, stop, visits, visits.unique, walks.ordered.2, ?_, ?_, ?_⟩
  · intro segment member
    obtain ⟨passed, after, parts, start⟩ := walks.parts (List.nil_append _).symm
      Utf8.size_nil.symm member
    rw [parts, start, Utf8.slice?_size_append]
  · rcases walks.ends with ⟨atEnd, noFailure⟩ | ⟨earlier, position, next, place, here, failure⟩
    · rw [noFailure] at found all
      exact .inl ⟨atEnd, found.trans (List.append_nil _), all⟩
    · rw [failure] at found all
      exact .inr ⟨earlier, position, next, place, here, found, all⟩
  · rw [all]
    rcases walks.ends with ⟨atEnd, noFailure⟩ | ⟨earlier, position, next, place, here, failure⟩
    · rw [noFailure]
      exact iff_of_true ⟨_, rfl⟩ atEnd
    · rw [failure]
      exact iff_of_false (fun ⟨_, success⟩ => nomatch success) (Nat.ne_of_lt earlier)

end Run

theorem wordsByLine_stops_at_sign :
    ∃ segments, wordsByLine.Visits "oné\n@".toList 0 segments 5 ∧
      ∀ {others : List Segment} {otherStop : Nat},
        wordsByLine.Visits "oné\n@".toList 0 others otherStop → otherStop = 5 := by
  have boundaries : wordsByLine.EndsAtBoundaries := endsAtBoundaries_ofPatterns _
  have agrees : wordsByLine.SetAgrees := setAgrees_ofPatterns _
  obtain ⟨segments, stop, visits, unique, _, _, outcome, _⟩ :=
    tokens_follow_maximal_munch boundaries agrees "oné\n@"
  have computed : wordsByLine.tokenize "oné\n@" = .error (.unrecognized ⟨5, 2, 1⟩ '@') := rfl
  rcases outcome with ⟨_, _, success⟩ | ⟨_, position, found, place, _, _, failure⟩
  · rw [computed] at success
    contradiction
  · rw [computed] at failure
    obtain ⟨rfl, _⟩ := ParseError.unrecognized.inj (Except.error.inj failure)
    obtain rfl : 5 = stop := place
    exact ⟨segments, visits, fun otherVisits => (unique otherVisits).2⟩

end Lexer
end EarleyChart
