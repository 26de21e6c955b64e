import EarleyChart.Proofs.Segments

/-!
Contract: the places of tokens and errors in the input.

A lexer passes its position on from one segment to the next, a token computes its end from its own
text, and `Position.ofOffset` counts anew from the start of the input.
`Lexer.positions_agree` says that they come to the same places, whatever patterns and set the lexer has,
as long as its rules end their matches on character boundaries.
-/

namespace EarleyChart

/-- A token has the text that stands at its offset in the input, and its two ends are where the input
has these offsets. -/
structure Token.StandsIn (token : Token) (input : String) : Prop where
  text : Utf8.slice? token.offset (token.offset + Utf8.size token.text.toList) input.toList =
    some token.text.toList
  start : token.start = Position.ofOffset input token.offset
  stop : token.stop =
    Position.ofOffset input (token.offset + Utf8.size token.text.toList)

namespace Lexer

variable {lexer : Lexer} {input : String}

/-- A segment that lies in the input has its token there. -/
theorem Segment.standsIn {segment : Segment} {passed after : List Char}
    (parts : input.toList = passed ++ segment.taken ++ after)
    (start : segment.start = Utf8.size passed) : (segment.token input).StandsIn input := by
  have whole : (segment.token input).text.toList = segment.taken := String.toList_ofList
  have offset : (segment.token input).offset = Utf8.size passed := start
  have placed : Position.ofOffset input segment.start = Position.start.advance passed := by
    rw [start, Position.ofOffset_size (parts.trans (List.append_assoc ..))]
  have begins : (segment.token input).start = Position.start.advance passed := by
    rw [Token.start, offset, Segment.token, placed, ← Position.offset_advance_start passed]
  refine ⟨?_, ?_, ?_⟩
  · rw [whole, offset, parts, Utf8.slice?_size_append]
  · rw [begins, ← placed]
    rfl
  · rw [Token.stop_eq_advance, begins, whole, offset, ← Utf8.size_append,
      Position.ofOffset_size parts, Position.advance_append]

section Found

variable (boundaries : lexer.EndsAtBoundaries)

include boundaries

theorem standsIn_of_mem_tokens {token : Token} (found : .ok token ∈ lexer.tokens input) :
    token.StandsIn input := by
  obtain ⟨segments, stop, walks, tokens⟩ := exists_walk boundaries input
  rw [ok_mem_tokens_iff tokens] at found
  obtain ⟨segment, kept, rfl⟩ := List.mem_map.mp found
  obtain ⟨passed, after, parts, start⟩ := walks.parts (List.nil_append _).symm Utf8.size_nil.symm
    (List.mem_of_mem_filter kept)
  exact Segment.standsIn parts start

theorem unrecognized_of_mem_tokens {error : ParseError} (found : .error error ∈ lexer.tokens input) :
    ∃ position found, error = .unrecognized position found ∧
      position = Position.ofOffset input position.offset := by
  obtain ⟨segments, stop, _, tokens⟩ := exists_walk boundaries input
  rw [error_mem_tokens_iff tokens, failure?] at found
  obtain ⟨character, _, rfl⟩ := Option.map_eq_some_iff.mp found
  exact ⟨_, character, rfl, (Position.ofOffset_offset input stop).symm⟩

/-- All tokens of an input are those of the segments that are kept. -/
theorem exists_walk_of_tokenize {tokens : List Token} (all : lexer.tokenize input = .ok tokens) :
    ∃ segments stop, lexer.Walks input.toList 0 segments stop ∧
      tokens = keptTokens input segments ∧
      lexer.tokens input =
        (keptTokens input segments).map .ok ++ (failure? input stop).toList.map .error := by
  obtain ⟨segments, stop, walks, found⟩ := exists_walk boundaries input
  rw [tokenize_of_tokens found] at all
  cases failure : failure? input stop with
  | none =>
      rw [failure] at all
      rw [failure] at found
      exact ⟨segments, stop, walks, (Except.ok.inj all).symm, by rw [found, failure]⟩
  | some error =>
      rw [failure] at all
      contradiction

theorem mem_tokens_of_tokenize {tokens : List Token} (all : lexer.tokenize input = .ok tokens)
    {token : Token} (member : token ∈ tokens) : .ok token ∈ lexer.tokens input := by
  obtain ⟨segments, stop, _, rfl, found⟩ := exists_walk_of_tokenize boundaries all
  rw [ok_mem_tokens_iff found]
  exact member

/-- Every token ends before the next ones start. -/
theorem tokens_apart {tokens : List Token} (all : lexer.tokenize input = .ok tokens) :
    tokens.Pairwise fun first second => first.stop.offset ≤ second.offset := by
  obtain ⟨segments, stop, walks, rfl, _⟩ := exists_walk_of_tokenize boundaries all
  refine List.pairwise_map.mpr ((walks.apart.sublist List.filter_sublist).imp ?_)
  intro first second ends
  simpa [Token.stop, Segment.token] using ends

end Found

/-- What a lexer finds lies where its position says, and a token ends where the characters of its text
lead from its start. The sentinel stands at the end of the last token. -/
theorem positions_agree {lexer : Lexer} (boundaries : lexer.EndsAtBoundaries) (input : String) :
    (∀ {token : Token}, .ok token ∈ lexer.tokens input →
      token.StandsIn input ∧
        (Token.endOfInput (some token)).start =
          Position.ofOffset input (token.offset + Utf8.size token.text.toList)) ∧
    (∀ {error : ParseError}, .error error ∈ lexer.tokens input →
      ∃ position found, error = .unrecognized position found ∧
        position = Position.ofOffset input position.offset) ∧
    (∀ {tokens : List Token} {last : Token}, lexer.tokenize input = .ok tokens →
      tokens.getLast? = some last →
      (Token.endOfInput tokens.getLast?).start =
        Position.ofOffset input (last.offset + Utf8.size last.text.toList)) := by
  refine ⟨?_, unrecognized_of_mem_tokens boundaries, ?_⟩
  · intro token found
    have stands := standsIn_of_mem_tokens boundaries found
    exact ⟨stands, stands.stop⟩
  · intro tokens last all isLast
    rw [isLast]
    have found := mem_tokens_of_tokenize boundaries all (List.mem_of_getLast? isLast)
    exact (standsIn_of_mem_tokens boundaries found).stop

theorem wordsByLine_positions_agree :
    (Token.mk "word" "two" 2 1 5).StandsIn "oné\ntwo" ∧
      (Token.endOfInput (some ⟨"word", "two", 2, 1, 5⟩)).start =
        Position.ofOffset "oné\ntwo" 8 := by
  have boundaries : wordsByLine.EndsAtBoundaries := endsAtBoundaries_ofPatterns _
  obtain ⟨placed, _, sentinel⟩ := positions_agree boundaries "oné\ntwo"
  have second : .ok (Token.mk "word" "two" 2 1 5) ∈ wordsByLine.tokens "oné\ntwo" :=
    .tail _ (.head _)
  have all : wordsByLine.tokenize "oné\ntwo" =
      .ok [⟨"word", "oné", 1, 1, 0⟩, ⟨"word", "two", 2, 1, 5⟩] := rfl
  exact ⟨(placed second).1, sentinel all rfl⟩

end Lexer
end EarleyChart
