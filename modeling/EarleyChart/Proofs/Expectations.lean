import EarleyChart.Proofs.Descent

/-!
Contract: what the recursive descent expects where it fails.

`Descent.Tells` is about the errors of a part of the descent. Inside a word the names it reports are
those that can follow what it has taken, but for the bracket that it leaves out behind an opening
one; a token is counted before it is refused. The lemmas follow the calls of the descent as those of
`Descent.Reads` do, and `Descent.tells_within` is the whole of it.
-/

namespace EarleyChart.Document

/-- A word of the language begins with the tokens and goes on with one of the given name. -/
def Follows {α : Type} (language : α → List Token → Prop) (before : List Token) (name : String) :
    Prop :=
  ∃ value token tail, token.name = name ∧ language value (before ++ token :: tail)

/-- The tokens end in an opening bracket. -/
def EndsInBracket (tokens : List Token) : Prop :=
  ∃ opening ∈ tokens.getLast?, opening.name = "left_bracket"

/-- The name that can follow the tokens and that the descent leaves out. -/
def LeftOut (before : List Token) (name : String) : Prop :=
  name = "right_bracket" ∧ EndsInBracket before

/-- The names are those that can follow the tokens, but for the one that is left out. -/
structure Covers {α : Type} (language : α → List Token → Prop) (before : List Token)
    (expected : List String) : Prop where
  exact : ∀ name, Follows language before name ↔ name ∈ expected ∨ LeftOut before name
  apart : ∀ name, LeftOut before name → name ∉ expected

/-- A token of the given name. -/
def tokenNamed (name : String) : Token :=
  ⟨Token.keywordKind, name, 1, 1, 0⟩

theorem name_tokenNamed (name : String) : (tokenNamed name).name = name :=
  rfl

section Following

variable {α β : Type} {language : α → List Token → Prop} {whole : β → List Token → Prop}
  {names expected : List String} {before first second : List Token} {token : Token} {name : String}

theorem Starts.follows_iff (starts : Starts language names)
    (each : ∀ name ∈ names, Follows language [] name) (name : String) :
    Follows language [] name ↔ name ∈ names := by
  refine ⟨?_, each name⟩
  intro follows
  obtain ⟨value, token, tail, rfl, member⟩ := follows
  obtain ⟨other, rest, same, listed⟩ := starts.first member
  obtain ⟨rfl, _⟩ := List.cons.inj same
  exact listed

theorem Starts.exists_follows (starts : Starts language names) :
    ∃ name, Follows language [] name := by
  obtain ⟨value, word, member⟩ := starts.inhabited
  obtain ⟨token, rest, rfl, _⟩ := starts.first member
  exact ⟨token.name, value, token, rest, rfl, member⟩

/-- What follows a token is what can begin the words behind it. -/
theorem follows_cons {further : α → List Token → Prop}
    (derivative : ∀ {value word}, language value (token :: word) ↔ further value word)
    (name : String) : Follows language (token :: before) name ↔ Follows further before name := by
  simp only [Follows, List.cons_append, derivative]

theorem follows_turned {turn : α → β}
    (turned : ∀ {other word}, whole other word ↔ ∃ value, language value word ∧ other = turn value)
    (name : String) : Follows whole before name ↔ Follows language before name := by
  constructor
  · intro follows
    obtain ⟨other, token, tail, named, inWhole⟩ := follows
    obtain ⟨value, inLanguage, _⟩ := turned.mp inWhole
    exact ⟨value, token, tail, named, inLanguage⟩
  · intro follows
    obtain ⟨value, token, tail, named, inLanguage⟩ := follows
    exact ⟨turn value, token, tail, named, turned.mpr ⟨value, inLanguage, rfl⟩⟩

section Sequences

variable {further : α → β → List Token → Prop}
  (parts : ∀ {other word}, whole other word ↔ ∃ value first second, language value first ∧
    further value other second ∧ word = first ++ second)
include parts

/-- Inside its first part a word goes on as that part does. -/
theorem follows_first
    (incomplete : ∀ {value word more}, language value word → word ++ more ≠ before)
    (inhabited : ∀ value, ∃ other word, further value other word) (name : String) :
    Follows whole before name ↔ Follows language before name := by
  constructor
  · intro follows
    obtain ⟨other, token, tail, named, inWhole⟩ := follows
    obtain ⟨value, first, second, inFirst, _, same⟩ := parts.mp inWhole
    rcases List.append_eq_append_iff.mp same.symm with
      ⟨more, isBefore, _⟩ | ⟨more, rfl, sameAfter⟩
    · exact absurd isBefore.symm (incomplete inFirst)
    · cases more with
      | nil => exact absurd (show before ++ [] ++ [] = before by simp) (incomplete inFirst)
      | cons next others =>
          obtain ⟨rfl, _⟩ := List.cons.inj sameAfter
          exact ⟨value, token, others, named, inFirst⟩
  · intro follows
    obtain ⟨value, token, tail, named, inFirst⟩ := follows
    obtain ⟨other, second, inSecond⟩ := inhabited value
    refine ⟨other, token, tail ++ second, named, ?_⟩
    refine parts.mpr ⟨value, _, second, inFirst, inSecond, ?_⟩
    rw [List.append_assoc, List.cons_append]

/-- Behind its first part a word goes on as the second part does. -/
theorem follows_second {value : α} {covered : List Token} (member : language value covered)
    (unique : ∀ {other word tail more}, language other word → word ++ more = covered ++ tail →
      other = value ∧ word = covered) (name : String) :
    Follows whole (covered ++ before) name ↔ Follows (further value) before name := by
  constructor
  · intro follows
    obtain ⟨other, token, tail, named, inWhole⟩ := follows
    obtain ⟨firstValue, first, second, inFirst, inSecond, same⟩ := parts.mp inWhole
    rw [List.append_assoc] at same
    obtain ⟨rfl, rfl⟩ := unique inFirst same.symm
    obtain rfl := List.append_cancel_left same
    exact ⟨other, token, tail, named, inSecond⟩
  · intro follows
    obtain ⟨other, token, tail, named, inFurther⟩ := follows
    refine ⟨other, token, tail, named, parts.mpr ⟨value, _, _, member, inFurther, ?_⟩⟩
    exact List.append_assoc _ _ _

end Sequences

section Closing

variable {close : String} {empty : α}

/-- A closing token of its own can follow where nothing is taken. -/
theorem follows_enclosed :
    Follows (fun value word => language value word ∨
        value = empty ∧ ∃ closing, closing.name = close ∧ word = [closing]) [] name ↔
      Follows language [] name ∨ name = close := by
  constructor
  · intro follows
    obtain ⟨value, token, tail, rfl, inLanguage | ⟨_, closing, closed, same⟩⟩ := follows
    · exact .inl ⟨value, token, tail, rfl, inLanguage⟩
    · obtain ⟨rfl, _⟩ := List.cons.inj same
      exact .inr closed
  · intro follows
    rcases follows with ⟨value, token, tail, named, inLanguage⟩ | rfl
    · exact ⟨value, token, tail, named, .inl inLanguage⟩
    · exact ⟨empty, tokenNamed name, [], name_tokenNamed name,
        .inr ⟨rfl, tokenNamed name, name_tokenNamed name, rfl⟩⟩

/-- Nothing follows a closing token of its own. -/
theorem follows_enclosed_inside (taken : before ≠ []) :
    Follows (fun value word => language value word ∨
        value = empty ∧ ∃ closing, closing.name = close ∧ word = [closing]) before name ↔
      Follows language before name := by
  constructor
  · intro follows
    obtain ⟨value, token, tail, named, inLanguage | ⟨_, closing, _, same⟩⟩ := follows
    · exact ⟨value, token, tail, named, inLanguage⟩
    · have lengths := congrArg List.length same
      have positive := List.length_pos_iff.mpr taken
      simp only [List.length_append, List.length_cons, List.length_nil] at lengths
      omega
  · intro follows
    obtain ⟨value, token, tail, named, inLanguage⟩ := follows
    exact ⟨value, token, tail, named, .inl inLanguage⟩

end Closing

theorem endsInBracket_append (some : second ≠ []) :
    EndsInBracket (first ++ second) ↔ EndsInBracket second := by
  rw [EndsInBracket, EndsInBracket, List.getLast?_append_of_ne_nil _ some]

theorem endsInBracket_single : EndsInBracket [token] ↔ token.name = "left_bracket" := by
  simp [EndsInBracket]

theorem not_endsInBracket_append (first : List Token) {closing : Token}
    (named : closing.name ≠ "left_bracket") : ¬ EndsInBracket (first ++ [closing]) := by
  rw [endsInBracket_append (List.cons_ne_nil _ _), endsInBracket_single]
  exact named

/-- Where nothing is left out the names are those that can follow. -/
theorem covers_of_follows_iff (closed : ¬ EndsInBracket before)
    (follows : ∀ name, Follows language before name ↔ name ∈ expected) :
    Covers language before expected where
  exact name := (follows name).trans (or_iff_left fun leftOut => closed leftOut.2).symm
  apart _ leftOut := absurd leftOut.2 closed

/-- What is taken before does not matter, as long as something is taken since. -/
theorem Covers.append (covers : Covers language before expected) (taken : before ≠ [])
    (follows : ∀ name, Follows whole (first ++ before) name ↔ Follows language before name) :
    Covers whole (first ++ before) expected := by
  have leftOut (name : String) : LeftOut (first ++ before) name ↔ LeftOut before name :=
    and_congr_right fun _ => endsInBracket_append taken
  constructor
  · intro name
    rw [follows, leftOut]
    exact covers.exact name
  · intro name isLeftOut
    exact covers.apart name ((leftOut name).mp isLeftOut)

theorem Covers.congr (covers : Covers language before expected)
    (follows : ∀ name, Follows whole before name ↔ Follows language before name) :
    Covers whole before expected where
  exact name := (follows name).trans (covers.exact name)
  apart := covers.apart

end Following

namespace Descent

/-- An error of a descent at its next token, or at the end of the tokens. -/
inductive Reports (place : Descent) (expected : List String) : ParseError → Prop where
  | token {token : Token} {rest : List Token} (split : place.rest = token :: rest) :
      Reports place expected ((place.past [token] rest).unexpected token expected)
  | ends (ended : place.rest = []) :
      Reports place expected
        (.unexpectedEnd (place.diagnosis (Token.endOfInput place.last) expected))

/-- A part of the descent has to stop behind the tokens. Where nothing is taken it expects what it
looks for at its `beginning`, which is up to its caller; inside a word it expects what can follow. -/
structure Stops {α : Type} (language : α → List Token → Prop) (beginning : List String)
    (before rest : List Token) (expected : List String) : Prop where
  incomplete : ∀ {value word more}, language value word → word ++ more ≠ before
  continues : ∃ name, Follows language before name
  refuses : ∀ token ∈ rest.head?, ¬ Follows language before token.name
  atBeginning : before = [] → expected = beginning
  inside : before ≠ [] → Covers language before expected

/-- What the error of a part of the descent tells. -/
inductive Tells {α : Type} (language : α → List Token → Prop) (beginning : List String)
    (descent : Descent) : Except ParseError (α × Descent) → Prop where
  | read {pair : α × Descent} : Tells language beginning descent (.ok pair)
  | stuck {before rest : List Token} {error : ParseError} {expected : List String}
      (split : descent.rest = before ++ rest)
      (reports : (descent.past before rest).Reports expected error)
      (stops : Stops language beginning before rest expected) :
      Tells language beginning descent (.error error)

section Combinations

variable {α β : Type} {language : α → List Token → Prop} {whole : β → List Token → Prop}
  {descent : Descent} {names beginning expected : List String} {before rest : List Token}

/-- A part stops where the whole does, if both go on in the same ways. -/
theorem Stops.congr (stops : Stops language beginning before rest expected)
    (incomplete : ∀ {other word more}, whole other word → word ++ more ≠ before)
    (follows : ∀ name, Follows whole before name ↔ Follows language before name) :
    Stops whole beginning before rest expected where
  incomplete := incomplete
  continues := stops.continues.imp fun name => (follows name).mpr
  refuses token next := fun goesOn => stops.refuses token next ((follows token.name).mp goesOn)
  atBeginning := stops.atBeginning
  inside taken := (stops.inside taken).congr follows

/-- A part that comes behind some tokens of the whole stops where the whole does. -/
theorem Stops.append {first : List Token} {ahead : List String} (some : first ≠ [])
    (stops : Stops language ahead before rest expected)
    (incomplete : ∀ {other word more}, whole other word → word ++ more ≠ first ++ before)
    (follows : ∀ name, Follows whole (first ++ before) name ↔ Follows language before name)
    (opening : Covers whole first ahead) :
    Stops whole beginning (first ++ before) rest expected where
  incomplete := incomplete
  continues := stops.continues.imp fun name => (follows name).mpr
  refuses token next := fun goesOn => stops.refuses token next ((follows token.name).mp goesOn)
  atBeginning none := absurd (List.append_eq_nil_iff.mp none).1 some
  inside _ := by
    by_cases taken : before = []
    · subst taken
      rwa [stops.atBeginning rfl, List.append_nil]
    · exact (stops.inside taken).append taken follows

theorem stops_of_starts (starts : Starts language names)
    (refuses : ∀ token ∈ rest.head?, token.name ∉ names) :
    Stops language expected [] rest expected where
  incomplete := by
    intro value word more member nothing
    obtain ⟨token, others, rfl, _⟩ := starts.first member
    contradiction
  continues := starts.exists_follows
  refuses := by
    intro token next goesOn
    obtain ⟨value, other, tail, named, member⟩ := goesOn
    obtain ⟨head, others, same, listed⟩ := starts.first member
    obtain ⟨rfl, _⟩ := List.cons.inj same
    exact refuses token next (named ▸ listed)
  atBeginning _ := rfl
  inside := absurd rfl

/-- An error where nothing is taken. -/
theorem Tells.refused {error : ParseError} (starts : Starts language names)
    (refuses : ∀ token ∈ descent.rest.head?, token.name ∉ names)
    (reports : descent.Reports expected error) :
    Tells language expected descent (.error error) :=
  .stuck (List.nil_append descent.rest).symm (by rwa [past_nil]) (stops_of_starts starts refuses)

theorem Tells.next {step : Token × Descent → Except ParseError (α × Descent)}
    (starts : Starts language names)
    (each : ∀ {token rest}, descent.rest = token :: rest →
      Tells language expected descent (step (token, descent.past [token] rest))) :
    Tells language expected descent (descent.next expected >>= step) := by
  cases split : descent.rest with
  | nil =>
      have ended : descent.next expected = .error
          (.unexpectedEnd (descent.diagnosis (Token.endOfInput descent.last) expected)) := by
        simp only [Descent.next, split]
      rw [ended]
      refine .refused starts ?_ (.ends split)
      rw [split]
      exact fun token none => absurd none (Option.not_mem_none token)
  | cons token rest =>
      rw [next_of_cons split]
      exact each split

theorem Tells.refusedToken {token : Token} {rest : List Token} (starts : Starts language names)
    (split : descent.rest = token :: rest) (never : token.name ∉ names) :
    Tells language expected descent
      (.error ((descent.past [token] rest).unexpected token expected)) := by
  refine .refused starts ?_ (.token split)
  intro other isHead
  rw [split] at isHead
  rwa [← Option.some.inj isHead]

/-- What is told behind the first token, where the names that can follow it are known. -/
theorem Tells.afterToken {further : α → List Token → Prop} {token : Token} {rest : List Token}
    {result : Except ParseError (α × Descent)} (starts : Starts language names)
    (split : descent.rest = token :: rest)
    (derivative : ∀ {value word}, language value (token :: word) ↔ further value word)
    (opening : Covers language [token] expected)
    (tells : Tells further expected (descent.past [token] rest) result) :
    Tells language beginning descent result := by
  cases tells with
  | read => exact .read
  | @stuck before last error named splitAfter reports stops =>
      change rest = before ++ last at splitAfter
      subst splitAfter
      rw [past_past] at reports
      refine .stuck split reports
        (stops.append (List.cons_ne_nil _ _) ?_ (follows_cons derivative) opening)
      intro value word more member same
      obtain ⟨head, others, rfl, _⟩ := starts.first member
      obtain ⟨rfl, sameAfter⟩ := List.cons.inj same
      exact stops.incomplete (derivative.mp member) sameAfter

theorem Tells.map {result : Except ParseError (α × Descent)}
    (tells : Tells language beginning descent result) (turn : α → β)
    (turned : ∀ {other word}, whole other word ↔
      ∃ value, language value word ∧ other = turn value) :
    Tells whole beginning descent (result >>= fun pair => pure (turn pair.1, pair.2)) := by
  cases tells with
  | read => exact .read
  | stuck split reports stops =>
      refine .stuck split reports (stops.congr ?_ (follows_turned @turned))
      intro other word more inWhole
      obtain ⟨value, inLanguage, rfl⟩ := turned.mp inWhole
      exact stops.incomplete inLanguage

/-- What is told by two parts, one after the other. The first is known to read, and the names that
can follow its words are those that the second looks for. -/
theorem Tells.bind {further : α → β → List Token → Prop} {following : α → List String}
    {result : Except ParseError (α × Descent)}
    {step : α × Descent → Except ParseError (β × Descent)} (starts : Starts language names)
    (reads : Reads language descent result) (tells : Tells language beginning descent result)
    (parts : ∀ {other word}, whole other word ↔ ∃ value first second, language value first ∧
      further value other second ∧ word = first ++ second)
    (closed : ∀ {value word}, language value word → ¬ EndsInBracket word)
    (opening : ∀ value name, Follows (further value) [] name ↔ name ∈ following value)
    (inhabited : ∀ value, ∃ other word, further value other word)
    (next : ∀ {value covered rest}, descent.rest = covered ++ rest → language value covered →
      Tells (further value) (following value) (descent.past covered rest)
        (step (value, descent.past covered rest))) :
    Tells whole beginning descent (result >>= step) := by
  cases tells with
  | read =>
      cases reads with
      | @read value covered rest split member unique =>
          have after := next split member
          have some : covered ≠ [] := by
            obtain ⟨head, others, rfl, _⟩ := starts.first member
            exact List.cons_ne_nil head others
          have behind (before : List Token) (name : String) :
              Follows whole (covered ++ before) name ↔ Follows (further value) before name :=
            follows_second @parts member @unique name
          change Tells whole beginning descent (step (value, descent.past covered rest))
          generalize step (value, descent.past covered rest) = outcome at after ⊢
          cases after with
          | read => exact .read
          | @stuck before last error expected splitAfter reports stops =>
              change rest = before ++ last at splitAfter
              subst splitAfter
              rw [past_past] at reports
              rw [← List.append_assoc] at split
              refine .stuck split reports (stops.append some ?_ (behind before) ?_)
              · intro other word more inWhole same
                obtain ⟨firstValue, first, second, inFirst, inSecond, rfl⟩ := parts.mp inWhole
                rw [List.append_assoc] at same
                obtain ⟨rfl, rfl⟩ := unique inFirst same
                exact stops.incomplete inSecond (List.append_cancel_left same)
              · refine covers_of_follows_iff (closed member) ?_
                intro name
                rw [← opening, ← behind [] name, List.append_nil]
  | @stuck before rest error expected split reports stops =>
      refine .stuck split reports
        (stops.congr ?_ (follows_first @parts stops.incomplete inhabited))
      intro other word more inWhole same
      obtain ⟨value, first, second, inFirst, _, rfl⟩ := parts.mp inWhole
      rw [List.append_assoc] at same
      exact stops.incomplete inFirst same

/-- The closing token at once, or else what the other words tell. -/
theorem Tells.enclosed {close : String} {empty : α} {result : Except ParseError (α × Descent)}
    (tells : Tells language beginning descent result) :
    Tells (fun value word => language value word ∨
        value = empty ∧ ∃ closing, closing.name = close ∧ word = [closing]) beginning descent
      (if descent.nextIs close then
        descent.next [close] >>= fun pair => pure (empty, pair.2) else result) := by
  split
  next isClosing =>
    cases split : descent.rest with
    | nil => simp [nextIs, split] at isClosing
    | cons token rest =>
        rw [next_of_cons split]
        exact .read
  next notClosing =>
    cases tells with
    | read => exact .read
    | @stuck before rest error expected split reports stops =>
      have never : ∀ token ∈ descent.rest.head?, token.name ≠ close := by
        intro token isHead closed
        exact notClosing (by simp [nextIs, Option.mem_def.mp isHead, closed])
      have incomplete {value : α} {word more : List Token} (member : language value word ∨
          value = empty ∧ ∃ closing, closing.name = close ∧ word = [closing]) :
          word ++ more ≠ before := by
        intro same
        rcases member with inLanguage | ⟨_, closing, closed, rfl⟩
        · exact stops.incomplete inLanguage same
        · exact never closing (by rw [split, ← same]; rfl) closed
      by_cases taken : before = []
      · subst taken
        refine .stuck split reports ⟨incomplete, ?_, ?_, stops.atBeginning, absurd rfl⟩
        · exact stops.continues.imp fun name goesOn => follows_enclosed.mpr (.inl goesOn)
        · intro token isHead goesOn
          rcases follows_enclosed.mp goesOn with goesOn | closed
          · exact stops.refuses token isHead goesOn
          · exact never token (by rwa [split]) closed
      · exact .stuck split reports
          (stops.congr incomplete fun name => follows_enclosed_inside taken)

end Combinations

section Beginnings

variable {value : Value} {word : List Token}

theorem follows_spells (name : String) : Follows Spells [] name ↔ name ∈ valueStart := by
  refine starts_spells.follows_iff ?_ name
  intro name listed
  simp only [valueStart, List.mem_cons, List.not_mem_nil, or_false] at listed
  rcases listed with rfl | rfl | rfl | rfl | rfl | rfl | rfl
  · exact ⟨_, sample "number", [], rfl, spells_of_shape (.scalar rfl)⟩
  · exact ⟨_, sample "string", [], rfl, spells_of_shape (.scalar rfl)⟩
  · exact ⟨_, sample "left_brace", [sample "right_brace"], rfl,
      spells_of_shape (.emptyObject rfl rfl)⟩
  · exact ⟨_, sample "left_bracket", [sample "right_bracket"], rfl,
      spells_of_shape (.emptyArray rfl rfl)⟩
  · exact ⟨_, sample "true", [], rfl, spells_of_shape (.scalar rfl)⟩
  · exact ⟨_, sample "false", [], rfl, spells_of_shape (.scalar rfl)⟩
  · exact ⟨_, sample "null", [], rfl, spells_of_shape (.scalar rfl)⟩

theorem follows_afterItem (item : Value) (name : String) :
    Follows (AfterElement "array_items" "right_bracket" item) [] name ↔
      name ∈ ["comma", "right_bracket"] := by
  refine (starts_afterItem item).follows_iff ?_ name
  intro name listed
  obtain ⟨items, word, spells⟩ := starts_items.inhabited
  simp only [List.mem_cons, List.not_mem_nil, or_false] at listed
  rcases listed with rfl | rfl
  · exact ⟨_, sample "comma", word, rfl, .more rfl spells⟩
  · exact ⟨_, sample "right_bracket", [], rfl, .last rfl⟩

theorem follows_items (name : String) : Follows SpellsItems [] name ↔ name ∈ valueStart := by
  refine starts_items.follows_iff ?_ name
  intro name listed
  obtain ⟨item, token, tail, named, spells⟩ := (follows_spells name).mpr listed
  obtain ⟨items, rest, after⟩ := (starts_afterItem item).inhabited
  exact ⟨items, token, tail ++ rest, named,
    spellsItems_iff.mpr ⟨item, token :: tail, rest, spells, after, rfl⟩⟩

theorem follows_afterEntry (entries : List (String × Value)) (name : String) :
    Follows (AfterEntry entries) [] name ↔ name ∈ ["comma", "right_brace"] := by
  refine (starts_afterEntry entries).follows_iff ?_ name
  intro name listed
  obtain ⟨value, word, spells⟩ := (starts_entries entries).inhabited
  simp only [List.mem_cons, List.not_mem_nil, or_false] at listed
  rcases listed with rfl | rfl
  · exact ⟨_, sample "comma", word, rfl, .more rfl spells⟩
  · exact ⟨_, sample "right_brace", [], rfl, .last rfl⟩

theorem starts_afterColon (before : List (String × Value)) (key : String) :
    Starts (AfterColon before key) valueStart where
  inhabited := exists_afterColon before key
  first := by
    intro value word after
    obtain ⟨item, covered, rest, spells, _, rfl⟩ := after
    obtain ⟨token, others, rfl, listed⟩ := starts_spells.first spells
    exact ⟨token, others ++ rest, rfl, listed⟩

theorem follows_afterColon (before : List (String × Value)) (key name : String) :
    Follows (AfterColon before key) [] name ↔ name ∈ valueStart := by
  refine (starts_afterColon before key).follows_iff ?_ name
  intro name listed
  obtain ⟨item, token, tail, named, spells⟩ := (follows_spells name).mpr listed
  obtain ⟨value, rest, after⟩ := (starts_afterEntry (Value.insertEntry key item before)).inhabited
  exact ⟨value, token, tail ++ rest, named, item, token :: tail, rest, spells, after, rfl⟩

theorem starts_afterKey (before : List (String × Value)) (key : String) :
    Starts (AfterKey before key) ["colon"] where
  inhabited := exists_afterKey before key
  first := by
    intro value word after
    obtain ⟨colon, rest, named, _, rfl⟩ := after
    exact ⟨colon, rest, rfl, List.mem_singleton.mpr named⟩

theorem follows_afterKey (before : List (String × Value)) (key name : String) :
    Follows (AfterKey before key) [] name ↔ name ∈ ["colon"] := by
  refine (starts_afterKey before key).follows_iff ?_ name
  intro name listed
  obtain rfl := List.mem_singleton.mp listed
  obtain ⟨value, rest, after⟩ := exists_afterColon before key
  exact ⟨value, sample "colon", rest, rfl, sample "colon", rest, rfl, after, rfl⟩

theorem follows_entries (before : List (String × Value)) (name : String) :
    Follows (SpellsEntries before) [] name ↔ name ∈ ["string"] := by
  refine (starts_entries before).follows_iff ?_ name
  intro name listed
  obtain rfl := List.mem_singleton.mp listed
  obtain ⟨value, rest, after⟩ := exists_afterKey before (Literal.unquote (sample "string").text)
  exact ⟨value, sample "string", rest, rfl,
    spellsEntries_iff.mpr ⟨sample "string", rest, rfl, after, rfl⟩⟩

theorem exists_closing_of_list {list close : String} {elements : List Value}
    (spells : SpellsList list close elements word) :
    ∃ covered closing, word = covered ++ [closing] ∧ closing.name = close := by
  obtain ⟨_, means⟩ := spells
  obtain ⟨_, _, covered, rest, _, last, _, rfl⟩ := Declaration.means_cons_iff.mp means
  obtain ⟨closing, named, _, rfl⟩ := Declaration.means_terminal.mp last
  exact ⟨covered, closing, rfl, named⟩

/-- A document does not end in an opening bracket. -/
theorem not_endsInBracket_of_spells (spells : Spells value word) : ¬ EndsInBracket word := by
  cases shape_of_spells spells with
  | @scalar token _ alone =>
      rw [endsInBracket_single]
      intro named
      simp [scalar?, named] at alone
  | @emptyArray opening closing _ closed =>
      exact not_endsInBracket_append [opening] (by simp [closed])
  | @emptyObject opening closing _ closed =>
      exact not_endsInBracket_append [opening] (by simp [closed])
  | @array opening _ _ _ inner =>
      obtain ⟨covered, closing, rfl, named⟩ := exists_closing_of_list inner
      exact not_endsInBracket_append (opening :: covered) (by simp [named])
  | @object opening _ _ _ inner =>
      obtain ⟨pairs, listed, _⟩ := inner
      obtain ⟨covered, closing, rfl, named⟩ := exists_closing_of_list listed
      exact not_endsInBracket_append (opening :: covered) (by simp [named])

end Beginnings

section Parts

/-- The names that an object looks for where a key may stand. -/
def keyNames (descent : Descent) : List String :=
  if descent.last.any (·.name == "left_brace") then ["string", "right_brace"] else ["string"]

theorem keyNames_past {descent : Descent} {token : Token} {rest : List Token} :
    (descent.past [token] rest).keyNames =
      if token.name = "left_brace" then ["string", "right_brace"] else ["string"] := by
  simp [keyNames, past]

variable {bound : Nat} {descent : Descent}

theorem tells_named {name : String} {α : Type} (keep : Token → α) (expected : List String)
    (known : (sample name).name = name) :
    Tells (Named name keep) expected descent
      (descent.next expected >>= fun pair => if pair.1.name = name then pure (keep pair.1, pair.2)
        else throw (pair.2.unexpected pair.1 expected)) := by
  refine .next (starts_named keep known) ?_
  intro token rest parts
  dsimp only
  split
  next => exact .read
  next other => exact .refusedToken (starts_named keep known) parts (by simpa using other)

theorem not_endsInBracket_of_named {name : String} {α : Type} {keep : Token → α} {value : α}
    {word : List Token} (member : Named name keep value word) (different : name ≠ "left_bracket") :
    ¬ EndsInBracket word := by
  obtain ⟨token, rfl, _, rfl⟩ := member
  rwa [endsInBracket_single]

theorem tells_items (reads : Reads Spells descent (Descent.value bound descent))
    (value : Tells Spells valueStart descent (Descent.value bound descent))
    (further : ∀ {later : Descent}, later.rest.length < descent.rest.length →
      Tells SpellsItems valueStart later (items bound later)) :
    Tells SpellsItems valueStart descent (items (bound + 1) descent) := by
  rw [items]
  refine value.bind starts_spells reads spellsItems_iff not_endsInBracket_of_spells
    follows_afterItem (fun item => (starts_afterItem item).inhabited) ?_
  intro item covered rest parts _
  refine .next (starts_afterItem item) ?_
  intro token others afterParts
  have shorter : ((descent.past covered rest).past [token] others).rest.length <
      descent.rest.length := length_past_past parts afterParts
  dsimp only
  split
  next _ isComma =>
    refine .afterToken (starts_afterItem item) afterParts
      (afterElement_comma isComma (by decide)) ?_ ((further shorter).map (item :: ·) Iff.rfl)
    refine covers_of_follows_iff (by simp [endsInBracket_single, isComma]) ?_
    intro name
    rw [follows_cons (afterElement_comma isComma (by decide)), follows_turned Iff.rfl]
    exact follows_items name
  next => exact .read
  next _ notComma notBracket =>
    exact .refusedToken (starts_afterItem item) afterParts (by simpa using ⟨notComma, notBracket⟩)

theorem tells_afterEntry {entries : List (String × Value)}
    (further : ∀ {later : Descent}, later.rest.length < descent.rest.length →
      Tells (SpellsEntries entries) (keyNames later) later (Descent.entries bound entries later)) :
    Tells (AfterEntry entries) ["comma", "right_brace"] descent
      (descent.next ["comma", "right_brace"] >>= fun pair =>
        match pair.1.name with
        | "comma" => Descent.entries bound entries pair.2
        | "right_brace" => pure (.map entries, pair.2)
        | _ => throw (pair.2.unexpected pair.1 ["comma", "right_brace"])) := by
  refine .next (starts_afterEntry entries) ?_
  intro token rest parts
  have shorter : (descent.past [token] rest).rest.length < descent.rest.length := by
    rw [parts]
    exact Nat.lt_succ_self _
  dsimp only
  split
  next _ isComma =>
    refine .afterToken (starts_afterEntry entries) parts (afterEntry_comma isComma) ?_
      (further shorter)
    refine covers_of_follows_iff (by simp [endsInBracket_single, isComma]) ?_
    intro name
    rw [follows_cons (afterEntry_comma isComma), keyNames_past, if_neg (by simp [isComma])]
    exact follows_entries entries name
  next => exact .read
  next _ notComma notBrace =>
    exact .refusedToken (starts_afterEntry entries) parts (by simpa using ⟨notComma, notBrace⟩)

theorem tells_entries {before : List (String × Value)}
    (reads : ∀ {later : Descent}, later.rest.length < descent.rest.length →
      Reads Spells later (Descent.value bound later))
    (value : ∀ {later : Descent}, later.rest.length < descent.rest.length →
      Tells Spells valueStart later (Descent.value bound later))
    (further : ∀ {later : Descent} {entries : List (String × Value)},
      later.rest.length < descent.rest.length →
      Tells (SpellsEntries entries) (keyNames later) later (Descent.entries bound entries later)) :
    Tells (SpellsEntries before) descent.keyNames descent
      (Descent.entries (bound + 1) before descent) := by
  rw [Descent.entries]
  have key : Tells (Named "string" fun token => Literal.unquote token.text) descent.keyNames
      descent descent.key :=
    tells_named (fun token => Literal.unquote token.text) _ rfl
  refine key.bind (starts_named _ rfl) (reads_named (fun token => Literal.unquote token.text) _ rfl)
    spellsEntries_iff_key (fun member => not_endsInBracket_of_named member (by decide))
    (follows_afterKey before) (exists_afterKey before) ?_
  intro key _ afterKey keyParts keyTaken
  obtain ⟨keyToken, _, _, rfl⟩ := keyTaken
  have colon : Tells (Named "colon" fun token => token) ["colon"]
      (descent.past [keyToken] afterKey) ((descent.past [keyToken] afterKey).expect "colon") :=
    tells_named (fun token => token) _ rfl
  refine colon.bind (starts_named _ rfl) (reads_named (fun token => token) _ rfl)
    afterKey_iff_colon (fun member => not_endsInBracket_of_named member (by decide))
    (fun _ => follows_afterColon before key) (fun _ => exists_afterColon before key) ?_
  intro _ _ afterColon colonParts colonTaken
  obtain ⟨colonToken, _, _, rfl⟩ := colonTaken
  change afterKey = colonToken :: afterColon at colonParts
  have twoTaken : afterColon.length + 2 = descent.rest.length := by
    rw [keyParts, colonParts]
    rfl
  have shorter : ((descent.past [keyToken] afterKey).past [colonToken] afterColon).rest.length <
      descent.rest.length := by
    change afterColon.length < descent.rest.length
    omega
  refine (value shorter).bind starts_spells (reads shorter) Iff.rfl not_endsInBracket_of_spells
    (fun item => follows_afterEntry _) (fun item => (starts_afterEntry _).inhabited) ?_
  intro item itemTokens afterItem itemParts _
  change afterColon = itemTokens ++ afterItem at itemParts
  refine tells_afterEntry ?_
  intro later laterShorter
  apply further
  change later.rest.length < afterItem.length at laterShorter
  have lengths := congrArg List.length itemParts
  rw [List.length_append] at lengths
  omega

theorem tells_value_step
    (items : ∀ {later : Descent}, later.rest.length < descent.rest.length →
      Tells SpellsItems valueStart later (Descent.items bound later))
    (entries : ∀ {later : Descent}, later.rest.length < descent.rest.length →
      Tells (SpellsEntries []) (keyNames later) later (Descent.entries bound [] later)) :
    Tells Spells valueStart descent (value (bound + 1) descent) := by
  rw [value]
  refine .next starts_spells ?_
  intro token rest parts
  have shorter : (descent.past [token] rest).rest.length < descent.rest.length := by
    rw [parts]
    exact Nat.lt_succ_self _
  dsimp only
  split
  next => exact .read
  next => exact .read
  next => exact .read
  next => exact .read
  next => exact .read
  next _ isBracket =>
    refine .afterToken starts_spells parts (spells_bracket isBracket) ⟨?_, ?_⟩
      (.enclosed ((items shorter).map Value.array Iff.rfl))
    · intro name
      rw [follows_cons (spells_bracket isBracket), follows_enclosed, follows_turned Iff.rfl,
        follows_items, LeftOut, endsInBracket_single, and_iff_left isBracket]
    · intro name leftOut
      rw [leftOut.1]
      decide
  next _ isBrace =>
    refine .afterToken starts_spells parts (spells_brace isBrace) ?_ (.enclosed (entries shorter))
    refine covers_of_follows_iff (by simp [endsInBracket_single, isBrace]) ?_
    intro name
    rw [follows_cons (spells_brace isBrace), follows_enclosed, keyNames_past, if_pos isBrace,
      follows_entries]
    simp
  next _ notNumber notString notTrue notFalse notNull notBracket notBrace =>
    have never : token.name ∉ valueStart := by
      simpa [valueStart] using
        ⟨notNumber, notString, notBrace, notBracket, notTrue, notFalse, notNull⟩
    exact .refusedToken starts_spells parts never

/-- Within its bound the descent tells of values, items and entries. -/
theorem tells_within (bound : Nat) :
    (∀ {descent : Descent}, 2 * descent.rest.length + 1 ≤ bound →
        Tells Spells valueStart descent (value bound descent)) ∧
      (∀ {descent : Descent}, 2 * descent.rest.length + 2 ≤ bound →
        Tells SpellsItems valueStart descent (items bound descent)) ∧
      ∀ {descent : Descent} {before : List (String × Value)},
        2 * descent.rest.length + 2 ≤ bound →
        Tells (SpellsEntries before) descent.keyNames descent (entries bound before descent) := by
  induction bound with
  | zero =>
      refine ⟨?_, ?_, ?_⟩
      · intro descent enough
        omega
      · intro descent enough
        omega
      · intro descent before enough
        omega
  | succ bound inductionHypothesis =>
      obtain ⟨valueHypothesis, itemsHypothesis, entriesHypothesis⟩ := inductionHypothesis
      obtain ⟨reads, _, _⟩ := reads_within bound
      refine ⟨?_, ?_, ?_⟩
      · intro descent enough
        exact tells_value_step (fun shorter => itemsHypothesis (by omega))
          (fun shorter => entriesHypothesis (by omega))
      · intro descent enough
        exact tells_items (reads (by omega)) (valueHypothesis (by omega))
          (fun shorter => itemsHypothesis (by omega))
      · intro descent before enough
        exact tells_entries (fun shorter => reads (by omega))
          (fun shorter => valueHypothesis (by omega)) (fun shorter => entriesHypothesis (by omega))

end Parts

end Descent

end EarleyChart.Document
