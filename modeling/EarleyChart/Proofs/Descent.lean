import EarleyChart.Document.Descent
import EarleyChart.Proofs.DocumentValues

/-!
Contract: the recursive descent reads what tokens spell.

`Descent.Reads` tells what a part of the descent makes of the tokens before it, for any language of
values. Either it has taken a word and no other word fits the tokens, or it stopped where words begin
with what it has taken but none goes on with what comes next. The lemmas put readings together in
the way in which the descent calls its parts, and `Descent.reads_value` is the whole of it.
-/

namespace EarleyChart.Document

/-- The words of a language are not empty, and each begins with one of the given tokens. -/
structure Starts {α : Type} (language : α → List Token → Prop) (names : List String) : Prop where
  inhabited : ∃ value word, language value word
  first : ∀ {value word}, language value word →
    ∃ token rest, word = token :: rest ∧ token.name ∈ names

theorem Starts.map {α β : Type} {language : α → List Token → Prop} {names : List String}
    (starts : Starts language names) (turn : α → β) :
    Starts (fun other word => ∃ value, language value word ∧ other = turn value) names where
  inhabited := by
    obtain ⟨value, word, member⟩ := starts.inhabited
    exact ⟨turn value, word, value, member, rfl⟩
  first := by
    intro other word member
    obtain ⟨value, inLanguage, _⟩ := member
    exact starts.first inLanguage

namespace Descent

/-- A descent after it has taken some of its tokens. -/
def past (descent : Descent) (covered rest : List Token) : Descent :=
  ⟨rest, descent.consumed + covered.length, covered.getLast?.or descent.last⟩

/-- An error that names what a descent has before it: a token or the end. -/
inductive Names (descent : Descent) : ParseError → Prop where
  | token {diagnosis : Diagnosis} (isNext : descent.rest.head? = some diagnosis.token) :
      Names descent (.unexpectedToken diagnosis)
  | ending {diagnosis : Diagnosis} (atEnd : descent.rest = [])
      (sentinel : diagnosis.token = Token.endOfInput descent.last) :
      Names descent (.unexpectedEnd diagnosis)

/-- What a reading of a language from a descent can result in. -/
inductive Reads {α : Type} (language : α → List Token → Prop) (descent : Descent) :
    Except ParseError (α × Descent) → Prop where
  | read {value : α} {covered rest : List Token} (split : descent.rest = covered ++ rest)
      (member : language value covered)
      (unique : ∀ {other word tail more}, language other word → word ++ more = covered ++ tail →
        other = value ∧ word = covered) :
      Reads language descent (.ok (value, descent.past covered rest))
  | stuck {before rest : List Token} {error : ParseError} (split : descent.rest = before ++ rest)
      (completes : ∃ value tail, language value (before ++ tail))
      (blocked : ∀ {value word tail more}, language value word → tail.head? = rest.head? →
        word ++ more ≠ before ++ tail)
      (names : (descent.past before rest).Names error) :
      Reads language descent (.error error)

theorem past_nil (descent : Descent) : descent.past [] descent.rest = descent := by
  simp [past]

theorem past_past (descent : Descent) (first second rest : List Token) :
    (descent.past first (second ++ rest)).past second rest = descent.past (first ++ second) rest := by
  simp [past, Nat.add_assoc, List.getLast?_append, Option.or_assoc]

theorem next_of_cons {descent : Descent} {token : Token} {rest : List Token}
    (split : descent.rest = token :: rest) (expected : List String) :
    descent.next expected = .ok (token, descent.past [token] rest) := by
  simp only [next, split]
  rfl

theorem length_past_past {descent : Descent} {first rest others : List Token} {token : Token}
    (split : descent.rest = first ++ rest)
    (afterSplit : (descent.past first rest).rest = token :: others) :
    ((descent.past first rest).past [token] others).rest.length < descent.rest.length := by
  change rest = token :: others at afterSplit
  change others.length < descent.rest.length
  rw [split, afterSplit, List.length_append, List.length_cons]
  omega

section Combinations

variable {α β : Type} {language : α → List Token → Prop} {whole : β → List Token → Prop}
  {descent : Descent} {names : List String}

/-- A reading that takes nothing. -/
theorem Reads.nothing {value : α} (only : ∀ {other word}, language other word ↔
    other = value ∧ word = []) : Reads language descent (.ok (value, descent)) := by
  have reads : Reads language descent (.ok (value, descent.past [] descent.rest)) := by
    refine .read rfl (only.mpr ⟨rfl, rfl⟩) ?_
    intro other word tail more member _
    exact only.mp member
  rwa [past_nil] at reads

/-- A reading that cannot begin. -/
theorem Reads.refused {error : ParseError} (starts : Starts language names)
    (never : ∀ {token rest}, descent.rest = token :: rest → token.name ∉ names)
    (named : descent.Names error) : Reads language descent (.error error) := by
  have nothingTaken : descent.rest = [] ++ descent.rest := rfl
  refine .stuck nothingTaken starts.inhabited ?_ ?_
  · intro value word tail more member sameHead same
    obtain ⟨token, rest, rfl, listed⟩ := starts.first member
    rw [List.nil_append] at same
    subst same
    have begins : descent.rest.head? = some token := sameHead.symm
    obtain ⟨others, split⟩ := List.head?_eq_some_iff.mp begins
    exact never split listed
  · rwa [past_nil]

/-- The end of the tokens, or a step for the next one. -/
theorem Reads.next {step : Token × Descent → Except ParseError (α × Descent)}
    (starts : Starts language names) {expected : List String}
    (each : ∀ {token rest}, descent.rest = token :: rest →
      Reads language descent (step (token, descent.past [token] rest))) :
    Reads language descent (descent.next expected >>= step) := by
  cases split : descent.rest with
  | nil =>
      have ended : descent.next expected = .error
          (.unexpectedEnd (descent.diagnosis (Token.endOfInput descent.last) expected)) := by
        simp only [Descent.next, split]
      rw [ended]
      refine .refused starts ?_ (.ending split rfl)
      intro token rest other
      rw [split] at other
      contradiction
  | cons token rest =>
      rw [next_of_cons split]
      exact each split

/-- A token that no word begins with. -/
theorem Reads.refusedToken {token : Token} {rest : List Token} (starts : Starts language names)
    (split : descent.rest = token :: rest) (never : token.name ∉ names) (place : Descent)
    (expected : List String) :
    Reads language descent (.error (place.unexpected token expected)) := by
  refine .refused starts ?_ ?_
  · intro other others otherSplit
    rw [split] at otherSplit
    obtain ⟨rfl, _⟩ := List.cons.inj otherSplit
    exact never
  · have isNext : descent.rest.head? = some token := by
      rw [split]
      rfl
    exact .token isNext

/-- A reading of what the words have after their first token. -/
theorem Reads.afterToken {further : α → List Token → Prop} {token : Token} {rest : List Token}
    {result : Except ParseError (α × Descent)} (starts : Starts language names)
    (split : descent.rest = token :: rest)
    (derivative : ∀ {value word}, language value (token :: word) ↔ further value word)
    (reads : Reads further (descent.past [token] rest) result) : Reads language descent result := by
  cases reads with
  | @read value covered last splitAfter member unique =>
      change rest = covered ++ last at splitAfter
      subst splitAfter
      rw [past_past]
      refine .read split (derivative.mpr member) ?_
      intro other word tail more inLanguage same
      obtain ⟨head, others, rfl, _⟩ := starts.first inLanguage
      obtain ⟨rfl, sameAfter⟩ := List.cons.inj same
      obtain ⟨rfl, rfl⟩ := unique (derivative.mp inLanguage) sameAfter
      exact ⟨rfl, rfl⟩
  | @stuck before last error splitAfter completes blocked named =>
      change rest = before ++ last at splitAfter
      subst splitAfter
      rw [past_past] at named
      refine .stuck split ?_ ?_ named
      · obtain ⟨value, tail, member⟩ := completes
        exact ⟨value, tail, derivative.mpr member⟩
      · intro value word tail more inLanguage sameHead same
        obtain ⟨head, others, rfl, _⟩ := starts.first inLanguage
        obtain ⟨rfl, sameAfter⟩ := List.cons.inj same
        exact blocked (derivative.mp inLanguage) sameHead sameAfter

/-- A token that is a word of its own. -/
theorem Reads.lastToken {token : Token} {rest : List Token} {value : α}
    (starts : Starts language names) (split : descent.rest = token :: rest)
    (only : ∀ {other word}, language other (token :: word) ↔ other = value ∧ word = []) :
    Reads language descent (.ok (value, descent.past [token] rest)) :=
  .afterToken starts split only (.nothing Iff.rfl)

/-- A reading of those words alone that the next token leaves possible. -/
theorem Reads.select {possible : α → List Token → Prop} {result : Except ParseError (α × Descent)}
    (starts : Starts possible names) (includes : ∀ {value word}, possible value word →
      language value word)
    (excludes : ∀ {value word}, language value word → possible value word ∨
      ∃ token rest, word = token :: rest ∧ descent.rest.head? ≠ some token)
    (reads : Reads possible descent result) : Reads language descent result := by
  cases reads with
  | @read value covered rest split member unique =>
      refine .read split (includes member) ?_
      intro other word tail more inLanguage same
      rcases excludes inLanguage with inPossible | ⟨token, others, rfl, different⟩
      · exact unique inPossible same
      · obtain ⟨first, _, rfl, _⟩ := starts.first member
        obtain ⟨rfl, _⟩ := List.cons.inj same
        rw [split] at different
        exact absurd rfl different
  | @stuck before rest error split completes blocked named =>
      refine .stuck split ?_ ?_ named
      · obtain ⟨value, tail, member⟩ := completes
        exact ⟨value, tail, includes member⟩
      · intro value word tail more inLanguage sameHead same
        rcases excludes inLanguage with inPossible | ⟨token, others, rfl, different⟩
        · exact blocked inPossible sameHead same
        · apply different
          calc descent.rest.head?
              _ = (before ++ rest).head? := by rw [split]
              _ = (before ++ tail).head? := by rw [List.head?_append, List.head?_append, sameHead]
              _ = some token := by
                rw [← same]
                rfl

/-- A reading whose value is turned into another. -/
theorem Reads.map {result : Except ParseError (α × Descent)} (reads : Reads language descent result)
    (turn : α → β)
    (turned : ∀ {other word}, whole other word ↔ ∃ value, language value word ∧ other = turn value) :
    Reads whole descent (result >>= fun pair => pure (turn pair.1, pair.2)) := by
  cases reads with
  | read split member unique =>
      refine .read split (turned.mpr ⟨_, member, rfl⟩) ?_
      intro other word tail more inWhole same
      obtain ⟨value, inLanguage, rfl⟩ := turned.mp inWhole
      obtain ⟨rfl, rfl⟩ := unique inLanguage same
      exact ⟨rfl, rfl⟩
  | stuck split completes blocked named =>
      refine .stuck split ?_ ?_ named
      · obtain ⟨value, tail, member⟩ := completes
        exact ⟨turn value, tail, turned.mpr ⟨value, member, rfl⟩⟩
      · intro other word tail more inWhole sameHead same
        obtain ⟨value, inLanguage, rfl⟩ := turned.mp inWhole
        exact blocked inLanguage sameHead same

/-- Two readings, one after the other. -/
theorem Reads.bind {further : α → β → List Token → Prop} {result : Except ParseError (α × Descent)}
    {step : α × Descent → Except ParseError (β × Descent)} (reads : Reads language descent result)
    (parts : ∀ {other word}, whole other word ↔ ∃ value first second, language value first ∧
      further value other second ∧ word = first ++ second)
    (inhabited : ∀ value, ∃ other word, further value other word)
    (next : ∀ {value covered rest}, descent.rest = covered ++ rest → language value covered →
      Reads (further value) (descent.past covered rest) (step (value, descent.past covered rest))) :
    Reads whole descent (result >>= step) := by
  cases reads with
  | @read value covered rest split member unique =>
      have after := next split member
      change Reads whole descent (step (value, descent.past covered rest))
      generalize step (value, descent.past covered rest) = outcome at after ⊢
      cases after with
      | @read other second last splitAfter memberAfter uniqueAfter =>
          change rest = second ++ last at splitAfter
          subst splitAfter
          rw [past_past]
          refine .read (by rw [split, List.append_assoc])
            (parts.mpr ⟨value, covered, second, member, memberAfter, rfl⟩) ?_
          intro third word tail more inWhole same
          obtain ⟨firstValue, first, secondWord, inFirst, inSecond, rfl⟩ := parts.mp inWhole
          rw [List.append_assoc, List.append_assoc] at same
          obtain ⟨rfl, rfl⟩ := unique inFirst same
          obtain ⟨rfl, rfl⟩ := uniqueAfter inSecond (List.append_cancel_left same)
          exact ⟨rfl, rfl⟩
      | @stuck before last error splitAfter completes blocked named =>
          change rest = before ++ last at splitAfter
          subst splitAfter
          rw [past_past] at named
          refine .stuck (by rw [split, List.append_assoc]) ?_ ?_ named
          · obtain ⟨other, tail, memberAfter⟩ := completes
            refine ⟨other, tail, parts.mpr ⟨value, covered, before ++ tail, member, memberAfter, ?_⟩⟩
            rw [List.append_assoc]
          · intro other word tail more inWhole sameHead same
            obtain ⟨firstValue, first, secondWord, inFirst, inSecond, rfl⟩ := parts.mp inWhole
            rw [List.append_assoc, List.append_assoc] at same
            obtain ⟨rfl, rfl⟩ := unique inFirst same
            exact blocked inSecond sameHead (List.append_cancel_left same)
  | @stuck before rest error split completes blocked named =>
      refine .stuck split ?_ ?_ named
      · obtain ⟨value, tail, member⟩ := completes
        obtain ⟨other, word, memberAfter⟩ := inhabited value
        refine ⟨other, tail ++ word, parts.mpr ⟨value, before ++ tail, word, member, memberAfter, ?_⟩⟩
        rw [List.append_assoc]
      · intro other word tail more inWhole sameHead same
        obtain ⟨value, first, second, inFirst, _, rfl⟩ := parts.mp inWhole
        rw [List.append_assoc] at same
        exact blocked inFirst sameHead same

/-- What stands between an opening and a closing token, which may be nothing. -/
theorem Reads.enclosed {close : String} {empty : α} {result : Except ParseError (α × Descent)}
    (starts : Starts language names) (notClose : close ∉ names)
    (reads : Reads language descent result) :
    Reads (fun value word => language value word ∨
        value = empty ∧ ∃ closing, closing.name = close ∧ word = [closing]) descent
      (if descent.nextIs close then
        descent.next [close] >>= fun pair => pure (empty, pair.2) else result) := by
  have startsBoth : Starts (fun value word => language value word ∨
      value = empty ∧ ∃ closing, closing.name = close ∧ word = [closing]) (close :: names) := by
    constructor
    · obtain ⟨value, word, member⟩ := starts.inhabited
      exact ⟨value, word, .inl member⟩
    · intro value word member
      rcases member with inLanguage | ⟨_, closing, closed, rfl⟩
      · obtain ⟨token, rest, rfl, listed⟩ := starts.first inLanguage
        exact ⟨token, rest, rfl, List.mem_cons_of_mem _ listed⟩
      · exact ⟨closing, [], rfl, closed ▸ List.mem_cons_self⟩
  split
  next isClosing =>
    refine .next startsBoth ?_
    intro token rest parts
    have closed : token.name = close := by simpa [nextIs, parts] using isClosing
    refine .lastToken startsBoth parts ?_
    intro value word
    constructor
    · intro member
      rcases member with inLanguage | ⟨isEmpty, closing, _, same⟩
      · obtain ⟨head, others, same, listed⟩ := starts.first inLanguage
        obtain ⟨rfl, _⟩ := List.cons.inj same
        rw [closed] at listed
        exact absurd listed notClose
      · exact ⟨isEmpty, (List.cons.inj same).2⟩
    · intro nothing
      obtain ⟨isEmpty, rfl⟩ := nothing
      exact .inr ⟨isEmpty, token, closed, rfl⟩
  next notClosing =>
    refine .select starts .inl ?_ reads
    intro value word member
    rcases member with inLanguage | ⟨_, closing, closed, rfl⟩
    · exact .inl inLanguage
    · refine .inr ⟨closing, [], rfl, ?_⟩
      intro begins
      exact notClosing (by simp [nextIs, begins, closed])

end Combinations

section Beginnings

/-- A token that a grammar knows by the given name. -/
def sample (name : String) : Token :=
  ⟨name, "", 1, 1, 0⟩

theorem mem_valueStart_of_scalar? {token : Token} {value : Value}
    (alone : scalar? token = some value) : token.name ∈ valueStart := by
  unfold scalar? at alone
  split at alone
  next named => simp [named, valueStart]
  next named => simp [named, valueStart]
  next named => simp [named, valueStart]
  next named => simp [named, valueStart]
  next named => simp [named, valueStart]
  next => cases alone

theorem starts_spells : Starts Spells valueStart where
  inhabited := ⟨.nil, [sample "null"], spells_of_shape (.scalar rfl)⟩
  first := by
    intro value word spells
    cases shape_of_spells spells with
    | scalar alone => exact ⟨_, _, rfl, mem_valueStart_of_scalar? alone⟩
    | emptyArray named _ => exact ⟨_, _, rfl, by simp [named, valueStart]⟩
    | array named _ => exact ⟨_, _, rfl, by simp [named, valueStart]⟩
    | emptyObject named _ => exact ⟨_, _, rfl, by simp [named, valueStart]⟩
    | object named _ => exact ⟨_, _, rfl, by simp [named, valueStart]⟩

theorem starts_afterItem (item : Value) :
    Starts (AfterElement "array_items" "right_bracket" item) ["comma", "right_bracket"] where
  inhabited := ⟨[item], [sample "right_bracket"], .last rfl⟩
  first := by
    intro items word after
    cases after with
    | more named _ => exact ⟨_, _, rfl, by simp [named]⟩
    | last named => exact ⟨_, _, rfl, by simp [named]⟩

theorem starts_items : Starts SpellsItems valueStart where
  inhabited := by
    obtain ⟨item, covered, spells⟩ := starts_spells.inhabited
    obtain ⟨items, rest, after⟩ := (starts_afterItem item).inhabited
    exact ⟨items, covered ++ rest, spellsItems_iff.mpr ⟨item, covered, rest, spells, after, rfl⟩⟩
  first := by
    intro items word spells
    obtain ⟨item, covered, rest, spellsItem, _, rfl⟩ := spellsItems_iff.mp spells
    obtain ⟨token, others, rfl, listed⟩ := starts_spells.first spellsItem
    exact ⟨token, others ++ rest, rfl, listed⟩

theorem starts_afterEntry (entries : List (String × Value)) :
    Starts (AfterEntry entries) ["comma", "right_brace"] where
  inhabited := ⟨.map entries, [sample "right_brace"], .last rfl⟩
  first := by
    intro value word after
    cases after with
    | more named _ => exact ⟨_, _, rfl, by simp [named]⟩
    | last named => exact ⟨_, _, rfl, by simp [named]⟩

theorem exists_afterColon (before : List (String × Value)) (key : String) :
    ∃ value word, AfterColon before key value word := by
  obtain ⟨item, covered, spells⟩ := starts_spells.inhabited
  obtain ⟨value, rest, after⟩ := (starts_afterEntry (Value.insertEntry key item before)).inhabited
  exact ⟨value, covered ++ rest, item, covered, rest, spells, after, rfl⟩

theorem exists_afterKey (before : List (String × Value)) (key : String) :
    ∃ value word, AfterKey before key value word := by
  obtain ⟨value, rest, after⟩ := exists_afterColon before key
  exact ⟨value, sample "colon" :: rest, sample "colon", rest, rfl, after, rfl⟩

theorem starts_entries (before : List (String × Value)) :
    Starts (SpellsEntries before) ["string"] where
  inhabited := by
    obtain ⟨value, rest, after⟩ :=
      exists_afterKey before (Literal.unquote (sample "string").text)
    exact ⟨value, _, spellsEntries_iff.mpr ⟨sample "string", rest, rfl, after, rfl⟩⟩
  first := by
    intro value word spells
    obtain ⟨key, rest, named, _, rfl⟩ := spellsEntries_iff.mp spells
    exact ⟨key, rest, rfl, by simp [named]⟩

end Beginnings

section Parts

variable {bound : Nat} {descent : Descent}

/-- A token with a name, in place of which its value is kept. -/
def Named {α : Type} (name : String) (keep : Token → α) (value : α) (word : List Token) : Prop :=
  ∃ token, token.name = name ∧ value = keep token ∧ word = [token]

theorem starts_named {name : String} {α : Type} (keep : Token → α)
    (known : (sample name).name = name) : Starts (Named name keep) [name] where
  inhabited := ⟨keep (sample name), [sample name], sample name, known, rfl, rfl⟩
  first := by
    intro value word member
    obtain ⟨token, named, _, rfl⟩ := member
    exact ⟨token, [], rfl, List.mem_singleton.mpr named⟩

theorem reads_named {name : String} {α : Type} (keep : Token → α) (expected : List String)
    (known : (sample name).name = name) :
    Reads (Named name keep) descent
      (descent.next expected >>= fun pair => if pair.1.name = name then pure (keep pair.1, pair.2)
        else throw (pair.2.unexpected pair.1 expected)) := by
  have starts := starts_named keep known
  refine .next starts ?_
  intro token rest parts
  dsimp only
  split
  next named =>
    refine .lastToken starts parts ?_
    intro value word
    constructor
    · intro member
      obtain ⟨other, _, rfl, same⟩ := member
      obtain ⟨rfl, rfl⟩ := List.cons.inj same
      exact ⟨rfl, rfl⟩
    · intro taken
      obtain ⟨rfl, rfl⟩ := taken
      exact ⟨token, named, rfl, rfl⟩
  next other => exact .refusedToken starts parts (by simpa using other) _ _

/-- The items of an array: an item, then the end of the array or a comma and further items. -/
theorem reads_items (value : Reads Spells descent (Descent.value bound descent))
    (further : ∀ {later : Descent}, later.rest.length < descent.rest.length →
      Reads SpellsItems later (items bound later)) :
    Reads SpellsItems descent (items (bound + 1) descent) := by
  rw [items]
  refine value.bind spellsItems_iff (fun item => (starts_afterItem item).inhabited) ?_
  intro item covered rest parts _
  refine .next (starts_afterItem item) ?_
  intro token others afterParts
  have shorter : ((descent.past covered rest).past [token] others).rest.length <
      descent.rest.length := length_past_past parts afterParts
  dsimp only
  split
  next _ isComma =>
    exact .afterToken (starts_afterItem item) afterParts (afterElement_comma isComma (by decide))
      ((further shorter).map (item :: ·) Iff.rfl)
  next _ isBracket =>
    exact .lastToken (starts_afterItem item) afterParts (afterElement_close isBracket (by decide))
  next _ notComma notBracket =>
    exact .refusedToken (starts_afterItem item) afterParts (by simpa using ⟨notComma, notBracket⟩) _ _

/-- The end of an object or, after a comma, its further entries. -/
theorem reads_afterEntry {entries : List (String × Value)}
    (further : ∀ {later : Descent}, later.rest.length < descent.rest.length →
      Reads (SpellsEntries entries) later (Descent.entries bound entries later)) :
    Reads (AfterEntry entries) descent
      (descent.next ["comma", "right_brace"] >>= fun pair =>
        match pair.1.name with
        | "comma" => Descent.entries bound entries pair.2
        | "right_brace" => pure (.map entries, pair.2)
        | _ => throw (pair.2.unexpected pair.1 ["comma", "right_brace"])) := by
  refine .next (starts_afterEntry entries) ?_
  intro token rest parts
  have shorter : (descent.past [token] rest).rest.length < descent.rest.length := by
    rw [parts]
    exact Nat.lt_succ_self _
  dsimp only
  split
  next _ isComma =>
    exact .afterToken (starts_afterEntry entries) parts (afterEntry_comma isComma) (further shorter)
  next _ isBrace =>
    exact .lastToken (starts_afterEntry entries) parts (afterEntry_close isBrace)
  next _ notComma notBrace =>
    exact .refusedToken (starts_afterEntry entries) parts (by simpa using ⟨notComma, notBrace⟩) _ _

/-- Entries are a key and what comes after it. -/
theorem spellsEntries_iff_key {before : List (String × Value)} {other : Value} {word : List Token} :
    SpellsEntries before other word ↔ ∃ key first second,
      Named "string" (fun token => Literal.unquote token.text) key first ∧
        AfterKey before key other second ∧ word = first ++ second := by
  rw [spellsEntries_iff]
  constructor
  · intro parts
    obtain ⟨token, rest, named, after, rfl⟩ := parts
    exact ⟨_, [token], rest, ⟨token, named, rfl, rfl⟩, after, rfl⟩
  · intro parts
    obtain ⟨_, _, rest, ⟨token, named, rfl, rfl⟩, after, rfl⟩ := parts
    exact ⟨token, rest, named, after, rfl⟩

theorem afterKey_iff_colon {before : List (String × Value)} {key : String} {other : Value}
    {word : List Token} :
    AfterKey before key other word ↔ ∃ colon first second,
      Named "colon" (fun token => token) colon first ∧ AfterColon before key other second ∧
        word = first ++ second := by
  constructor
  · intro parts
    obtain ⟨token, rest, named, after, rfl⟩ := parts
    exact ⟨token, [token], rest, ⟨token, named, rfl, rfl⟩, after, rfl⟩
  · intro parts
    obtain ⟨token, _, rest, ⟨_, named, rfl, rfl⟩, after, rfl⟩ := parts
    exact ⟨_, rest, named, after, rfl⟩

/-- The entries of an object: a key, a colon and a value, and what comes after them. -/
theorem reads_entries {before : List (String × Value)}
    (value : ∀ {later : Descent}, later.rest.length < descent.rest.length →
      Reads Spells later (Descent.value bound later))
    (further : ∀ {later : Descent} {entries : List (String × Value)},
      later.rest.length < descent.rest.length →
      Reads (SpellsEntries entries) later (Descent.entries bound entries later)) :
    Reads (SpellsEntries before) descent (Descent.entries (bound + 1) before descent) := by
  rw [Descent.entries]
  have key : Reads (Named "string" fun token => Literal.unquote token.text) descent descent.key :=
    reads_named (fun token => Literal.unquote token.text) _ rfl
  refine key.bind spellsEntries_iff_key (exists_afterKey before) ?_
  intro key keyTokens afterKey keyParts keyTaken
  obtain ⟨keyToken, _, _, rfl⟩ := keyTaken
  have colon : Reads (Named "colon" fun token => token) (descent.past [keyToken] afterKey)
      ((descent.past [keyToken] afterKey).expect "colon") :=
    reads_named (fun token => token) _ rfl
  refine colon.bind afterKey_iff_colon (fun _ => exists_afterColon before key) ?_
  intro _ colonTokens afterColon colonParts colonTaken
  obtain ⟨colonToken, _, _, rfl⟩ := colonTaken
  change afterKey = colonToken :: afterColon at colonParts
  have twoTaken : afterColon.length + 2 = descent.rest.length := by
    rw [keyParts, colonParts]
    rfl
  have shorter : ((descent.past [keyToken] afterKey).past [colonToken] afterColon).rest.length <
      descent.rest.length := by
    change afterColon.length < descent.rest.length
    omega
  refine (value shorter).bind Iff.rfl (fun item => (starts_afterEntry _).inhabited) ?_
  intro item itemTokens afterItem itemParts _
  change afterColon = itemTokens ++ afterItem at itemParts
  refine reads_afterEntry ?_
  intro later laterShorter
  apply further
  change later.rest.length < afterItem.length at laterShorter
  have lengths := congrArg List.length itemParts
  rw [List.length_append] at lengths
  omega

/-- A value, by its first token. -/
theorem reads_value_step
    (items : ∀ {later : Descent}, later.rest.length < descent.rest.length →
      Reads SpellsItems later (Descent.items bound later))
    (entries : ∀ {later : Descent}, later.rest.length < descent.rest.length →
      Reads (SpellsEntries []) later (Descent.entries bound [] later)) :
    Reads Spells descent (value (bound + 1) descent) := by
  rw [value]
  refine .next starts_spells ?_
  intro token rest parts
  have shorter : (descent.past [token] rest).rest.length < descent.rest.length := by
    rw [parts]
    exact Nat.lt_succ_self _
  have single {scalar : Value} (alone : scalar? token = some scalar) :
      Reads Spells descent (.ok (scalar, descent.past [token] rest)) :=
    .lastToken starts_spells parts (spells_scalar alone)
  dsimp only
  split
  next _ named => exact single (by simp only [scalar?, named])
  next _ named => exact single (by simp only [scalar?, named])
  next _ named => exact single (by simp only [scalar?, named])
  next _ named => exact single (by simp only [scalar?, named])
  next _ named => exact single (by simp only [scalar?, named])
  next _ isBracket =>
    refine .afterToken starts_spells parts (spells_bracket isBracket) ?_
    exact .enclosed (starts_items.map Value.array) (by decide) ((items shorter).map _ Iff.rfl)
  next _ isBrace =>
    refine .afterToken starts_spells parts (spells_brace isBrace) ?_
    exact .enclosed (starts_entries []) (by decide) (entries shorter)
  next _ notNumber notString notTrue notFalse notNull notBracket notBrace =>
    have never : token.name ∉ valueStart := by
      simpa [valueStart] using
        ⟨notNumber, notString, notBrace, notBracket, notTrue, notFalse, notNull⟩
    exact .refusedToken starts_spells parts never _ _

/-- Within its bound the descent reads values, items and entries. -/
theorem reads_within (bound : Nat) :
    (∀ {descent : Descent}, 2 * descent.rest.length + 1 ≤ bound →
        Reads Spells descent (value bound descent)) ∧
      (∀ {descent : Descent}, 2 * descent.rest.length + 2 ≤ bound →
        Reads SpellsItems descent (items bound descent)) ∧
      ∀ {descent : Descent} {before : List (String × Value)},
        2 * descent.rest.length + 2 ≤ bound →
        Reads (SpellsEntries before) descent (entries bound before descent) := by
  induction bound with
  | zero =>
      refine ⟨?_, ?_, ?_⟩
      · intro descent enough
        omega
      · intro descent enough
        omega
      · intro descent before enough
        omega
  | succ bound inductionHypothesis =>
      obtain ⟨valueHypothesis, itemsHypothesis, entriesHypothesis⟩ := inductionHypothesis
      refine ⟨?_, ?_, ?_⟩
      · intro descent enough
        exact reads_value_step (fun shorter => itemsHypothesis (by omega))
          (fun shorter => entriesHypothesis (by omega))
      · intro descent enough
        exact reads_items (valueHypothesis (by omega)) (fun shorter => itemsHypothesis (by omega))
      · intro descent before enough
        exact reads_entries (fun shorter => valueHypothesis (by omega))
          (fun shorter => entriesHypothesis (by omega))

end Parts

end Descent

end EarleyChart.Document
