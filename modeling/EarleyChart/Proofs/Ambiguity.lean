import EarleyChart.Proofs.Balance
import EarleyChart.Proofs.Provenance

/-!
Contract: the count of dropped derivations against the derivations themselves.

`Chart.Reaches` are the moves that lead to an item; the one that came first is its provenance and
the others were dropped. They are the last steps of the item's derivations: every derivation ends
with one of them (`Ready.exists_reaches`), every one ends some derivation (`Reaches.derivedBy`), and
different ones end different derivations (`Coherent.move_unique`). So nothing was dropped exactly if
every item has one derivation.

The count is not the number of derivations: where a symbol derives itself, one move that was dropped
stands for derivations without end.
-/

namespace EarleyChart

/-- Trees for the symbols before the dot of an item, over the tokens from its origin to a column. -/
def Item.DerivedBy (grammar : Grammar) (tokens : List Token) (column : Nat) (item : Item)
    (trees : List Tree) : Prop :=
  ∃ production, grammar.production? item.production = some production ∧
    grammar.table.Forest (production.rhs.take item.dot) trees (between tokens item.origin column)

/-- Every item of a chart has exactly one derivation. -/
def Chart.Unambiguous (grammar : Grammar) (tokens : List Token) (chart : Chart) : Prop :=
  ∀ {place item}, chart.item? place = some item →
    ∃! trees, item.DerivedBy grammar tokens place.column trees

/-- The moves of a dot that lead to an item at a place. -/
inductive Chart.Reaches (grammar : Grammar) (tokens : List Token) (chart : Chart) (place : ItemRef)
    (item : Item) : Provenance → Prop where
  | scanned {source : ItemRef} {former : Item} {token : Token} {symbol : SymbolId}
      (present : chart.item? source = some former)
      (nextColumn : source.column + 1 = place.column)
      (read : tokens[source.column]? = some token)
      (spelled : grammar.terminal? token.name = some symbol)
      (moves : former.Moves grammar symbol item) :
      Reaches grammar tokens chart place item (.scanned source)
  | completed {parent child : ItemRef} {former inner : Item} {symbol : SymbolId} {value : Value}
      (present : chart.item? parent = some former)
      (innerPresent : chart.item? child = some inner)
      (parentColumn : parent.column = inner.origin)
      (childColumn : child.column = place.column)
      (completes : Engine.Completes grammar inner symbol value)
      (moves : former.Moves grammar symbol item) :
      Reaches grammar tokens chart place item (.completed parent child)

/-- The trees that a move puts together from derivations of its items. -/
def Chart.Builds (grammar : Grammar) (tokens : List Token) (chart : Chart) :
    Provenance → List Tree → Prop
  | .scanned source, trees =>
      ∃ former token front, chart.item? source = some former ∧
        tokens[source.column]? = some token ∧
        former.DerivedBy grammar tokens source.column front ∧ trees = front ++ [.leaf token]
  | .completed parent child, trees =>
      ∃ former inner front children, chart.item? parent = some former ∧
        chart.item? child = some inner ∧ former.DerivedBy grammar tokens parent.column front ∧
        inner.DerivedBy grammar tokens child.column children ∧
        trees = front ++ [.node inner.production children]
  | .seed, _ => False
  | .predicted _, _ => False

section Positions

variable {tokens : List Token} {first last : Nat}

theorem length_between (inside : last ≤ tokens.length) :
    (between tokens first last).length = last - first := by
  simp only [between, List.length_drop, List.length_take]
  omega

theorem drop_eq_between_append (ordered : first ≤ last) (inside : last ≤ tokens.length) :
    tokens.drop first = between tokens first last ++ tokens.drop last := by
  have whole : between tokens first last ++ between tokens last tokens.length =
      between tokens first tokens.length := between_append ordered inside
  simpa only [between, List.take_length] using whole.symm

/-- Where the tokens between two positions fall into two parts, there is a position between the
parts. -/
theorem exists_middle {front back : List Token} (ordered : first ≤ last)
    (inside : last ≤ tokens.length) (parts : between tokens first last = front ++ back) :
    ∃ middle, first ≤ middle ∧ middle ≤ last ∧ front = between tokens first middle ∧
      back = between tokens middle last := by
  have lengths : last - first = front.length + back.length := by
    rw [← length_between inside, parts, List.length_append]
  have before : first ≤ first + front.length := Nat.le_add_right _ _
  have after : first + front.length ≤ last := by omega
  rw [← between_append before after] at parts
  have sameLength : (between tokens first (first + front.length)).length = front.length := by
    rw [length_between (Nat.le_trans after inside), Nat.add_sub_cancel_left]
  obtain ⟨frontEqual, backEqual⟩ := List.append_inj parts sameLength
  exact ⟨first + front.length, before, after, frontEqual.symm, backEqual.symm⟩

theorem read_of_between {token : Token} (ordered : first ≤ last) (inside : last ≤ tokens.length)
    (single : between tokens first last = [token]) :
    first + 1 = last ∧ tokens[first]? = some token := by
  have length : (between tokens first last).length = last - first := length_between inside
  rw [single, List.length_singleton] at length
  have next : first + 1 = last := by omega
  subst next
  have read : tokens[first]? = some tokens[first] := List.getElem?_eq_getElem inside
  rw [← between_succ (Nat.le_refl _) read, between_self, List.nil_append] at single
  rw [read, List.singleton_inj.mp single]
  exact ⟨rfl, rfl⟩

theorem between_inj {second : Nat} (firstOrdered : first ≤ last) (secondOrdered : first ≤ second)
    (inside : last ≤ tokens.length) (secondInside : second ≤ tokens.length)
    (same : between tokens first last = between tokens first second) : last = second := by
  have lengths := congrArg List.length same
  rw [length_between inside, length_between secondInside] at lengths
  omega

end Positions

/-- Trees tell the tokens at their leaves. -/
theorem RuleTable.Forest.tokens_unique {σ : Type} {table : RuleTable σ} {form other : List σ}
    {trees : List Tree} {tokens others : List Token} (forest : table.Forest form trees tokens)
    (same : table.Forest other trees others) : tokens = others := by
  induction forest generalizing other others with
  | nil =>
      cases same
      rfl
  | leaf _ _ inductionHypothesis =>
      cases same with
      | leaf _ rest => rw [inductionHypothesis rest]
  | node _ _ _ innerHypothesis restHypothesis =>
      cases same with
      | node _ inner rest => rw [innerHypothesis inner, restHypothesis rest]

variable {grammar : Grammar} {tokens : List Token} {chart : Chart} {place : ItemRef} {item : Item}
  {move : Provenance} {trees : List Tree}

section Derivations

variable {former : Item} {symbol : SymbolId} {column last : Nat}

theorem Item.Moves.take_eq {production : Production} (moves : former.Moves grammar symbol item)
    (found : grammar.production? former.production = some production) :
    production.rhs.take item.dot = production.rhs.take former.dot ++ [symbol] := by
  obtain ⟨inside, rfl⟩ := List.getElem?_eq_some_iff.mp (rhs_of_next? found moves.awaited)
  rw [← moves.dot, List.take_append_getElem inside]

theorem Item.DerivedBy.advance {tree : Tree} (moves : former.Moves grammar symbol item)
    (derived : former.DerivedBy grammar tokens column trees) (origin : former.origin ≤ column)
    (after : column ≤ last)
    (forest : grammar.table.Forest [symbol] [tree] (between tokens column last)) :
    item.DerivedBy grammar tokens last (trees ++ [tree]) := by
  obtain ⟨production, found, matched⟩ := derived
  refine ⟨production, moves.production ▸ found, ?_⟩
  rw [moves.take_eq found, ← moves.origin, ← between_append origin after]
  exact matched.append forest

theorem Item.derivedBy_zero (unmoved : item.dot = 0)
    (derived : item.DerivedBy grammar tokens column trees) : trees = [] := by
  obtain ⟨production, _, forest⟩ := derived
  rw [unmoved, List.take_zero] at forest
  exact List.length_eq_zero_iff.mp forest.length_eq

end Derivations

section Moving

/-- A move that leads to an item ends derivations of it. -/
theorem Chart.Reaches.derivedBy (consistent : grammar.Consistent)
    (coherent : Coherent grammar tokens chart)
    (reaches : chart.Reaches grammar tokens place item move)
    (builds : chart.Builds grammar tokens move trees) :
    item.DerivedBy grammar tokens place.column trees := by
  cases reaches with
  | scanned present nextColumn read spelled moves =>
      obtain ⟨same, sameToken, front, samePresent, sameRead, derived, rfl⟩ := builds
      obtain rfl := Option.some.inj (present.symm.trans samePresent)
      obtain rfl := Option.some.inj (read.symm.trans sameRead)
      have origin := coherent.origin_le consistent present
      rw [← nextColumn]
      apply derived.advance moves origin (Nat.le_succ _)
      rw [← between_succ (Nat.le_refl _) read, between_self]
      exact .single_leaf spelled
  | completed present innerPresent parentColumn childColumn completes moves =>
      obtain ⟨same, sameInner, front, children, samePresent, sameInnerPresent, derived,
        ⟨innerProduction, innerFound, forest⟩, rfl⟩ := builds
      obtain rfl := Option.some.inj (present.symm.trans samePresent)
      obtain rfl := Option.some.inj (innerPresent.symm.trans sameInnerPresent)
      have origin := coherent.origin_le consistent present
      have innerOrigin := coherent.origin_le consistent innerPresent
      have complete := coherent.dot_of_completes consistent innerPresent completes innerFound
      obtain ⟨⟨same, sameFound, rfl⟩, _⟩ := completes
      obtain rfl := Option.some.inj (innerFound.symm.trans sameFound)
      rw [complete, List.take_length, ← parentColumn] at forest
      rw [← childColumn]
      apply derived.advance moves origin (by omega)
      exact .single_node (Grammar.rule?_of_production? innerFound) forest

theorem Coherent.exists_derivedBy (consistent : grammar.Consistent)
    (coherent : Coherent grammar tokens chart) (present : chart.item? place = some item) :
    ∃ trees, item.DerivedBy grammar tokens place.column trees := by
  obtain ⟨production, trees, found, _, _, forest, _⟩ := coherent.reads consistent present
  exact ⟨trees, production, found, forest⟩

theorem Coherent.exists_builds (consistent : grammar.Consistent)
    (coherent : Coherent grammar tokens chart)
    (reaches : chart.Reaches grammar tokens place item move) :
    ∃ trees, chart.Builds grammar tokens move trees := by
  cases reaches with
  | scanned present _ read _ _ =>
      obtain ⟨trees, derived⟩ := coherent.exists_derivedBy consistent present
      exact ⟨_, _, _, _, present, read, derived, rfl⟩
  | completed present innerPresent _ _ _ _ =>
      obtain ⟨trees, derived⟩ := coherent.exists_derivedBy consistent present
      obtain ⟨children, innerDerived⟩ := coherent.exists_derivedBy consistent innerPresent
      exact ⟨_, _, _, _, _, present, innerPresent, derived, innerDerived, rfl⟩

theorem Coherent.source_unique {first second : ItemRef} {left right : Item}
    {leftSymbol rightSymbol : SymbolId} (coherent : Coherent grammar tokens chart)
    (leftPresent : chart.item? first = some left) (rightPresent : chart.item? second = some right)
    (sameColumn : first.column = second.column) (leftMoves : left.Moves grammar leftSymbol item)
    (rightMoves : right.Moves grammar rightSymbol item) : first = second := by
  have sameDot : left.dot = right.dot := Nat.succ.inj (leftMoves.dot.trans rightMoves.dot.symm)
  exact coherent.keyed.place_unique leftPresent rightPresent sameColumn
    (leftMoves.production.trans rightMoves.production.symm) sameDot
    (leftMoves.origin.trans rightMoves.origin.symm)

theorem Coherent.complete_unique {first second : ItemRef} {left right : Item}
    {leftSymbol rightSymbol : SymbolId} {leftValue rightValue : Value}
    (consistent : grammar.Consistent) (coherent : Coherent grammar tokens chart)
    (leftPresent : chart.item? first = some left) (rightPresent : chart.item? second = some right)
    (leftCompletes : Engine.Completes grammar left leftSymbol leftValue)
    (rightCompletes : Engine.Completes grammar right rightSymbol rightValue)
    (sameColumn : first.column = second.column) (sameProduction : left.production = right.production)
    (sameOrigin : left.origin = right.origin) : first = second := by
  obtain ⟨production, found, _⟩ := leftCompletes.lhs
  have leftDot := coherent.dot_of_completes consistent leftPresent leftCompletes found
  have rightDot := coherent.dot_of_completes consistent rightPresent rightCompletes
    (sameProduction ▸ found)
  exact coherent.keyed.place_unique leftPresent rightPresent sameColumn sameProduction
    (leftDot.trans rightDot.symm) sameOrigin

/-- Derivations by the same trees end in the same column. -/
theorem Coherent.column_unique {first second : ItemRef} {left right : Item}
    (consistent : grammar.Consistent) (coherent : Coherent grammar tokens chart)
    (leftPresent : chart.item? first = some left) (rightPresent : chart.item? second = some right)
    (sameOrigin : left.origin = right.origin)
    (leftDerived : left.DerivedBy grammar tokens first.column trees)
    (rightDerived : right.DerivedBy grammar tokens second.column trees) :
    first.column = second.column := by
  have leftOrigin := coherent.origin_le consistent leftPresent
  have rightOrigin := coherent.origin_le consistent rightPresent
  obtain ⟨_, _, leftForest⟩ := leftDerived
  obtain ⟨_, _, rightForest⟩ := rightDerived
  have sameTokens := leftForest.tokens_unique rightForest
  have short := coherent.short
  have leftInside := Chart.column_lt_size leftPresent
  have rightInside := Chart.column_lt_size rightPresent
  rw [← sameOrigin] at sameTokens rightOrigin
  exact between_inj leftOrigin rightOrigin (by omega) (by omega) sameTokens

/-- A derivation tells the move that it ends with. -/
theorem Coherent.move_unique {other : Provenance} (consistent : grammar.Consistent)
    (coherent : Coherent grammar tokens chart)
    (reaches : chart.Reaches grammar tokens place item move)
    (builds : chart.Builds grammar tokens move trees)
    (otherReaches : chart.Reaches grammar tokens place item other)
    (otherBuilds : chart.Builds grammar tokens other trees) : move = other := by
  cases reaches with
  | scanned present nextColumn _ _ moves =>
      cases otherReaches with
      | scanned otherPresent otherColumn _ _ otherMoves =>
          rw [coherent.source_unique present otherPresent (by omega) moves otherMoves]
      | completed =>
          obtain ⟨_, _, _, _, _, _, rfl⟩ := builds
          obtain ⟨_, _, _, _, _, _, _, _, same⟩ := otherBuilds
          cases (List.append_inj' same rfl).2
  | @completed parent child former inner symbol value present innerPresent parentColumn childColumn
      completes moves =>
      cases otherReaches with
      | scanned =>
          obtain ⟨_, _, _, _, _, _, _, _, rfl⟩ := builds
          obtain ⟨_, _, _, _, _, _, same⟩ := otherBuilds
          cases (List.append_inj' same rfl).2
      | @completed otherParent otherChild otherFormer otherInner _ _ otherPresent otherInnerPresent
          otherParentColumn otherChildColumn otherCompletes otherMoves =>
          obtain ⟨former', inner', front, children, present', innerPresent', derived, _, rfl⟩ :=
            builds
          obtain rfl := Option.some.inj (present.symm.trans present')
          obtain rfl := Option.some.inj (innerPresent.symm.trans innerPresent')
          obtain ⟨former', inner', otherFront, _, present', innerPresent', otherDerived, _, same⟩ :=
            otherBuilds
          obtain rfl := Option.some.inj (otherPresent.symm.trans present')
          obtain rfl := Option.some.inj (otherInnerPresent.symm.trans innerPresent')
          obtain ⟨rfl, sameLast⟩ := List.append_inj' same rfl
          obtain ⟨sameProduction, _⟩ := Tree.node.inj (List.singleton_inj.mp sameLast)
          -- The front trees tell where the parent stands, and so where the child began.
          have sameColumn := coherent.column_unique consistent present otherPresent
            (moves.origin.trans otherMoves.origin.symm) derived otherDerived
          have sameParent := coherent.source_unique present otherPresent sameColumn moves otherMoves
          have sameChild := coherent.complete_unique consistent innerPresent otherInnerPresent
            completes otherCompletes (childColumn.trans otherChildColumn.symm) sameProduction
            (by omega)
          rw [sameParent, sameChild]

end Moving

/-- An item goes back to its production with the dot at the start, in the column where it began. -/
theorem Coherent.holds_origin (coherent : Coherent grammar tokens chart)
    (present : chart.item? place = some item) :
    chart.Holds item.origin item.production 0 item.origin := by
  induction place using ItemRef.before_wellFounded.induction generalizing item with
  | _ place inductionHypothesis =>
      cases coherent.founded present with
      | seed => exact coherent.holds_seed
      | predicted => exact ⟨place, _, rfl, present, rfl, rfl, rfl⟩
      | @scanned source _ _ _ _ earlier nextColumn =>
          have held := inductionHypothesis source (.inl (by omega)) earlier
          exact held
      | @completed parent _ _ _ _ _ _ earlier _ _ _ before =>
          have held := inductionHypothesis parent before earlier
          exact held

section Closed

variable {consumed : Nat}

/-- Where the first symbols of an item's production match the tokens from its origin on, a column
holds the production with its dot after them. -/
theorem Ready.holds_of_prefix {production : Production} {dot column : Nat}
    (consistent : grammar.Consistent) (fits : Fits grammar tokens)
    (ready : Ready grammar tokens chart consumed) (present : chart.item? place = some item)
    (found : grammar.production? item.production = some production)
    (bounded : dot ≤ production.rhs.length) (ordered : item.origin ≤ column)
    (reached : column ≤ consumed)
    (forest : grammar.table.Forest (production.rhs.take dot) trees
      (between tokens item.origin column)) :
    chart.Holds column item.production dot item.origin := by
  have inside := Nat.le_trans reached ready.consumed_le
  have length : (between tokens item.origin column).length = column - item.origin :=
    length_between inside
  have held := ready.holds_of_forest consistent fits forest (ready.coherent.holds_origin present)
    found (List.take_append_drop dot production.rhs).symm (drop_eq_between_append ordered inside)
    (by omega)
  rw [length, Nat.add_sub_cancel' ordered, List.length_take_of_le bounded, Nat.zero_add] at held
  exact held

/-- What an item waits for is complete wherever the tokens match one of its productions. -/
theorem Ready.exists_complete {id : ProductionId} {production : Production} {column : Nat}
    {children : List Tree} (consistent : grammar.Consistent) (fits : Fits grammar tokens)
    (ready : Ready grammar tokens chart consumed) (present : chart.item? place = some item)
    (found : grammar.production? id = some production)
    (awaited : item.next? grammar = some production.lhs) (ordered : place.column ≤ column)
    (reached : column ≤ consumed)
    (forest : grammar.table.Forest production.rhs children (between tokens place.column column)) :
    ∃ child inner value, child.column = column ∧ chart.item? child = some inner ∧
      inner.production = id ∧ inner.origin = place.column ∧
      Engine.Completes grammar inner production.lhs value ∧
      inner.DerivedBy grammar tokens column children := by
  obtain ⟨_, started, _, startedPresent, rfl, _, startedOrigin⟩ :=
    ready.holds_of_next? consistent fits present found awaited
  rw [← startedOrigin, ← List.take_length (l := production.rhs)] at forest
  obtain ⟨child, inner, childColumn, innerPresent, sameProduction, complete, origin⟩ :=
    ready.holds_of_prefix consistent fits startedPresent found (Nat.le_refl _)
      (startedOrigin ▸ ordered) reached forest
  rw [← sameProduction] at found
  have ended : inner.next? grammar = none := by
    simp [Item.next?, Grammar.symbolAt?, found, complete]
  obtain ⟨_, value, _, reduced⟩ := Engine.completes_of_next?_eq_none
    (ready.coherent.reads consistent innerPresent) ended
  refine ⟨child, inner, value, childColumn, innerPresent, sameProduction,
    origin.trans startedOrigin, ⟨⟨production, found, rfl⟩, reduced⟩, production, found, ?_⟩
  rw [complete, origin]
  exact forest

/-- Every derivation of an item whose dot has moved ends with a move that leads to the item. -/
theorem Ready.exists_reaches (consistent : grammar.Consistent) (fits : Fits grammar tokens)
    (ready : Ready grammar tokens chart consumed) (present : chart.item? place = some item)
    (moved : item.dot ≠ 0) (derived : item.DerivedBy grammar tokens place.column trees) :
    ∃ move, chart.Reaches grammar tokens place item move ∧
      chart.Builds grammar tokens move trees := by
  obtain ⟨production, found, forest⟩ := derived
  obtain ⟨same, _, sameFound, bounded, ordered, _, _⟩ := ready.coherent.reads consistent present
  obtain rfl := Option.some.inj (found.symm.trans sameFound)
  obtain ⟨dot, dotEqual⟩ := Nat.exists_eq_succ_of_ne_zero moved
  have reached := ready.column_le present
  have short := ready.consumed_le
  have within : dot < production.rhs.length := by omega
  -- The derivation is cut before its last tree, and the chart holds the item up to there.
  rw [dotEqual, ← List.take_append_getElem within] at forest
  obtain ⟨front, back, frontTokens, backTokens, rfl, parts, frontForest, backForest⟩ :=
    forest.split
  obtain ⟨middle, before, after, rfl, rfl⟩ := exists_middle ordered (by omega) parts
  obtain ⟨source, former, rfl, sourcePresent, sameProduction, sameDot, sameOrigin⟩ :=
    ready.holds_of_prefix consistent fits present found (Nat.le_of_lt within) before
      (Nat.le_trans after reached) frontForest
  have moves : former.Moves grammar production.rhs[dot] item := by
    refine ⟨sameProduction, sameOrigin, by omega, next?_eq_some_iff.mpr ⟨production, ?_, ?_⟩⟩
    · rw [sameProduction]
      exact found
    · rw [sameDot]
      exact List.getElem?_eq_getElem within
  have formerDerived : former.DerivedBy grammar tokens source.column front := by
    refine ⟨production, sameProduction ▸ found, ?_⟩
    rw [sameDot, sameOrigin]
    exact frontForest
  rcases backForest.single_cases with ⟨token, spelled, rfl, single⟩ |
    ⟨id, rhs, children, rule, rfl, inner⟩
  · obtain ⟨nextColumn, read⟩ := read_of_between after (by omega) single
    exact ⟨.scanned source, .scanned sourcePresent nextColumn read spelled moves,
      former, token, front, sourcePresent, read, formerDerived, rfl⟩
  · obtain ⟨innerProduction, innerFound, lhs, rfl⟩ := Grammar.production?_of_rule? rule
    rw [← lhs] at moves
    obtain ⟨child, inner, value, childColumn, innerPresent, rfl, origin, completes,
      innerDerived⟩ := ready.exists_complete consistent fits sourcePresent innerFound moves.awaited
        after reached inner
    rw [← childColumn] at innerDerived
    exact ⟨.completed source child,
      .completed sourcePresent innerPresent origin.symm childColumn completes moves,
      former, inner, front, children, sourcePresent, innerPresent, formerDerived, innerDerived, rfl⟩

theorem Founded.isMove_iff (founded : Founded grammar tokens chart place item) :
    item.provenance.IsMove ↔ item.dot ≠ 0 := by
  cases founded with
  | seed => simp [Grammar.seed, Provenance.IsMove]
  | predicted => simp [Provenance.IsMove]
  | scanned => simp [Item.advanced, Provenance.IsMove]
  | completed => simp [Item.advanced, Provenance.IsMove]

/-- The provenance of an item, if it is a move, leads to the item. -/
theorem Founded.reaches (founded : Founded grammar tokens chart place item)
    (isMove : item.provenance.IsMove) :
    chart.Reaches grammar tokens place item item.provenance := by
  cases founded with
  | seed => exact isMove.elim
  | predicted => exact isMove.elim
  | scanned present nextColumn read _ spelled awaited =>
      exact .scanned present nextColumn.symm read spelled (Item.moves_advanced _ _ _ awaited)
  | completed present innerPresent parentColumn childColumn _ _ _ innerFound awaited reduced =>
      exact .completed present innerPresent parentColumn childColumn
        ⟨⟨_, innerFound, rfl⟩, reduced⟩ (Item.moves_advanced _ _ _ awaited)

theorem Coherent.target_unique {other : ItemRef} {otherItem : Item}
    (coherent : Coherent grammar tokens chart) (present : chart.item? place = some item)
    (otherPresent : chart.item? other = some otherItem)
    (reaches : chart.Reaches grammar tokens place item move)
    (otherReaches : chart.Reaches grammar tokens other otherItem move) : place = other := by
  have unique {former : Item} {first second : SymbolId} (sameColumn : place.column = other.column)
      (moves : former.Moves grammar first item) (otherMoves : former.Moves grammar second otherItem) :
      place = other :=
    coherent.keyed.place_unique present otherPresent sameColumn
      (moves.production.symm.trans otherMoves.production)
      (moves.dot.symm.trans otherMoves.dot) (moves.origin.symm.trans otherMoves.origin)
  cases reaches with
  | scanned formerPresent nextColumn _ _ moves =>
      cases otherReaches with
      | scanned samePresent otherColumn _ _ otherMoves =>
          obtain rfl := Option.some.inj (formerPresent.symm.trans samePresent)
          exact unique (nextColumn.symm.trans otherColumn) moves otherMoves
  | completed formerPresent _ _ childColumn _ moves =>
      cases otherReaches with
      | completed samePresent _ _ otherColumn _ otherMoves =>
          obtain rfl := Option.some.inj (formerPresent.symm.trans samePresent)
          exact unique (childColumn.symm.trans otherColumn) moves otherMoves

theorem Ready.exists_target (consistent : grammar.Consistent) (fits : Fits grammar tokens)
    (ready : Ready grammar tokens chart consumed)
    (tried : Engine.Tried grammar tokens chart ⟨consumed, chart.width consumed⟩ move) :
    ∃ place item, chart.item? place = some item ∧
      chart.Reaches grammar tokens place item move := by
  cases move with
  | seed => exact tried.elim
  | predicted => exact tried.elim
  | scanned source =>
      obtain ⟨⟨former, token, symbol, present, read, spelled, awaited⟩, earlier⟩ := tried
      obtain ⟨place, item, inColumn, itemPresent, sameProduction, sameDot, sameOrigin⟩ :=
        ready.coherent.holds_of_nextKey consistent fits present awaited
          (ready.scanned earlier read rfl present spelled awaited)
      exact ⟨place, item, itemPresent, .scanned present inColumn.symm read spelled
        ⟨sameProduction.symm, sameOrigin.symm, sameDot.symm, awaited⟩⟩
  | completed parent child =>
      obtain ⟨⟨former, inner, symbol, value, present, innerPresent, parentColumn, awaited,
        completes⟩, _⟩ := tried
      obtain ⟨place, item, inColumn, itemPresent, sameProduction, sameDot, sameOrigin⟩ :=
        ready.coherent.holds_of_nextKey consistent fits present awaited
          (ready.hasKey_of_completes consistent present innerPresent parentColumn awaited completes)
      exact ⟨place, item, itemPresent, .completed present innerPresent parentColumn inColumn.symm
        completes ⟨sameProduction.symm, sameOrigin.symm, sameDot.symm, awaited⟩⟩

theorem Ready.tried_of_reaches (ready : Ready grammar tokens chart consumed)
    (present : chart.item? place = some item)
    (reaches : chart.Reaches grammar tokens place item move) :
    Engine.Tried grammar tokens chart ⟨consumed, chart.width consumed⟩ move := by
  have reached := ready.column_le present
  cases reaches with
  | scanned sourcePresent nextColumn read spelled moves =>
      exact ⟨⟨_, _, _, sourcePresent, read, spelled, moves.awaited⟩, by simp only; omega⟩
  | completed parentPresent innerPresent parentColumn childColumn completes moves =>
      exact ⟨⟨_, _, _, _, parentPresent, innerPresent, parentColumn, moves.awaited, completes⟩,
        Engine.before_width parentPresent (ready.column_le parentPresent),
        Engine.before_width innerPresent (ready.column_le innerPresent)⟩

/-- No move leads to an item but the one that the item is there by. -/
def Chart.Undisputed (grammar : Grammar) (tokens : List Token) (chart : Chart) : Prop :=
  ∀ {place item move}, chart.item? place = some item →
    chart.Reaches grammar tokens place item move → move = item.provenance

theorem Chart.Reaches.dot_ne_zero (reaches : chart.Reaches grammar tokens place item move) :
    item.dot ≠ 0 := by
  cases reaches with
  | scanned _ _ _ _ moves =>
      rw [← moves.dot]
      exact Nat.succ_ne_zero _
  | completed _ _ _ _ _ moves =>
      rw [← moves.dot]
      exact Nat.succ_ne_zero _

/-- Nothing was dropped exactly if no item could have come in another way. -/
theorem Ready.ambiguities_eq_zero_iff {ambiguities : Nat} (consistent : grammar.Consistent)
    (fits : Fits grammar tokens) (ready : Ready grammar tokens chart consumed)
    (balanced : Engine.Balanced grammar tokens ⟨chart, ambiguities⟩) :
    ambiguities = 0 ↔ chart.Undisputed grammar tokens := by
  unfold Engine.Balanced at balanced
  rw [ready.size_sub_one] at balanced
  apply balanced.exact.trans
  constructor
  · intro recorded place item move present reaches
    have tried := ready.tried_of_reaches present reaches
    have isMove := balanced.moves tried
    obtain ⟨other, otherItem, otherPresent, rfl⟩ := recorded move tried
    have otherReaches := (ready.coherent.founded otherPresent).reaches isMove
    obtain rfl := ready.coherent.target_unique present otherPresent reaches otherReaches
    rw [Option.some.inj (present.symm.trans otherPresent)]
  · intro undisputed move tried
    obtain ⟨place, item, present, reaches⟩ := ready.exists_target consistent fits tried
    exact ⟨place, item, present, (undisputed present reaches).symm⟩

/-- Where no item could have come in another way, an item has one derivation only. -/
theorem Ready.derivedBy_unique {others : List Tree} (consistent : grammar.Consistent)
    (fits : Fits grammar tokens) (ready : Ready grammar tokens chart consumed)
    (undisputed : chart.Undisputed grammar tokens) (present : chart.item? place = some item)
    (derived : item.DerivedBy grammar tokens place.column trees)
    (otherDerived : item.DerivedBy grammar tokens place.column others) : trees = others := by
  induction place using ItemRef.before_wellFounded.induction
    generalizing item trees others with
  | _ place inductionHypothesis =>
      by_cases unmoved : item.dot = 0
      · rw [Item.derivedBy_zero unmoved derived, Item.derivedBy_zero unmoved otherDerived]
      · obtain ⟨move, reaches, builds⟩ := ready.exists_reaches consistent fits present unmoved derived
        obtain ⟨other, otherReaches, otherBuilds⟩ :=
          ready.exists_reaches consistent fits present unmoved otherDerived
        -- Both derivations end with the move that the item is there by, and the items of that move
        -- come before it.
        obtain rfl := undisputed present reaches
        obtain rfl := undisputed present otherReaches
        cases ready.coherent.founded present with
        | seed => exact absurd rfl unmoved
        | predicted => exact absurd rfl unmoved
        | @scanned source _ _ _ _ sourcePresent nextColumn =>
            obtain ⟨former, token, front, formerPresent, read, frontDerived, rfl⟩ := builds
            obtain ⟨same, sameToken, otherFront, samePresent, sameRead, otherFrontDerived, rfl⟩ :=
              otherBuilds
            obtain rfl := Option.some.inj (formerPresent.symm.trans samePresent)
            obtain rfl := Option.some.inj (read.symm.trans sameRead)
            have before : source.Before place := .inl (by omega)
            rw [inductionHypothesis source before formerPresent frontDerived otherFrontDerived]
        | @completed parent child _ _ _ _ _ parentPresent _ _ _ before innerBefore =>
            obtain ⟨former, inner, front, children, formerPresent, innerPresent, frontDerived,
              innerDerived, rfl⟩ := builds
            obtain ⟨same, sameInner, otherFront, otherChildren, samePresent, sameInnerPresent,
              otherFrontDerived, otherInnerDerived, rfl⟩ := otherBuilds
            obtain rfl := Option.some.inj (formerPresent.symm.trans samePresent)
            obtain rfl := Option.some.inj (innerPresent.symm.trans sameInnerPresent)
            rw [inductionHypothesis parent before formerPresent frontDerived otherFrontDerived,
              inductionHypothesis child innerBefore innerPresent innerDerived otherInnerDerived]

/-- Every item has one derivation exactly if no item could have come in another way. -/
theorem Ready.unambiguous_iff (consistent : grammar.Consistent) (fits : Fits grammar tokens)
    (ready : Ready grammar tokens chart consumed) :
    chart.Unambiguous grammar tokens ↔ chart.Undisputed grammar tokens := by
  constructor
  · intro unambiguous place item move present reaches
    have founded := ready.coherent.founded present
    have provenanceReaches := founded.reaches (founded.isMove_iff.mpr reaches.dot_ne_zero)
    obtain ⟨trees, builds⟩ := ready.coherent.exists_builds consistent reaches
    obtain ⟨others, otherBuilds⟩ := ready.coherent.exists_builds consistent provenanceReaches
    have same : trees = others := (unambiguous present).unique
      (reaches.derivedBy consistent ready.coherent builds)
      (provenanceReaches.derivedBy consistent ready.coherent otherBuilds)
    subst same
    exact ready.coherent.move_unique consistent reaches builds provenanceReaches otherBuilds
  · intro undisputed place item present
    obtain ⟨trees, derived⟩ := ready.coherent.exists_derivedBy consistent present
    refine ⟨trees, derived, ?_⟩
    intro others otherDerived
    exact ready.derivedBy_unique consistent fits undisputed present otherDerived derived

/-- An unambiguous chart leaves one way to match the start production. -/
theorem Ready.forest_unique {start : Production} {others : List Tree}
    (consistent : grammar.Consistent) (fits : Fits grammar tokens)
    (ready : Ready grammar tokens chart consumed) (unambiguous : chart.Unambiguous grammar tokens)
    (startFound : grammar.production? grammar.startProduction = some start)
    (forest : grammar.table.Forest start.rhs trees (tokens.take consumed))
    (otherForest : grammar.table.Forest start.rhs others (tokens.take consumed)) :
    trees = others := by
  rw [← between_zero, ← List.take_length (l := start.rhs)] at forest otherForest
  obtain ⟨place, item, rfl, present, sameProduction, complete, atStart⟩ :=
    ready.holds_of_prefix consistent fits ready.coherent.seeded startFound (Nat.le_refl _)
      (Nat.zero_le _) (Nat.le_refl _) forest
  change item.production = grammar.startProduction at sameProduction
  change item.origin = 0 at atStart
  rw [← sameProduction] at startFound
  rw [← complete, ← atStart] at forest otherForest
  exact (unambiguous present).unique ⟨start, startFound, forest⟩ ⟨start, startFound, otherForest⟩

end Closed

namespace Declaration

variable {declaration : Declaration} {grammar : Grammar} {limits : Limits} {tokens : List Token}

/-- A parse counts no dropped derivation exactly if the items of its chart have one derivation each,
and an input that it then accepts has one derivation tree. -/
theorem run_ambiguities_eq_zero_iff (built : declaration.build = .ok grammar)
    (sizes : declaration.SizesFit tokens) (unlimited : limits.maxItems = 0) :
    ((grammar.run limits tokens).stats.ambiguities = 0 ↔
        (grammar.run limits tokens).chart.Unambiguous grammar tokens) ∧
      ∀ value, (grammar.run limits tokens).result = .ok value →
        (grammar.run limits tokens).stats.ambiguities = 0 →
        ∃! tree, declaration.IsDerivation tree tokens := by
  obtain ⟨start, numbers⟩ := numbers_of_build built
  have consistent := numbers.consistent
  have fits := numbers.fits sizes
  obtain ⟨consumed, ready⟩ := consistent.run_ready unlimited tokens
  have balanced := consistent.run_balanced unlimited tokens
  have counted : (grammar.run limits tokens).stats.ambiguities = 0 ↔
      (grammar.run limits tokens).chart.Unambiguous grammar tokens := by
    rw [ready.unambiguous_iff consistent fits]
    exact ready.ambiguities_eq_zero_iff consistent fits balanced
  refine ⟨counted, ?_⟩
  intro value returned none
  obtain ⟨production, startFound⟩ := consistent.startProduction
  rcases consistent.run_cases limits tokens with ⟨_, _, readyLast, accepted⟩ | ⟨_, failed, _⟩
  · obtain ⟨tree, derivation, _⟩ := numbers.derivation_of_accepted? sizes readyLast accepted
    refine ⟨tree, derivation, ?_⟩
    intro other otherDerivation
    refine numbers.derivation_unique startFound ?_ otherDerivation derivation
    intro first second forest otherForest
    rw [← List.take_length (l := tokens)] at forest otherForest
    exact readyLast.forest_unique consistent fits (counted.mp none) startFound forest otherForest
  · rw [failed] at returned
    contradiction

/-- The parse of `1 +` drops nothing, so that the input has one derivation. The parse of `1 + 1 +`
drops some derivation, so that some item of its chart has several. -/
theorem openSum_derivation_unique :
    (∃! tree, sums.IsDerivation tree openSum) ∧
      ¬ ((sums.grammar "sum").run {} (openSum ++ openSum)).chart.Unambiguous
        (sums.grammar "sum") (openSum ++ openSum) := by
  constructor
  · obtain ⟨value, returned⟩ := exists_run_openSum
    exact (run_ambiguities_eq_zero_iff build_sums (sizesFit_sums (by decide)) rfl).2 value returned
      (by decide +kernel)
  · rw [← (run_ambiguities_eq_zero_iff build_sums (sizesFit_sums (by decide)) rfl).1]
    decide +kernel

end Declaration

end EarleyChart
