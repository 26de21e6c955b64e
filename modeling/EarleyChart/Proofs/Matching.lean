import EarleyChart.Pattern.Basic
import EarleyChart.Text.Utf8

/-!
Contract: what a pattern takes off a text.

A match ends on a character boundary of the text that it starts in (`exists_taken_of_match?`).

`Takes` says that a pattern prefers to take the given characters, provided that matching can go on
after them. It is put together from the parts of the pattern, and `Repeats` does the same for greedy
repetitions. That a part takes nothing is read off the next character: a match of something can only
begin with a character that `starts` it (`matchAt_eq_none_of_barred`).

A part may be gone into only as long as none of its choices has been come to at the place. So `Takes` asks
that of the start, and says of the end which choices may have been come to there (`Leaves`). After a body
that is repeated there are none, since it ends with a character.
-/

namespace EarleyChart

/-- A place further on in the same text. -/
def Cursor.Reaches (cursor stop : Cursor) : Prop :=
  ∃ passed, cursor.rest = passed ++ stop.rest ∧
    stop.position = cursor.position + Utf8.size passed

namespace Cursor

variable {cursor middle stop : Cursor}

theorem Reaches.refl (cursor : Cursor) : cursor.Reaches cursor :=
  ⟨[], rfl, rfl⟩

theorem Reaches.trans (first : cursor.Reaches middle) (second : middle.Reaches stop) :
    cursor.Reaches stop := by
  obtain ⟨passed, parts, position⟩ := first
  obtain ⟨further, furtherParts, furtherPosition⟩ := second
  refine ⟨passed ++ further, ?_, ?_⟩
  · rw [parts, furtherParts, List.append_assoc]
  · rw [furtherPosition, position, Utf8.size_append, Nat.add_assoc]

theorem reaches_pass {c : Char} {rest : List Char} (here : cursor.rest = c :: rest) :
    cursor.Reaches (cursor.pass c rest) :=
  ⟨[c], here, rfl⟩

end Cursor

namespace Pattern

/-- Whether a character can be the first one of a match. -/
def starts : Pattern → Char → Bool
  | .empty, _ => false
  | .one set, c => set.contains c
  | .assert _, _ => false
  | .concat first second, c => first.starts c || (first.isNullable && second.starts c)
  | .alternate first second, c => first.starts c || second.starts c
  | .star body _, c => body.starts c
  | .plus body _, c => body.starts c

/-- No match begins with the first character of a text. -/
def Barred (pattern : Pattern) (text : List Char) : Prop :=
  ∀ c ∈ text.head?, pattern.starts c = false

theorem barred_of_head? {pattern : Pattern} {text : List Char} {c : Char}
    (isHead : text.head? = some c) (no : pattern.starts c = false) : pattern.Barred text := by
  intro other isOther
  rw [← Option.some.inj (isHead.symm.trans isOther)]
  exact no

section Choices

variable {number : Nat} {firstGoes : Bool} {first second : Cursor → Option Nat} {cursor : Cursor}

theorem choose_eq_none (firstFails : first (cursor.see number) = none)
    (secondFails : second (cursor.see number) = none) :
    choose number firstGoes first second cursor = none := by
  cases firstGoes <;> simp [choose, firstFails, secondFails]

theorem choose_first {stop : Nat} (unseen : number ∉ cursor.seen)
    (found : first (cursor.see number) = some stop) :
    choose number true first second cursor = some stop := by
  simp [choose, unseen, found]

theorem choose_second {stop : Nat} (unseen : number ∉ cursor.seen)
    (firstFails : first (cursor.see number) = none)
    (found : second (cursor.see number) = some stop) :
    choose number true first second cursor = some stop := by
  simp [choose, unseen, firstFails, found]

/-- What a choice finds, one of its ways finds. -/
theorem choose_eq_some {stop : Nat}
    (found : choose number firstGoes first second cursor = some stop) :
    first (cursor.see number) = some stop ∨ second (cursor.see number) = some stop := by
  unfold choose at found
  split at found
  · contradiction
  · split at found
    · exact (Option.or_eq_some_iff.mp found).imp_right And.right
    · exact ((Option.or_eq_some_iff.mp found).imp_right And.right).symm

end Choices

section Barring

variable {before : Option Char} {text : List Char} {position number : Nat}
  {goOn : Cursor → Option Nat}

/-- A repetition that cannot begin at a place ends there, and fails if nothing can go on there. By
induction on the bound, for the body may be tried with further choices come to. -/
theorem iterate_eq_none {body : Cursor → (Cursor → Option Nat) → Option Nat}
    (fails : ∀ {next : Cursor → Option Nat}, (∀ seen, next ⟨before, text, position, seen⟩ = none) →
      ∀ seen, body ⟨before, text, position, seen⟩ next = none)
    (greedy : Bool) (bound : Nat) (stuck : ∀ seen, goOn ⟨before, text, position, seen⟩ = none)
    (seen : List Nat) :
    iterate body number greedy bound ⟨before, text, position, seen⟩ goOn = none := by
  induction bound generalizing seen with
  | zero => rfl
  | succ bound inductionHypothesis =>
      have again : body ⟨before, text, position, number :: seen⟩
          (fun stop => iterate body number greedy bound stop goOn) = none :=
        fails inductionHypothesis _
      rw [iterate]
      exact choose_eq_none again (stuck _)

/-- Where its first character is barred, a pattern matches nothing or fails. -/
theorem matchAt_eq_none_of_barred {pattern : Pattern} (barred : pattern.Barred text)
    (stuck : pattern.isNullable = true → ∀ seen, goOn ⟨before, text, position, seen⟩ = none)
    (seen : List Nat) :
    pattern.matchAt number ⟨before, text, position, seen⟩ goOn = none := by
  induction pattern generalizing number goOn seen with
  | empty => exact stuck rfl seen
  | one set =>
      cases text with
      | nil => rfl
      | cons c rest => exact if_neg (Bool.eq_false_iff.mp (barred c rfl))
  | assert assertion =>
      unfold matchAt
      split
      · exact stuck rfl seen
      · rfl
  | concat first second firstHypothesis secondHypothesis =>
      have barredFirst : first.Barred text := fun c member =>
        (Bool.or_eq_false_iff.mp (barred c member)).1
      refine firstHypothesis barredFirst (fun firstNullable later => ?_) seen
      have barredSecond : second.Barred text := by
        intro c member
        have neither := (Bool.or_eq_false_iff.mp (barred c member)).2
        rwa [firstNullable, Bool.true_and] at neither
      refine secondHypothesis barredSecond (fun secondNullable => stuck ?_) later
      rw [isNullable, firstNullable, secondNullable]
      rfl
  | alternate first second firstHypothesis secondHypothesis =>
      refine choose_eq_none ?_ ?_
      · exact firstHypothesis (fun c member => (Bool.or_eq_false_iff.mp (barred c member)).1)
          (fun nullable => stuck (by rw [isNullable, nullable]; rfl)) _
      · exact secondHypothesis (fun c member => (Bool.or_eq_false_iff.mp (barred c member)).2)
          (fun nullable => stuck (by rw [isNullable, nullable, Bool.or_true])) _
  | star body greedy inductionHypothesis =>
      exact iterate_eq_none (fun nextStuck => inductionHypothesis barred fun _ => nextStuck) greedy
        _ (stuck rfl) seen
  | plus body greedy inductionHypothesis =>
      refine inductionHypothesis barred (fun nullable later => ?_) seen
      exact iterate_eq_none (fun nextStuck => inductionHypothesis barred fun _ => nextStuck) greedy
        _ (stuck nullable) later

end Barring

/-- The choices that may have been come to where a match ends, after those at its start: none if the
match is settled, else those of the pattern, and those at its start if nothing was taken. -/
def Leaves (settled : Prop) (number choices : Nat) (seen : List Nat) (taken : List Char)
    (later : List Nat) : Prop :=
  ∀ n ∈ later, ¬settled ∧ (number ≤ n ∧ n < number + choices ∨ taken = [] ∧ n ∈ seen)

/-- None of the choices of a pattern has been come to. -/
def Fresh (number choices : Nat) (seen : List Nat) : Prop :=
  ∀ n ∈ seen, n < number ∨ number + choices ≤ n

/-- The pattern takes `taken` off a text that goes on with `rest`, if matching can go on there. A
settled match ends with a character. -/
def Takes (pattern : Pattern) (settled : Prop) (taken rest : List Char) : Prop :=
  ∀ (number : Nat) (before : Option Char) (position : Nat) (seen : List Nat)
      (goOn : Cursor → Option Nat) (stop : Nat), Fresh number pattern.choices seen →
    (∀ later, Leaves settled number pattern.choices seen taken later →
      goOn ⟨taken.getLast?.or before, rest, position + Utf8.size taken, later⟩ = some stop) →
    pattern.matchAt number ⟨before, taken ++ rest, position, seen⟩ goOn = some stop

/-- Greedy repetitions of the pattern take `taken` off a text that goes on with `rest`, if matching
can go on there. -/
def Repeats (body : Pattern) (taken rest : List Char) : Prop :=
  ∀ (number bound : Nat) (before : Option Char) (position : Nat) (seen : List Nat)
      (goOn : Cursor → Option Nat) (stop : Nat), taken.length < bound →
    Fresh number (1 + body.choices) seen →
    (∀ later, Leaves False number (1 + body.choices) seen taken later →
      goOn ⟨taken.getLast?.or before, rest, position + Utf8.size taken, later⟩ = some stop) →
    iterate (body.matchAt (number + 1)) number true bound ⟨before, taken ++ rest, position, seen⟩
      goOn = some stop

variable {first second body : Pattern} {settled formerSettled : Prop}
  {taken further rest : List Char} {c : Char}

section Numbers

variable {number choices : Nat} {seen later : List Nat}

theorem Fresh.not_mem (fresh : Fresh number (1 + choices) seen) : number ∉ seen := by
  intro member
  have outside := fresh number member
  omega

/-- The choices of a part are among those of the whole. -/
theorem Fresh.part (fresh : Fresh number choices seen) {partNumber partChoices : Nat}
    (starts : number ≤ partNumber) (ends : partNumber + partChoices ≤ number + choices) :
    Fresh partNumber partChoices seen := by
  intro n member
  have outside := fresh n member
  omega

theorem Fresh.see (fresh : Fresh number (1 + choices) seen) {partNumber partChoices : Nat}
    (starts : number < partNumber) (ends : partNumber + partChoices ≤ number + (1 + choices)) :
    Fresh partNumber partChoices (number :: seen) := by
  intro n member
  rcases List.mem_cons.mp member with rfl | inSeen
  · exact .inl starts
  · have outside := fresh n inSeen
    omega

theorem leaves_nil : Leaves settled number choices seen taken [] :=
  fun _ member => nomatch member

theorem Leaves.eq_nil (leaves : Leaves True number choices seen taken later) : later = [] :=
  List.eq_nil_iff_forall_not_mem.mpr fun n member => (leaves n member).1 trivial

theorem fresh_nil : Fresh number choices [] :=
  fun _ member => nomatch member

/-- Where nothing had been come to at the start, only choices of the pattern are left. -/
theorem Leaves.of_nil (leaves : Leaves settled number choices [] further later) :
    Leaves settled number choices seen taken later := by
  intro n member
  obtain ⟨unsettled, own | ⟨_, before⟩⟩ := leaves n member
  · exact ⟨unsettled, .inl own⟩
  · contradiction

/-- What one way of a choice leaves, the choice leaves. -/
theorem Leaves.see {partNumber partChoices : Nat}
    (leaves : Leaves settled partNumber partChoices (number :: seen) taken later)
    (starts : number < partNumber) (ends : partNumber + partChoices ≤ number + (1 + choices)) :
    Leaves settled number (1 + choices) seen taken later := by
  intro n member
  obtain ⟨unsettled, own | ⟨nothing, before⟩⟩ := leaves n member
  · exact ⟨unsettled, .inl (by omega)⟩
  · rcases List.mem_cons.mp before with rfl | inSeen
    · exact ⟨unsettled, .inl (by omega)⟩
    · exact ⟨unsettled, .inr ⟨nothing, inSeen⟩⟩

section Sequence

variable {firstChoices secondChoices : Nat} {middle : List Nat}
  (former : Leaves formerSettled number firstChoices seen taken middle)

include former

/-- Behind the first of two parts the choices of the second one are fresh. -/
theorem Leaves.fresh (fresh : Fresh number (firstChoices + secondChoices) seen) :
    Fresh (number + firstChoices) secondChoices middle := by
  intro n member
  obtain ⟨_, own | ⟨_, before⟩⟩ := former n member
  · exact .inl own.2
  · have outside := fresh n before
    omega

theorem Leaves.append
    (latter : Leaves settled (number + firstChoices) secondChoices middle further later) :
    Leaves settled number (firstChoices + secondChoices) seen (taken ++ further) later := by
  intro n member
  obtain ⟨unsettled, own | ⟨nothing, before⟩⟩ := latter n member
  · exact ⟨unsettled, .inl (by omega)⟩
  · obtain ⟨_, own | ⟨nothingBefore, inSeen⟩⟩ := former n before
    · exact ⟨unsettled, .inl (by omega)⟩
    · exact ⟨unsettled, .inr ⟨List.append_eq_nil_iff.mpr ⟨nothingBefore, nothing⟩, inSeen⟩⟩

end Sequence

end Numbers

theorem takes_empty : Takes .empty False [] rest :=
  fun _ _ _ _ _ _ _ goesOn => goesOn _ fun _ member => ⟨id, .inr ⟨rfl, member⟩⟩

theorem takes_one {set : CharSet} (member : set.contains c = true) :
    Takes (.one set) True [c] rest := by
  intro number before position seen goOn stop _ goesOn
  simp only [matchAt, List.cons_append, List.nil_append, member, ↓reduceIte]
  exact goesOn [] leaves_nil

/-- What takes characters in one way at its end does so in any way. -/
theorem Takes.loosen (takes : body.Takes settled taken rest) : body.Takes False taken rest := by
  intro number before position seen goOn stop fresh goesOn
  refine takes number before position seen goOn stop fresh fun later leaves => ?_
  exact goesOn later fun n member => ⟨id, (leaves n member).2⟩

/-- Where a match ends after two parts of a text. -/
theorem end_append (before : Option Char) (position : Nat) (later : List Nat) :
    Cursor.mk ((taken ++ further).getLast?.or before) rest
        (position + Utf8.size (taken ++ further)) later =
      ⟨further.getLast?.or (taken.getLast?.or before), rest,
        position + Utf8.size taken + Utf8.size further, later⟩ := by
  rw [List.getLast?_append, Option.or_assoc, Utf8.size_append, Nat.add_assoc]

theorem Takes.concat (former : first.Takes formerSettled taken (further ++ rest))
    (latter : second.Takes settled further rest) :
    (Pattern.concat first second).Takes settled (taken ++ further) rest := by
  intro number before position seen goOn stop fresh goesOn
  rw [List.append_assoc]
  have firstFresh : Fresh number first.choices seen :=
    fresh.part (Nat.le_refl _) (by rw [choices]; omega)
  refine former number before position seen _ stop firstFresh fun middle leaves => ?_
  refine latter _ _ _ middle goOn stop (leaves.fresh fresh) fun later further => ?_
  rw [← end_append]
  exact goesOn later (leaves.append further)

/-- With a choice come to, one of its ways takes what it takes on its own. -/
theorem Takes.way (takes : body.Takes settled taken rest) {number inner choices : Nat}
    {before : Option Char} {position : Nat} {seen : List Nat} {goOn : Cursor → Option Nat}
    {stop : Nat} (fresh : Fresh number (1 + choices) seen) (starts : number < inner)
    (ends : inner + body.choices ≤ number + (1 + choices))
    (goesOn : ∀ later, Leaves settled number (1 + choices) seen taken later →
      goOn ⟨taken.getLast?.or before, rest, position + Utf8.size taken, later⟩ = some stop) :
    body.matchAt inner (Cursor.see ⟨before, taken ++ rest, position, seen⟩ number) goOn =
      some stop :=
  takes inner before position (number :: seen) goOn stop (fresh.see starts ends)
    fun later leaves => goesOn later (leaves.see starts ends)

theorem Takes.alternate (takes : first.Takes settled taken rest) :
    (Pattern.alternate first second).Takes settled taken rest := by
  intro number before position seen goOn stop fresh goesOn
  rw [choices, Nat.add_assoc] at fresh goesOn
  exact choose_first fresh.not_mem (takes.way fresh (by omega) (by omega) goesOn)

/-- The second alternative is taken where the first one is barred. -/
theorem Takes.otherwise (takes : second.Takes settled taken rest)
    (barred : first.Barred (taken ++ rest)) (solid : first.isNullable = false) :
    (Pattern.alternate first second).Takes settled taken rest := by
  intro number before position seen goOn stop fresh goesOn
  rw [choices, Nat.add_assoc] at fresh goesOn
  refine choose_second fresh.not_mem ?_ (takes.way fresh (by omega) (by omega) goesOn)
  exact matchAt_eq_none_of_barred barred (by simp [solid]) _

theorem Takes.optional (takes : body.Takes settled taken rest) :
    (body.optional true).Takes settled taken rest :=
  takes.alternate

theorem takes_optional_nil (barred : body.Barred rest) (solid : body.isNullable = false) :
    (body.optional true).Takes False [] rest :=
  takes_empty.otherwise barred solid

theorem repeats_nil (barred : body.Barred rest) (solid : body.isNullable = false) :
    body.Repeats [] rest := by
  intro number bound before position seen goOn stop within fresh goesOn
  cases bound with
  | zero => contradiction
  | succ bound =>
      rw [iterate]
      refine choose_second fresh.not_mem ?_ ?_
      · exact matchAt_eq_none_of_barred barred (by simp [solid]) _
      · refine goesOn (number :: seen) fun n member => ⟨id, ?_⟩
        rcases List.mem_cons.mp member with rfl | inSeen
        · exact .inl ⟨Nat.le_refl _, by omega⟩
        · exact .inr ⟨rfl, inSeen⟩

/-- What follows a settled match of something is repeated from there. -/
theorem Takes.repeats (takes : body.Takes True taken (further ++ rest)) (something : taken ≠ [])
    (others : body.Repeats further rest) : body.Repeats (taken ++ further) rest := by
  intro number bound before position seen goOn stop within fresh goesOn
  have passes : 0 < taken.length := List.length_pos_iff.mpr something
  rw [List.length_append] at within
  rw [List.append_assoc]
  cases bound with
  | zero => contradiction
  | succ bound =>
      rw [iterate]
      refine choose_first fresh.not_mem ?_
      have bodyFresh : Fresh (number + 1) body.choices (number :: seen) :=
        fresh.see (Nat.lt_succ_self _) (by omega)
      refine takes _ before position _ _ stop bodyFresh fun middle leaves => ?_
      -- Nothing has been come to behind the match, so the choice can be made again.
      obtain rfl := leaves.eq_nil
      refine others number bound _ _ [] goOn stop (by omega) fresh_nil fun later further => ?_
      rw [← end_append]
      exact goesOn later further.of_nil

/-- Repetitions of a character set take the characters of the set, up to one that is not in it. -/
theorem repeats_one {set : CharSet} (members : ∀ c ∈ taken, set.contains c = true)
    (barred : (Pattern.one set).Barred rest) : (Pattern.one set).Repeats taken rest := by
  induction taken with
  | nil => exact repeats_nil barred rfl
  | cons c taken inductionHypothesis =>
      have takes : (Pattern.one set).Takes True [c] (taken ++ rest) :=
        takes_one (members c List.mem_cons_self)
      exact takes.repeats (List.cons_ne_nil c [])
        (inductionHypothesis fun other member => members other (List.mem_cons_of_mem c member))

/-- The characters left are more than enough for the repetitions of a text. -/
theorem length_lt_of_append (taken rest : List Char) :
    taken.length < (taken ++ rest).length + 1 := by
  rw [List.length_append]
  omega

theorem Repeats.star (repeats : body.Repeats taken rest) :
    (Pattern.star body true).Takes False taken rest := by
  intro number before position seen goOn stop fresh goesOn
  exact repeats number _ before position seen goOn stop (length_lt_of_append taken rest) fresh goesOn

theorem Repeats.plus (repeats : body.Repeats further rest)
    (takes : body.Takes True taken (further ++ rest)) :
    (Pattern.plus body true).Takes False (taken ++ further) rest := by
  intro number before position seen goOn stop fresh goesOn
  rw [List.append_assoc]
  have bodyFresh : Fresh (number + 1) body.choices seen :=
    fresh.part (Nat.le_succ _) (by rw [choices]; omega)
  refine takes _ before position _ _ stop bodyFresh fun middle leaves => ?_
  obtain rfl := leaves.eq_nil
  refine repeats number _ _ _ [] goOn stop (length_lt_of_append further rest) fresh_nil
    fun later further => ?_
  rw [← end_append]
  exact goesOn later further.of_nil

/-- A pattern that is held to the start of a text finds what it takes off the text there. -/
theorem match?_of_takes (takes : body.Takes settled taken rest) :
    (Pattern.concat (.assert .textStart) body).match? (taken ++ rest) =
      some (Utf8.size taken) := by
  have found : body.matchAt 0 (Cursor.start (taken ++ rest)) (fun stop => some stop.position) =
      some (0 + Utf8.size taken) :=
    takes 0 none 0 [] _ _ fresh_nil fun _ _ => rfl
  have held : (Pattern.concat (.assert .textStart) body).matchAt 0 (Cursor.start (taken ++ rest)) =
      body.matchAt 0 (Cursor.start (taken ++ rest)) := rfl
  have anchored : (Pattern.concat (.assert .textStart) body).isAnchored = true := rfl
  rw [match?, if_pos anchored, held, found, Nat.zero_add]

theorem match?_eq_none_of_barred {pattern : Pattern} {text : List Char}
    (anchored : pattern.isAnchored = true) (solid : pattern.isNullable = false)
    (barred : pattern.Barred text) : pattern.match? text = none := by
  rw [match?, if_pos anchored]
  exact matchAt_eq_none_of_barred barred (by simp [solid]) []

section Ends

variable {cursor : Cursor} {stop : Nat} {goOn : Cursor → Option Nat}

/-- Matching goes on from a place further on. -/
def GoesOn (cursor : Cursor) (goOn : Cursor → Option Nat) (stop : Nat) : Prop :=
  ∃ middle, cursor.Reaches middle ∧ goOn middle = some stop

theorem GoesOn.after {middle : Cursor} (reaches : cursor.Reaches middle)
    (goesOn : GoesOn middle goOn stop) : GoesOn cursor goOn stop := by
  obtain ⟨last, others, ends⟩ := goesOn
  exact ⟨last, reaches.trans others, ends⟩

/-- It does not matter for where matching ends which choices have been come to. -/
theorem GoesOn.of_see {number : Nat} (goesOn : GoesOn (cursor.see number) goOn stop) :
    GoesOn cursor goOn stop :=
  goesOn

theorem goesOn_iterate {body : Cursor → (Cursor → Option Nat) → Option Nat} {number : Nat}
    (bodyGoesOn : ∀ {cursor goOn}, body cursor goOn = some stop → GoesOn cursor goOn stop)
    (greedy : Bool) (bound : Nat)
    (found : iterate body number greedy bound cursor goOn = some stop) :
    GoesOn cursor goOn stop := by
  induction bound generalizing cursor with
  | zero => contradiction
  | succ bound inductionHypothesis =>
      rw [iterate] at found
      rcases choose_eq_some found with again | ends
      · obtain ⟨middle, reaches, others⟩ := bodyGoesOn again
        exact .of_see (.after reaches (inductionHypothesis others))
      · exact .of_see ⟨_, .refl _, ends⟩

/-- A match ends further on in the text that it starts in. -/
theorem goesOn_of_matchAt {pattern : Pattern} {number : Nat}
    (found : pattern.matchAt number cursor goOn = some stop) : GoesOn cursor goOn stop := by
  induction pattern generalizing number cursor goOn with
  | empty => exact ⟨cursor, .refl cursor, found⟩
  | one set =>
      unfold matchAt at found
      split at found
      next => contradiction
      next c rest here =>
        split at found
        · exact ⟨_, Cursor.reaches_pass here, found⟩
        · contradiction
  | assert assertion =>
      unfold matchAt at found
      split at found
      · exact ⟨cursor, .refl cursor, found⟩
      · contradiction
  | concat first second firstHypothesis secondHypothesis =>
      obtain ⟨middle, reaches, others⟩ := firstHypothesis found
      exact .after reaches (secondHypothesis others)
  | alternate first second firstHypothesis secondHypothesis =>
      rcases choose_eq_some found with inFirst | inSecond
      · exact .of_see (firstHypothesis inFirst)
      · exact .of_see (secondHypothesis inSecond)
  | star body greedy inductionHypothesis =>
      exact goesOn_iterate (fun found => inductionHypothesis found) greedy _ found
  | plus body greedy inductionHypothesis =>
      obtain ⟨middle, reaches, others⟩ := inductionHypothesis found
      exact .after reaches
        (goesOn_iterate (fun found => inductionHypothesis found) greedy _ others)

/-- A match of a pattern on its own ends behind characters of the text that it starts in. -/
theorem reaches_of_matchAt {pattern : Pattern}
    (found : pattern.matchAt 0 cursor (fun stop => some stop.position) = some stop) :
    ∃ last, cursor.Reaches last ∧ last.position = stop := by
  obtain ⟨last, reaches, same⟩ := goesOn_of_matchAt found
  exact ⟨last, reaches, Option.some.inj same⟩

theorem reaches_of_searchFrom {pattern : Pattern} {text : List Char} {before : Option Char}
    {position : Nat} (found : pattern.searchFrom before position text = some stop) :
    ∃ last, Cursor.Reaches ⟨before, text, position, []⟩ last ∧ last.position = stop := by
  induction text generalizing before position with
  | nil => exact reaches_of_matchAt found
  | cons c rest inductionHypothesis =>
      rcases Option.or_eq_some_iff.mp found with here | ⟨_, further⟩
      · exact reaches_of_matchAt here
      · obtain ⟨last, reaches, ends⟩ := inductionHypothesis further
        have passes : Cursor.Reaches ⟨before, c :: rest, position, []⟩
            ⟨some c, rest, position + c.utf8Size, []⟩ :=
          Cursor.reaches_pass rfl
        exact ⟨last, passes.trans reaches, ends⟩

/-- A match ends behind characters of the text, counted in bytes. -/
theorem exists_taken_of_match? {pattern : Pattern} {text : List Char}
    (found : pattern.match? text = some stop) :
    ∃ taken, taken <+: text ∧ Utf8.size taken = stop := by
  have reached : ∃ last, (Cursor.start text).Reaches last ∧ last.position = stop := by
    unfold match? at found
    split at found
    · exact reaches_of_matchAt found
    · exact reaches_of_searchFrom found
  obtain ⟨last, ⟨passed, parts, position⟩, rfl⟩ := reached
  refine ⟨passed, ⟨last.rest, parts.symm⟩, ?_⟩
  rw [position]
  exact (Nat.zero_add _).symm

end Ends

end Pattern

end EarleyChart
