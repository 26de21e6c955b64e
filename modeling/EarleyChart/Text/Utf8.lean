/-!
Contract: byte arithmetic on the UTF-8 form of a text, carried out on its characters.

A byte offset cuts a text after the last character that ends at or before it, so that every cut
falls on a character boundary and no byte sequence is ever split. `take_append_drop` says that a
cut loses nothing, `size_take_le` that it never goes past the offset.
-/

namespace EarleyChart.Utf8

/-- Bytes that the characters take in UTF-8. -/
def size : List Char → Nat
  | [] => 0
  | c :: rest => c.utf8Size + size rest

/-- The characters that end at or before byte `offset`. -/
def take : Nat → List Char → List Char
  | _, [] => []
  | offset, c :: rest =>
      if c.utf8Size ≤ offset then c :: take (offset - c.utf8Size) rest else []

/-- The characters that end after byte `offset`. -/
def drop : Nat → List Char → List Char
  | _, [] => []
  | offset, c :: rest =>
      if c.utf8Size ≤ offset then drop (offset - c.utf8Size) rest else c :: rest

/-- Largest character boundary at or before `offset`. -/
def floor (offset : Nat) (chars : List Char) : Nat :=
  size (take offset chars)

/-- The characters between two byte offsets, if both are character boundaries in this order. -/
def slice? (first last : Nat) (chars : List Char) : Option (List Char) :=
  if first ≤ last ∧ floor first chars = first ∧ floor last chars = last then
    some (take (last - first) (drop first chars))
  else none

@[simp] theorem size_nil : size [] = 0 := rfl

@[simp] theorem size_cons (c : Char) (rest : List Char) :
    size (c :: rest) = c.utf8Size + size rest := rfl

@[simp] theorem size_append (left right : List Char) :
    size (left ++ right) = size left + size right := by
  induction left with
  | nil => simp
  | cons c rest inductionHypothesis =>
      simp only [List.cons_append, size_cons, inductionHypothesis]
      omega

/-- A cut loses no character. -/
theorem take_append_drop (offset : Nat) (chars : List Char) :
    take offset chars ++ drop offset chars = chars := by
  induction chars generalizing offset with
  | nil => rfl
  | cons c rest inductionHypothesis =>
      by_cases fits : c.utf8Size ≤ offset
      · simp [take, drop, fits, inductionHypothesis]
      · simp [take, drop, fits]

/-- A cut never goes past its offset. -/
theorem size_take_le (offset : Nat) (chars : List Char) :
    size (take offset chars) ≤ offset := by
  induction chars generalizing offset with
  | nil => simp [take]
  | cons c rest inductionHypothesis =>
      by_cases fits : c.utf8Size ≤ offset
      · have tailBound := inductionHypothesis (offset - c.utf8Size)
        simp only [take, fits, ↓reduceIte, size_cons]
        omega
      · simp [take, fits]

theorem floor_le_size (offset : Nat) (chars : List Char) : floor offset chars ≤ size chars := by
  have parts := congrArg size (take_append_drop offset chars)
  rw [size_append] at parts
  unfold floor
  omega

/-- A cut at the end of the first of two parts gives that part. -/
theorem take_size_append (left right : List Char) : take (size left) (left ++ right) = left := by
  induction left with
  | nil =>
      cases right with
      | nil => rfl
      | cons c rest => simp [take, Nat.ne_of_gt c.utf8Size_pos]
  | cons c rest inductionHypothesis => simp [take, inductionHypothesis]

theorem drop_size_append (left right : List Char) : drop (size left) (left ++ right) = right := by
  have whole := take_append_drop (size left) (left ++ right)
  rw [take_size_append] at whole
  exact List.append_cancel_left whole

/-- A cut at the boundary of an offset is the cut at the offset. -/
theorem take_floor (offset : Nat) (chars : List Char) :
    take (floor offset chars) chars = take offset chars := by
  have cut := take_size_append (take offset chars) (drop offset chars)
  rwa [take_append_drop] at cut

theorem drop_floor (offset : Nat) (chars : List Char) :
    drop (floor offset chars) chars = drop offset chars := by
  have cut := drop_size_append (take offset chars) (drop offset chars)
  rwa [take_append_drop] at cut

/-- Between the ends of the first and the second of three parts lies the second one. -/
theorem slice?_size_append (left middle right : List Char) :
    slice? (size left) (size left + size middle) (left ++ middle ++ right) = some middle := by
  have first : floor (size left) (left ++ middle ++ right) = size left := by
    rw [floor, List.append_assoc, take_size_append]
  have last : floor (size left + size middle) (left ++ middle ++ right) =
      size left + size middle := by
    rw [floor, ← size_append, take_size_append]
  rw [slice?, if_pos ⟨Nat.le_add_right _ _, first, last⟩, Nat.add_sub_cancel_left, List.append_assoc,
    drop_size_append, take_size_append]

theorem size_pos {chars : List Char} (something : chars ≠ []) : 0 < size chars := by
  cases chars with
  | nil => exact absurd rfl something
  | cons c rest => exact Nat.lt_of_lt_of_le c.utf8Size_pos (Nat.le_add_right _ _)

/-- Of two starts of a text, the longer one takes more bytes. -/
theorem size_lt_of_length_lt {first second chars : List Char} (firstStarts : first <+: chars)
    (secondStarts : second <+: chars) (shorter : first.length < second.length) :
    size first < size second := by
  obtain ⟨others, rfl⟩ :=
    List.prefix_of_prefix_length_le firstStarts secondStarts (Nat.le_of_lt shorter)
  have something : others ≠ [] := by
    rintro rfl
    simp at shorter
  have positive := size_pos something
  rw [size_append]
  omega

/-- A start of a text is known by its bytes. -/
theorem eq_of_size_eq {first second chars : List Char} (firstStarts : first <+: chars)
    (secondStarts : second <+: chars) (same : size first = size second) : first = second := by
  obtain ⟨afterFirst, rfl⟩ := firstStarts
  obtain ⟨afterSecond, parts⟩ := secondStarts
  rw [← take_size_append first afterFirst, same, ← parts, take_size_append]

/-- Two cuts with no boundary between their offsets are the same. -/
theorem take_eq_take {lower upper : Nat} {chars : List Char} (ordered : lower ≤ upper)
    (within : floor upper chars ≤ lower) : take lower chars = take upper chars := by
  unfold floor at within
  induction chars generalizing lower upper with
  | nil => rfl
  | cons c rest inductionHypothesis =>
      by_cases fits : c.utf8Size ≤ upper
      · simp only [take, fits, if_true, size_cons] at within ⊢
        have fitsLower : c.utf8Size ≤ lower := by omega
        have shorter : lower - c.utf8Size ≤ upper - c.utf8Size := by omega
        rw [if_pos fitsLower, inductionHypothesis shorter (by omega)]
      · have exceeds : ¬c.utf8Size ≤ lower := by omega
        simp [take, fits, exceeds]

theorem take_of_size_le {offset : Nat} {chars : List Char} (whole : size chars ≤ offset) :
    take offset chars = chars := by
  rw [← take_eq_take whole (floor_le_size offset chars)]
  simpa using take_size_append chars []

/-- An offset past the first of two parts cuts the second. -/
theorem take_size_add (left right : List Char) (offset : Nat) :
    take (size left + offset) (left ++ right) = left ++ take offset right := by
  induction left with
  | nil => simp
  | cons c rest inductionHypothesis =>
      have fits : c.utf8Size ≤ size (c :: rest) + offset := by
        rw [size_cons]
        omega
      have remaining : size (c :: rest) + offset - c.utf8Size = size rest + offset := by
        rw [size_cons]
        omega
      rw [List.cons_append, take, if_pos fits, remaining, inductionHypothesis, List.cons_append]

/-- An offset within the first of two parts cuts that part. -/
theorem take_append_of_le_size {left right : List Char} {offset : Nat} (within : offset ≤ size left) :
    take offset (left ++ right) = take offset left := by
  induction left generalizing offset with
  | nil =>
      obtain rfl := Nat.le_zero.mp within
      exact take_size_append [] right
  | cons c rest inductionHypothesis =>
      rw [size_cons] at within
      rw [List.cons_append, take, take]
      by_cases fits : c.utf8Size ≤ offset
      · rw [if_pos fits, if_pos fits, inductionHypothesis (by omega)]
      · rw [if_neg fits, if_neg fits]

end EarleyChart.Utf8
