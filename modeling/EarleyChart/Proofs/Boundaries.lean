import EarleyChart.Proofs.Positions
import EarleyChart.Source.Checked

/-!
Contract: the cuts of a text at byte offsets, made on its bytes, are those made on its characters.

Stepping back to a boundary, looking for the line breaks around an offset and counting its line and
column meet no fault at any offset, inside the text or not, and come to what is found on characters
(`Checked.floor_eq`, `Checked.lineBounds_eq`, `Checked.position_eq`).
-/

namespace EarleyChart

namespace Source

/-- What follows the first line starts with a line break. -/
theorem exists_firstLine (text : List Char) : ∃ tail, text = firstLine text ++ tail ∧
    (tail = [] ∨ ∃ lines, tail = '\n' :: lines) := by
  refine ⟨text.dropWhile (· != '\n'), List.takeWhile_append_dropWhile.symm, ?_⟩
  cases behind : text.dropWhile (· != '\n') with
  | nil => exact .inl rfl
  | cons first rest =>
      have stops := List.head?_dropWhile_not (· != '\n') text
      rw [behind] at stops
      have isBreak : first = '\n' := by simpa using stops
      exact .inr ⟨rest, by rw [isBreak]⟩

theorem not_mem_firstLine (text : List Char) : '\n' ∉ firstLine text := by
  intro broken
  have passed := List.mem_takeWhile_imp broken
  simp at passed

/-- What precedes the last line ends with a line break. -/
theorem exists_lastLine (text : List Char) : ∃ head, text = head ++ lastLine text ∧
    (head = [] ∨ ∃ lines, head = lines ++ ['\n']) := by
  -- Backwards the last line is the first one.
  obtain ⟨tail, parts, ends⟩ := exists_firstLine text.reverse
  refine ⟨tail.reverse, ?_, ?_⟩
  · change text = tail.reverse ++ (firstLine text.reverse).reverse
    rw [← List.reverse_append, ← parts, List.reverse_reverse]
  · rcases ends with rfl | ⟨lines, rfl⟩
    · exact .inl rfl
    · exact .inr ⟨lines.reverse, List.reverse_cons⟩

theorem not_mem_lastLine (text : List Char) : '\n' ∉ lastLine text :=
  fun broken => not_mem_firstLine text.reverse (List.mem_reverse.mp broken)

end Source

namespace Checked

variable {text : List Char} {offset : Nat}

@[simp] theorem bytes_nil : bytes [] = [] := rfl

theorem bytes_cons (c : Char) (rest : List Char) :
    bytes (c :: rest) = String.utf8EncodeChar c ++ bytes rest := rfl

theorem bytes_append (left right : List Char) : bytes (left ++ right) = bytes left ++ bytes right :=
  List.flatMap_append

theorem length_bytes (text : List Char) : (bytes text).length = Utf8.size text := by
  induction text with
  | nil => rfl
  | cons c rest inductionHypothesis =>
      rw [bytes_cons, List.length_append, String.length_utf8EncodeChar, inductionHypothesis,
        Utf8.size_cons]

/-- Only a line break has the byte of one. -/
theorem lineFeed_mem_encode {c : Char} : lineFeed ∈ String.utf8EncodeChar c ↔ c = '\n' := by
  constructor
  · intro member
    have coded : c.val.toNat = 10 := by
      unfold String.utf8EncodeChar at member
      generalize c.val.toNat = code at member ⊢
      -- The bytes of the longer forms are all above those of one byte.
      simp only at member
      split_ifs at member <;> simp [lineFeed, ← UInt8.toNat_inj] at member <;> omega
    exact Char.ext (UInt32.toNat_inj.mp coded)
  · rintro rfl
    decide

theorem lineFeed_mem_bytes : lineFeed ∈ bytes text ↔ '\n' ∈ text := by
  rw [bytes, List.mem_flatMap]
  constructor
  · rintro ⟨c, member, broken⟩
    exact lineFeed_mem_encode.mp broken ▸ member
  · intro member
    exact ⟨'\n', member, by decide⟩

theorem count_lineFeed (text : List Char) : (bytes text).count lineFeed = text.count '\n' := by
  induction text with
  | nil => rfl
  | cons c rest inductionHypothesis =>
      rw [bytes_cons, List.count_append, inductionHypothesis, List.count_cons, Nat.add_comm]
      by_cases isBreak : c = '\n'
      · subst isBreak
        rfl
      · rw [List.count_eq_zero.mpr (mt lineFeed_mem_encode.mp isBreak)]
        simp [isBreak]

/-- Cut at any offset, the bytes of a text are those of the characters before it and the bytes of a
part of the next one, which has no line break in it. -/
theorem exists_part (text : List Char) (offset : Nat) : ∃ part, lineFeed ∉ part ∧
    (bytes text).take offset = bytes (Utf8.take offset text) ++ part ∧
    bytes (Utf8.drop offset text) = part ++ (bytes text).drop offset := by
  induction text generalizing offset with
  | nil => exact ⟨[], List.not_mem_nil, by simp [Utf8.take], by simp [Utf8.drop]⟩
  | cons c rest inductionHypothesis =>
      have length := String.length_utf8EncodeChar c
      rw [bytes_cons]
      by_cases fits : c.utf8Size ≤ offset
      · obtain ⟨part, unbroken, before, after⟩ := inductionHypothesis (offset - c.utf8Size)
        have whole : (String.utf8EncodeChar c).length ≤ offset := length ▸ fits
        refine ⟨part, unbroken, ?_, ?_⟩
        · rw [Utf8.take, if_pos fits, bytes_cons, List.take_append, List.take_of_length_le whole,
            length, before, List.append_assoc]
        · rw [Utf8.drop, if_pos fits, after, List.drop_append, List.drop_eq_nil_of_le whole,
            length, List.nil_append]
      · have inside : offset ≤ (String.utf8EncodeChar c).length := by omega
        refine ⟨(String.utf8EncodeChar c).take offset, ?_, ?_, ?_⟩
        · intro broken
          obtain rfl := lineFeed_mem_encode.mp (List.mem_of_mem_take broken)
          have none : offset = 0 := Nat.lt_one_iff.mp (Nat.lt_of_not_le fits)
          simp [none] at broken
        · rw [Utf8.take, if_neg fits, List.take_append_of_le_length inside]
          rfl
        · rw [Utf8.drop, if_neg fits, bytes_cons, List.drop_append_of_le_length inside,
            ← List.append_assoc, List.take_append_drop]

/-- The bytes before an offset have the line breaks of the characters before it. -/
theorem count_lineFeed_take (text : List Char) (offset : Nat) :
    ((bytes text).take offset).count lineFeed = (Utf8.take offset text).count '\n' := by
  obtain ⟨part, unbroken, before, _⟩ := exists_part text offset
  rw [before, List.count_append, count_lineFeed, List.count_eq_zero.mpr unbroken, Nat.add_zero]

theorem isBoundary_iff (text : List Char) (offset : Nat) :
    isBoundary text offset = true ↔ Utf8.floor offset text = offset := by
  induction text generalizing offset with
  | nil =>
      change (offset == 0) = true ↔ 0 = offset
      rw [beq_iff_eq, eq_comm]
  | cons c rest inductionHypothesis =>
      have length := String.length_utf8EncodeChar c
      by_cases fits : c.utf8Size ≤ offset
      · have beyond : isBoundary (c :: rest) offset = isBoundary rest (offset - c.utf8Size) := by
          unfold isBoundary
          rw [bytes_cons, List.getElem?_append_right (length ▸ fits), length, List.length_append,
            length]
          cases (bytes rest)[offset - c.utf8Size]? with
          | some byte => rfl
          | none =>
              simp only [beq_eq_beq]
              omega
        rw [beyond, inductionHypothesis, Utf8.floor, Utf8.floor, Utf8.take, if_pos fits,
          Utf8.size_cons]
        omega
      · have inside : offset < (String.utf8EncodeChar c).length := by omega
        have within : isBoundary (c :: rest) offset = true ↔ offset = 0 := by
          unfold isBoundary
          rw [bytes_cons, List.getElem?_append_left inside, List.getElem?_eq_getElem inside]
          simp only [decide_eq_true_eq, UInt8.isUTF8FirstByte_getElem_utf8EncodeChar]
        rw [within, Utf8.floor, Utf8.take, if_neg fits, Utf8.size_nil, eq_comm]

/-- Stepping back finds the boundary at or before an offset. -/
theorem stepBack_eq (text : List Char) {offset : Nat} (inside : offset ≤ Utf8.size text) :
    stepBack text offset = .ok (Utf8.floor offset text) := by
  induction offset with
  | zero =>
      have start : Utf8.floor 0 text = 0 := Nat.le_zero.mp (Utf8.size_take_le 0 text)
      rw [stepBack, if_pos ((isBoundary_iff text 0).mpr start), start]
  | succ offset inductionHypothesis =>
      rw [stepBack]
      by_cases boundary : isBoundary text (offset + 1)
      · rw [if_pos boundary, (isBoundary_iff text _).mp boundary]
      · have between : Utf8.floor (offset + 1) text ≤ offset := by
          have different := mt (isBoundary_iff text (offset + 1)).mpr boundary
          have below : Utf8.floor (offset + 1) text ≤ offset + 1 := Utf8.size_take_le _ _
          omega
        rw [if_neg boundary, inductionHypothesis (by omega), Utf8.floor,
          Utf8.take_eq_take (Nat.le_succ offset) between]
        rfl

/-- An offset past the end cuts as the end does. -/
theorem take_min (text : List Char) (offset : Nat) :
    Utf8.take (min offset (Utf8.size text)) text = Utf8.take offset text := by
  apply Utf8.take_eq_take (Nat.min_le_left _ _)
  exact Nat.le_min.mpr ⟨Utf8.size_take_le offset text, Utf8.floor_le_size offset text⟩

theorem drop_min (text : List Char) (offset : Nat) :
    Utf8.drop (min offset (Utf8.size text)) text = Utf8.drop offset text := by
  have parts := Utf8.take_append_drop (min offset (Utf8.size text)) text
  rw [take_min] at parts
  exact List.append_cancel_left (parts.trans (Utf8.take_append_drop offset text).symm)

theorem floor_eq (text : List Char) (offset : Nat) :
    floor text offset = .ok (Utf8.floor offset text) := by
  rw [floor, length_bytes, stepBack_eq text (Nat.min_le_right _ _), Utf8.floor, take_min]
  rfl

theorem get?_eq (text : List Char) (first last : Nat) :
    get? text first last = Utf8.slice? first last text := by
  simp only [get?, Utf8.slice?, isBoundary_iff]

theorem slice_eq {text part : List Char} {first last : Nat}
    (sliced : Utf8.slice? first last text = some part) : slice text first last = .ok part := by
  rw [slice, get?_eq, sliced]

section Lines

variable {head tail : List UInt8}

theorem findIdx?_of_not_mem (unbroken : lineFeed ∉ head) :
    head.findIdx? (· == lineFeed) = none := by
  rw [List.findIdx?_eq_none_iff]
  intro byte member
  exact beq_false_of_ne fun same => unbroken (same ▸ member)

theorem findIdx?_of_parts (unbroken : lineFeed ∉ head) :
    (head ++ lineFeed :: tail).findIdx? (· == lineFeed) = some head.length := by
  rw [List.findIdx?_append, findIdx?_of_not_mem unbroken, List.findIdx?_cons]
  simp

theorem lastLineStart_of_not_mem (unbroken : lineFeed ∉ head) : lastLineStart head = 0 := by
  rw [lastLineStart, findIdx?_of_not_mem (mt List.mem_reverse.mp unbroken)]

theorem lastLineStart_of_parts (unbroken : lineFeed ∉ tail) :
    lastLineStart (head ++ lineFeed :: tail) = head.length + 1 := by
  have backwards : (head ++ lineFeed :: tail).reverse = tail.reverse ++ lineFeed :: head.reverse := by
    simp
  rw [lastLineStart, backwards, findIdx?_of_parts (mt List.mem_reverse.mp unbroken)]
  simp only [List.length_append, List.length_cons, List.length_reverse]
  omega

/-- Before an offset the last line starts behind the last line break. -/
theorem lastLineStart_take (text : List Char) (offset : Nat) :
    lastLineStart ((bytes text).take offset) =
      Utf8.size (Utf8.take offset text) - Utf8.size (Source.lastLine (Utf8.take offset text)) := by
  obtain ⟨part, unbroken, before, _⟩ := exists_part text offset
  obtain ⟨head, parts, starts⟩ := Source.exists_lastLine (Utf8.take offset text)
  have unbrokenLine := mt lineFeed_mem_bytes.mp (Source.not_mem_lastLine (Utf8.take offset text))
  have size := congrArg Utf8.size parts
  rw [Utf8.size_append] at size
  rcases starts with rfl | ⟨lines, rfl⟩
  · rw [List.nil_append] at parts
    rw [before, ← parts, Nat.sub_self]
    apply lastLineStart_of_not_mem
    rw [parts]
    exact fun broken => (List.mem_append.mp broken).elim unbrokenLine unbroken
  · have cut : bytes (Utf8.take offset text) ++ part = bytes lines ++
        lineFeed :: (bytes (Source.lastLine (Utf8.take offset text)) ++ part) := by
      rw [congrArg bytes parts, bytes_append, bytes_append, List.append_assoc, List.append_assoc]
      rfl
    have behind : lineFeed ∉ bytes (Source.lastLine (Utf8.take offset text)) ++ part :=
      fun broken => (List.mem_append.mp broken).elim unbrokenLine unbroken
    have lineBreak : Utf8.size (lines ++ ['\n']) = Utf8.size lines + 1 := Utf8.size_append _ _
    rw [before, cut, lastLineStart_of_parts behind, length_bytes]
    omega

/-- Behind an offset the line ends at the next line break, or at the end of the text. -/
theorem lineEnd_drop (text : List Char) {offset : Nat} (inside : offset ≤ Utf8.size text) :
    (match ((bytes text).drop offset).findIdx? (· == lineFeed) with
      | some length => offset + length
      | none => (bytes text).length) =
      Utf8.size (Utf8.take offset text) + Utf8.size (Source.firstLine (Utf8.drop offset text)) := by
  obtain ⟨part, unbroken, before, after⟩ := exists_part text offset
  obtain ⟨tail, parts, ends⟩ := Source.exists_firstLine (Utf8.drop offset text)
  have unbrokenLine := mt lineFeed_mem_bytes.mp (Source.not_mem_firstLine (Utf8.drop offset text))
  have whole := congrArg Utf8.size (Utf8.take_append_drop offset text)
  have size := congrArg Utf8.size parts
  rw [Utf8.size_append] at whole size
  have reached := congrArg List.length before
  rw [List.length_append, List.length_take, length_bytes, length_bytes, Nat.min_eq_left inside]
    at reached
  have found : ((bytes (Utf8.drop offset text)).findIdx? (· == lineFeed)) =
      (((bytes text).drop offset).findIdx? (· == lineFeed)).map (· + part.length) := by
    rw [after, List.findIdx?_append, findIdx?_of_not_mem unbroken, Option.none_or]
  rcases ends with rfl | ⟨lines, rfl⟩
  · rw [List.append_nil] at parts
    rw [← parts] at unbrokenLine
    rw [findIdx?_of_not_mem unbrokenLine, eq_comm, Option.map_eq_none_iff] at found
    rw [found]
    simp only [length_bytes, Utf8.size_nil] at size ⊢
    omega
  · have cut : bytes (Utf8.drop offset text) =
        bytes (Source.firstLine (Utf8.drop offset text)) ++ lineFeed :: bytes lines := by
      rw [congrArg bytes parts, bytes_append]
      rfl
    rw [cut, findIdx?_of_parts unbrokenLine, length_bytes, eq_comm, Option.map_eq_some_iff] at found
    obtain ⟨length, found, counted⟩ := found
    rw [found]
    simp only
    omega

end Lines

theorem lineBounds_eq (source : String) (offset : Nat) :
    lineBounds source.toList offset = .ok (Source.lineBounds source offset) := by
  have inside := Nat.min_le_right offset (Utf8.size source.toList)
  have before := lastLineStart_take source.toList (min offset (Utf8.size source.toList))
  have after := lineEnd_drop source.toList inside
  rw [take_min] at before after
  rw [drop_min] at after
  unfold lineBounds bytesBefore bytesFrom
  simp only [length_bytes, inside, if_true, Source.lineBounds] at before after ⊢
  rw [← before, ← after]
  rfl

/-- The line of an offset up to it is the part of the text between its start and the offset. -/
theorem slice?_lastLine (text : List Char) (offset : Nat) :
    Utf8.slice? (Utf8.size (Utf8.take offset text) - Utf8.size (Source.lastLine (Utf8.take offset text)))
      (Utf8.floor offset text) text = some (Source.lastLine (Utf8.take offset text)) := by
  obtain ⟨head, parts, _⟩ := Source.exists_lastLine (Utf8.take offset text)
  have size := congrArg Utf8.size parts
  rw [Utf8.size_append] at size
  have sliced := Utf8.slice?_size_append head (Source.lastLine (Utf8.take offset text))
    (Utf8.drop offset text)
  rw [← parts, Utf8.take_append_drop, ← size] at sliced
  rw [Nat.sub_eq_of_eq_add size, Utf8.floor]
  exact sliced

theorem position_eq (source : String) (offset : Nat) :
    position source.toList offset = .ok (Position.ofOffset source offset) := by
  have inside := Utf8.floor_le_size offset source.toList
  have start := lastLineStart_take source.toList (Utf8.floor offset source.toList)
  have line := slice_eq (slice?_lastLine source.toList offset)
  have counted := count_lineFeed_take source.toList (Utf8.floor offset source.toList)
  rw [Utf8.take_floor] at start counted
  unfold position bytesBefore
  rw [floor_eq]
  simp only [bind, Except.bind, length_bytes, inside, if_true, start, line, counted]
  rfl

end Checked

end EarleyChart
