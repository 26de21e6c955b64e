import EarleyChart.Proofs.Literals

/-!
Contract: a literal spells the lossy UTF-16 decoding of its expanded text.

`Literal.Expands` puts the escapes of a text into UTF-16 units, one rule for each way in which a text can
go on; it does so in one way only (`Expands.unique`). A reader that resolves escapes as it goes has to
look ahead for the partner of a high surrogate, and `Literal.unescape_of_expands` says that this comes to
the same as decoding the units afterwards. `Literal.Spells` are the string literals of JSON.
-/

namespace EarleyChart

namespace Utf16

variable {unit high low : Nat} {units rest : List Nat}

theorem isHigh_iff : isHigh unit = true ↔ 0xD800 ≤ unit ∧ unit < 0xDC00 := by
  simp [isHigh]

theorem isLow_iff : isLow unit = true ↔ 0xDC00 ≤ unit ∧ unit < 0xE000 := by
  simp [isLow]

theorem isHigh_eq_false_of_isLow (isLow : isLow unit = true) : isHigh unit = false := by
  rw [isLow_iff] at isLow
  rw [Bool.eq_false_iff, Ne, isHigh_iff]
  omega

/-- The code of a character is no surrogate. -/
theorem not_surrogate (c : Char) : isHigh c.toNat = false ∧ isLow c.toNat = false := by
  have valid : c.toNat < 0xD800 ∨ 0xDFFF < c.toNat ∧ c.toNat < 0x110000 := c.valid
  simp only [Bool.eq_false_iff, Ne, isHigh_iff, isLow_iff]
  omega

/-- A character is one unit, which is no surrogate, or a high surrogate and a low one. -/
theorem units_cases (c : Char) :
    Utf16.units c = [c.toNat] ∨
      ∃ high low, Utf16.units c = [high, low] ∧ isHigh high = true ∧ isLow low = true ∧
        pair high low = c := by
  have valid : c.toNat < 0xD800 ∨ 0xDFFF < c.toNat ∧ c.toNat < 0x110000 := c.valid
  by_cases basic : c.toNat < 0x10000
  · exact .inl (if_pos basic)
  · refine .inr ⟨_, _, if_neg basic, isHigh_iff.mpr (by omega), isLow_iff.mpr (by omega), ?_⟩
    have code : 0x10000 + (0xD800 + (c.toNat - 0x10000) / 0x400 - 0xD800) * 0x400 +
        (0xDC00 + (c.toNat - 0x10000) % 0x400 - 0xDC00) = c.toNat := by
      omega
    rw [pair, code, Char.ofNat_toNat]

theorem decode_pair (isHigh : isHigh high = true) (isLow : isLow low = true) :
    decode (high :: low :: rest) = pair high low :: decode rest := by
  rw [decode, if_pos (by rw [isHigh, isLow]; rfl)]

/-- A unit that does not start a pair is decoded alone. -/
theorem decode_single
    (unpaired : ∀ {low others}, rest = low :: others → isHigh unit = true → isLow low = false) :
    decode (unit :: rest) = single unit :: decode rest := by
  cases rest with
  | nil => rfl
  | cons low others =>
      rw [decode]
      apply if_neg
      intro paired
      obtain ⟨isHigh, isLow⟩ := Bool.and_eq_true_iff.mp paired
      rw [unpaired rfl isHigh] at isLow
      contradiction

/-- A low surrogate starts no pair. -/
theorem decode_of_isLow (isLow : isLow low = true) :
    decode (low :: rest) = single low :: decode rest := by
  apply decode_single
  intro _ _ _ isHigh
  rw [isHigh_eq_false_of_isLow isLow] at isHigh
  contradiction

/-- The units of a character decode to it, whatever follows. -/
theorem decode_units_append (c : Char) (rest : List Nat) :
    decode (Utf16.units c ++ rest) = c :: decode rest := by
  obtain ⟨notHigh, notLow⟩ := not_surrogate c
  rcases units_cases c with alone | ⟨high, low, two, isHigh, isLow, same⟩
  · rw [alone, List.singleton_append, decode_single (by simp [notHigh]), single, notHigh, notLow]
    simp
  · rw [two]
    change decode (high :: low :: rest) = c :: decode rest
    rw [decode_pair isHigh isLow, same]

theorem decode_flatMap_units (chars : List Char) : decode (chars.flatMap Utf16.units) = chars := by
  induction chars with
  | nil => rfl
  | cons c rest inductionHypothesis =>
      rw [List.flatMap_cons, decode_units_append, inductionHypothesis]

/-- The units of a character do not begin with a low surrogate. -/
theorem not_isLow_of_units {c : Char} (parts : Utf16.units c ++ rest = low :: units) :
    isLow low = false := by
  rcases units_cases c with alone | ⟨high, _, two, isHigh, _, _⟩
  · rw [alone] at parts
    obtain ⟨rfl, _⟩ := List.cons.inj parts
    exact (not_surrogate c).2
  · rw [two] at parts
    obtain ⟨rfl, _⟩ := List.cons.inj parts
    rw [isHigh_iff] at isHigh
    rw [Bool.eq_false_iff, Ne, isLow_iff]
    omega

end Utf16

namespace Literal

/-- A digit of either case for a number below sixteen. -/
def IsDigitOf (c : Char) (value : Nat) : Prop :=
  value < 16 ∧ (c = value.digitChar ∨ c = value.digitChar.toUpper)

instance (c : Char) (value : Nat) : Decidable (IsDigitOf c value) :=
  inferInstanceAs (Decidable (_ ∧ _))

/-- Four hexadecimal digits write a number. -/
def Writes (a b c d : Char) (unit : Nat) : Prop :=
  ∃ first second third fourth, IsDigitOf a first ∧ IsDigitOf b second ∧ IsDigitOf c third ∧
    IsDigitOf d fourth ∧ unit = ((first * 16 + second) * 16 + third) * 16 + fourth

/-- The marks of the escapes that name control characters. -/
def controls : List (Char × Char) :=
  [('n', '\n'), ('t', '\t'), ('r', '\r'), ('b', '\x08'), ('f', '\x0c')]

/-- The units that a text has when its escapes are expanded from left to right. -/
inductive Expands : List Char → List Nat → Prop where
  | nil : Expands [] []
  | raw {c : Char} {rest : List Char} {units : List Nat} (plain : c ≠ '\\')
      (further : Expands rest units) : Expands (c :: rest) (Utf16.units c ++ units)
  | control {mark c : Char} {rest : List Char} {units : List Nat} (named : (mark, c) ∈ controls)
      (further : Expands rest units) : Expands ('\\' :: mark :: rest) (Utf16.units c ++ units)
  | unit {a b c d : Char} {unit : Nat} {rest : List Char} {units : List Nat}
      (digits : Writes a b c d unit) (further : Expands rest units) :
      Expands ('\\' :: 'u' :: a :: b :: c :: d :: rest) (unit :: units)
  | broken {rest : List Char} {units : List Nat}
      (noDigits : ∀ {a b c d unit others}, rest = a :: b :: c :: d :: others →
        ¬ Writes a b c d unit)
      (further : Expands rest units) :
      Expands ('\\' :: 'u' :: rest) (Utf16.units '\\' ++ (Utf16.units 'u' ++ units))
  | other {c : Char} {rest : List Char} {units : List Nat} (notUnit : c ≠ 'u')
      (unnamed : c ∉ controls.map Prod.fst) (further : Expands rest units) :
      Expands ('\\' :: c :: rest) (Utf16.units c ++ units)
  | lone : Expands ['\\'] (Utf16.units '\\')

/-- What stands between the quote marks of a text, or the text if it has no such marks. -/
inductive Inner : List Char → List Char → Prop where
  | quoted {inner : List Char} : Inner ('"' :: inner ++ ['"']) inner
  | bare {text : List Char} (unquoted : ∀ inner, text ≠ '"' :: inner ++ ['"']) : Inner text text

/-- The marks of the escapes that name one character in JSON. -/
def marks : List (Char × Char) :=
  [('"', '"'), ('\\', '\\'), ('/', '/')] ++ controls

/-- The body of a string literal of JSON spells a text. -/
inductive Spells : List Char → List Char → Prop where
  | nil : Spells [] []
  | raw {c : Char} {body text : List Char} (plain : c ≠ '\\') (notQuote : c ≠ '"')
      (printable : 0x20 ≤ c.toNat) (further : Spells body text) : Spells (c :: body) (c :: text)
  | short {mark c : Char} {body text : List Char} (named : (mark, c) ∈ marks)
      (further : Spells body text) : Spells ('\\' :: mark :: body) (c :: text)
  | unit {a b c d character : Char} {body text : List Char}
      (digits : Writes a b c d character.toNat) (further : Spells body text) :
      Spells ('\\' :: 'u' :: a :: b :: c :: d :: body) (character :: text)
  | pair {a b c d e f g h character : Char} {high low : Nat} {body text : List Char}
      (units : Utf16.units character = [high, low]) (highDigits : Writes a b c d high)
      (lowDigits : Writes e f g h low) (further : Spells body text) :
      Spells ('\\' :: 'u' :: a :: b :: c :: d :: '\\' :: 'u' :: e :: f :: g :: h :: body)
        (character :: text)

section Digits

variable {a b c d : Char} {unit value : Nat}

theorem hexDigit?_digitChar : ∀ value < 16, hexDigit? value.digitChar = some value ∧
    hexDigit? value.digitChar.toUpper = some value := by
  decide

/-- Characters of one range are digits of numbers that follow each other. -/
theorem isDigitOf_of_range {first last : Char} (least : Nat)
    (digits : ∀ offset ≤ last.toNat - first.toNat,
      IsDigitOf (Char.ofNat (first.toNat + offset)) (offset + least))
    (bounds : first ≤ c ∧ c ≤ last) : IsDigitOf c (c.toNat - first.toNat + least) := by
  have lower : first.toNat ≤ c.toNat := UInt32.le_iff_toNat_le.mp bounds.1
  have upper : c.toNat ≤ last.toNat := UInt32.le_iff_toNat_le.mp bounds.2
  have digit := digits (c.toNat - first.toNat) (by omega)
  rwa [Nat.add_sub_cancel' lower, Char.ofNat_toNat] at digit

theorem hexDigit?_eq_some_iff : hexDigit? c = some value ↔ IsDigitOf c value := by
  constructor
  · intro read
    unfold hexDigit? at read
    split at read
    next decimal =>
      obtain rfl := Option.some.inj read
      exact isDigitOf_of_range 0 (by decide) decimal
    next =>
      split at read
      next small =>
        obtain rfl := Option.some.inj read
        exact isDigitOf_of_range 10 (by decide) small
      next =>
        split at read
        next capital =>
          obtain rfl := Option.some.inj read
          exact isDigitOf_of_range 10 (by decide) capital
        next => contradiction
  · intro digit
    obtain ⟨small, rfl | rfl⟩ := digit
    · exact (hexDigit?_digitChar value small).1
    · exact (hexDigit?_digitChar value small).2

theorem hexUnit?_eq_some_iff : hexUnit? a b c d = some unit ↔ Writes a b c d unit := by
  simp only [hexUnit?, Writes, ← hexDigit?_eq_some_iff, Option.bind_eq_bind, Option.pure_def,
    Option.bind_eq_some_iff, Option.some.injEq]
  constructor
  · intro read
    obtain ⟨first, isFirst, second, isSecond, third, isThird, fourth, isFourth, rfl⟩ := read
    exact ⟨first, second, third, fourth, isFirst, isSecond, isThird, isFourth, by omega⟩
  · intro digits
    obtain ⟨first, second, third, fourth, isFirst, isSecond, isThird, isFourth, rfl⟩ := digits
    exact ⟨first, isFirst, second, isSecond, third, isThird, fourth, isFourth, by omega⟩

theorem Writes.unique {other : Nat} (writes : Writes a b c d unit)
    (otherWrites : Writes a b c d other) : other = unit := by
  rw [← hexUnit?_eq_some_iff] at writes otherWrites
  exact Option.some.inj (otherWrites.symm.trans writes)

theorem Writes.lt (writes : Writes a b c d unit) : unit < 0x10000 := by
  obtain ⟨first, second, third, fourth, isFirst, isSecond, isThird, isFourth, rfl⟩ := writes
  have firstSmall := isFirst.1
  have secondSmall := isSecond.1
  have thirdSmall := isThird.1
  have fourthSmall := isFourth.1
  omega

end Digits

section Reading

variable {a b c d e f g h mark : Char} {unit low : Nat} {text rest beyond : List Char}
  {units : List Nat}

theorem unescape_simple (notUnit : c ≠ 'u') (rest : List Char) :
    unescape ('\\' :: c :: rest) = simpleEscape c :: unescape rest := by
  rw [unescape]
  · simp [notUnit]
  · exact notUnit

theorem unescape_broken
    (noDigits : ∀ {a b c d unit others}, rest = a :: b :: c :: d :: others →
      ¬ Writes a b c d unit) :
    unescape ('\\' :: 'u' :: rest) = '\\' :: 'u' :: unescape rest := by
  by_cases four : ∃ a b c d others, rest = a :: b :: c :: d :: others
  · obtain ⟨a, b, c, d, others, rfl⟩ := four
    cases read : hexUnit? a b c d with
    | none => rw [unescape, read]
    | some unit => exact absurd (hexUnit?_eq_some_iff.mp read) (noDigits rfl)
  · rw [unescape]
    simpa using four

theorem unescape_paired (read : hexUnit? a b c d = some unit) (isHigh : Utf16.isHigh unit = true)
    (readLow : lowUnit? e f g h = some low) :
    unescape ('\\' :: 'u' :: a :: b :: c :: d :: '\\' :: 'u' :: e :: f :: g :: h :: beyond) =
      Utf16.pair unit low :: unescape beyond := by
  rw [unescape.eq_def]
  simp only [read, isHigh, ↓reduceIte, readLow]

end Reading

section Expanding

variable {a b c d : Char} {unit low : Nat} {text rest : List Char} {units : List Nat}

theorem controls_unique : ∀ entry ∈ controls, ∀ other ∈ controls,
    entry.1 = other.1 → entry.2 = other.2 := by
  decide

theorem simpleEscape_control : ∀ entry ∈ controls, simpleEscape entry.1 = entry.2 := by
  decide

theorem simpleEscape_unnamed (unnamed : c ∉ controls.map Prod.fst) : simpleEscape c = c := by
  unfold simpleEscape
  split <;> simp_all [controls]

theorem not_control_unit : ∀ entry ∈ controls, entry.1 ≠ 'u' := by
  decide

/-- Every text can be expanded. By induction on its length: an escape takes several characters. -/
theorem exists_expands (text : List Char) : ∃ units, Expands text units := by
  induction bound : text.length using Nat.strongRecOn generalizing text with
  | ind length inductionHypothesis =>
      subst bound
      have shorter {rest : List Char} (less : rest.length < text.length) :
          ∃ units, Expands rest units :=
        inductionHypothesis rest.length less rest rfl
      cases text with
      | nil => exact ⟨_, .nil⟩
      | cons c rest =>
          by_cases plain : c = '\\'
          · subst plain
            cases rest with
            | nil => exact ⟨_, .lone⟩
            | cons mark rest =>
                obtain ⟨units, further⟩ : ∃ units, Expands rest units := by
                  apply shorter
                  simp only [List.length_cons]
                  omega
                by_cases isUnit : mark = 'u'
                · subst isUnit
                  by_cases digits : ∃ a b c d unit others,
                      rest = a :: b :: c :: d :: others ∧ Writes a b c d unit
                  · obtain ⟨a, b, c, d, unit, others, rfl, writes⟩ := digits
                    obtain ⟨units, further⟩ : ∃ units, Expands others units := by
                      apply shorter
                      simp only [List.length_cons]
                      omega
                    exact ⟨_, .unit writes further⟩
                  · refine ⟨_, .broken ?_ further⟩
                    intro a b c d unit others parts writes
                    exact digits ⟨a, b, c, d, unit, others, parts, writes⟩
                · by_cases named : mark ∈ controls.map Prod.fst
                  · obtain ⟨⟨_, character⟩, listed, rfl⟩ := List.mem_map.mp named
                    exact ⟨_, .control listed further⟩
                  · exact ⟨_, .other isUnit named further⟩
          · obtain ⟨units, further⟩ := shorter (Nat.lt_succ_self rest.length)
            exact ⟨_, .raw plain further⟩

/-- After four digits a unit escape stands for their number. -/
theorem Expands.after_digits (expands : Expands ('\\' :: 'u' :: a :: b :: c :: d :: rest) units)
    (digits : Writes a b c d unit) : ∃ others, units = unit :: others ∧ Expands rest others := by
  cases expands with
  | raw plain _ => exact absurd rfl plain
  | control named _ => exact absurd rfl (not_control_unit _ named)
  | unit otherDigits further =>
      obtain rfl := digits.unique otherDigits
      exact ⟨_, rfl, further⟩
  | broken noDigits _ => exact absurd digits (noDigits rfl)
  | other notUnit _ _ => exact absurd rfl notUnit

/-- Only a unit escape expands to a low surrogate. -/
theorem Expands.of_low (expands : Expands rest (low :: units)) (isLow : Utf16.isLow low = true) :
    ∃ e f g h beyond, rest = '\\' :: 'u' :: e :: f :: g :: h :: beyond ∧ Writes e f g h low ∧
      Expands beyond units := by
  have noCharacter {c : Char} {others : List Nat}
      (parts : Utf16.units c ++ others = low :: units) : False := by
    rw [Utf16.not_isLow_of_units parts] at isLow
    contradiction
  generalize expanded : low :: units = all at expands
  cases expands with
  | nil => contradiction
  | raw _ _ => exact (noCharacter expanded.symm).elim
  | control _ _ => exact (noCharacter expanded.symm).elim
  | @unit e f g h _ beyond _ digits further =>
      obtain ⟨rfl, rfl⟩ := List.cons.inj expanded
      exact ⟨e, f, g, h, beyond, rfl, digits, further⟩
  | broken _ _ => exact (noCharacter expanded.symm).elim
  | other _ _ _ => exact (noCharacter expanded.symm).elim
  | lone => exact (noCharacter ((List.append_nil _).trans expanded.symm)).elim

/-- There is one way only to expand a text. -/
theorem Expands.unique (expands : Expands text units) {others : List Nat}
    (otherExpands : Expands text others) : others = units := by
  induction expands generalizing others with
  | nil =>
      cases otherExpands
      rfl
  | raw plain _ inductionHypothesis =>
      cases otherExpands with
      | raw _ further => rw [inductionHypothesis further]
      | control _ _ => exact absurd rfl plain
      | unit _ _ => exact absurd rfl plain
      | broken _ _ => exact absurd rfl plain
      | other _ _ _ => exact absurd rfl plain
      | lone => exact absurd rfl plain
  | control named _ inductionHypothesis =>
      cases otherExpands with
      | raw plain _ => exact absurd rfl plain
      | @control _ other _ _ otherNamed further =>
          have same : other = _ := controls_unique _ otherNamed _ named rfl
          rw [inductionHypothesis further, same]
      | unit _ _ => exact absurd rfl (not_control_unit _ named)
      | broken _ _ => exact absurd rfl (not_control_unit _ named)
      | other _ unnamed _ => exact absurd (List.mem_map_of_mem named) unnamed
  | unit digits _ inductionHypothesis =>
      obtain ⟨_, rfl, further⟩ := otherExpands.after_digits digits
      rw [inductionHypothesis further]
  | broken noDigits _ inductionHypothesis =>
      cases otherExpands with
      | raw plain _ => exact absurd rfl plain
      | control named _ => exact absurd rfl (not_control_unit _ named)
      | unit digits _ => exact absurd digits (noDigits rfl)
      | broken _ further => rw [inductionHypothesis further]
      | other notUnit _ _ => exact absurd rfl notUnit
  | other notUnit unnamed _ inductionHypothesis =>
      cases otherExpands with
      | raw plain _ => exact absurd rfl plain
      | control named _ => exact absurd (List.mem_map_of_mem named) unnamed
      | unit _ _ => exact absurd rfl notUnit
      | broken _ _ => exact absurd rfl notUnit
      | other _ _ further => rw [inductionHypothesis further]
  | lone =>
      cases otherExpands with
      | raw plain _ => exact absurd rfl plain
      | lone => rfl

/-- Resolving the escapes of a text is decoding its units. The induction follows the expansion; at a
high surrogate with a low one after it the hypothesis is about the text from the low one on, of which
the first unit is taken off again. -/
theorem unescape_of_expands (expands : Expands text units) :
    unescape text = Utf16.decode units := by
  induction expands with
  | nil => rfl
  | raw plain _ inductionHypothesis =>
      rw [unescape_plain plain, Utf16.decode_units_append, inductionHypothesis]
  | control named _ inductionHypothesis =>
      rw [unescape_simple (not_control_unit _ named), simpleEscape_control _ named,
        Utf16.decode_units_append, inductionHypothesis]
  | @unit a b c d unit rest units digits further inductionHypothesis =>
      have read := hexUnit?_eq_some_iff.mpr digits
      by_cases paired : Utf16.isHigh unit = true ∧
          ∃ low others, units = low :: others ∧ Utf16.isLow low = true
      · obtain ⟨isHigh, low, others, rfl, isLow⟩ := paired
        obtain ⟨e, f, g, h, beyond, rfl, lowDigits, _⟩ := further.of_low isLow
        have lowRead := hexUnit?_eq_some_iff.mpr lowDigits
        have notHigh := Utf16.isHigh_eq_false_of_isLow isLow
        rw [unescape_unpaired lowRead (by simp [notHigh]), Utf16.decode_of_isLow isLow]
          at inductionHypothesis
        have beyondRead := (List.cons.inj inductionHypothesis).2
        have lowUnit : lowUnit? e f g h = some low := by
          rw [lowUnit?, lowRead, Option.filter_some, if_pos isLow]
        rw [unescape_paired read isHigh lowUnit, Utf16.decode_pair isHigh isLow, beyondRead]
      · have unpairedText : unescape ('\\' :: 'u' :: a :: b :: c :: d :: rest) =
            Utf16.single unit :: unescape rest := by
          apply unescape_unpaired read
          intro e f g h beyond parts isHigh
          subst parts
          rw [Option.eq_none_iff_forall_ne_some]
          intro low lowUnit
          obtain ⟨lowRead, isLow⟩ := Option.filter_eq_some_iff.mp lowUnit
          obtain ⟨others, rfl, _⟩ := further.after_digits (hexUnit?_eq_some_iff.mp lowRead)
          exact paired ⟨isHigh, low, others, rfl, isLow⟩
        have unpairedUnits :
            Utf16.decode (unit :: units) = Utf16.single unit :: Utf16.decode units := by
          apply Utf16.decode_single
          intro low others parts isHigh
          rw [Bool.eq_false_iff]
          intro isLow
          exact paired ⟨isHigh, low, others, parts, isLow⟩
        rw [unpairedText, unpairedUnits, inductionHypothesis]
  | broken noDigits _ inductionHypothesis =>
      rw [unescape_broken noDigits, Utf16.decode_units_append, Utf16.decode_units_append,
        inductionHypothesis]
  | other notUnit unnamed _ inductionHypothesis =>
      rw [unescape_simple notUnit, simpleEscape_unnamed unnamed, Utf16.decode_units_append,
        inductionHypothesis]
  | lone => rfl

/-- A string literal of JSON expands to the units of the text that it spells. -/
theorem expands_of_spells {body chars : List Char} (spells : Spells body chars) :
    Expands body (chars.flatMap Utf16.units) := by
  induction spells with
  | nil => exact .nil
  | raw plain _ _ _ inductionHypothesis => exact .raw plain inductionHypothesis
  | @short mark c _ _ named _ inductionHypothesis =>
      rcases List.mem_append.mp named with itself | control
      · have known : ∀ entry ∈ [('"', '"'), ('\\', '\\'), ('/', '/')], entry.1 = entry.2 ∧
            entry.1 ≠ 'u' ∧ entry.1 ∉ controls.map Prod.fst := by
          decide
        obtain ⟨same, notUnit, unnamed⟩ := known _ itself
        obtain rfl : mark = c := same
        exact .other notUnit unnamed inductionHypothesis
      · exact .control control inductionHypothesis
  | @unit _ _ _ _ character _ _ digits _ inductionHypothesis =>
      have alone : Utf16.units character = [character.toNat] := if_pos digits.lt
      rw [List.flatMap_cons, alone]
      exact .unit digits inductionHypothesis
  | pair units highDigits lowDigits _ inductionHypothesis =>
      rw [List.flatMap_cons, units]
      exact .unit highDigits (.unit lowDigits inductionHypothesis)

end Expanding

section Marks

variable {text inner : List Char}

theorem strip_of_inner (isInner : Inner text inner) : strip text = inner := by
  cases isInner with
  | quoted => simp [strip]
  | bare unquoted =>
      unfold strip
      split
      next rest =>
        split
        next ends =>
          obtain ⟨init, rfl⟩ := List.getLast?_eq_some_iff.mp ends
          exact absurd rfl (unquoted init)
        next => rfl
      next => rfl

theorem exists_inner (text : List Char) : ∃ inner, Inner text inner := by
  by_cases marked : ∃ inner, text = '"' :: inner ++ ['"']
  · obtain ⟨inner, rfl⟩ := marked
    exact ⟨inner, .quoted⟩
  · exact ⟨text, .bare fun inner same => marked ⟨inner, same⟩⟩

end Marks

/-- A text spells what the UTF-16 units of its expansion decode to, which there is one way only to
find, and a string literal of JSON spells the text it was written for. -/
theorem unquote_decodes_expansion (text : String) :
    (∃ inner units, Inner text.toList inner ∧ Expands inner units ∧
        (∀ {otherInner otherUnits}, Inner text.toList otherInner → Expands otherInner otherUnits →
          otherInner = inner ∧ otherUnits = units) ∧
        unquote text = String.ofList (Utf16.decode units)) ∧
      ∀ {body spelled : List Char}, text.toList = '"' :: body ++ ['"'] → Spells body spelled →
        unquote text = String.ofList spelled := by
  have decodes {inner : List Char} {units : List Nat} (isInner : Inner text.toList inner)
      (expands : Expands inner units) : unquote text = String.ofList (Utf16.decode units) := by
    rw [unquote, strip_of_inner isInner, unescape_of_expands expands]
  constructor
  · obtain ⟨inner, isInner⟩ := exists_inner text.toList
    obtain ⟨units, expands⟩ := exists_expands inner
    refine ⟨inner, units, isInner, expands, ?_, decodes isInner expands⟩
    intro otherInner otherUnits otherIsInner otherExpands
    obtain rfl : otherInner = inner :=
      (strip_of_inner otherIsInner).symm.trans (strip_of_inner isInner)
    exact ⟨rfl, expands.unique otherExpands⟩
  · intro body spelled parts spells
    have isInner : Inner text.toList body := parts ▸ Inner.quoted
    rw [decodes isInner (expands_of_spells spells), Utf16.decode_flatMap_units]

/-- A surrogate pair of escapes, the second in small digits, and a slash behind a backslash. -/
theorem unquote_pairedEscapes : unquote "\"\\uD83D\\ude00\\/\"" = "😀/" := by
  have spells : Spells "\\uD83D\\ude00\\/".toList ['😀', '/'] := by
    have highDigits : Writes 'D' '8' '3' 'D' 0xD83D := hexUnit?_eq_some_iff.mp rfl
    have lowDigits : Writes 'd' 'e' '0' '0' 0xDE00 := hexUnit?_eq_some_iff.mp rfl
    exact .pair (by decide) highDigits lowDigits (.short (by decide) .nil)
  exact (unquote_decodes_expansion "\"\\uD83D\\ude00\\/\"").2 rfl spells

end Literal
end EarleyChart
