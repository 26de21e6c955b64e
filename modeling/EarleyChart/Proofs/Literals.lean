import EarleyChart.Decimal.Reading
import EarleyChart.Json.Printer
import EarleyChart.Text.Literal

/-!
Contract: written integers and texts read back.

An integer is written with its digits, of which the first is no zero unless it is the only one, and a
text between quote marks with escapes. `readInt64?_toString` and `unquote_quote` say that reading
gives back what was written.
-/

namespace EarleyChart

namespace Decimal

/-- An integer is written as an optional sign and the digits of its magnitude. -/
theorem toList_toString (n : Int) :
    (toString n).toList = (if n < 0 then ['-'] else []) ++ Nat.toDigits 10 n.natAbs := by
  rw [Int.toString_eq_repr, Int.repr_eq_if]
  by_cases negative : n < 0
  · rw [if_neg (by omega), if_pos negative, String.toList_append, Nat.toList_repr,
      show (-n).toNat = n.natAbs by omega]
    rfl
  · rw [if_pos (by omega), if_neg negative, Nat.toList_repr, show n.toNat = n.natAbs by omega]
    rfl

theorem isDigit_of_mem_toDigits {n : Nat} {c : Char} (member : c ∈ Nat.toDigits 10 n) :
    c.isDigit = true :=
  Nat.isDigit_of_mem_toDigits (by decide) (by decide) member

theorem digitsNumber_toDigits (n : Nat) : digitsNumber (Nat.toDigits 10 n) = n :=
  Nat.ofDigitChars_ten_toDigits

/-- The first digit of a positive number is no zero. -/
theorem toDigits_eq_cons {n : Nat} (positive : 0 < n) :
    ∃ first < 10, 0 < first ∧ ∃ others, Nat.toDigits 10 n = Nat.digitChar first :: others := by
  induction n using Nat.strongRecOn with
  | ind n inductionHypothesis =>
      by_cases small : n < 10
      · exact ⟨n, small, positive, [], Nat.toDigits_of_lt_base small⟩
      · obtain ⟨first, below, positiveFirst, others, digits⟩ :=
          inductionHypothesis (n / 10) (by omega) (by omega)
        refine ⟨first, below, positiveFirst, others ++ [(n % 10).digitChar], ?_⟩
        rw [Nat.toDigits_of_base_le (by decide) (Nat.le_of_not_lt small), digits]
        rfl

theorem readSign_digits {digits : List Char} (all : ∀ c ∈ digits, c.isDigit = true) :
    readSign digits = (false, digits) := by
  cases digits with
  | nil => rfl
  | cons c rest =>
      have isDigit := all c List.mem_cons_self
      unfold readSign
      split
      next same =>
        rw [(List.cons.inj same).1] at isDigit
        contradiction
      next same =>
        rw [(List.cons.inj same).1] at isDigit
        contradiction
      next => rfl

theorem readInt?_toString (n : Int) : readInt? (toString n).toList = some n := by
  have all : (Nat.toDigits 10 n.natAbs).all Char.isDigit = true :=
    List.all_eq_true.mpr fun c member => isDigit_of_mem_toDigits member
  have some : (Nat.toDigits 10 n.natAbs).isEmpty = false :=
    List.isEmpty_eq_false_iff.mpr Nat.toDigits_ne_nil
  have unsigned := readSign_digits fun c (member : c ∈ Nat.toDigits 10 n.natAbs) =>
    isDigit_of_mem_toDigits member
  rw [toList_toString, readInt?]
  by_cases negative : n < 0
  · simp only [if_pos negative, List.cons_append, List.nil_append, readSign, all, some,
      digitsNumber_toDigits, Bool.not_true, Bool.or_self, Bool.false_eq_true, ↓reduceIte,
      Option.some.injEq]
    omega
  · simp only [if_neg negative, List.nil_append, unsigned, all, some, digitsNumber_toDigits,
      Bool.not_true, Bool.or_self, Bool.false_eq_true, ↓reduceIte, Option.some.injEq]
    omega

/-- An integer of 64 bits is read from its digits. -/
theorem readInt64?_toString (n : Int64) : readInt64? (toString n.toInt).toList = some n := by
  have above : -9223372036854775808 ≤ n.toInt := n.le_toInt
  have below : n.toInt ≤ 9223372036854775807 := n.toInt_le
  rw [readInt64?, readInt?_toString, Option.bind_some, if_pos ⟨above, below⟩, Int64.ofInt_toInt]

end Decimal

namespace Literal

/-- A unit without its partner after it stands for itself or is replaced. -/
theorem unescape_unpaired {a b c d : Char} {unit : Nat} {rest : List Char}
    (read : hexUnit? a b c d = some unit)
    (unpaired : ∀ {e f g h beyond}, rest = '\\' :: 'u' :: e :: f :: g :: h :: beyond →
      Utf16.isHigh unit = true → lowUnit? e f g h = none) :
    unescape ('\\' :: 'u' :: a :: b :: c :: d :: rest) = Utf16.single unit :: unescape rest := by
  rw [unescape.eq_def]
  simp only [read]
  split
  · by_cases isHigh : Utf16.isHigh unit = true
    · simp [isHigh, unpaired rfl isHigh]
    · simp [isHigh]
  · rfl

/-- A character other than a backslash stands for itself. -/
theorem unescape_plain {c : Char} (plain : c ≠ '\\') (rest : List Char) :
    unescape (c :: rest) = c :: unescape rest := by
  rw [unescape.eq_def]
  split <;> simp_all

end Literal

namespace Json

open Literal

/-- The two digits of a control character stand for its code. -/
theorem hexUnit?_control : ∀ code < 0x20,
    hexUnit? '0' '0' (Nat.digitChar (code / 16)) (Nat.digitChar (code % 16)) = some code := by
  decide

theorem single_control : ∀ code < 0x20, Utf16.single code = Char.ofNat code := by
  decide

/-- A unit that is no surrogate stands for itself, whatever follows. -/
theorem unescape_unit {a b c d : Char} {unit : Nat} (read : hexUnit? a b c d = some unit)
    (plain : Utf16.isHigh unit = false) (rest : List Char) :
    unescape ('\\' :: 'u' :: a :: b :: c :: d :: rest) = Utf16.single unit :: unescape rest := by
  apply unescape_unpaired read
  intro e f g h beyond _ isHigh
  rw [plain] at isHigh
  contradiction

theorem unescape_escapeUnit {c : Char} (control : c.toNat < 0x20) (rest : List Char) :
    unescape (escapeUnit c ++ rest) = c :: unescape rest := by
  have plain : Utf16.isHigh c.toNat = false := by
    simp only [Utf16.isHigh, Bool.and_eq_false_iff, decide_eq_false_iff_not]
    omega
  have read := unescape_unit (hexUnit?_control c.toNat control) plain rest
  rwa [single_control c.toNat control, Char.ofNat_toNat] at read

/-- What is written for a character reads as that character. -/
theorem unescape_escape_append (c : Char) (rest : List Char) :
    unescape (escape c ++ rest) = c :: unescape rest := by
  by_cases named : c ∈ ['"', '\\', '\x08', '\t', '\n', '\x0c', '\r']
  · simp only [List.mem_cons, List.not_mem_nil, or_false] at named
    rcases named with rfl | rfl | rfl | rfl | rfl | rfl | rfl <;> rfl
  · simp only [List.mem_cons, List.not_mem_nil, or_false, not_or] at named
    simp only [escape, named, ↓reduceIte]
    split
    next control => exact unescape_escapeUnit control rest
    next => exact unescape_plain named.2.1 rest

theorem unescape_flatMap_escape (chars : List Char) : unescape (chars.flatMap escape) = chars := by
  induction chars with
  | nil => rfl
  | cons c rest inductionHypothesis =>
      rw [List.flatMap_cons, unescape_escape_append, inductionHypothesis]

/-- A JSON string spells the text it was written for. -/
theorem unquote_quote (s : String) : unquote (quote s) = s := by
  have stripped (inner : List Char) : strip ('"' :: inner ++ ['"']) = inner := by
    simp [strip]
  rw [unquote, quote, String.toList_ofList, stripped, unescape_flatMap_escape, String.ofList_toList]

end Json

end EarleyChart
