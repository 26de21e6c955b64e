import EarleyChart.Json.Record
import EarleyChart.Proofs.Literals
import Mathlib.Data.Option.Basic

/-!
Contract: the compact text of a document reads back to the document.

`Json.tree` is what stands in the text of a document. Each reader is shown to take what its writer
wrote before any rest that the writer can leave (`IsExact.readsBack`), and the tree means the document
again (`IsExact.toJson?_tree`). Doubles are left out, since their text need not read as the same double.
-/

namespace EarleyChart.Json

open EarleyChart.Json.Tree

/-- A document that its text keeps: it has no doubles, its integers fit 64 bits, and it nests no
deeper than `room`. -/
inductive IsExact : (room : Nat) → Json → Prop where
  | null {room : Nat} : IsExact room .null
  | bool {room : Nat} (b : Bool) : IsExact room (.bool b)
  | int {room : Nat} {n : Int} (low : -9223372036854775808 ≤ n) (high : n ≤ maxWord) :
      IsExact room (.int n)
  | string {room : Nat} (s : String) : IsExact room (.string s)
  | array {room : Nat} {items : List Json} (each : ∀ item ∈ items, IsExact room item) :
      IsExact (room + 1) (.array items)
  | object {room : Nat} {members : List (String × Json)}
      (each : ∀ member ∈ members, IsExact room member.2) : IsExact (room + 1) (.object members)

/-- The numeral that is written for an integer. -/
def numeral (n : Int) : Numeral where
  negative := n < 0
  whole := Nat.toDigits 10 n.natAbs
  fraction := []
  exponent := none

mutual

/-- What stands in the text of a document. A double is left out. -/
def tree : Json → Tree
  | .null | .float _ => .null
  | .bool b => .bool b
  | .int n => .number (numeral n)
  | .string s => .string (some s)
  | .array items => .array (itemTrees items)
  | .object members => .object (memberTrees members)
termination_by structural document => document

def itemTrees : List Json → List Tree
  | [] => []
  | item :: rest => tree item :: itemTrees rest
termination_by structural items => items

def memberTrees : List (String × Json) → List (Option String × Tree)
  | [] => []
  | (key, value) :: rest => (some key, tree value) :: memberTrees rest
termination_by structural members => members

end

section Strings

/-- A piece that stands for a character whatever pieces follow. -/
def Tree.Piece.Spells (piece : Piece) (c : Char) : Prop :=
  ∀ pieces, joinPieces? (piece :: pieces) = (joinPieces? pieces).map (c :: ·)

theorem Tree.Piece.spells_character (c : Char) : (Piece.character c).Spells c := by
  intro pieces
  rw [joinPieces?]

theorem Tree.Piece.spells_unit (unit : Nat) (noHigh : Utf16.isHigh unit = false)
    (noLow : Utf16.isLow unit = false) : (Piece.unit unit).Spells (Char.ofNat unit) := by
  intro pieces
  rcases pieces with _ | ⟨_ | _, _⟩ <;> simp [joinPieces?, noHigh, noLow]

theorem readPieces?_plain {c : Char} (noQuote : c ≠ '"') (noBackslash : c ≠ '\\')
    (printable : 0x20 ≤ c.toNat) (rest : List Char) :
    readPieces? (c :: rest) =
      (readPieces? rest).map fun (pieces, rest) => (.character c :: pieces, rest) := by
  rw [readPieces?.eq_def]
  split
  next empty => contradiction
  next same => exact absurd (List.cons.inj same).1 noQuote
  next same => exact absurd (List.cons.inj same).1 noBackslash
  next same => exact absurd (List.cons.inj same).1 noBackslash
  next same =>
    obtain ⟨rfl, rfl⟩ := List.cons.inj same
    have passes : (guard (0x20 ≤ c.toNat) : Option Unit) = some () := if_pos printable
    rw [passes, Option.map_eq_bind]
    rfl

theorem readPieces?_control {c : Char} (control : c.toNat < 0x20) (rest : List Char) :
    readPieces? (escapeUnit c ++ rest) =
      (readPieces? rest).map fun (pieces, rest) => (.unit c.toNat :: pieces, rest) := by
  simp [escapeUnit, readPieces?, hexUnit?_control c.toNat control, Option.map_eq_bind]

/-- What is written for a character reads as one piece that stands for it. -/
theorem exists_piece_of_escape (c : Char) : ∃ piece : Piece, piece.Spells c ∧
    ∀ rest, readPieces? (escape c ++ rest) =
      (readPieces? rest).map fun (pieces, rest) => (piece :: pieces, rest) := by
  by_cases named : c ∈ ['"', '\\', '\x08', '\t', '\n', '\x0c', '\r']
  · refine ⟨.character c, Piece.spells_character c, ?_⟩
    intro rest
    simp only [List.mem_cons, List.not_mem_nil, or_false] at named
    rcases named with rfl | rfl | rfl | rfl | rfl | rfl | rfl <;>
      simp [escape, readPieces?, escaped?, Option.map_eq_bind]
  · simp only [List.mem_cons, List.not_mem_nil, or_false, not_or] at named
    by_cases control : c.toNat < 0x20
    · refine ⟨.unit c.toNat, ?_, ?_⟩
      · have spells := Piece.spells_unit c.toNat
          (by simp [Utf16.isHigh]; omega) (by simp [Utf16.isLow]; omega)
        rwa [Char.ofNat_toNat] at spells
      · intro rest
        simp only [escape, named, control, ↓reduceIte]
        exact readPieces?_control control rest
    · refine ⟨.character c, Piece.spells_character c, ?_⟩
      intro rest
      simp only [escape, named, control, ↓reduceIte]
      exact readPieces?_plain named.1 named.2.1 (Nat.le_of_not_lt control) rest

theorem exists_pieces_of_escapes (chars rest : List Char) : ∃ pieces : List Piece,
    readPieces? (chars.flatMap escape ++ '"' :: rest) = some (pieces, rest) ∧
      joinPieces? pieces = some chars := by
  induction chars with
  | nil => exact ⟨[], by simp [readPieces?], rfl⟩
  | cons c chars inductionHypothesis =>
      obtain ⟨piece, spells, read⟩ := exists_piece_of_escape c
      obtain ⟨pieces, readRest, joined⟩ := inductionHypothesis
      refine ⟨piece :: pieces, ?_, ?_⟩
      · rw [List.flatMap_cons, List.append_assoc, read, readRest]
        rfl
      · rw [spells, joined]
        rfl

theorem readString?_quote (s : String) (rest : List Char) :
    ∃ inner, (quote s).toList = '"' :: inner ∧
      readString? (inner ++ rest) = some (some s, rest) := by
  obtain ⟨pieces, read, joined⟩ := exists_pieces_of_escapes s.toList rest
  refine ⟨s.toList.flatMap escape ++ ['"'], ?_, ?_⟩
  · rw [quote, String.toList_ofList]
    rfl
  · simp only [List.append_assoc, List.singleton_append, readString?, read, Option.map_some, joined,
      String.ofList_toList]

end Strings

section Numbers

/-- An integer can end before the text. -/
def EndsInteger (rest : List Char) : Prop :=
  ∀ c ∈ rest.head?, c.isDigit = false ∧ c ≠ '.' ∧ c ≠ 'e' ∧ c ≠ 'E'

theorem endsInteger_cons {c : Char} {rest : List Char}
    (ends : c.isDigit = false ∧ c ≠ '.' ∧ c ≠ 'e' ∧ c ≠ 'E') : EndsInteger (c :: rest) := by
  intro other isHead
  rwa [← Option.some.inj isHead]

theorem exists_first_digit (n : Nat) :
    ∃ c others, Nat.toDigits 10 n = c :: others ∧ c.isDigit = true := by
  cases digits : Nat.toDigits 10 n with
  | nil => exact absurd digits Nat.toDigits_ne_nil
  | cons c others =>
      refine ⟨c, others, rfl, ?_⟩
      apply Decimal.isDigit_of_mem_toDigits (n := n)
      rw [digits]
      exact List.mem_cons_self

theorem readDigits?_append {digits rest : List Char} (some : digits ≠ [])
    (all : ∀ c ∈ digits, c.isDigit = true) (ends : ∀ c ∈ rest.head?, c.isDigit = false) :
    readDigits? (digits ++ rest) = .some (digits, rest) := by
  have stops : rest.takeWhile Char.isDigit = [] := by
    cases rest with
    | nil => rfl
    | cons c rest => rw [List.takeWhile_cons, ends c rfl]; rfl
  have keeps : rest.dropWhile Char.isDigit = rest := by
    cases rest with
    | nil => rfl
    | cons c rest => rw [List.dropWhile_cons, ends c rfl]; rfl
  rw [readDigits?, List.takeWhile_append_of_pos all, List.dropWhile_append_of_pos all, stops, keeps,
    List.append_nil, List.isEmpty_eq_false_iff.mpr some]
  rfl

theorem readWhole?_toDigits (n : Nat) {rest : List Char} (ends : EndsInteger rest) :
    readWhole? (Nat.toDigits 10 n ++ rest) = some (Nat.toDigits 10 n, rest) := by
  have stops : ∀ c ∈ rest.head?, c.isDigit = false := fun c isHead => (ends c isHead).1
  by_cases positive : 0 < n
  · obtain ⟨first, below, positiveFirst, others, digits⟩ := Decimal.toDigits_eq_cons positive
    have noZero : ∀ first < 10, 0 < first → first.digitChar ≠ '0' := by decide
    have read := readDigits?_append (Nat.toDigits_ne_nil (n := n) (b := 10))
      (fun c member => Decimal.isDigit_of_mem_toDigits member) stops
    rw [digits] at read ⊢
    rw [List.cons_append, readWhole?.eq_def]
    split
    next same => exact absurd (List.cons.inj same).1 (noZero first below positiveFirst)
    next => exact read
  · obtain rfl : n = 0 := by omega
    have stops : (rest.head?.map Char.isDigit).getD false = false := by
      cases rest with
      | nil => rfl
      | cons c rest => exact stops c rfl
    show (if (rest.head?.map Char.isDigit).getD false then none else some (['0'], rest)) = _
    rw [stops]
    rfl

theorem readMinus_toString (n : Int) (rest : List Char) :
    readMinus ((toString n).toList ++ rest) =
      (decide (n < 0), Nat.toDigits 10 n.natAbs ++ rest) := by
  rw [Decimal.toList_toString]
  by_cases negative : n < 0
  · rw [if_pos negative, decide_eq_true negative]
    rfl
  · obtain ⟨c, others, digits, isDigit⟩ := exists_first_digit n.natAbs
    rw [if_neg negative, decide_eq_false negative, List.nil_append, digits, readMinus.eq_def]
    split
    next same =>
      rw [(List.cons.inj same).1] at isDigit
      contradiction
    next => rfl

theorem readNumeral?_toString (n : Int) {rest : List Char} (ends : EndsInteger rest) :
    readNumeral? ((toString n).toList ++ rest) = some (numeral n, rest) := by
  have fraction : readFraction? rest = some ([], rest) := by
    rw [readFraction?.eq_def]
    split
    next => exact absurd rfl (ends '.' rfl).2.1
    next => rfl
  have exponent : readExponent? rest = some (none, rest) := by
    cases rest with
    | nil => rfl
    | cons c rest =>
        have noMark := (ends c rfl).2.2
        rw [readExponent?, if_neg (by simp [noMark])]
  rw [readNumeral?, readMinus_toString]
  simp [readWhole?_toDigits n.natAbs ends, fraction, exponent, numeral]

/-- The numeral of an integer of 64 bits means it. -/
theorem toJson?_numeral {n : Int} (low : -9223372036854775808 ≤ n) (high : n ≤ maxWord) :
    (numeral n).toJson? = some (.int n) := by
  have whole : n.natAbs ≤ maxWord := by
    simp only [maxWord] at high ⊢
    omega
  simp only [Numeral.toJson?, numeral, Decimal.digitsNumber_toDigits, List.isEmpty_nil,
    Option.isNone_none, whole, and_self, ↓reduceIte]
  by_cases negative : n < 0
  · rw [if_pos (decide_eq_true negative), if_neg (by omega), show -(n.natAbs : Int) = n by omega]
  · rw [if_neg (by simpa using negative), show (n.natAbs : Int) = n by omega]

end Numbers

section Documents

/-- A character that an integer begins with. -/
def BeginsInteger (c : Char) : Prop :=
  c = '-' ∨ c.isDigit = true

theorem exists_first_of_integer (n : Int) :
    ∃ c chars, (toString n).toList = c :: chars ∧ BeginsInteger c := by
  rw [Decimal.toList_toString]
  by_cases negative : n < 0
  · exact ⟨'-', _, by rw [if_pos negative]; rfl, .inl rfl⟩
  · obtain ⟨c, others, digits, isDigit⟩ := exists_first_digit n.natAbs
    exact ⟨c, others, by rw [if_neg negative, digits]; rfl, .inr isDigit⟩

theorem BeginsInteger.ne {c : Char} (begins : BeginsInteger c) (other : Char)
    (noBegin : other ≠ '-' ∧ other.isDigit = false) : c ≠ other := by
  rintro rfl
  rcases begins with same | isDigit
  · exact noBegin.1 same
  · rw [noBegin.2] at isDigit
    contradiction

/-- The text of a list of items or members begins so that its container is not closed at once. -/
def Opens (c : Char) : Prop :=
  isBlank c = false ∧ c ≠ ']' ∧ c ≠ '\x7d'
deriving Decidable

theorem opens_of_beginsInteger {c : Char} (begins : BeginsInteger c) : Opens c := by
  refine ⟨?_, begins.ne _ (by decide), begins.ne _ (by decide)⟩
  simp [isBlank, begins.ne ' ' (by decide), begins.ne '\n' (by decide),
    begins.ne '\t' (by decide), begins.ne '\r' (by decide)]

theorem skipBlanks_cons {c : Char} (noBlank : isBlank c = false) (rest : List Char) :
    skipBlanks (c :: rest) = c :: rest := by
  rw [skipBlanks, List.dropWhile_cons, noBlank]
  rfl

theorem readValue?_integer {bound : Nat} {c : Char} {rest : List Char} (begins : BeginsInteger c) :
    readValue? (bound + 1) (c :: rest) =
      (readNumeral? (c :: rest)).map fun (numeral, rest) => (.number numeral, rest) := by
  rw [readValue?, skipBlanks_cons (opens_of_beginsInteger begins).1]
  split
  next same => exact absurd (List.cons.inj same).1 (begins.ne _ (by decide))
  next same => exact absurd (List.cons.inj same).1 (begins.ne _ (by decide))
  next same => exact absurd (List.cons.inj same).1 (begins.ne _ (by decide))
  next same => exact absurd (List.cons.inj same).1 (begins.ne _ (by decide))
  next same => exact absurd (List.cons.inj same).1 (begins.ne _ (by decide))
  next same => exact absurd (List.cons.inj same).1 (begins.ne _ (by decide))
  next => rfl

theorem readValue?_array {bound : Nat} {c : Char} {rest : List Char} (opens : Opens c) :
    readValue? (bound + 1) ('[' :: c :: rest) =
      (readItems? bound (c :: rest)).map fun (items, rest) => (.array items, rest) := by
  rw [readValue?, skipBlanks_cons (by decide)]
  simp only [skipBlanks_cons opens.1]
  split
  next same => exact absurd (List.cons.inj same).1 opens.2.1
  next => rfl

theorem readValue?_object {bound : Nat} {c : Char} {rest : List Char} (opens : Opens c) :
    readValue? (bound + 1) ('\x7b' :: c :: rest) =
      (readMembers? bound (c :: rest)).map fun (members, rest) => (.object members, rest) := by
  rw [readValue?, skipBlanks_cons (by decide)]
  simp only [skipBlanks_cons opens.1]
  split
  next same => exact absurd (List.cons.inj same).1 opens.2.2
  next => rfl

/-- A document is read from its text, before anything that an integer can end before. -/
def ReadsBack (document : Json) : Prop :=
  ∀ (bound : Nat) (rest : List Char), 2 * document.compact.toList.length ≤ bound + 1 →
    EndsInteger rest → readValue? (bound + 1) (document.compact.toList ++ rest) =
      some (document.tree, rest)

/-- The items of an array with commas between them. -/
def itemsText (items : List Json) : List Char :=
  (String.intercalate "," (compactItems items)).toList

/-- The members of an object with commas between them. -/
def membersText (members : List (String × Json)) : List Char :=
  (String.intercalate "," (compactMembers members)).toList

theorem itemsText_single (item : Json) : itemsText [item] = item.compact.toList := by
  simp [itemsText, compactItems]

theorem itemsText_cons (item next : Json) (rest : List Json) :
    itemsText (item :: next :: rest) = item.compact.toList ++ ',' :: itemsText (next :: rest) := by
  simp only [itemsText, compactItems, String.intercalate_cons_cons, String.toList_append,
    List.append_assoc]
  rfl

/-- The text of a member. -/
def memberText (member : String × Json) : List Char :=
  (quote member.1).toList ++ ':' :: member.2.compact.toList

theorem membersText_single (member : String × Json) : membersText [member] = memberText member := by
  simp [membersText, compactMembers, memberText]

theorem membersText_cons (member next : String × Json) (rest : List (String × Json)) :
    membersText (member :: next :: rest) =
      memberText member ++ ',' :: membersText (next :: rest) := by
  simp only [membersText, compactMembers, String.intercalate_cons_cons, String.toList_append,
    List.append_assoc, memberText]
  rfl

theorem toList_compact_array (items : List Json) :
    (Json.array items).compact.toList = '[' :: (itemsText items ++ [']']) := by
  simp only [compact, String.toList_append, List.append_assoc, itemsText]
  rfl

theorem toList_compact_object (members : List (String × Json)) :
    (Json.object members).compact.toList = '\x7b' :: (membersText members ++ ['\x7d']) := by
  simp only [compact, String.toList_append, List.append_assoc, membersText]
  rfl

theorem exists_first_of_quote (s : String) : ∃ chars, (quote s).toList = '"' :: chars :=
  ⟨_, by rw [quote, String.toList_ofList]; rfl⟩

theorem IsExact.exists_first {room : Nat} {document : Json} (exact : document.IsExact room) :
    ∃ c chars, document.compact.toList = c :: chars ∧ Opens c := by
  cases exact with
  | null => exact ⟨'n', _, by rw [compact]; rfl, by decide⟩
  | bool b =>
      cases b with
      | false => exact ⟨'f', _, by simp [compact]; rfl, by decide⟩
      | true => exact ⟨'t', _, by simp [compact]; rfl, by decide⟩
  | int =>
      obtain ⟨c, chars, text, begins⟩ := exists_first_of_integer _
      exact ⟨c, chars, by rw [compact, text], opens_of_beginsInteger begins⟩
  | string s =>
      obtain ⟨chars, text⟩ := exists_first_of_quote s
      exact ⟨'"', chars, by rw [compact, text], by decide⟩
  | array => exact ⟨'[', _, toList_compact_array _, by decide⟩
  | object => exact ⟨'\x7b', _, toList_compact_object _, by decide⟩

theorem exists_first_of_items {room : Nat} {items : List Json} (some : items ≠ [])
    (each : ∀ item ∈ items, IsExact room item) :
    ∃ c chars, itemsText items = c :: chars ∧ Opens c := by
  cases items with
  | nil => exact absurd rfl some
  | cons item rest =>
      obtain ⟨c, chars, text, opens⟩ := (each item List.mem_cons_self).exists_first
      cases rest with
      | nil => exact ⟨c, chars, by rw [itemsText_single, text], opens⟩
      | cons next rest => exact ⟨c, _, by rw [itemsText_cons, text]; rfl, opens⟩

theorem exists_first_of_members {members : List (String × Json)} (some : members ≠ []) :
    ∃ c chars, membersText members = c :: chars ∧ Opens c := by
  cases members with
  | nil => exact absurd rfl some
  | cons member rest =>
      obtain ⟨chars, text⟩ := exists_first_of_quote member.1
      cases rest with
      | nil => exact ⟨'"', _, by rw [membersText_single, memberText, text]; rfl, by decide⟩
      | cons next rest => exact ⟨'"', _, by rw [membersText_cons, memberText, text]; rfl, by decide⟩

theorem readKey?_quote (key : String) (rest : List Char) :
    readKey? ((quote key).toList ++ ':' :: rest) = some (some key, rest) := by
  obtain ⟨inner, text, read⟩ := readString?_quote key (':' :: rest)
  have colon : skipBlanks (':' :: rest) = ':' :: rest := skipBlanks_cons (by decide) rest
  rw [text, List.cons_append, readKey?, skipBlanks_cons (by decide)]
  simp [read, colon]

section Bounds

variable {bound : Nat} {rest : List Char}

/-- A call that is bounded by the text it reads can make another. -/
theorem exists_succ (bound length : Nat) (bounded : 2 * (length + 1) ≤ bound + 1) :
    ∃ less, bound = less + 1 :=
  ⟨bound - 1, by omega⟩

theorem readItems?_itemsText {items : List Json} (some : items ≠ [])
    (each : ∀ item ∈ items, ReadsBack item)
    (bounded : 2 * ((itemsText items).length + 1) ≤ bound + 1) :
    readItems? (bound + 1) (itemsText items ++ ']' :: rest) = .some (itemTrees items, rest) := by
  obtain ⟨bound, rfl⟩ := exists_succ bound _ bounded
  induction items generalizing bound with
  | nil => exact absurd rfl some
  | cons item items inductionHypothesis =>
      have readsBack := each item List.mem_cons_self
      cases items with
      | nil =>
          have bracket : skipBlanks (']' :: rest) = ']' :: rest := skipBlanks_cons (by decide) rest
          rw [itemsText_single] at bounded ⊢
          have read := readsBack bound (']' :: rest) (by omega) (endsInteger_cons (by decide))
          rw [readItems?]
          simp [read, bracket, itemTrees]
      | cons next others =>
          rw [itemsText_cons, List.append_assoc, List.cons_append]
          rw [itemsText_cons, List.length_append, List.length_cons] at bounded
          generalize following : itemsText (next :: others) ++ ']' :: rest = after
          have comma : skipBlanks (',' :: after) = ',' :: after := skipBlanks_cons (by decide) after
          have read := readsBack bound (',' :: after) (by omega) (endsInteger_cons (by decide))
          obtain ⟨less, rfl⟩ := exists_succ bound (itemsText (next :: others)).length (by omega)
          have readRest := inductionHypothesis (List.cons_ne_nil next others)
            (fun other member => each other (List.mem_cons_of_mem item member)) less (by omega)
          rw [following] at readRest
          rw [readItems?]
          simp [read, comma, readRest, itemTrees]

theorem readMembers?_membersText {members : List (String × Json)} (some : members ≠ [])
    (each : ∀ member ∈ members, ReadsBack member.2)
    (bounded : 2 * ((membersText members).length + 1) ≤ bound + 1) :
    readMembers? (bound + 1) (membersText members ++ '\x7d' :: rest) =
      .some (memberTrees members, rest) := by
  obtain ⟨bound, rfl⟩ := exists_succ bound _ bounded
  induction members generalizing bound with
  | nil => exact absurd rfl some
  | cons member members inductionHypothesis =>
      have readsBack := each member List.mem_cons_self
      have memberLength : (memberText member).length =
          (quote member.1).toList.length + (member.2.compact.toList.length + 1) := by
        rw [memberText, List.length_append, List.length_cons]
      have readKey (after : List Char) : readKey? (memberText member ++ after) =
          .some (.some member.1, member.2.compact.toList ++ after) := by
        rw [memberText, List.append_assoc, List.cons_append, readKey?_quote]
      cases members with
      | nil =>
          have brace : skipBlanks ('\x7d' :: rest) = '\x7d' :: rest :=
            skipBlanks_cons (by decide) rest
          rw [membersText_single] at bounded ⊢
          have read := readsBack bound ('\x7d' :: rest) (by omega) (endsInteger_cons (by decide))
          rw [readMembers?]
          simp [readKey, read, brace, memberTrees]
      | cons next others =>
          rw [membersText_cons, List.append_assoc, List.cons_append]
          rw [membersText_cons, List.length_append, List.length_cons] at bounded
          generalize following : membersText (next :: others) ++ '\x7d' :: rest = after
          have comma : skipBlanks (',' :: after) = ',' :: after := skipBlanks_cons (by decide) after
          have read := readsBack bound (',' :: after) (by omega) (endsInteger_cons (by decide))
          obtain ⟨less, rfl⟩ := exists_succ bound (membersText (next :: others)).length (by omega)
          have readRest := inductionHypothesis (List.cons_ne_nil next others)
            (fun other isMember => each other (List.mem_cons_of_mem member isMember)) less
            (by omega)
          rw [following] at readRest
          rw [readMembers?]
          simp [readKey, read, comma, readRest, memberTrees]

end Bounds

/-- An array reads back if its items do. -/
theorem readsBack_array {room : Nat} {items : List Json} (exact : ∀ item ∈ items, IsExact room item)
    (each : ∀ item ∈ items, ReadsBack item) : ReadsBack (.array items) := by
  intro bound rest bounded _
  rw [toList_compact_array, List.cons_append, List.append_assoc, List.singleton_append]
  rw [toList_compact_array, List.length_cons, List.length_append, List.length_singleton] at bounded
  by_cases empty : items = []
  · subst empty
    simp [itemsText, compactItems, readValue?, skipBlanks, isBlank, tree, itemTrees]
  · obtain ⟨c, chars, text, opens⟩ := exists_first_of_items empty exact
    obtain ⟨less, rfl⟩ := exists_succ bound (itemsText items).length (by omega)
    have read : readItems? (less + 1) (itemsText items ++ ']' :: rest) =
        some (itemTrees items, rest) :=
      readItems?_itemsText empty each (by omega)
    rw [text, List.cons_append] at read ⊢
    rw [readValue?_array opens, read]
    rfl

/-- An object reads back if the documents in it do. -/
theorem readsBack_object {members : List (String × Json)}
    (each : ∀ member ∈ members, ReadsBack member.2) : ReadsBack (.object members) := by
  intro bound rest bounded _
  rw [toList_compact_object, List.cons_append, List.append_assoc, List.singleton_append]
  rw [toList_compact_object, List.length_cons, List.length_append, List.length_singleton] at bounded
  by_cases empty : members = []
  · subst empty
    simp [membersText, compactMembers, readValue?, skipBlanks, isBlank, tree, memberTrees]
  · obtain ⟨c, chars, text, opens⟩ := exists_first_of_members empty
    obtain ⟨less, rfl⟩ := exists_succ bound (membersText members).length (by omega)
    have read : readMembers? (less + 1) (membersText members ++ '\x7d' :: rest) =
        some (memberTrees members, rest) :=
      readMembers?_membersText empty each (by omega)
    rw [text, List.cons_append] at read ⊢
    rw [readValue?_object opens, read]
    rfl

/-- A document that its text keeps is read from its text. -/
theorem IsExact.readsBack {room : Nat} {document : Json} (exact : document.IsExact room) :
    ReadsBack document := by
  induction exact with
  | null =>
      intro bound rest _ _
      simp [compact, readValue?, skipBlanks, isBlank, tree]
  | bool b =>
      intro bound rest _ _
      cases b <;> simp [compact, readValue?, skipBlanks, isBlank, tree]
  | @int _ n =>
      intro bound rest _ ends
      obtain ⟨c, chars, text, begins⟩ := exists_first_of_integer n
      have read := readNumeral?_toString n ends
      rw [text, List.cons_append] at read
      rw [compact, text, List.cons_append, readValue?_integer begins, read]
      rfl
  | string s =>
      intro bound rest _ _
      obtain ⟨inner, text, read⟩ := readString?_quote s rest
      rw [compact, text, List.cons_append, readValue?, skipBlanks_cons (by decide)]
      simp [read, tree]
  | array each inductionHypothesis => exact readsBack_array each inductionHypothesis
  | object _ inductionHypothesis => exact readsBack_object inductionHypothesis

/-- The tree that stands in the text of a document is read from it. -/
theorem IsExact.read?_compact {room : Nat} {document : Json} (exact : document.IsExact room) :
    Tree.read? document.compact = some document.tree := by
  have read := exact.readsBack (2 * document.compact.toList.length + 1) [] (by omega)
    fun c isHead => nomatch isHead
  rw [List.append_nil] at read
  rw [Tree.read?, read]
  rfl

theorem itemsToJson?_itemTrees {room : Nat} {items : List Json}
    (each : ∀ item ∈ items, item.tree.toJson? room = some item) :
    itemsToJson? room (itemTrees items) = some items := by
  induction items with
  | nil => rfl
  | cons item rest inductionHypothesis =>
      have readRest := inductionHypothesis fun other member =>
        each other (List.mem_cons_of_mem _ member)
      simp [itemTrees, itemsToJson?, each item List.mem_cons_self, readRest]

theorem membersToJson?_memberTrees {room : Nat} {members : List (String × Json)}
    (each : ∀ member ∈ members, member.2.tree.toJson? room = some member.2) :
    membersToJson? room (memberTrees members) = some members := by
  induction members with
  | nil => rfl
  | cons member rest inductionHypothesis =>
      have readRest := inductionHypothesis fun other isMember =>
        each other (List.mem_cons_of_mem _ isMember)
      simp [memberTrees, membersToJson?, each member List.mem_cons_self, readRest]

/-- The tree of a document means the document. -/
theorem IsExact.toJson?_tree {room : Nat} {document : Json} (exact : document.IsExact room) :
    document.tree.toJson? room = some document := by
  induction exact with
  | null => rfl
  | bool b => rfl
  | int low high => exact toJson?_numeral low high
  | string s => rfl
  | array _ inductionHypothesis =>
      rw [tree, toJson?, if_neg (Nat.succ_ne_zero _), Nat.add_sub_cancel,
        itemsToJson?_itemTrees inductionHypothesis]
      rfl
  | object _ inductionHypothesis =>
      rw [tree, toJson?, if_neg (Nat.succ_ne_zero _), Nat.add_sub_cancel,
        membersToJson?_memberTrees inductionHypothesis]
      rfl

end Documents

end EarleyChart.Json
