import Mathlib.Data.Prod.Lex
import Mathlib.Order.Monotone.Basic
import EarleyChart.Proofs.Boundaries

/-!
Contract: the order of the positions of a source.

Positions are compared by line, then by column (`Position.place`). A character moves a position to a
later place, a line break to a later line and any other to a later column of the line, so every text
that is not empty does (`Position.place_lt_advance`). Of two boundaries of a source the earlier one
therefore has the earlier place (`Position.place_strictMonoOn`), and
`Position.places_ordered_as_offsets` says this of all offsets, with what the places count on the bytes
of the source.
-/

namespace EarleyChart

namespace Utf8

/-- An earlier cut leaves a start of what a later one leaves. -/
theorem take_isPrefix_take {lower upper : Nat} (ordered : lower ≤ upper) (chars : List Char) :
    take lower chars <+: take upper chars := by
  induction chars generalizing lower upper with
  | nil => exact List.prefix_refl []
  | cons c rest inductionHypothesis =>
      by_cases fits : c.utf8Size ≤ lower
      · rw [take, take, if_pos fits, if_pos (Nat.le_trans fits ordered), List.cons_prefix_cons]
        exact ⟨rfl, inductionHypothesis (Nat.sub_le_sub_right ordered _)⟩
      · rw [take, if_neg fits]
        exact List.nil_prefix

theorem floor_mono {lower upper : Nat} (ordered : lower ≤ upper) (chars : List Char) :
    floor lower chars ≤ floor upper chars := by
  obtain ⟨others, parts⟩ := take_isPrefix_take ordered chars
  rw [floor, floor, ← parts, size_append]
  exact Nat.le_add_right _ _

/-- What an offset denotes is a boundary. -/
theorem floor_floor (offset : Nat) (chars : List Char) :
    floor (floor offset chars) chars = floor offset chars :=
  congrArg size (take_floor offset chars)

end Utf8

namespace Position

/-- Line and column, of which the line is compared first. -/
def place (position : Position) : Nat ×ₗ Nat :=
  toLex (position.line, position.column)

/-- A position stands where a source has an offset: its line is one more than the line breaks among the
bytes before the offset, and its column one more than the characters between the start of that line and
the offset, none of which is a line break. -/
structure StandsAt (position : Position) (input : String) (offset : Nat) : Prop where
  reached : position.offset = offset
  line : position.line = ((Checked.bytes input.toList).take offset).count Checked.lineFeed + 1
  column : ∃ line,
    Checked.slice input.toList (Source.lineBounds input offset).1 offset = .ok line ∧
      '\n' ∉ line ∧ position.column = line.length + 1

section Advance

theorem place_lt_place_iff (first second : Position) :
    first.place < second.place ↔
      first.line < second.line ∨ first.line = second.line ∧ first.column < second.column :=
  Prod.Lex.toLex_lt_toLex

/-- Every character moves a position to a later place. -/
theorem place_lt_advance_singleton (position : Position) (c : Char) :
    position.place < (position.advance [c]).place := by
  rw [place_lt_place_iff]
  by_cases isBreak : c = '\n'
  · subst isBreak
    exact .inl (Nat.lt_succ_self position.line)
  · rw [advance_singleton_of_ne isBreak]
    exact .inr ⟨rfl, Nat.lt_succ_self position.column⟩

theorem place_le_advance (position : Position) (text : List Char) :
    position.place ≤ (position.advance text).place := by
  induction text generalizing position with
  | nil => exact le_refl _
  | cons c rest inductionHypothesis =>
      calc position.place
        _ ≤ (position.advance [c]).place := le_of_lt (place_lt_advance_singleton position c)
        _ ≤ ((position.advance [c]).advance rest).place := inductionHypothesis _
        _ = (position.advance (c :: rest)).place := by rw [← advance_cons]

/-- Every text that is not empty moves a position to a later place. -/
theorem place_lt_advance {text : List Char} (something : text ≠ []) (position : Position) :
    position.place < (position.advance text).place := by
  obtain ⟨c, rest, rfl⟩ := List.exists_cons_of_ne_nil something
  calc position.place
    _ < (position.advance [c]).place := place_lt_advance_singleton position c
    _ ≤ ((position.advance [c]).advance rest).place := place_le_advance _ rest
    _ = (position.advance (c :: rest)).place := by rw [← advance_cons]

end Advance

section Offsets

variable (input : String)

theorem ofOffset_eq_advance (offset : Nat) :
    ofOffset input offset = start.advance (Utf8.take offset input.toList) := by
  have reached := ofOffset_size (Utf8.take_append_drop offset input.toList).symm
  exact (ofOffset_offset input offset).symm.trans reached

/-- Of two boundaries of a source the earlier one has the earlier place. -/
theorem place_strictMonoOn : StrictMonoOn (fun offset => (ofOffset input offset).place)
    {offset | Utf8.floor offset input.toList = offset} := by
  intro lower lowerBoundary upper upperBoundary ordered
  obtain ⟨between, parts⟩ := Utf8.take_isPrefix_take (Nat.le_of_lt ordered) input.toList
  have something : between ≠ [] := by
    rintro rfl
    rw [List.append_nil] at parts
    have same : lower = upper := by
      rw [← lowerBoundary.out, ← upperBoundary.out, Utf8.floor, Utf8.floor, parts]
    exact Nat.ne_of_lt ordered same
  calc (ofOffset input lower).place
    _ = (start.advance (Utf8.take lower input.toList)).place := by rw [ofOffset_eq_advance]
    _ < ((start.advance (Utf8.take lower input.toList)).advance between).place :=
        place_lt_advance something _
    _ = (ofOffset input upper).place := by rw [← advance_append, parts, ofOffset_eq_advance]

variable (lower upper : Nat)

theorem place_ofOffset_lt_iff : (ofOffset input lower).place < (ofOffset input upper).place ↔
    Utf8.floor lower input.toList < Utf8.floor upper input.toList := by
  rw [← ofOffset_offset input lower, ← ofOffset_offset input upper]
  exact (place_strictMonoOn input).lt_iff_lt (Utf8.floor_floor lower _) (Utf8.floor_floor upper _)

theorem place_ofOffset_le_iff : (ofOffset input lower).place ≤ (ofOffset input upper).place ↔
    Utf8.floor lower input.toList ≤ Utf8.floor upper input.toList := by
  rw [← not_lt, place_ofOffset_lt_iff, not_lt]

theorem place_ofOffset_eq_iff : (ofOffset input lower).place = (ofOffset input upper).place ↔
    Utf8.floor lower input.toList = Utf8.floor upper input.toList := by
  rw [le_antisymm_iff, place_ofOffset_le_iff, place_ofOffset_le_iff, ← le_antisymm_iff]

theorem ofOffset_standsAt {offset : Nat} (boundary : Utf8.floor offset input.toList = offset) :
    (ofOffset input offset).StandsAt input offset := by
  have sliced := Checked.slice_eq (Checked.slice?_lastLine input.toList offset)
  rw [boundary] at sliced
  refine ⟨boundary, ?_, _, sliced, Source.not_mem_lastLine _, Nat.add_comm 1 _⟩
  rw [Checked.count_lineFeed_take]
  exact Nat.add_comm 1 _

end Offsets

/-- An offset denotes the boundary that stepping back on the bytes finds. Lines and columns order the
offsets of a source as the boundaries that they denote, and the place of a boundary is that of the line
breaks and the characters before it. -/
theorem places_ordered_as_offsets (input : String) :
    (∀ offset : Nat, Checked.floor input.toList offset = .ok (Utf8.floor offset input.toList)) ∧
    (∀ {lower upper : Nat}, lower ≤ upper →
      (ofOffset input lower).place ≤ (ofOffset input upper).place ∧
        ((ofOffset input lower).place = (ofOffset input upper).place ↔
          Utf8.floor lower input.toList = Utf8.floor upper input.toList)) ∧
    (∀ lower upper : Nat, (ofOffset input lower).place < (ofOffset input upper).place ↔
      Utf8.floor lower input.toList < Utf8.floor upper input.toList) ∧
    (∀ {offset : Nat}, Checked.isBoundary input.toList offset = true →
      (ofOffset input offset).StandsAt input offset) := by
  refine ⟨Checked.floor_eq input.toList, ?_, place_ofOffset_lt_iff input, ?_⟩
  · intro lower upper ordered
    refine ⟨?_, place_ofOffset_eq_iff input lower upper⟩
    rw [place_ofOffset_le_iff]
    exact Utf8.floor_mono ordered input.toList
  · intro offset boundary
    exact ofOffset_standsAt input ((Checked.isBoundary_iff _ _).mp boundary)

/-- Two lines with a character of two bytes: an offset inside that character has its place, the place
behind the line break is later than the one before it, and an offset past the end has a place as well. -/
theorem twoLines_places_ordered :
    Checked.floor "oné\ntwo".toList 3 = .ok 2 ∧
      (2 ≤ 3 ∧ (ofOffset "oné\ntwo" 2).place = (ofOffset "oné\ntwo" 3).place) ∧
      (ofOffset "oné\ntwo" 4).place < (ofOffset "oné\ntwo" 5).place ∧
      (5 ≤ 100 ∧ (ofOffset "oné\ntwo" 5).place ≤ (ofOffset "oné\ntwo" 100).place) ∧
      Checked.isBoundary "oné\ntwo".toList 7 = true ∧
      (ofOffset "oné\ntwo" 7).StandsAt "oné\ntwo" 7 := by
  obtain ⟨found, ordered, strictly, stands⟩ := places_ordered_as_offsets "oné\ntwo"
  have boundary : Checked.isBoundary "oné\ntwo".toList 7 = true := by decide
  exact ⟨found 3, ⟨by decide, (ordered (by decide)).2.mpr rfl⟩, (strictly 4 5).mpr (by decide),
    ⟨by decide, (ordered (by decide)).1⟩, boundary, stands boundary⟩

end Position

end EarleyChart
