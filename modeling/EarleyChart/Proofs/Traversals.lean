import Mathlib.Data.List.Forall2

/-!
Contract: a step that can fail, tried on the elements of a list.

The traversal of a list succeeds exactly if the step does on every element, and its results are those
of the single steps, one for one (`mapM_eq_ok_iff`).
-/

namespace EarleyChart.Traversal

variable {α β ε : Type} {step : α → Except ε β} {elements : List α} {results : List β}

/-- What succeeds as a whole succeeds in its first part, and then with the value of that. -/
theorem exists_ok_of_bind {first : Except ε α} {result : β} (bound : (first >>= step) = .ok result) :
    ∃ value, first = .ok value ∧ step value = .ok result := by
  cases first with
  | error fault => cases bound
  | ok value => exact ⟨value, rfl, bound⟩

/-- The results of a traversal are those of its steps. -/
theorem mapM_eq_ok_iff :
    elements.mapM step = .ok results ↔
      List.Forall₂ (fun element result => step element = .ok result) elements results := by
  constructor
  · intro mapped
    induction elements generalizing results with
    | nil =>
        cases mapped
        exact .nil
    | cons first rest inductionHypothesis =>
        rw [List.mapM_cons] at mapped
        obtain ⟨result, stepped, mapped⟩ := exists_ok_of_bind mapped
        obtain ⟨others, rested, mapped⟩ := exists_ok_of_bind mapped
        cases mapped
        exact .cons stepped (inductionHypothesis rested)
  · intro each
    induction each with
    | nil => rfl
    | cons stepped _ inductionHypothesis =>
        rw [List.mapM_cons, stepped, inductionHypothesis]
        rfl

/-- A traversal succeeds exactly if all its steps do. -/
theorem exists_mapM_eq_ok_iff :
    (∃ results, elements.mapM step = .ok results) ↔
      ∀ element ∈ elements, ∃ result, step element = .ok result := by
  simp only [mapM_eq_ok_iff]
  induction elements with
  | nil => exact iff_of_true ⟨[], .nil⟩ (List.forall_mem_nil _)
  | cons first rest inductionHypothesis =>
      rw [List.forall_mem_cons, ← inductionHypothesis]
      constructor
      · rintro ⟨_, each⟩
        cases each with
        | cons stepped others => exact ⟨⟨_, stepped⟩, _, others⟩
      · rintro ⟨⟨result, stepped⟩, results, others⟩
        exact ⟨result :: results, .cons stepped others⟩

/-- Steps that succeed with the values of a function have these values. -/
theorem mapM_eq_ok_map {plain : α → β}
    (each : ∀ element ∈ elements, step element = .ok (plain element)) :
    elements.mapM step = .ok (elements.map plain) := by
  rw [mapM_eq_ok_iff, List.forall₂_map_right_iff]
  exact List.forall₂_same.mpr each

/-- Every result of a traversal comes from an element. -/
theorem exists_step_of_mem (mapped : elements.mapM step = .ok results) {result : β}
    (member : result ∈ results) : ∃ element ∈ elements, step element = .ok result := by
  have paired := mapM_eq_ok_iff.mp mapped
  obtain ⟨index, inside, rfl⟩ := List.mem_iff_getElem.mp member
  have insideElements : index < elements.length := paired.length_eq ▸ inside
  exact ⟨elements[index], List.getElem_mem insideElements, paired.get insideElements inside⟩

end EarleyChart.Traversal
