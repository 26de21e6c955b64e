import EarleyChart.Parse.Engine

/-!
Contract: what a step of a parse ends in.

`Engine.Ends` tells of a step from a state what holds where it returns and what holds where it
stops with an error; the state is known in both cases. The lemmas take a step apart along its
operations, so that a property of a step is proved from the properties of its parts.
-/

namespace EarleyChart.Engine

variable {α β : Type}

/-- A step from `state` ends as told: with `done` where it returns, with `stopped` where it stops. -/
def Ends (step : Engine α) (state : ParseState) (done : α → ParseState → Prop)
    (stopped : ParseError → ParseState → Prop) : Prop :=
  match step state with
  | .ok value next => done value next
  | .error error next => stopped error next

variable {state : ParseState} {done : α → ParseState → Prop}
  {stopped : ParseError → ParseState → Prop}

@[simp] theorem ends_pure (value : α) : Ends (pure value) state done stopped ↔ done value state :=
  Iff.rfl

@[simp] theorem ends_bind (step : Engine α) (rest : α → Engine β)
    {done : β → ParseState → Prop} :
    Ends (step >>= rest) state done stopped ↔
      Ends step state (fun value next => Ends (rest value) next done stopped) stopped := by
  simp only [Ends, bind, EStateM.bind]
  cases step state <;> rfl

@[simp] theorem ends_getChart {done : Chart → ParseState → Prop} :
    Ends getChart state done stopped ↔ done state.chart state :=
  Iff.rfl

@[simp] theorem ends_ite {condition : Prop} [Decidable condition] {yes no : Engine α} :
    Ends (if condition then yes else no) state done stopped ↔
      if condition then Ends yes state done stopped else Ends no state done stopped := by
  split <;> rfl

/-- A step that ends in one way ends in every weaker one. -/
theorem Ends.mono {step : Engine α} {done' : α → ParseState → Prop}
    {stopped' : ParseError → ParseState → Prop} (ends : Ends step state done stopped)
    (weakerDone : ∀ value next, done value next → done' value next)
    (weakerStopped : ∀ error next, stopped error next → stopped' error next) :
    Ends step state done' stopped' := by
  unfold Ends at ends ⊢
  cases outcome : step state with
  | ok value next =>
      rw [outcome] at ends
      exact weakerDone value next ends
  | error error next =>
      rw [outcome] at ends
      exact weakerStopped error next ends

/-- What a step ends in by two accounts, it ends in by both. -/
theorem Ends.and {step : Engine α} {done' : α → ParseState → Prop}
    {stopped' : ParseError → ParseState → Prop} (first : Ends step state done stopped)
    (second : Ends step state done' stopped') :
    Ends step state (fun value next => done value next ∧ done' value next)
      (fun error next => stopped error next ∧ stopped' error next) := by
  unfold Ends at *
  cases outcome : step state with
  | ok value next =>
      rw [outcome] at first second
      exact ⟨first, second⟩
  | error error next =>
      rw [outcome] at first second
      exact ⟨first, second⟩

/-- A loop over a list. Every round keeps the invariant and what earlier rounds achieved, and
achieves what is asked of its own element. -/
theorem ends_forM {elements : List β} {step : β → Engine Unit} (kept : ParseState → Prop)
    (achieved : β → ParseState → Prop)
    (round : ∀ element ∈ elements, ∀ state, kept state →
      Ends (step element) state
        (fun _ next => kept next ∧ achieved element next ∧
          ∀ other, achieved other state → achieved other next) stopped)
    (initially : kept state) :
    Ends (elements.forM step) state
      (fun _ next => kept next ∧ (∀ element ∈ elements, achieved element next) ∧
        ∀ other, achieved other state → achieved other next) stopped := by
  induction elements generalizing state with
  | nil => exact ⟨initially, by simp, fun _ before => before⟩
  | cons element rest inductionHypothesis =>
      change Ends (step element >>= fun _ => rest.forM step) state _ stopped
      rw [ends_bind]
      refine (round element (by simp) state initially).mono ?_ (fun _ _ stops => stops)
      intro _ middle reached
      obtain ⟨middleKept, first, lasting⟩ := reached
      have others := inductionHypothesis
        (fun other member => round other (List.mem_cons_of_mem _ member)) middleKept
      refine others.mono ?_ (fun _ _ stops => stops)
      intro _ next reached
      obtain ⟨nextKept, allRest, lastingRest⟩ := reached
      refine ⟨nextKept, ?_, fun other before => lastingRest other (lasting other before)⟩
      intro other member
      rcases List.mem_cons.mp member with rfl | inRest
      · exact lastingRest other first
      · exact allRest other inRest

end EarleyChart.Engine
