/-!
# Runs of a labelled step relation

A run is a finite sequence of steps, each carrying the event that caused it.
The rules below turn what one step preserves into what a whole run preserves.
A condition on the steps of a run is itself part of the step relation, see
`Guarded`.
-/

namespace MsFat

universe u v w

variable {σ : Type u} {ε : Type v}

/-- `Run step before events after`: the events, in this order, lead from
`before` to `after`. -/
inductive Run (step : σ → ε → σ → Prop) : σ → List ε → σ → Prop
  | nil {state : σ} : Run step state [] state
  | cons {before middle after : σ} {event : ε} {events : List ε} :
      step before event middle →
      Run step middle events after →
      Run step before (event :: events) after

/-- The steps of `step` whose state and event satisfy `guard`. -/
def Guarded
    (step : σ → ε → σ → Prop)
    (guard : σ → ε → Prop) : σ → ε → σ → Prop :=
  fun before event after => step before event after ∧ guard before event

namespace Run

variable {step other : σ → ε → σ → Prop}

/-- What holds at the start and is preserved by every step holds at the end of
every run. -/
theorem invariant
    (property : σ → Prop)
    (preserved : ∀ before event after,
      property before → step before event after → property after)
    {before after : σ}
    {events : List ε}
    (run : Run step before events after)
    (initially : property before) :
    property after := by
  induction run with
  | nil => exact initially
  | cons first _ inductionHypothesis =>
      exact inductionHypothesis (preserved _ _ _ initially first)

/-- Steps of another relation that includes this one. -/
theorem mono
    (includes : ∀ before event after,
      step before event after → other before event after)
    {before after : σ}
    {events : List ε}
    (run : Run step before events after) :
    Run other before events after := by
  induction run with
  | nil => exact .nil
  | cons first _ inductionHypothesis =>
      exact .cons (includes _ _ _ first) inductionHypothesis

/-- A reflexive and transitive relation that holds across every step holds
across every run, where an invariant may be used at each step. -/
theorem relation
    (property : σ → Prop)
    {relation : σ → σ → Prop}
    (refl : ∀ state, relation state state)
    (trans : ∀ first second third,
      relation first second → relation second third → relation first third)
    (preserved : ∀ before event after,
      property before → step before event after →
        property after ∧ relation before after)
    {before after : σ}
    {events : List ε}
    (run : Run step before events after)
    (initially : property before) :
    relation before after := by
  induction run with
  | nil => exact refl _
  | cons first _ inductionHypothesis =>
      obtain ⟨holds, related⟩ := preserved _ _ _ initially first
      exact trans _ _ _ related (inductionHypothesis holds)

/-- A step relation that simulates every step simulates every run. -/
theorem simulation
    {τ : Type w}
    {abstractStep : τ → ε → τ → Prop}
    (related : σ → τ → Prop)
    (simulates : ∀ before event after image,
      related before image → step before event after →
        ∃ image', abstractStep image event image' ∧ related after image')
    {before after : σ}
    {events : List ε}
    (run : Run step before events after)
    {image : τ}
    (initially : related before image) :
    ∃ image', Run abstractStep image events image' ∧ related after image' := by
  induction run generalizing image with
  | nil => exact ⟨image, .nil, initially⟩
  | cons first _ inductionHypothesis =>
      obtain ⟨middle, stepped, relatedMiddle⟩ :=
        simulates _ _ _ _ initially first
      obtain ⟨last, rest, relatedLast⟩ := inductionHypothesis relatedMiddle
      exact ⟨last, .cons stepped rest, relatedLast⟩

end Run
end MsFat
