/-!
# Faults that a computation can end with

`FaultsOnly allowed outcome` bounds the errors of an outcome.  The rules follow
the way computations are put together, so that a bound on the parts gives the
bound on the whole.  With no error allowed, the computation returns.
-/

namespace MsFat

universe u v

variable {ε : Type u} {α β : Type v}

/-- Every error of the outcome is allowed. -/
def FaultsOnly (allowed : ε → Prop) (outcome : Except ε α) : Prop :=
  ∀ fault, outcome = .error fault → allowed fault

namespace FaultsOnly

variable {allowed : ε → Prop}

theorem ok (value : α) : FaultsOnly allowed (.ok value) := nofun

theorem error
    {fault : ε}
    (holds : allowed fault) :
    FaultsOnly allowed (.error fault : Except ε α) := by
  rintro _ ⟨⟩
  exact holds

/-- The errors of a computation followed by another one. -/
theorem bind
    {first : Except ε α}
    {next : α → Except ε β}
    (firstFaults : FaultsOnly allowed first)
    (nextFaults : ∀ value, first = .ok value →
      FaultsOnly allowed (next value)) :
    FaultsOnly allowed (first >>= next) := by
  cases returns : first with
  | error fault => exact error (firstFaults fault returns)
  | ok value => exact nextFaults value returns

/-- More errors may be allowed. -/
theorem mono
    {other : ε → Prop}
    {outcome : Except ε α}
    (faults : FaultsOnly allowed outcome)
    (weaker : ∀ fault, allowed fault → other fault) :
    FaultsOnly other outcome :=
  fun fault fails => weaker fault (faults fault fails)

/-- Both ways of a decision. -/
theorem ite
    {condition : Prop}
    [Decidable condition]
    {left right : Except ε α}
    (leftFaults : condition → FaultsOnly allowed left)
    (rightFaults : ¬condition → FaultsOnly allowed right) :
    FaultsOnly allowed (if condition then left else right) := by
  split
  · exact leftFaults ‹_›
  · exact rightFaults ‹_›

/-- With no error allowed the computation returns. -/
theorem returns
    {outcome : Except ε α}
    (none : FaultsOnly (fun _ => False) outcome) :
    ∃ value, outcome = .ok value := by
  cases isOutcome : outcome with
  | error fault => exact (none fault isOutcome).elim
  | ok value => exact ⟨value, rfl⟩

theorem of_returns
    {outcome : Except ε α}
    (returns : ∃ value, outcome = .ok value) :
    FaultsOnly allowed outcome := by
  obtain ⟨value, rfl⟩ := returns
  exact ok value

end FaultsOnly
end MsFat
