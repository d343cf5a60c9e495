import MsFat.Invariant

/-!
# Calls that fail

On a host whose reads and writes succeed, a call that returns -1 has changed
nothing.  A write through an open descriptor does not fail at all, however full
the disk is.
-/

namespace MsFat

/-- A call that returns -1 leaves the session as it was. -/
theorem Effect.eq_of_failed
    {session after : Session}
    {event : Event}
    (succeeds : event.host.IoSucceeds)
    (failed : event.result = -1)
    (effect : Effect session event after) :
    after = session := by
  cases effect with
  | unchanged _ => rfl
  | created _ _ _ _ result => omega
  | deleted _ _ _ _ _ _ result => omega
  | opened _ _ _ _ result => omega
  | closed _ _ result => omega
  | sought _ _ _ result => omega
  | read _ _ result => omega
  | wrote _ _ _ _ _ written =>
      generalize event.result = result at written failed
      cases written with
      | complete _ => omega
      | short _ => omega
      | hostFailed _ _ _ unreliable => exact absurd succeeds unreliable

/-- A write through an open descriptor returns a number of bytes. -/
theorem Effect.write_nonneg
    {session after : Session}
    {event : Event}
    {index : Descriptor}
    {descriptor : FileDescriptor}
    {buf : Buffer}
    {count : Nat}
    (succeeds : event.host.IoSucceeds)
    (call : event.call = .write index.val (some buf) count)
    (isOpen : session.openFiles index = some descriptor)
    (effect : Effect session event after) :
    0 ≤ event.result := by
  rcases effect.of_write call isOpen with
    ⟨_, _, result⟩ | ⟨_, _, _, _, _, _, _, written⟩
  · omega
  · generalize event.result = result at written
    cases written with
    | complete _ => exact Int.natCast_nonneg _
    | short _ => exact Int.natCast_nonneg _
    | hostFailed _ _ _ unreliable => exact absurd succeeds unreliable

/-- In every state that a run of calls reaches from a well-formed session, a
call that returns -1 leaves the state exactly as it was, and a write through an
open descriptor from a buffer does not return -1. -/
theorem unchanged_of_failed
    {session : Session}
    {events : List Event}
    {state after : State}
    {event : Event}
    (wellFormed : session.WellFormed)
    (run : Run Step session.toState events state)
    (succeeds : event.host.IoSucceeds)
    (step : Step state event after) :
    (event.result = -1 → after = state) ∧
      ∀ (index : Descriptor) descriptor buf count,
        event.call = .write index.val (some buf) count →
          state.openFiles index = some descriptor → event.result ≠ -1 := by
  have reached : WellFormedState state :=
    run.invariant WellFormedState
      (fun _ _ _ holds step => holds.step step)
      ⟨session, rfl, wellFormed⟩
  obtain ⟨current, rfl, holds⟩ := reached
  obtain ⟨next, rfl, effect⟩ := step_effect holds step
  constructor
  · intro failed
    rw [effect.eq_of_failed succeeds failed]
  · intro index descriptor buf count call isOpen
    have nonneg := effect.write_nonneg succeeds call isOpen
    omega

/-- Behind a write, the deletion of a file that is not there fails. -/
theorem unchanged_of_failed_sample :
    ∃ state,
      Run Step Session.sample.toState
        [⟨.reliable, .write 0 (some fun _ => 7) 3, 3⟩] state ∧
      ∃ after, Step state ⟨.reliable, .delete (some nameB), -1⟩ after ∧ after = state := by
  have steps : ∃ state,
      Run Step Session.sample.toState
        [⟨.reliable, .write 0 (some fun _ => 7) 3, 3⟩] state ∧
      ∃ after, Step state ⟨.reliable, .delete (some nameB), -1⟩ after :=
    ⟨_, .cons ⟨show 3 ≤ intMax by decide, 5, rfl⟩ .nil, _, trivial, 0, rfl⟩
  obtain ⟨state, run, after, step⟩ := steps
  exact ⟨state, run, after, step,
    (unchanged_of_failed Session.sample_wellFormed run
      Host.reliable_reliable.toIoSucceeds step).1 rfl⟩

end MsFat
