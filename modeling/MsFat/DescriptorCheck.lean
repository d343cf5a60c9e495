import MsFat.Calls
import MsFat.Directory.Checks
import MsFat.WellFormed

/-!
# Checks of the descriptor argument

The five calls with a descriptor compare it with `FS_FILE_MAX_COUNT`, which is
the size of the root directory, where the table of open files has
`FS_OPEN_MAX_COUNT` entries.  So the arguments between the two sizes are
looked up behind the end of the table.
-/

namespace MsFat

/-- The descriptor argument is validated: it is the index of an open descriptor,
or every call that takes it returns -1 and leaves the state as it is. -/
def Session.FdValidated (session : Session) (fd : Int) : Prop :=
  (∃ index : Descriptor, fd = index.val ∧
      (session.openFiles index).isSome) ∨
    ∀ (call : Call), call.TakesFd fd → ∀ fuel host,
      call.exec fuel host session.toState = .ok (session.toState, -1)

section

variable {session : Session} {fd : Int}

/-- Outside the bounds that the source checks, a descriptor is rejected. -/
theorem onDescriptor_outside
    (outside : fd < 0 ∨ fd ≥ fsFileMaxCount)
    {α : Type}
    (failed : α)
    (body : Descriptor → FileDescriptor → Outcome α) :
    onDescriptor session.toState fd failed body = .ok failed := by
  unfold onDescriptor
  rw [if_neg (by simp), if_pos outside]

/-- An entry of the table that is not open is rejected. -/
theorem onDescriptor_notOpen
    {index : Descriptor}
    (notOpen : session.openFiles index = none)
    {α : Type}
    (failed : α)
    (body : Descriptor → FileDescriptor → Outcome α) :
    onDescriptor session.toState index.val failed body = .ok failed := by
  rw [onDescriptor_index, notOpen, Option.elim_none]

/-- Between the two sizes the table is used outside its bounds. -/
theorem onDescriptor_between
    (lower : fsOpenMaxCount ≤ fd)
    (upper : fd < fsFileMaxCount)
    {α : Type}
    (failed : α)
    (body : Descriptor → FileDescriptor → Outcome α) :
    onDescriptor session.toState fd failed body = .error .outOfBounds := by
  have inFiles : ¬(fd < 0 ∨ fd ≥ fsFileMaxCount) := by
    simp only [fsOpenMaxCount, fsFileMaxCount] at *
    omega
  have notInTable : ¬fd.toNat < fsOpenMaxCount := by
    simp only [fsOpenMaxCount] at *
    omega
  unfold onDescriptor
  rw [if_neg (by simp), if_neg inFiles, dif_neg notInTable]

end

/-- In every mounted state a descriptor argument is validated exactly if it does
not lie between the size of the table of open files and the size of the root
directory. -/
theorem fdValidated_iff
    (session : Session)
    (fd : Int) :
    session.FdValidated fd ↔ ¬(32 ≤ fd ∧ fd < 128) := by
  constructor
  · rintro validated ⟨lower, upper⟩
    rcases validated with ⟨index, rfl, _⟩ | rejected
    · have := index.isLt
      simp only [fsOpenMaxCount] at this
      omega
    · have closes : fsClose session.toState fd = .ok (session.toState, -1) :=
        rejected (.close fd) rfl 0 .reliable
      unfold fsClose at closes
      rw [onDescriptor_between lower upper] at closes
      exact nomatch closes
  · intro notBetween
    by_cases inTable : 0 ≤ fd ∧ fd < fsOpenMaxCount
    · obtain ⟨index, rfl⟩ : ∃ index : Descriptor, fd = index.val :=
        ⟨⟨fd.toNat, by omega⟩, by change fd = ((fd.toNat : Nat) : Int); omega⟩
      cases isOpen : session.openFiles index with
      | some descriptor => exact .inl ⟨index, rfl, by rw [isOpen]; rfl⟩
      | none =>
          exact .inr fun call takes =>
            exec_of_rejected takes (onDescriptor_notOpen isOpen)
    · have outside : fd < 0 ∨ fd ≥ fsFileMaxCount := by
        simp only [fsOpenMaxCount, fsFileMaxCount] at *
        omega
      exact .inr fun call takes =>
        exec_of_rejected takes (onDescriptor_outside outside)

/-- Descriptor 32 lies behind the end of the table. -/
theorem not_fdValidated_sample :
    Session.sample.WellFormed ∧
      fsStat Session.sample.toState 32 = .error .outOfBounds ∧
      ¬Session.sample.FdValidated 32 := by
  have beyond : fsStat Session.sample.toState 32 = .error .outOfBounds :=
    onDescriptor_between (by decide) (by decide) _ _
  refine ⟨Session.sample_wellFormed, beyond, ?_⟩
  rintro (⟨index, equal, _⟩ | rejected)
  · have := index.isLt
    simp only [fsOpenMaxCount] at this
    omega
  · have stats := rejected (.stat 32) rfl 0 .reliable
    exact nomatch beyond.symm.trans stats

end MsFat
