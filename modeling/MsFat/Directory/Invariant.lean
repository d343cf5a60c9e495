import MsFat.CallEffect

/-!
# The invariant of the directory

The names of the files are terminated and distinct, and open descriptors refer
to files.  Every call keeps this, whatever the FAT and the disk hold.
-/

namespace MsFat
namespace Session

/-- The root directory and the table of open files are in order. -/
structure DirectoryOk (session : Session) : Prop where
  names : session.NamesOk
  descriptors : session.DescriptorsOk

end Session

open Session

variable {session after : Session} {event : Event}

/-- What a write leaves: the names, and every descriptor on the file it was
on. -/
theorem CallEffect.of_wrote
    {index : Descriptor}
    {descriptor : FileDescriptor}
    {fat' : Fat session.sb.numDataBlocks.toNat}
    {firstIndex' : UInt16}
    {moved : Session}
    (isOpen : session.openFiles index = some descriptor)
    (confined : (session.setChain descriptor.file fat' firstIndex').Confined
      descriptor.file moved)
    (ends : after = moved ∨
      ∃ bytes, after = moved.finishWrite index descriptor bytes) :
    after.sb = session.sb ∧ after.numOpenFiles = session.numOpenFiles ∧
      (∀ slot, (after.root slot).filename = (session.root slot).filename) ∧
      (∀ other, other ≠ index →
        after.openFiles other = session.openFiles other) ∧
      ∃ offset,
        after.openFiles index = some { descriptor with offset := offset } := by
  have movedEq := confined.rest
  have movedName : ∀ slot,
      (moved.root slot).filename = (session.root slot).filename := by
    intro slot
    rw [movedEq]
    by_cases same : slot = descriptor.file
    · subst same
      simp [setChain]
    · simp [setChain, same]
  have movedOpen : moved.openFiles = session.openFiles := by
    rw [movedEq]
    rfl
  have movedSb : moved.sb = session.sb := by
    rw [movedEq]
    rfl
  have movedCount : moved.numOpenFiles = session.numOpenFiles := by
    rw [movedEq]
    rfl
  rcases ends with rfl | ⟨bytes, rfl⟩
  · refine ⟨movedSb, movedCount, movedName, fun other _ => by rw [movedOpen],
      descriptor.offset, ?_⟩
    rw [movedOpen, isOpen]
  · refine ⟨movedSb, movedCount, ?_, ?_, ?_⟩
    · intro slot
      rw [finishWrite_filename, movedName]
    · intro other different
      rw [← movedOpen]
      exact setOpenFile_of_ne _ different
    · exact ⟨_, setOpenFile_self _ _⟩

/-- Every call keeps the directory in order. -/
theorem CallEffect.directoryOk
    (effect : CallEffect session event after)
    (directory : session.DirectoryOk) :
    after.DirectoryOk := by
  obtain ⟨names, descriptors⟩ := directory
  cases effect with
  | unchanged _ => exact ⟨names, descriptors⟩
  | created _ valid fresh empty _ =>
      exact ⟨names.created _ valid fresh,
        descriptors.created (findEmptyRootEntry_eq_some empty) _⟩
  | deleted fat' _ valid found closed _ =>
      exact ⟨names.cleared _ fat', descriptors.cleared valid found closed⟩
  | opened _ valid found _ _ _ =>
      refine ⟨names.congr fun _ => rfl, ?_⟩
      apply descriptors.setOpenFile _
      rintro _ ⟨⟩
      exact inUse_of_found valid found
  | closed _ _ _ =>
      exact ⟨names.congr fun _ => rfl, descriptors.setOpenFile _ nofun⟩
  | positioned _ _ isOpen =>
      have used := descriptors _ _ isOpen
      refine ⟨names.congr fun _ => rfl, descriptors.setOpenFile _ ?_⟩
      rintro _ ⟨⟩
      exact used
  | @wrote index descriptor _ _ _ _ _ _ _ _ _ _ isOpen _ confined ends =>
      have used := descriptors index descriptor isOpen
      obtain ⟨_, _, filename, others, offset, own⟩ :=
        CallEffect.of_wrote isOpen confined ends
      refine ⟨names.congr filename, ?_⟩
      intro other otherDescriptor isOther
      rw [inUse_congr filename]
      by_cases same : other = index
      · rw [same, own] at isOther
        cases isOther
        exact used
      · rw [others other same] at isOther
        exact descriptors other otherDescriptor isOther

/-- A mounted state whose directory is in order. -/
def DirectoryState (state : State) : Prop :=
  ∃ session : Session, state = session.toState ∧ session.DirectoryOk

theorem DirectoryState.step
    {before last : State}
    (directory : DirectoryState before)
    (step : Step before event last) :
    DirectoryState last := by
  obtain ⟨current, rfl, holds⟩ := directory
  obtain ⟨_, fuel, returns⟩ := step
  obtain ⟨next, rfl, effect⟩ := exec_effect returns
  exact ⟨next, rfl, effect.directoryOk holds⟩

end MsFat
