import MsFat.Deletion
import MsFat.Directory.Invariant

/-!
# Identity of descriptors

From the `fs_open` that returns it to the `fs_close` of its index, a descriptor
refers to the same entry of the root directory, and the entry stays in use under
the same name.
-/

namespace MsFat

/-- The call may move the offset of the descriptor with this index. -/
def Call.MayMove (call : Call) (index : Descriptor) : Prop :=
  match call with
  | .lseek fd _ => fd = index.val
  | .read fd _ _ => fd = index.val
  | .write fd _ _ => fd = index.val
  | _ => False

/-- The descriptor refers to this entry, which is in use under this name. -/
structure Session.RefersTo
    (session : Session)
    (index : Descriptor)
    (slot : Slot)
    (name : CString) : Prop where
  isOpen : ∃ offset,
    session.openFiles index = some { file := slot, offset := offset }
  inUse : session.InUse slot
  named : session.nameAt slot = name

section

variable {session after : Session} {event : Event} {index : Descriptor}

/-- A call that does not close the descriptor leaves it on its entry, with the
entry in use under its name. -/
theorem CallEffect.refersTo
    {slot : Slot}
    {name : CString}
    (effect : CallEffect session event after)
    (refers : session.RefersTo index slot name)
    (notClosed : event.call ≠ .close index.val) :
    after.RefersTo index slot name := by
  obtain ⟨⟨offset, isOpen⟩, used, named⟩ := refers
  cases effect with
  | unchanged _ => exact ⟨⟨offset, isOpen⟩, used, named⟩
  | @created _ empty _ _ _ found _ =>
      have different : slot ≠ empty := by
        rintro rfl
        exact Session.findEmptyRootEntry_eq_some found used
      have kept : ∀ file,
          (session.setFile empty file).root slot = session.root slot :=
        Session.setFile_root_of_ne different
      refine ⟨⟨offset, isOpen⟩, ?_, ?_⟩
      · unfold Session.InUse
        rwa [kept]
      · unfold Session.nameAt
        rwa [kept]
  | @deleted _ deleted fat' _ valid found closed _ =>
      have different : slot ≠ deleted :=
        Session.file_ne_of_not_isOpen valid found closed isOpen
      refine ⟨⟨offset, isOpen⟩,
        Session.inUse_cleared_iff.mpr ⟨used, different⟩, ?_⟩
      unfold Session.nameAt
      rwa [Session.cleared_root_of_ne different]
  | @opened _ _ other _ _ _ _ empty _ =>
      have different : index ≠ other := by
        rintro rfl
        rw [isOpen] at empty
        exact nomatch empty
      refine ⟨⟨offset, ?_⟩, used, named⟩
      exact (Session.setOpenFile_of_ne _ different).trans isOpen
  | @closed other _ call _ _ =>
      have different : index ≠ other := by
        rintro rfl
        exact notClosed call
      refine ⟨⟨offset, ?_⟩, used, named⟩
      exact (Session.setOpenFile_of_ne _ different).trans isOpen
  | @positioned other descriptor moved _ isOther =>
      refine ⟨?_, used, named⟩
      by_cases same : index = other
      · subst same
        rw [isOpen] at isOther
        cases isOther
        exact ⟨moved, Session.setOpenFile_self _ _⟩
      · exact ⟨offset, (Session.setOpenFile_of_ne _ same).trans isOpen⟩
  | @wrote other descriptor _ _ _ _ _ _ _ _ _ _ isOther _ confined ends =>
      obtain ⟨_, _, filename, others, moved, own⟩ :=
        CallEffect.of_wrote isOther confined ends
      refine ⟨?_, (Session.inUse_congr filename slot).mpr used, ?_⟩
      · by_cases same : index = other
        · subst same
          rw [isOpen] at isOther
          cases isOther
          exact ⟨moved, own⟩
        · exact ⟨offset, (others index same).trans isOpen⟩
      · unfold Session.nameAt
        rwa [filename]

/-- An open descriptor stays as it is, unless the call closes it or may move its
offset. -/
theorem CallEffect.openFiles_eq
    (effect : CallEffect session event after)
    (isOpen : session.openFiles index ≠ none)
    (notClosed : event.call ≠ .close index.val)
    (notMoved : ¬event.call.MayMove index) :
    after.openFiles index = session.openFiles index := by
  cases effect with
  | unchanged _ => rfl
  | created _ _ _ _ _ => rfl
  | deleted _ _ _ _ _ _ => rfl
  | @opened _ _ other _ _ _ _ empty _ =>
      apply Session.setOpenFile_of_ne _
      rintro rfl
      exact isOpen empty
  | closed call _ _ =>
      apply Session.setOpenFile_of_ne _
      rintro rfl
      exact notClosed call
  | positioned _ call _ =>
      apply Session.setOpenFile_of_ne _
      rintro rfl
      rcases call with ⟨_, isCall⟩ | ⟨_, _, isCall⟩
      all_goals
        rw [isCall] at notMoved
        exact notMoved rfl
  | wrote call _ isOther _ confined ends =>
      obtain ⟨_, _, _, others, _⟩ :=
        CallEffect.of_wrote isOther confined ends
      apply others index
      rintro rfl
      rw [call] at notMoved
      exact notMoved rfl

/-- A successful `fs_open` returns the index of an entry of the table that was
not open, which is then on the file of that name, at its start. -/
theorem CallEffect.of_open
    {name : CString}
    (effect : CallEffect session event after)
    (call : event.call = .open (some name))
    (succeeds : event.result ≠ -1) :
    ∃ index slot, event.result = (index : Descriptor).val ∧
      session.openFiles index = none ∧
      after.openFiles index = some { file := slot, offset := 0 } ∧
      after.RefersTo index slot name := by
  cases effect with
  | unchanged refused => exact absurd (refused.open _ call).1 succeeds
  | created other _ _ _ _ => exact nomatch call.symm.trans other
  | deleted _ other _ _ _ _ => exact nomatch call.symm.trans other
  | closed other _ _ => exact nomatch call.symm.trans other
  | positioned _ other _ =>
      rcases other with ⟨_, isCall⟩ | ⟨_, _, isCall⟩
      all_goals exact nomatch call.symm.trans isCall
  | wrote other _ _ _ _ _ => exact nomatch call.symm.trans other
  | @opened opened slot index other valid found _ empty result =>
      have same := call.symm.trans other
      simp only [Call.open.injEq, Option.some.injEq] at same
      subst same
      have isOpen : (session.setOpenFile index
          (some { file := slot, offset := 0 })).openFiles index = _ :=
        Session.setOpenFile_self index _
      exact ⟨index, slot, result, empty, isOpen, ⟨0, isOpen⟩,
        Session.inUse_of_found valid found,
        Session.nameAt_eq_iff.mpr
          (Session.findMatchingFilename_eq_some found)⟩

/-- The deletion of a name on which a descriptor is open returns -1. -/
theorem fsDelete_of_open
    (directory : session.DirectoryOk)
    {descriptor : FileDescriptor}
    (isOpen : session.openFiles index = some descriptor)
    (fuel : Nat) :
    fsDelete fuel session.toState (some (session.nameAt descriptor.file)) =
      .ok (session.toState, -1) := by
  have valid := directory.names.validName
    (directory.descriptors index descriptor isOpen)
  have opened : session.isOpen (session.nameAt descriptor.file) = true :=
    (Session.isOpen_iff valid.2).mpr ⟨index, descriptor, isOpen, rfl⟩
  unfold fsDelete
  rw [onFilename_valid valid]
  unfold Session.deleteFile
  rw [opened]
  cases session.findMatchingFilename (session.nameAt descriptor.file) with
  | none => rfl
  | some slot => rfl

end

/-- In this state the descriptor is on the entry, which is in use under the name;
the deletion of a name on which a descriptor is open returns -1; and the next
call leaves the descriptor as it is, unless it closes the descriptor or may move
its offset. -/
structure Identified
    (state : State)
    (index : Descriptor)
    (slot : Slot)
    (name : CString) : Prop where
  refers : ∃ session : Session,
    state = session.toState ∧ session.RefersTo index slot name
  delete : ∀ (session : Session) other descriptor, state = session.toState →
    session.openFiles other = some descriptor →
      ∀ fuel, fsDelete fuel state (some (session.nameAt descriptor.file)) =
        .ok (state, -1)
  offset : ∀ event after, Step state event after →
    event.call ≠ .close index.val → ¬event.call.MayMove index →
      after.openFiles index = state.openFiles index

/-- In every run that starts with an empty table of open files, a successful
`fs_open` returns an index that is not open, at offset 0.  Behind every further
run without an `fs_close` of the index, the descriptor is on the same entry of
the root directory, in use under the same name. -/
theorem descriptor_identity
    {start : Session}
    (empty : ∀ index, start.openFiles index = none)
    (names : start.NamesOk)
    {events : List Event}
    {before opened : State}
    (run : Run Step start.toState events before)
    {host : Host}
    {name : CString}
    {result : Int}
    (opens : Step before ⟨host, .open (some name), result⟩ opened)
    (succeeds : result ≠ -1) :
    ∃ (index : Descriptor) (slot : Slot),
      result = index.val ∧ before.openFiles index = none ∧
      opened.openFiles index = some { file := slot, offset := 0 } ∧
      ∀ later events,
        Run (Guarded Step fun _ event => event.call ≠ .close index.val)
          opened events later →
        Identified later index slot name := by
  have reached : DirectoryState before :=
    run.invariant DirectoryState (fun _ _ _ holds step => holds.step step)
      ⟨start, rfl, names, fun index _ isOpen => by
        rw [empty index] at isOpen
        exact nomatch isOpen⟩
  obtain ⟨session, rfl, directory⟩ := reached
  obtain ⟨_, fuel, returns⟩ := opens
  obtain ⟨fresh, rfl, effect⟩ :=
    @exec_effect _ ⟨host, .open (some name), result⟩ _ _ returns
  obtain ⟨index, slot, isResult, notOpen, atStart, refers⟩ :=
    effect.of_open rfl succeeds
  refine ⟨index, slot, isResult, notOpen, atStart, ?_⟩
  intro later further runLater
  have kept : ∃ current : Session, later = current.toState ∧
      current.DirectoryOk ∧ current.RefersTo index slot name := by
    refine runLater.invariant
      (fun state => ∃ current : Session, state = current.toState ∧
        current.DirectoryOk ∧ current.RefersTo index slot name) ?_
      ⟨fresh, rfl, effect.directoryOk directory, refers⟩
    rintro _ event last ⟨current, rfl, inOrder, refersNow⟩
      ⟨⟨_, fuel, returns⟩, notClosed⟩
    obtain ⟨next, rfl, effect⟩ := exec_effect returns
    exact ⟨next, rfl, effect.directoryOk inOrder,
      effect.refersTo refersNow notClosed⟩
  obtain ⟨current, rfl, inOrder, refersNow⟩ := kept
  refine ⟨⟨current, rfl, refersNow⟩, ?_, ?_⟩
  · intro other descriptor index same isOpen fuel
    cases Session.toState_injective same
    exact fsDelete_of_open inOrder isOpen fuel
  · rintro event after ⟨_, fuel, returns⟩ notClosed notMoved
    obtain ⟨next, rfl, effect⟩ := exec_effect returns
    obtain ⟨offset, isOpen⟩ := refersNow.isOpen
    exact effect.openFiles_eq (by rw [isOpen]; exact Option.some_ne_none _)
      notClosed notMoved

/-- The file `a` is opened a second time. -/
theorem descriptor_identity_twoLongFiles :
    ∃ (index : Descriptor) (slot : Slot),
      (1 : Int) = index.val ∧
      (twoLongFiles.openFile .reliable nameA).1.toState.openFiles index =
        none ∧
      ((twoLongFiles.openFile .reliable nameA).1.openFile .reliable
        nameA).1.toState.openFiles index = some { file := slot, offset := 0 } ∧
      ∀ later events,
        Run (Guarded Step fun _ event => event.call ≠ .close index.val)
          ((twoLongFiles.openFile .reliable nameA).1.openFile .reliable
            nameA).1.toState events later →
        Identified later index slot nameA :=
  @descriptor_identity twoLongFiles (fun _ => rfl)
    twoLongFiles_wellFormed.names [⟨.reliable, .open (some nameA), 0⟩] _ _
    (.cons ⟨trivial, 0, rfl⟩ .nil) .reliable nameA 1 ⟨trivial, 0, rfl⟩
    (by decide)

end MsFat
