import MsFat.Effect
import MsFat.Transfer.Confined

/-!
# What one call does to any session

`CallEffect` lists what a call that returns can do to a session of which nothing
is known: the names may repeat, and the FAT may hold any words.  Every call has
an effect of its own, or none; a call that refuses says why.
-/

namespace MsFat

namespace Session

/-- The call is none that has an effect on the directory and the table of open
files: one of these returns -1, for a reason. -/
structure Refused (session : Session) (event : Event) : Prop where
  create : ∀ filename, event.call = .create filename → event.result = -1 ∧
    ∀ name, filename = some name → ValidName name →
      session.findMatchingFilename name = none →
        session.findEmptyRootEntry = none
  delete : ∀ filename, event.call = .delete filename → event.result = -1 ∧
    ∀ name slot, filename = some name → ValidName name →
      session.findMatchingFilename name = some slot →
        session.isOpen name = true
  «open» : ∀ filename, event.call = .open filename → event.result = -1 ∧
    ∀ name slot, filename = some name → ValidName name →
      session.findMatchingFilename name = some slot →
        session.NoDescriptor event.host
  close : ∀ fd, event.call = .close fd → event.result = -1 ∧
    ∀ index : Descriptor, fd = index.val → session.openFiles index = none

/-- A call that creates, deletes, opens and closes nothing. -/
theorem Refused.of_other
    {session : Session}
    {event : Event}
    (create : ∀ filename, event.call ≠ .create filename)
    (delete : ∀ filename, event.call ≠ .delete filename)
    («open» : ∀ filename, event.call ≠ .open filename)
    (close : ∀ fd, event.call ≠ .close fd) :
    session.Refused event where
  create := fun filename call => absurd call (create filename)
  delete := fun filename call => absurd call (delete filename)
  «open» := fun filename call => absurd call («open» filename)
  close := fun fd call => absurd call (close fd)

end Session

/-- The call moves the offset of this descriptor and nothing else. -/
def Call.Positions (call : Call) (index : Descriptor) : Prop :=
  (∃ offset, call = .lseek index.val offset) ∨
    ∃ buf count, call = .read index.val (some buf) count

/-- `CallEffect session event after`: the call of the event, made in the session,
leaves `after`. -/
inductive CallEffect (session : Session) (event : Event) : Session → Prop
  | unchanged
      (refused : session.Refused event) :
      CallEffect session event session
  | created
      {name : CString}
      {slot : Slot}
      (call : event.call = .create (some name))
      (valid : ValidName name)
      (fresh : session.findMatchingFilename name = none)
      (empty : session.findEmptyRootEntry = some slot)
      (result : event.result = 0) :
      CallEffect session event
        (session.setFile slot (newFile (session.root slot) name))
  | deleted
      {name : CString}
      {slot : Slot}
      (fat' : Fat session.sb.numDataBlocks.toNat)
      (call : event.call = .delete (some name))
      (valid : ValidName name)
      (found : session.findMatchingFilename name = some slot)
      (closed : session.isOpen name = false)
      (result : event.result = 0) :
      CallEffect session event (session.cleared slot fat')
  | opened
      {name : CString}
      {slot : Slot}
      {index : Descriptor}
      (call : event.call = .open (some name))
      (valid : ValidName name)
      (found : session.findMatchingFilename name = some slot)
      (available : ¬session.NoDescriptor event.host)
      (empty : session.openFiles index = none)
      (result : event.result = index.val) :
      CallEffect session event
        { session.setOpenFile index (some { file := slot, offset := 0 }) with
          numOpenFiles := session.numOpenFiles + 1 }
  | closed
      {index : Descriptor}
      {descriptor : FileDescriptor}
      (call : event.call = .close index.val)
      (isOpen : session.openFiles index = some descriptor)
      (result : event.result = 0) :
      CallEffect session event (session.closeFile index)
  | positioned
      {index : Descriptor}
      {descriptor : FileDescriptor}
      (offset : UInt16)
      (call : event.call.Positions index)
      (isOpen : session.openFiles index = some descriptor) :
      CallEffect session event
        (session.setOpenFile index (some { descriptor with offset := offset }))
  | wrote
      {index : Descriptor}
      {descriptor : FileDescriptor}
      {buf : Buffer}
      {count fuel : Nat}
      {fat' : Fat session.sb.numDataBlocks.toNat}
      {firstIndex' : UInt16}
      {allocated : Int}
      {moved after : Session}
      (call : event.call = .write index.val (some buf) count)
      (positive : 0 < count)
      (isOpen : session.openFiles index = some descriptor)
      (allocates : allocateInFat fuel session.fat
        (session.root descriptor.file).firstIndex
        (findNumTargetBlocks descriptor.offset.toNat count) =
          .ok (fat', firstIndex', allocated))
      (confined : (session.setChain descriptor.file fat' firstIndex').Confined
        descriptor.file moved)
      (ends : after = moved ∨
        ∃ bytes, after = moved.finishWrite index descriptor bytes) :
      CallEffect session event after

namespace Session

variable {session : Session}

/-- A write that returns has allocated blocks, and has then stored bytes. -/
theorem write_eq
    {fuel : Nat}
    {host : Host}
    {index : Descriptor}
    {descriptor : FileDescriptor}
    {buf : Buffer}
    {count : Nat}
    {after : Session}
    {result : Int}
    (returns : session.write fuel host index descriptor buf count =
      .ok (after, result)) :
    ∃ fat' firstIndex' allocated moved,
      allocateInFat fuel session.fat (session.root descriptor.file).firstIndex
          (findNumTargetBlocks descriptor.offset.toNat count) =
        .ok (fat', firstIndex', allocated) ∧
      (session.setChain descriptor.file fat' firstIndex').Confined
        descriptor.file moved ∧
      (after = moved ∨
        ∃ bytes, after = moved.finishWrite index descriptor bytes) := by
  unfold write at returns
  obtain ⟨⟨grown, _⟩, allocation, returns⟩ := outcome_bind_eq_ok returns
  obtain ⟨⟨fat', firstIndex', allocated⟩, allocates, rest⟩ :=
    outcome_bind_eq_ok allocation
  cases rest
  obtain ⟨⟨moved, progress⟩, writes, returns⟩ := outcome_bind_eq_ok returns
  refine ⟨fat', firstIndex', _, moved, allocates,
    writeBlocks_confined writes, ?_⟩
  cases progress with
  | stopped value =>
      cases returns
      exact .inl rfl
  | going bytes =>
      cases returns
      exact .inr ⟨bytes, rfl⟩

end Session

/-- Everything that a call that returns can do to a session. -/
theorem exec_effect
    {session : Session}
    {event : Event}
    {fuel : Nat}
    {after : State}
    (returns : event.call.exec fuel event.host session.toState =
      .ok (after, event.result)) :
    ∃ session', after = session'.toState ∧ CallEffect session event session' := by
  obtain ⟨host, call, result⟩ := event
  change call.exec fuel host session.toState = .ok (after, result) at returns
  cases call with
  | create filename =>
      rcases fsCreate_cases returns with
        ⟨rfl, rfl, reason⟩ | ⟨name, slot, rfl, valid, fresh, empty, rfl, rfl⟩
      · refine ⟨session, rfl, .unchanged ⟨?_, nofun, nofun, nofun⟩⟩
        rintro _ ⟨⟩
        exact ⟨rfl, reason⟩
      · exact ⟨_, rfl, .created rfl valid fresh empty rfl⟩
  | delete filename =>
      rcases fsDelete_cases returns with
        ⟨rfl, rfl, reason⟩ | ⟨name, slot, fat', rfl, valid, found, closed, _,
          rfl, rfl⟩
      · refine ⟨session, rfl, .unchanged ⟨nofun, ?_, nofun, nofun⟩⟩
        rintro _ ⟨⟩
        exact ⟨rfl, reason⟩
      · exact ⟨_, rfl, .deleted fat' rfl valid found closed rfl⟩
  | «open» filename =>
      rcases fsOpen_cases returns with
        ⟨rfl, rfl, reason⟩ | ⟨name, slot, index, rfl, valid, found, available,
          empty, rfl, rfl⟩
      · refine ⟨session, rfl, .unchanged ⟨nofun, nofun, ?_, nofun⟩⟩
        rintro _ ⟨⟩
        exact ⟨rfl, reason⟩
      · exact ⟨_, rfl, .opened rfl valid found available empty rfl⟩
  | close fd =>
      rcases fsClose_cases returns with
        ⟨rfl, rfl, notOpen⟩ | ⟨index, descriptor, rfl, isOpen, rfl, rfl⟩
      · refine ⟨session, rfl, .unchanged ⟨nofun, nofun, nofun, ?_⟩⟩
        rintro _ ⟨⟩
        exact ⟨rfl, notOpen⟩
      · exact ⟨_, rfl, .closed rfl isOpen rfl⟩
  | stat fd =>
      cases eq_of_fsStat returns
      exact ⟨session, rfl, .unchanged (.of_other nofun nofun nofun nofun)⟩
  | lseek fd offset =>
      rcases fsLseek_cases returns with
        rfl | ⟨index, descriptor, rfl, isOpen, _, rfl, rfl⟩
      · exact ⟨session, rfl, .unchanged (.of_other nofun nofun nofun nofun)⟩
      · exact ⟨_, rfl, .positioned _ (.inl ⟨offset, rfl⟩) isOpen⟩
  | write fd buf count =>
      rcases fsWrite_cases returns with
        ⟨rfl, _⟩ | ⟨index, descriptor, source, session', rfl, isOpen, rfl,
          positive, writes, rfl⟩
      · exact ⟨session, rfl, .unchanged (.of_other nofun nofun nofun nofun)⟩
      · obtain ⟨fat', firstIndex', allocated, moved, allocates, confined,
          ends⟩ := Session.write_eq writes
        exact ⟨session', rfl, .wrote rfl positive isOpen allocates confined
          ends⟩
  | read fd buf count =>
      obtain ⟨⟨_, _, _⟩, reads, rest⟩ := outcome_bind_eq_ok returns
      cases rest
      rcases fsRead_cases reads with
        rfl | ⟨index, descriptor, target, bytesRead, rfl, isOpen, rfl, rfl, rfl⟩
      · exact ⟨session, rfl, .unchanged (.of_other nofun nofun nofun nofun)⟩
      · exact ⟨_, rfl, .positioned _ (.inr ⟨target, count, rfl⟩) isOpen⟩

end MsFat
