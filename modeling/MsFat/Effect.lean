import MsFat.CallCases
import MsFat.Fat.Deletion
import MsFat.Transfer.Effect

/-!
# What one call does

`Effect` lists everything a call that returns can do to a well-formed session.
The invariants of runs are derived from it, without looking at the code of the
calls again.
-/

namespace MsFat

/-- The session behind the deletion of a file with the given chain. -/
def Session.removed
    (session : Session)
    (slot : Slot)
    (chain : List UInt16) : Session :=
  { session with
    fat := freedFat session.fat chain
    root := Function.update session.root slot (clearedFile (session.root slot)) }

/-- The call is no write of bytes from a buffer through an open descriptor, and
no deletion of a file that is not open. -/
structure Session.Idle (session : Session) (event : Event) : Prop where
  write : ∀ (index : Descriptor) descriptor buf count,
    event.call = .write index.val (some buf) count →
      session.openFiles index = some descriptor →
        count = 0 ∧ event.result = 0
  delete : ∀ name slot, event.call = .delete (some name) → ValidName name →
    session.findMatchingFilename name = some slot → session.isOpen name = true

/-- `Effect session event after`: the call of the event, made in the session,
leaves `after`. -/
inductive Effect (session : Session) (event : Event) : Session → Prop
  | unchanged
      (idle : session.Idle event) :
      Effect session event session
  | created
      {name : CString}
      {slot : Slot}
      (call : event.call = .create (some name))
      (valid : ValidName name)
      (fresh : session.findMatchingFilename name = none)
      (empty : session.findEmptyRootEntry = some slot)
      (result : event.result = 0) :
      Effect session event
        (session.setFile slot (newFile (session.root slot) name))
  | deleted
      {name : CString}
      {slot : Slot}
      {chain : List UInt16}
      (call : event.call = .delete (some name))
      (valid : ValidName name)
      (found : session.findMatchingFilename name = some slot)
      (closed : session.isOpen name = false)
      (isChain : session.FileChain slot chain)
      (ends : chain.length ≤ 1 ∨ fatNext session.fat 0 = some fatEoc)
      (result : event.result = 0) :
      Effect session event (session.removed slot chain)
  | opened
      {name : CString}
      {slot : Slot}
      {index : Descriptor}
      (call : event.call = .open (some name))
      (valid : ValidName name)
      (found : session.findMatchingFilename name = some slot)
      (empty : session.openFiles index = none)
      (result : event.result = index.val) :
      Effect session event
        { session.setOpenFile index (some { file := slot, offset := 0 }) with
          numOpenFiles := session.numOpenFiles + 1 }
  | closed
      {index : Descriptor}
      {descriptor : FileDescriptor}
      (call : event.call = .close index.val)
      (isOpen : session.openFiles index = some descriptor)
      (result : event.result = 0) :
      Effect session event (session.closeFile index)
  | sought
      {index : Descriptor}
      {descriptor : FileDescriptor}
      {offset : Nat}
      (call : event.call = .lseek index.val offset)
      (isOpen : session.openFiles index = some descriptor)
      (le : offset ≤ (session.root descriptor.file).fileSize.toNat)
      (result : event.result = 0) :
      Effect session event
        (session.setOpenFile index
          (some { descriptor with offset := UInt16.ofNat offset }))
  | wrote
      {index : Descriptor}
      {descriptor : FileDescriptor}
      {buf : Buffer}
      {count : Nat}
      {chain : List UInt16}
      {fat' : Fat session.sb.numDataBlocks.toNat}
      {firstIndex' : UInt16}
      {allocated : Int}
      {after : Session}
      (call : event.call = .write index.val (some buf) count)
      (isOpen : session.openFiles index = some descriptor)
      (positive : 0 < count)
      (isChain : session.FileChain descriptor.file chain)
      (grown : Grown session.fat chain
        (targetBlocks descriptor.offset.toNat count - chain.length)
        fat' firstIndex' allocated)
      (written : Written (session.setChain descriptor.file fat' firstIndex')
        (session.extendedChain chain descriptor.offset.toNat count)
        event.host index descriptor buf count after event.result) :
      Effect session event after
  | read
      {index : Descriptor}
      {descriptor : FileDescriptor}
      {buf : Buffer}
      {count bytesRead : Nat}
      (call : event.call = .read index.val (some buf) count)
      (isOpen : session.openFiles index = some descriptor)
      (result : event.result = bytesRead) :
      Effect session event (session.finishRead index descriptor bytesRead)

/-- What an `fs_write` through an open descriptor can do. -/
theorem Effect.of_write
    {session after : Session}
    {event : Event}
    {index : Descriptor}
    {descriptor : FileDescriptor}
    {buf : Buffer}
    {count : Nat}
    (call : event.call = .write index.val (some buf) count)
    (isOpen : session.openFiles index = some descriptor)
    (effect : Effect session event after) :
    (after = session ∧ count = 0 ∧ event.result = 0) ∨
      ∃ chain fat' firstIndex' allocated,
        0 < count ∧ session.FileChain descriptor.file chain ∧
        Grown session.fat chain
          (targetBlocks descriptor.offset.toNat count - chain.length)
          fat' firstIndex' allocated ∧
        Written (session.setChain descriptor.file fat' firstIndex')
          (session.extendedChain chain descriptor.offset.toNat count)
          event.host index descriptor buf count after event.result := by
  cases effect with
  | unchanged idle =>
      exact .inl ⟨rfl, idle.write index descriptor buf count call isOpen⟩
  | created other _ _ _ _ => exact nomatch call.symm.trans other
  | deleted other _ _ _ _ _ _ => exact nomatch call.symm.trans other
  | opened other _ _ _ _ => exact nomatch call.symm.trans other
  | closed other _ _ => exact nomatch call.symm.trans other
  | sought other _ _ _ => exact nomatch call.symm.trans other
  | read other _ _ => exact nomatch call.symm.trans other
  | wrote other otherOpen positive isChain grown written =>
      have same := call.symm.trans other
      simp only [Call.write.injEq, Int.natCast_inj, Fin.val_inj,
        Option.some.injEq] at same
      obtain ⟨rfl, rfl, rfl⟩ := same
      rw [isOpen] at otherOpen
      cases otherOpen
      exact .inr ⟨_, _, _, _, positive, isChain, grown, written⟩

namespace Session

variable {session : Session}

theorem inUse_of_found
    {name : CString}
    {slot : Slot}
    (valid : ValidName name)
    (found : session.findMatchingFilename name = some slot) :
    session.InUse slot :=
  array_zero_ne_zero valid.2 valid.1 (findMatchingFilename_eq_some found)

/-- The FAT behind a deletion that returns is the one with the chain of the file
freed. -/
theorem freedFat_of_returns
    (wellFormed : session.WellFormed)
    {slot : Slot}
    {fuel : Nat}
    {fat' : Fat session.sb.numDataBlocks.toNat}
    (used : session.InUse slot)
    (freed : ((session.root slot).firstIndex = fatEoc ∧ fat' = session.fat) ∨
      ((session.root slot).firstIndex ≠ fatEoc ∧
        freeChain fuel session.fat (session.root slot).firstIndex = .ok fat')) :
    ∃ chain, session.FileChain slot chain ∧
      (chain.length ≤ 1 ∨ fatNext session.fat 0 = some fatEoc) ∧
      fat' = freedFat session.fat chain := by
  obtain ⟨chain, isChain⟩ := wellFormed.chains.chain slot used
  refine ⟨chain, isChain, ?_⟩
  rcases freed with ⟨noBlocks, rfl⟩ | ⟨blocks, freed⟩
  · have emptyChain :=
      FatChain.unique isChain (FatChain.nil_iff.mpr noBlocks)
    subst emptyChain
    exact ⟨.inl (Nat.zero_le _), rfl⟩
  · have nonempty : chain ≠ [] := by
      rintro rfl
      exact blocks (FatChain.nil_iff.mp isChain)
    have ends : chain.length ≤ 1 ∨ fatNext session.fat 0 = some fatEoc := by
      by_contra diverges
      rw [not_or] at diverges
      rw [freeChain_diverges isChain (by omega) diverges.2] at freed
      exact nomatch freed
    exact ⟨ends,
      (freeChain_computes isChain nonempty ends).only fuel fat' freed⟩

/-- A deletion that returns has been refused, or has freed the chain as far as
the loop goes. -/
theorem deleteFile_cases
    (wellFormed : session.WellFormed)
    {fuel : Nat}
    {name : CString}
    {after : Session}
    {result : Int}
    (valid : ValidName name)
    (returns : session.deleteFile fuel name = .ok (after, result)) :
    (after = session ∧ result = -1 ∧
        ∀ slot, session.findMatchingFilename name = some slot →
          session.isOpen name = true) ∨
      ∃ slot chain, session.findMatchingFilename name = some slot ∧
        session.isOpen name = false ∧ session.FileChain slot chain ∧
        (chain.length ≤ 1 ∨ fatNext session.fat 0 = some fatEoc) ∧
        after = session.removed slot chain ∧ result = 0 := by
  rcases deleteFile_eq returns with
    refused | ⟨slot, fat', found, closed, freed, rfl, rfl⟩
  · exact .inl refused
  · obtain ⟨chain, isChain, ends, rfl⟩ :=
      freedFat_of_returns wellFormed (inUse_of_found valid found) freed
    exact .inr ⟨slot, chain, found, closed, isChain, ends, rfl, rfl⟩

end Session

/-- Everything that a step from a well-formed session can do. -/
theorem step_effect
    {session : Session}
    {event : Event}
    {after : State}
    (wellFormed : session.WellFormed)
    (step : Step session.toState event after) :
    ∃ session', after = session'.toState ∧ Effect session event session' := by
  obtain ⟨countFits, fuel, returns⟩ := step
  obtain ⟨host, call, result⟩ := event
  change call.exec fuel host session.toState = .ok (after, result) at returns
  cases call with
  | create filename =>
      rcases fsCreate_cases returns with
        ⟨rfl, _⟩ | ⟨name, slot, rfl, valid, fresh, empty, rfl, rfl⟩
      · exact ⟨session, rfl, .unchanged ⟨nofun, nofun⟩⟩
      · exact ⟨_, rfl, .created rfl valid fresh empty rfl⟩
  | delete filename =>
      rcases fsDelete_cases returns with
        ⟨rfl, _, refused⟩ | ⟨name, slot, fat', rfl, valid, found, closed, freed,
          rfl, rfl⟩
      · refine ⟨session, rfl, .unchanged ⟨nofun, ?_⟩⟩
        rintro name slot ⟨⟩ valid found
        exact refused name slot rfl valid found
      · obtain ⟨chain, isChain, ends, rfl⟩ := Session.freedFat_of_returns
          wellFormed (Session.inUse_of_found valid found) freed
        exact ⟨_, rfl, .deleted rfl valid found closed isChain ends rfl⟩
  | «open» filename =>
      rcases fsOpen_cases returns with
        ⟨rfl, _⟩ | ⟨name, slot, index, rfl, valid, found, _, empty, rfl, rfl⟩
      · exact ⟨session, rfl, .unchanged ⟨nofun, nofun⟩⟩
      · exact ⟨_, rfl, .opened rfl valid found empty rfl⟩
  | close fd =>
      rcases fsClose_cases returns with
        ⟨rfl, _⟩ | ⟨index, descriptor, rfl, isOpen, rfl, rfl⟩
      · exact ⟨session, rfl, .unchanged ⟨nofun, nofun⟩⟩
      · exact ⟨_, rfl, .closed rfl isOpen rfl⟩
  | stat fd =>
      cases eq_of_fsStat returns
      exact ⟨session, rfl, .unchanged ⟨nofun, nofun⟩⟩
  | lseek fd offset =>
      rcases fsLseek_cases returns with
        rfl | ⟨index, descriptor, rfl, isOpen, le, rfl, rfl⟩
      · exact ⟨session, rfl, .unchanged ⟨nofun, nofun⟩⟩
      · exact ⟨_, rfl, .sought rfl isOpen le rfl⟩
  | write fd buf count =>
      rcases fsWrite_cases returns with
        ⟨rfl, idle⟩ | ⟨index, descriptor, source, session', rfl, isOpen, rfl,
          positive, writes, rfl⟩
      · refine ⟨session, rfl, .unchanged ⟨?_, nofun⟩⟩
        rintro index descriptor source _ ⟨⟩ isOpen
        exact idle index descriptor source rfl isOpen rfl
      · obtain ⟨chain, isChain⟩ := wellFormed.chains.chain _
          (wellFormed.descriptors index descriptor isOpen)
        obtain ⟨fat', firstIndex', allocated, after, written, grown, writtenEq,
          computes⟩ := Session.write_computes index
            wellFormed.layout.toDataInside isChain host source positive
            countFits
        have same := computes.only fuel _ writes
        cases same
        exact ⟨_, rfl, .wrote rfl isOpen positive isChain grown writtenEq⟩
  | read fd buf count =>
      obtain ⟨⟨_, _, _⟩, reads, rest⟩ := outcome_bind_eq_ok returns
      cases rest
      rcases fsRead_cases reads with
        rfl | ⟨index, descriptor, target, bytesRead, rfl, isOpen, rfl, rfl, rfl⟩
      · exact ⟨session, rfl, .unchanged ⟨nofun, nofun⟩⟩
      · exact ⟨_, rfl, .read rfl isOpen rfl⟩

end MsFat
