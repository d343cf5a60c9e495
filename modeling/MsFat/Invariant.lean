import MsFat.Effect

/-!
# The invariant of a mount session

Every effect of a call keeps a session well-formed, and so does every run.  Most
effects leave the FAT, the names and the first indices as they were.  A write
appends free blocks to one chain, which therefore stays apart from the others.
-/

namespace MsFat
namespace Session

variable {session : Session}

/-! ## Sessions that differ in one file -/

/-- A new disk of the same size, new sizes and new descriptors on files leave a
session well-formed. -/
theorem WellFormed.update
    (wellFormed : session.WellFormed)
    (disk : Disk)
    {root : Slot → File}
    {openFiles : Descriptor → Option FileDescriptor}
    {numOpenFiles : UInt8}
    (bcount : disk.bcount = session.disk.bcount)
    (filename : ∀ slot, (root slot).filename = (session.root slot).filename)
    (firstIndex : ∀ slot,
      (root slot).firstIndex = (session.root slot).firstIndex)
    (descriptors : ∀ index descriptor, openFiles index = some descriptor →
      session.InUse descriptor.file) :
    WellFormed
      { session with
        disk := disk
        root := root
        openFiles := openFiles
        numOpenFiles := numOpenFiles } := by
  obtain ⟨layout, names, chains, _⟩ := wellFormed
  refine ⟨⟨⟨?_, ?_⟩, layout.fat_lt, layout.root_lt⟩, ⟨?_, ?_⟩, ⟨?_, ?_⟩, ?_⟩
  · rw [bcount]
    exact layout.data_le
  · rw [bcount]
    exact layout.bcount_eq
  · simpa only [InUse, filename] using names.terminated
  · simpa only [InUse, filename] using names.distinct
  · simpa only [InUse, FileChain, filename, firstIndex] using chains.chain
  · simpa only [InUse, FileChain, filename, firstIndex] using chains.disjoint
  · simpa only [DescriptorsOk, InUse, filename] using descriptors

/-- The chains stay in order when all files but one keep theirs, and the one
comes to have a chain apart from theirs. -/
theorem ChainsOk.of_one_changed
    {after : Session}
    (slot : Slot)
    (chains : session.ChainsOk)
    (inUse : ∀ other, other ≠ slot → after.InUse other → session.InUse other)
    (kept : ∀ other, other ≠ slot → session.InUse other →
      ∀ chain, session.FileChain other chain → after.FileChain other chain)
    (own : after.InUse slot → ∃ chain, after.FileChain slot chain ∧
      ∀ other, other ≠ slot → session.InUse other →
        ∀ right, session.FileChain other right → chain.Disjoint right) :
    after.ChainsOk := by
  have others : ∀ other, other ≠ slot → after.InUse other →
      ∃ chain, session.FileChain other chain ∧ after.FileChain other chain := by
    intro other different used
    obtain ⟨chain, isChain⟩ := chains.chain other (inUse other different used)
    exact ⟨chain, isChain,
      kept other different (inUse other different used) chain isChain⟩
  have apart : ∀ other left right, other ≠ slot → after.InUse slot →
      after.InUse other → after.FileChain slot left →
      after.FileChain other right → left.Disjoint right := by
    intro other left right different usedSlot usedOther isLeft isRight
    obtain ⟨chain, isChain, disjoint⟩ := own usedSlot
    obtain ⟨old, isOld, isKept⟩ := others other different usedOther
    rw [isLeft.unique isChain, isRight.unique isKept]
    exact disjoint other different (inUse other different usedOther) old isOld
  constructor
  · intro other used
    by_cases same : other = slot
    · subst same
      obtain ⟨chain, isChain, _⟩ := own used
      exact ⟨chain, isChain⟩
    · obtain ⟨chain, _, isChain⟩ := others other same used
      exact ⟨chain, isChain⟩
  · intro first second left right different usedFirst usedSecond isLeft isRight
    by_cases firstSame : first = slot
    · subst firstSame
      exact apart second left right different.symm usedFirst usedSecond isLeft
        isRight
    · by_cases secondSame : second = slot
      · subst secondSame
        exact List.disjoint_symm
          (apart first right left firstSame usedSecond usedFirst isRight isLeft)
      · obtain ⟨leftOld, isLeftOld, leftKept⟩ :=
          others first firstSame usedFirst
        obtain ⟨rightOld, isRightOld, rightKept⟩ :=
          others second secondSame usedSecond
        rw [isLeft.unique leftKept, isRight.unique rightKept]
        exact chains.disjoint first second _ _ different
          (inUse first firstSame usedFirst)
          (inUse second secondSame usedSecond) isLeftOld isRightOld

/-- The chains stay in order with the files and the chains as they are. -/
theorem ChainsOk.congr
    {after : Session}
    (chains : session.ChainsOk)
    (inUse : ∀ slot, after.InUse slot ↔ session.InUse slot)
    (isChain : ∀ slot chain,
      after.FileChain slot chain ↔ session.FileChain slot chain) :
    after.ChainsOk where
  chain := by
    intro slot used
    obtain ⟨chain, holds⟩ := chains.chain slot ((inUse slot).mp used)
    exact ⟨chain, (isChain slot chain).mpr holds⟩
  disjoint := by
    intro slot other left right different used usedOther isLeft isRight
    exact chains.disjoint slot other left right different
      ((inUse slot).mp used) ((inUse other).mp usedOther)
      ((isChain slot left).mp isLeft) ((isChain other right).mp isRight)

/-! ## Creation -/

/-- A new file keeps the session well-formed. -/
theorem WellFormed.created
    (wellFormed : session.WellFormed)
    {name : CString}
    {slot : Slot}
    (valid : ValidName name)
    (fresh : session.findMatchingFilename name = none)
    (empty : ¬session.InUse slot) :
    (session.setFile slot (newFile (session.root slot) name)).WellFormed := by
  refine ⟨⟨⟨wellFormed.layout.data_le, wellFormed.layout.bcount_eq⟩,
    wellFormed.layout.fat_lt, wellFormed.layout.root_lt⟩,
    wellFormed.names.created slot valid fresh, ?_,
    wellFormed.descriptors.created empty _⟩
  apply wellFormed.chains.of_one_changed slot
  · intro other different used
    exact (inUse_setFile_of_ne different).mp used
  · intro other different _ chain isChain
    unfold FileChain
    rw [setFile_root_of_ne different]
    exact isChain
  · intro _
    refine ⟨[], ?_, fun _ _ _ _ _ => List.disjoint_nil_left _⟩
    unfold FileChain
    rw [setFile_root_self]
    exact FatChain.nil_iff.mpr rfl

/-! ## Deletion -/

theorem removed_root_of_ne
    {slot other : Slot}
    (different : other ≠ slot)
    (chain : List UInt16) :
    (session.removed slot chain).root other = session.root other :=
  cleared_root_of_ne different

/-- The entry of a deleted file is not in use. -/
theorem not_inUse_removed
    (slot : Slot)
    (chain : List UInt16) :
    ¬(session.removed slot chain).InUse slot :=
  not_inUse_cleared

/-- The chain of another file survives a deletion. -/
theorem fileChain_removed
    (chains : session.ChainsOk)
    {slot other : Slot}
    {chain otherChain : List UInt16}
    (used : session.InUse slot)
    (usedOther : session.InUse other)
    (different : other ≠ slot)
    (isChain : session.FileChain slot chain)
    (isOther : session.FileChain other otherChain) :
    (session.removed slot chain).FileChain other otherChain := by
  have disjoint := chains.disjoint other slot otherChain chain different
    usedOther used isOther isChain
  unfold FileChain
  rw [removed_root_of_ne different]
  exact FatChain.congr isOther fun index member =>
    fatNext_freedFat isChain (FatChain.ne_zero isOther index member)
      (disjoint member)

/-- The deletion of a closed file keeps the session well-formed. -/
theorem WellFormed.removed
    (wellFormed : session.WellFormed)
    {name : CString}
    {slot : Slot}
    {chain : List UInt16}
    (valid : ValidName name)
    (found : session.findMatchingFilename name = some slot)
    (closed : session.isOpen name = false)
    (isChain : session.FileChain slot chain) :
    (session.removed slot chain).WellFormed := by
  refine ⟨⟨⟨wellFormed.layout.data_le, wellFormed.layout.bcount_eq⟩,
    wellFormed.layout.fat_lt, wellFormed.layout.root_lt⟩,
    wellFormed.names.cleared slot _, ?_,
    wellFormed.descriptors.cleared valid found closed⟩
  apply wellFormed.chains.of_one_changed slot
  · intro other _ used
    exact (inUse_cleared_iff.mp used).1
  · intro other different usedOther otherChain isOther
    exact fileChain_removed wellFormed.chains (inUse_of_found valid found)
      usedOther different isChain isOther
  · intro used
    exact absurd used (not_inUse_removed slot chain)

/-! ## Allocation -/

section Allocation

variable {file : Slot} {chain : List UInt16} {missing : Nat}
  {fat' : Fat session.sb.numDataBlocks.toNat} {firstIndex' : UInt16}
  {allocated : Int}

@[simp] theorem setChain_filename
    (slot : Slot) :
    ((session.setChain file fat' firstIndex').root slot).filename =
      (session.root slot).filename := by
  by_cases same : slot = file
  · subst same
    simp [setChain]
  · simp [setChain, same]

@[simp] theorem setChain_fileSize
    (slot : Slot) :
    ((session.setChain file fat' firstIndex').root slot).fileSize =
      (session.root slot).fileSize := by
  by_cases same : slot = file
  · subst same
    simp [setChain]
  · simp [setChain, same]

/-- An allocation leaves the files as they are. -/
theorem setChain_inUse
    (session : Session)
    (file : Slot)
    (fat' : Fat session.sb.numDataBlocks.toNat)
    (firstIndex' : UInt16)
    (slot : Slot) :
    (session.setChain file fat' firstIndex').InUse slot ↔
      session.InUse slot := by
  unfold InUse
  rw [setChain_filename]

theorem setChain_root_of_ne
    {other : Slot}
    (different : other ≠ file) :
    (session.setChain file fat' firstIndex').root other = session.root other :=
  Function.update_of_ne different _ _

/-- No block of a file is free. -/
theorem not_mem_freeBlocks
    {slot : Slot}
    (isChain : session.FileChain slot chain)
    {index : UInt16}
    (member : index ∈ chain) :
    index ∉ freeBlocks session.fat := fun isFree =>
  isChain.entry_ne_zero member
    ((mem_freeBlocks session.numDataBlocks_lt).mp isFree).2

/-- The chain of another file survives an allocation. -/
theorem fileChain_setChain_of_ne
    (chains : session.ChainsOk)
    {other : Slot}
    {otherChain : List UInt16}
    (used : session.InUse file)
    (usedOther : session.InUse other)
    (different : other ≠ file)
    (isChain : session.FileChain file chain)
    (isOther : session.FileChain other otherChain)
    (grown : Grown session.fat chain missing fat' firstIndex' allocated) :
    (session.setChain file fat' firstIndex').FileChain other otherChain := by
  have disjoint := chains.disjoint other file otherChain chain different
    usedOther used isOther isChain
  unfold FileChain
  rw [setChain_root_of_ne different]
  refine FatChain.congr isOther fun index member => grown.frame index ?_ ?_
  · intro last
    exact disjoint member (List.mem_of_getLast? last)
  · intro taken
    exact not_mem_freeBlocks isOther member (List.mem_of_mem_take taken)

/-- The blocks that an allocation appends are free, so the chains stay in
order. -/
theorem ChainsOk.setChain
    (chains : session.ChainsOk)
    (used : session.InUse file)
    (isChain : session.FileChain file chain)
    (grown : Grown session.fat chain missing fat' firstIndex' allocated) :
    (session.setChain file fat' firstIndex').ChainsOk := by
  have inUse := session.setChain_inUse file fat' firstIndex'
  refine chains.of_one_changed file (fun other _ => (inUse other).mp) ?_ ?_
  · intro other different usedOther otherChain isOther
    exact fileChain_setChain_of_ne chains used usedOther different isChain
      isOther grown
  · intro _
    refine ⟨_, fileChain_setChain grown, ?_⟩
    intro other different usedOther otherChain isOther
    rw [List.disjoint_append_left]
    constructor
    · exact chains.disjoint file other chain otherChain different.symm used
        usedOther isChain isOther
    · intro index taken member
      exact not_mem_freeBlocks isOther member (List.mem_of_mem_take taken)

/-- An allocation keeps the session well-formed. -/
theorem WellFormed.setChain
    (wellFormed : session.WellFormed)
    (used : session.InUse file)
    (isChain : session.FileChain file chain)
    (grown : Grown session.fat chain missing fat' firstIndex' allocated) :
    (session.setChain file fat' firstIndex').WellFormed := by
  have inUse := session.setChain_inUse file fat' firstIndex'
  refine ⟨⟨⟨wellFormed.layout.data_le, wellFormed.layout.bcount_eq⟩,
    wellFormed.layout.fat_lt, wellFormed.layout.root_lt⟩, ⟨?_, ?_⟩,
    wellFormed.chains.setChain used isChain grown, ?_⟩
  · intro slot usedSlot
    rw [setChain_filename]
    exact wellFormed.names.terminated slot ((inUse slot).mp usedSlot)
  · intro first second usedFirst usedSecond equal
    rw [setChain_filename, setChain_filename] at equal
    exact wellFormed.names.distinct first second ((inUse first).mp usedFirst)
      ((inUse second).mp usedSecond) equal
  · intro index descriptor isOpen
    exact (inUse _).mpr (wellFormed.descriptors index descriptor isOpen)

end Allocation

/-! ## Transfers -/

/-- Stored bytes leave the session well-formed. -/
theorem WellFormed.stored
    (wellFormed : session.WellFormed)
    (chain : List UInt16)
    (start : Nat)
    (buf : Buffer)
    (bytes : Nat) :
    (session.stored chain start buf bytes).WellFormed :=
  wellFormed.update (session.stored chain start buf bytes).disk
    rfl (fun _ => rfl) (fun _ => rfl) wellFormed.descriptors

/-- A new entry of the table of open files that refers to a file leaves the
session well-formed. -/
theorem WellFormed.setOpenFile
    (wellFormed : session.WellFormed)
    (index : Descriptor)
    {entry : Option FileDescriptor}
    {numOpenFiles : UInt8}
    (refers : ∀ descriptor, entry = some descriptor →
      session.InUse descriptor.file) :
    WellFormed
      { session.setOpenFile index entry with numOpenFiles := numOpenFiles } := by
  apply wellFormed.update _ rfl (fun _ => rfl) (fun _ => rfl)
  exact wellFormed.descriptors.setOpenFile index refers

/-- Another offset of an open descriptor leaves the session well-formed. -/
theorem WellFormed.setOffset
    (wellFormed : session.WellFormed)
    {index : Descriptor}
    {descriptor : FileDescriptor}
    (isOpen : session.openFiles index = some descriptor)
    (offset : UInt16) :
    (session.setOpenFile index
      (some { descriptor with offset := offset })).WellFormed := by
  have used := wellFormed.descriptors index descriptor isOpen
  apply wellFormed.setOpenFile index
  rintro _ ⟨⟩
  exact used

/-- Another size of a file leaves the session well-formed. -/
theorem WellFormed.setSize
    (wellFormed : session.WellFormed)
    (slot : Slot)
    (fileSize : UInt32) :
    (session.setFile slot
      { session.root slot with fileSize := fileSize }).WellFormed := by
  refine wellFormed.update _ rfl ?_ ?_ wellFormed.descriptors
  · intro other
    by_cases same : other = slot
    · subst same
      rw [Function.update_self]
    · rw [Function.update_of_ne same]
  · intro other
    by_cases same : other = slot
    · subst same
      rw [Function.update_self]
    · rw [Function.update_of_ne same]

/-- The updates at the end of `fs_write` leave the session well-formed. -/
theorem WellFormed.finishWrite
    (wellFormed : session.WellFormed)
    {index : Descriptor}
    {descriptor : FileDescriptor}
    (isOpen : session.openFiles index = some descriptor)
    (bytesWritten : Nat) :
    (session.finishWrite index descriptor bytesWritten).WellFormed := by
  exact (wellFormed.setOffset isOpen _).setSize descriptor.file _

end Session

/-- A write leaves the files as they are. -/
theorem Written.inUse
    {grown after : Session}
    {chain : List UInt16}
    {host : Host}
    {index : Descriptor}
    {descriptor : FileDescriptor}
    {buf : Buffer}
    {count : Nat}
    {result : Int}
    (written : Written grown chain host index descriptor buf count after result)
    {slot : Slot}
    (used : grown.InUse slot) :
    after.InUse slot := by
  cases written with
  | complete _ =>
      unfold Session.InUse
      rw [Session.finishWrite_filename]
      exact used
  | short _ => exact used
  | hostFailed _ _ _ _ => exact used

/-! ## Calls and runs -/

/-- Every effect of a call keeps the session well-formed. -/
theorem Effect.wellFormed
    {session after : Session}
    {event : Event}
    (wellFormed : session.WellFormed)
    (effect : Effect session event after) :
    after.WellFormed := by
  cases effect with
  | unchanged _ => exact wellFormed
  | created _ valid fresh empty _ =>
      exact wellFormed.created valid fresh
        (Session.findEmptyRootEntry_eq_some empty)
  | deleted _ valid found closed isChain _ _ =>
      exact wellFormed.removed valid found closed isChain
  | opened _ valid found _ _ =>
      apply wellFormed.setOpenFile _
      rintro _ ⟨⟩
      exact Session.inUse_of_found valid found
  | closed _ _ _ => exact wellFormed.setOpenFile _ nofun
  | sought _ isOpen _ _ => exact wellFormed.setOffset isOpen _
  | read _ isOpen _ => exact wellFormed.setOffset isOpen _
  | wrote _ isOpen _ isChain grown written =>
      have allocated := wellFormed.setChain
        (wellFormed.descriptors _ _ isOpen) isChain grown
      generalize event.result = result at written
      cases written with
      | complete _ =>
          refine Session.WellFormed.finishWrite (allocated.stored _ _ _ _) ?_ _
          exact isOpen
      | short _ => exact allocated.stored _ _ _ _
      | hostFailed _ _ _ _ => exact allocated.stored _ _ _ _

/-- The states of a mount session that is well-formed. -/
def WellFormedState (state : State) : Prop :=
  ∃ session : Session, state = session.toState ∧ session.WellFormed

/-- A step keeps a state well-formed. -/
theorem WellFormedState.step
    {before after : State}
    {event : Event}
    (wellFormed : WellFormedState before)
    (step : Step before event after) :
    WellFormedState after := by
  obtain ⟨session, rfl, holds⟩ := wellFormed
  obtain ⟨session', rfl, effect⟩ := step_effect holds step
  exact ⟨session', rfl, effect.wellFormed holds⟩

/-- Every run of calls from a well-formed session ends in a well-formed session:
every file has a chain from its first index to `FAT_EOC`, and no block is in the
chains of two files. -/
theorem wellFormed_of_run
    {session : Session}
    {events : List Event}
    {after : State}
    (wellFormed : session.WellFormed)
    (run : Run Step session.toState events after) :
    ∃ session' : Session, after = session'.toState ∧ session'.WellFormed :=
  run.invariant WellFormedState
    (fun _ _ _ holds step => holds.step step) ⟨session, rfl, wellFormed⟩

/-- A second file is created, opened, written, closed and deleted. -/
def secondFileEvents : List Event :=
  [⟨.reliable, .create (some nameB), 0⟩,
    ⟨.reliable, .open (some nameB), 1⟩,
    ⟨.reliable, .write 1 (some fun _ => 7) 9, 9⟩,
    ⟨.reliable, .close 1, 0⟩,
    ⟨.reliable, .delete (some nameB), 0⟩]

/-- The second file takes a block, which becomes free again. -/
theorem wellFormed_of_run_secondFile :
    ∃ after, Run Step Session.sample.toState secondFileEvents after ∧
      ∃ session' : Session, after = session'.toState ∧ session'.WellFormed := by
  have countFits : 9 ≤ intMax := by decide
  obtain ⟨after, run⟩ : ∃ after,
      Run Step Session.sample.toState secondFileEvents after :=
    ⟨_, .cons ⟨trivial, 0, rfl⟩ (.cons ⟨trivial, 0, rfl⟩
      (.cons ⟨countFits, 9, rfl⟩ (.cons ⟨trivial, 0, rfl⟩
        (.cons ⟨trivial, 9, rfl⟩ .nil))))⟩
  exact ⟨after, run, wellFormed_of_run Session.sample_wellFormed run⟩

/-- A call under a guard, as a step between well-formed sessions. -/
structure EffectStep
    (guard : State → Event → Prop)
    (before : Session)
    (event : Event)
    (after : Session) : Prop where
  wellFormed : before.WellFormed
  effect : Effect before event after
  guarded : guard before.toState event

/-- A run of guarded calls is a run of effects on sessions. -/
theorem run_effects
    {guard : State → Event → Prop}
    {session : Session}
    {events : List Event}
    {before after : State}
    (run : Run (Guarded Step guard) before events after)
    (beforeEq : before = session.toState)
    (wellFormed : session.WellFormed) :
    ∃ session', after = session'.toState ∧ session'.WellFormed ∧
      Run (EffectStep guard) session events session' := by
  induction run generalizing session with
  | nil => exact ⟨session, beforeEq, wellFormed, .nil⟩
  | cons first _ inductionHypothesis =>
      subst beforeEq
      obtain ⟨step, holds⟩ := first
      obtain ⟨middle, middleEq, effect⟩ := step_effect wellFormed step
      obtain ⟨last, lastEq, lastWellFormed, rest⟩ :=
        inductionHypothesis middleEq (effect.wellFormed wellFormed)
      exact ⟨last, lastEq, lastWellFormed,
        .cons ⟨wellFormed, effect, holds⟩ rest⟩

end MsFat
