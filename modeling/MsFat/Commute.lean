import MsFat.Frame
import MsFat.Info
import Mathlib.Data.List.GetD

/-!
# Writes to different files

Two complete writes to different files may be exchanged.  Each of the two orders
may give the files other blocks, as both take the first free ones, so that the
FAT and the disk differ; what can be seen of the files through their chains does
not.
-/

namespace MsFat

open Memory

namespace Session

/-- Blocks that are appended leave the places in front of them as they are. -/
theorem place_append
    (session : Session)
    (chain taken : List UInt16)
    {position : Nat}
    (inside : position < blockSize * chain.length) :
    session.place (chain ++ taken) position = session.place chain position := by
  have below : position / blockSize < chain.length :=
    Nat.div_lt_of_lt_mul inside
  unfold place
  rw [List.getD_append _ _ _ _ below]

/-- The bytes of a file behind a write within its chain. -/
theorem contents_stored
    (session : Session)
    {chain : List UInt16}
    (distinct : chain.Nodup)
    {start bytes : Nat}
    (buf : Buffer)
    (inside : start + bytes ≤ blockSize * chain.length)
    {position : Nat}
    (below : position < blockSize * chain.length) :
    (session.stored chain start buf bytes).contents chain position =
      memcpy (session.contents chain) start buf 0 bytes position :=
  scatter_apply_injOn (session.place_injOn distinct) inside below

end Session

/-- A write through a descriptor, with the chain of the file it is open on. -/
structure FileWrite where
  index : Descriptor
  descriptor : FileDescriptor
  chain : List UInt16
  buf : Buffer
  count : Nat

namespace FileWrite

/-- The file written to. -/
def file (write : FileWrite) : Slot := write.descriptor.file

/-- The position the write starts from. -/
def start (write : FileWrite) : Nat := write.descriptor.offset.toNat

/-- Number of blocks that the file lacks for the write. -/
def missing (write : FileWrite) : Nat :=
  targetBlocks write.start write.count - write.chain.length

/-- The descriptor behind the write. -/
def moved (write : FileWrite) : FileDescriptor :=
  { write.descriptor with
    offset := write.descriptor.offset + UInt16.ofNat write.count }

/-- The bytes that are written and those of the file so far lie in front of this
position. -/
def reach (write : FileWrite) (session : Session) : Nat :=
  max (session.root write.file).fileSize.toNat (write.start + write.count)

/-- The descriptor is open on the file and stands inside it, its blocks hold its
size, and the count fits. -/
structure Ready (write : FileWrite) (session : Session) : Prop where
  isOpen : session.openFiles write.index = some write.descriptor
  inUse : session.InUse write.file
  isChain : session.FileChain write.file write.chain
  start_le : write.start ≤ (session.root write.file).fileSize.toNat
  size_le : (session.root write.file).fileSize.toNat ≤
    blockSize * write.chain.length
  countFits : write.count ≤ intMax

/-- `fs_write` makes the write in the session, returns this result and leaves
`after`. -/
def Returns
    (write : FileWrite)
    (host : Host)
    (session after : Session)
    (result : Int) : Prop :=
  ∃ bound, Computes
    (fun fuel => fsWrite fuel host session.toState write.index.val
      (some write.buf) write.count)
    bound (after.toState, result)

/-- What a complete write leaves. -/
structure Done
    (write : FileWrite)
    (session after : Session) : Prop where
  chains : after.ChainsOk
  inside : after.DataInside
  inUse : ∀ slot, after.InUse slot ↔ session.InUse slot
  openFiles : after.openFiles =
    Function.update session.openFiles write.index (some write.moved)
  fileSize : ∀ slot, (after.root slot).fileSize =
    (session.root slot).fileSize +
      if slot = write.file then UInt32.ofNat write.count else 0
  free : (freeBlocks after.fat).length + write.missing =
    (freeBlocks session.fat).length
  reserved : fatNext after.fat 0 = fatNext session.fat 0
  contents : ∃ chain', after.FileChain write.file chain' ∧
    write.reach session ≤ blockSize * chain'.length ∧
    ∀ position < write.reach session,
      after.contents chain' position =
        memcpy (session.contents write.chain) write.start write.buf 0
          write.count position
  others : ∀ slot, session.InUse slot → slot ≠ write.file →
    session.SameFile slot after

section One

variable {write : FileWrite} {session : Session}

/-- No blocks are missing for a write of no bytes. -/
theorem Ready.missing_of_empty
    (ready : write.Ready session)
    (empty : write.count = 0) :
    write.missing = 0 := by
  have start := ready.start_le
  have size := ready.size_le
  unfold missing targetBlocks
  rw [empty]
  simp only [blockSize] at *
  omega

/-- A write of no bytes is done at once. -/
theorem Ready.done_of_empty
    (ready : write.Ready session)
    (chains : session.ChainsOk)
    (inside : session.DataInside)
    (empty : write.count = 0) :
    write.Done session session where
  chains := chains
  inside := inside
  inUse := fun _ => Iff.rfl
  openFiles := by
    have same : write.moved = write.descriptor := by
      unfold moved
      rw [empty]
      exact congrArg (FileDescriptor.mk write.descriptor.file)
        (UInt16.add_zero _)
    rw [same, ← ready.isOpen, Function.update_eq_self]
  fileSize := by
    intro slot
    rw [empty]
    exact (UInt32.add_zero _).symm.trans (by split <;> rfl)
  free := by
    rw [ready.missing_of_empty empty, Nat.add_zero]
  reserved := rfl
  contents := by
    have start := ready.start_le
    have size := ready.size_le
    refine ⟨write.chain, ready.isChain, ?_, fun position _ => ?_⟩
    · unfold reach
      rw [empty]
      omega
    · rw [empty, memcpy_zero]
  others := fun _ _ _ => .refl session

/-- The missing blocks are among the free ones, so the write fits in the room of
the file. -/
theorem Ready.fits
    (room : write.missing ≤ (freeBlocks session.fat).length) :
    write.start + write.count ≤ session.room write.chain := by
  unfold missing targetBlocks at room
  unfold Session.room
  simp only [blockSize] at *
  omega

/-- The session behind a write that stores all its bytes. -/
def behind
    (write : FileWrite)
    (session : Session)
    (fat' : Fat session.sb.numDataBlocks.toNat)
    (firstIndex' : UInt16) : Session :=
  ((session.setChain write.file fat' firstIndex').stored
    (session.extendedChain write.chain write.start write.count)
    write.start write.buf write.count).finishWrite write.index write.descriptor
      write.count

section Behind

variable {fat' : Fat session.sb.numDataBlocks.toNat} {firstIndex' : UInt16}
  {allocated : Int}

theorem behind_inUse (slot : Slot) :
    (write.behind session fat' firstIndex').InUse slot ↔
      session.InUse slot := by
  unfold Session.InUse behind
  rw [Session.finishWrite_filename]
  exact session.setChain_inUse write.file fat' firstIndex' slot

theorem behind_fileSize (slot : Slot) :
    ((write.behind session fat' firstIndex').root slot).fileSize =
      (session.root slot).fileSize +
        if slot = write.file then UInt32.ofNat write.count else 0 := by
  unfold behind
  rw [Session.finishWrite_root_fileSize]
  exact congrArg (· + _) (Session.setChain_fileSize slot)

/-- The bytes of the file behind the write. -/
theorem behind_contents
    (ready : write.Ready session)
    (room : write.missing ≤ (freeBlocks session.fat).length)
    (grown : Grown session.fat write.chain write.missing fat' firstIndex'
      allocated) :
    ∃ chain', (write.behind session fat' firstIndex').FileChain write.file
        chain' ∧
      write.reach session ≤ blockSize * chain'.length ∧
      ∀ position < write.reach session,
        (write.behind session fat' firstIndex').contents chain' position =
          memcpy (session.contents write.chain) write.start write.buf 0
            write.count position := by
  have start := ready.start_le
  have size := ready.size_le
  have extended := Session.fileChain_extended write.file grown
  have holds : write.start + write.count ≤ blockSize *
      (session.extendedChain write.chain write.start write.count).length :=
    Session.extendedChain_holds (Ready.fits room)
  have longer : write.chain.length ≤
      (session.extendedChain write.chain write.start write.count).length := by
    rw [Session.extendedChain_length]
    omega
  have reaches : write.reach session ≤ blockSize *
      (session.extendedChain write.chain write.start write.count).length := by
    unfold reach
    simp only [blockSize] at *
    omega
  refine ⟨_, Session.finishWrite_fileChain _ _ _ extended, reaches, ?_⟩
  intro position below
  refine ((session.setChain write.file fat' firstIndex').contents_stored
    extended.nodup write.buf holds (Nat.lt_of_lt_of_le below reaches)).trans ?_
  apply memcpy_congr
  intro outside
  -- Outside of the write, the position lies in the old size.
  have inOld : position < blockSize * write.chain.length := by
    unfold reach at below
    omega
  exact congrArg session.disk.bytes
    (session.place_append write.chain _ inOld)

/-- A file that is not written to. -/
theorem behind_sameFile
    (ready : write.Ready session)
    (chains : session.ChainsOk)
    (room : write.missing ≤ (freeBlocks session.fat).length)
    (grown : Grown session.fat write.chain write.missing fat' firstIndex'
      allocated)
    {slot : Slot}
    (used : session.InUse slot)
    (different : slot ≠ write.file) :
    session.SameFile slot (write.behind session fat' firstIndex') := by
  have inUse := session.setChain_inUse write.file fat' firstIndex'
  have allocates := Session.sameFile_setChain chains ready.inUse used
    different.symm ready.isChain grown
  have stores := Session.sameFile_stored
    (chains.setChain ready.inUse ready.isChain grown)
    ((inUse write.file).mpr ready.inUse) ((inUse slot).mpr used) different.symm
    (Session.fileChain_extended write.file grown) write.buf
    (.inr (Session.extendedChain_holds (Ready.fits room)))
  exact (allocates.trans stores).trans
    (Session.sameFile_finishWrite different.symm write.index write.count)

/-- A write whose missing blocks have been allocated is done. -/
theorem behind_done
    (ready : write.Ready session)
    (chains : session.ChainsOk)
    (inside : session.DataInside)
    (room : write.missing ≤ (freeBlocks session.fat).length)
    (grown : Grown session.fat write.chain write.missing fat' firstIndex'
      allocated) :
    write.Done session (write.behind session fat' firstIndex') where
  chains := by
    apply (chains.setChain ready.inUse ready.isChain grown).congr
    · intro slot
      exact (behind_inUse slot).trans
        (session.setChain_inUse write.file fat' firstIndex' slot).symm
    · intro slot chain
      exact Session.finishWrite_fileChain_iff _ _ _
  inside := ⟨inside.data_le, inside.bcount_eq⟩
  inUse := behind_inUse
  openFiles := rfl
  fileSize := behind_fileSize
  free := by
    change (freeBlocks fat').length + _ = _
    rw [grown.free, List.length_drop]
    omega
  reserved := by
    refine grown.frame 0 (fun last => ?_) fun taken => ?_
    · exact ready.isChain.ne_zero 0 (List.mem_of_getLast? last) rfl
    · exact ((mem_freeBlocks session.numDataBlocks_lt).mp
        (List.mem_of_mem_take taken)).1 rfl
  contents := behind_contents ready room grown
  others := fun _ used different =>
    behind_sameFile ready chains room grown used different

end Behind

/-- With enough free blocks, `fs_write` makes the whole write. -/
theorem Ready.done
    (ready : write.Ready session)
    (chains : session.ChainsOk)
    (inside : session.DataInside)
    (room : write.missing ≤ (freeBlocks session.fat).length)
    {host : Host}
    (succeeds : host.IoSucceeds) :
    ∃ after, write.Returns host session after write.count ∧
      write.Done session after := by
  by_cases empty : write.count = 0
  · refine ⟨session, ⟨0, .const fun fuel => ?_⟩,
      ready.done_of_empty chains inside empty⟩
    rw [empty]
    exact fsWrite_zero ready.isOpen fuel host write.buf
  · have positive := Nat.pos_of_ne_zero empty
    obtain ⟨fat', firstIndex', allocated, grown, computes⟩ :=
      Session.write_fits write.index inside ready.isChain succeeds write.buf
        positive ready.countFits (Ready.fits room)
    exact ⟨write.behind session fat' firstIndex',
      ⟨_, fsWrite_computes ready.isOpen positive computes⟩,
      behind_done ready chains inside room grown⟩

end One

/-! ## Two writes -/

/-- What two complete writes to different files leave, in terms of the session
in front of both. -/
structure BothDone
    (first second : FileWrite)
    (session last : Session) : Prop where
  openFiles : last.openFiles = Function.update
    (Function.update session.openFiles first.index (some first.moved))
    second.index (some second.moved)
  fileSize : ∀ slot, (last.root slot).fileSize =
    (session.root slot).fileSize +
      ((if slot = first.file then UInt32.ofNat first.count else 0) +
        if slot = second.file then UInt32.ofNat second.count else 0)
  free : (freeBlocks last.fat).length + (first.missing + second.missing) =
    (freeBlocks session.fat).length
  reserved : fatNext last.fat 0 = fatNext session.fat 0
  contents : ∀ write : FileWrite, write = first ∨ write = second →
    ∃ chain', last.FileChain write.file chain' ∧
      write.reach session ≤ blockSize * chain'.length ∧
      ∀ position < write.reach session,
        last.contents chain' position =
          memcpy (session.contents write.chain) write.start write.buf 0
            write.count position
  others : ∀ slot, session.InUse slot → slot ≠ first.file →
    slot ≠ second.file → session.SameFile slot last

section Two

variable {first second : FileWrite} {session middle last : Session}

/-- The two writes may be named in either order. -/
theorem BothDone.symm
    (done : first.BothDone second session last)
    (apart : first.index ≠ second.index) :
    second.BothDone first session last where
  openFiles := done.openFiles.trans (Function.update_comm apart _ _ _)
  fileSize := by
    intro slot
    rw [done.fileSize, UInt32.add_comm (if slot = first.file then _ else _)]
  free := by
    rw [← done.free, Nat.add_comm second.missing]
  reserved := done.reserved
  contents := fun write which => done.contents write which.symm
  others := fun slot used notSecond notFirst =>
    done.others slot used notFirst notSecond

/-- A write to another file leaves a write ready. -/
theorem Ready.of_done
    (ready : second.Ready session)
    (done : first.Done session middle)
    (apart : second.index ≠ first.index)
    (different : second.file ≠ first.file) :
    second.Ready middle := by
  have same := done.others second.file ready.inUse different
  have size : (middle.root second.file).fileSize =
      (session.root second.file).fileSize := congrArg File.fileSize same.entry
  constructor
  · rw [done.openFiles, Function.update_of_ne apart]
    exact ready.isOpen
  · exact (done.inUse second.file).mpr ready.inUse
  · exact same.chain second.chain ready.isChain
  · rw [size]
    exact ready.start_le
  · rw [size]
    exact ready.size_le
  · exact ready.countFits

/-- The second of two writes behind the first. -/
theorem Done.both
    (firstReady : first.Ready session)
    (secondReady : second.Ready session)
    (different : first.file ≠ second.file)
    (firstDone : first.Done session middle)
    (secondDone : second.Done middle last) :
    first.BothDone second session last where
  openFiles := by
    rw [secondDone.openFiles, firstDone.openFiles]
  fileSize := by
    intro slot
    rw [secondDone.fileSize, firstDone.fileSize, UInt32.add_assoc]
  free := by
    have firstFree := firstDone.free
    have secondFree := secondDone.free
    omega
  reserved := secondDone.reserved.trans firstDone.reserved
  contents := by
    rintro write (rfl | rfl)
    · -- The second write leaves the first file as it is.
      obtain ⟨chain', isChain, reaches, bytes⟩ := firstDone.contents
      have same := secondDone.others write.file
        ((firstDone.inUse write.file).mpr firstReady.inUse) different
      refine ⟨chain', same.chain chain' isChain, reaches, ?_⟩
      intro position below
      rw [same.contents chain' isChain position
        (Nat.lt_of_lt_of_le below reaches)]
      exact bytes position below
    · -- The first write has left the second file as it was.
      have same := firstDone.others write.file secondReady.inUse different.symm
      have reach : write.reach middle = write.reach session := by
        unfold reach
        rw [same.entry]
      obtain ⟨chain', isChain, reaches, bytes⟩ := secondDone.contents
      rw [reach] at reaches bytes
      refine ⟨chain', isChain, reaches, fun position below => ?_⟩
      rw [bytes position below]
      apply memcpy_congr
      intro outside
      apply same.contents write.chain secondReady.isChain position
      have start := secondReady.start_le
      have size := secondReady.size_le
      unfold FileWrite.reach at below
      omega
  others := by
    intro slot used notFirst notSecond
    exact (firstDone.others slot used notFirst).trans
      (secondDone.others slot ((firstDone.inUse slot).mpr used) notSecond)

/-- With enough free blocks for both, two writes to different files are both
done, one after the other. -/
theorem Ready.bothDone
    (firstReady : first.Ready session)
    (secondReady : second.Ready session)
    (different : first.file ≠ second.file)
    (apart : first.index ≠ second.index)
    (chains : session.ChainsOk)
    (inside : session.DataInside)
    (room : first.missing + second.missing ≤ (freeBlocks session.fat).length)
    {firstHost secondHost : Host}
    (firstSucceeds : firstHost.IoSucceeds)
    (secondSucceeds : secondHost.IoSucceeds) :
    ∃ middle last, first.Returns firstHost session middle first.count ∧
      second.Returns secondHost middle last second.count ∧
      first.BothDone second session last := by
  obtain ⟨middle, firstReturns, firstDone⟩ :=
    firstReady.done chains inside (by omega) firstSucceeds
  have free := firstDone.free
  obtain ⟨last, secondReturns, secondDone⟩ :=
    (secondReady.of_done firstDone apart.symm different.symm).done
      firstDone.chains firstDone.inside (by omega) secondSucceeds
  exact ⟨middle, last, firstReturns, secondReturns,
    firstDone.both firstReady secondReady different secondDone⟩

end Two

/-- What can be seen of the files is the same in both sessions: the offsets, the
sizes, the number of free FAT entries, and the bytes of the two files as far as
they are written or lie in the old size.  Every third file is as it was. -/
structure SameFiles
    (first second : FileWrite)
    (session left right : Session) : Prop where
  openFiles : left.openFiles = right.openFiles
  fileSize : ∀ slot, (left.root slot).fileSize = (right.root slot).fileSize
  free : freeFatEntries left.fat = freeFatEntries right.fat
  contents : ∀ write : FileWrite, write = first ∨ write = second →
    ∃ leftChain rightChain, left.FileChain write.file leftChain ∧
      right.FileChain write.file rightChain ∧
      write.reach session ≤ blockSize * leftChain.length ∧
      write.reach session ≤ blockSize * rightChain.length ∧
      ∀ position < write.reach session,
        left.contents leftChain position = right.contents rightChain position
  others : ∀ slot, session.InUse slot → slot ≠ first.file →
    slot ≠ second.file →
      session.SameFile slot left ∧ session.SameFile slot right

/-- Two sessions that the same two writes have led to. -/
theorem BothDone.sameFiles
    {first second : FileWrite}
    {session left right : Session}
    (leftDone : first.BothDone second session left)
    (rightDone : first.BothDone second session right) :
    first.SameFiles second session left right where
  openFiles := leftDone.openFiles.trans rightDone.openFiles.symm
  fileSize := fun slot =>
    (leftDone.fileSize slot).trans (rightDone.fileSize slot).symm
  free := by
    have leftFree := leftDone.free
    have rightFree := rightDone.free
    rw [freeFatEntries_eq left.numDataBlocks_lt,
      freeFatEntries_eq right.numDataBlocks_lt, leftDone.reserved,
      rightDone.reserved]
    omega
  contents := by
    intro write which
    obtain ⟨leftChain, isLeft, leftReaches, leftBytes⟩ :=
      leftDone.contents write which
    obtain ⟨rightChain, isRight, rightReaches, rightBytes⟩ :=
      rightDone.contents write which
    refine ⟨leftChain, rightChain, isLeft, isRight, leftReaches, rightReaches,
      fun position below => ?_⟩
    rw [leftBytes position below, rightBytes position below]
  others := fun slot used notFirst notSecond =>
    ⟨leftDone.others slot used notFirst notSecond,
      rightDone.others slot used notFirst notSecond⟩

/-- Writes to two different files commute, if the free blocks are enough for
both. -/
theorem fsWrite_commutes
    {session : Session}
    (chains : session.ChainsOk)
    (inside : session.DataInside)
    {first second : FileWrite}
    (firstReady : first.Ready session)
    (secondReady : second.Ready session)
    (different : first.file ≠ second.file)
    (room : first.missing + second.missing ≤ (freeBlocks session.fat).length)
    {firstHost secondHost firstHost' secondHost' : Host}
    (firstSucceeds : firstHost.IoSucceeds)
    (secondSucceeds : secondHost.IoSucceeds)
    (firstSucceeds' : firstHost'.IoSucceeds)
    (secondSucceeds' : secondHost'.IoSucceeds) :
    ∃ middle left middle' right,
      first.Returns firstHost session middle first.count ∧
      second.Returns secondHost middle left second.count ∧
      second.Returns secondHost' session middle' second.count ∧
      first.Returns firstHost' middle' right first.count ∧
      first.SameFiles second session left right := by
  have apart : first.index ≠ second.index := by
    intro same
    have equal := firstReady.isOpen
    rw [same, secondReady.isOpen] at equal
    exact different (congrArg FileDescriptor.file (Option.some.inj equal)).symm
  obtain ⟨middle, left, firstReturns, secondReturns, leftDone⟩ :=
    firstReady.bothDone secondReady different apart chains inside room
      firstSucceeds secondSucceeds
  obtain ⟨middle', right, secondReturns', firstReturns', rightDone⟩ :=
    secondReady.bothDone firstReady different.symm apart.symm chains inside
      (by omega) secondSucceeds' firstSucceeds'
  exact ⟨middle, left, middle', right, firstReturns, secondReturns,
    secondReturns', firstReturns',
    leftDone.sameFiles (rightDone.symm apart.symm)⟩

/-- Two open files of five bytes each, `a` in block 1 and `b` in block 2, and
four free blocks. -/
def twoOpenFiles : Session :=
  Session.twoFiles 7 #v[fatEoc, fatEoc, fatEoc, 0, 0, 0, 0] (1, 5) (2, 5)
    fun index =>
      if index = 0 then some { file := 0, offset := 5 }
      else if index = 1 then some { file := 1, offset := 0 } else none

theorem twoOpenFiles_wellFormed : twoOpenFiles.WellFormed := by
  refine Session.twoFiles_wellFormed (by decide)
    (show FatChain #v[fatEoc, fatEoc, fatEoc, 0, 0, 0, 0] 1 [1] by decide)
    (show FatChain #v[fatEoc, fatEoc, fatEoc, 0, 0, 0, 0] 2 [2] by decide)
    (by simp) ?_
  intro index descriptor isOpen
  by_cases first : index = 0
  · rw [if_pos first] at isOpen
    cases isOpen
    exact .inl rfl
  · rw [if_neg first] at isOpen
    by_cases second : index = 1
    · rw [if_pos second] at isOpen
      cases isOpen
      exact .inr rfl
    · rw [if_neg second] at isOpen
      exact nomatch isOpen

/-- 5000 bytes behind those of `a`, for which one block is missing. -/
def appendToA : FileWrite where
  index := 0
  descriptor := { file := 0, offset := 5 }
  chain := [1]
  buf := fun _ => 7
  count := 5000

/-- 9000 bytes from the start of `b` on, for which two blocks are missing. -/
def overwriteB : FileWrite where
  index := 1
  descriptor := { file := 1, offset := 0 }
  chain := [2]
  buf := fun _ => 8
  count := 9000

theorem appendToA_ready : appendToA.Ready twoOpenFiles where
  isOpen := rfl
  inUse := Session.lettered_inUse_iff.mpr rfl
  isChain :=
    show FatChain #v[fatEoc, fatEoc, fatEoc, 0, 0, 0, 0] 1 [1] by decide
  start_le := by decide
  size_le := by decide
  countFits := by decide

theorem overwriteB_ready : overwriteB.Ready twoOpenFiles where
  isOpen := rfl
  inUse := Session.lettered_inUse_iff.mpr rfl
  isChain :=
    show FatChain #v[fatEoc, fatEoc, fatEoc, 0, 0, 0, 0] 2 [2] by decide
  start_le := by decide
  size_le := by decide
  countFits := by decide

/-- The file that is written first gets block 3, so the blocks differ. -/
theorem fsWrite_commutes_twoOpenFiles :
    ∃ middle left middle' right,
      appendToA.Returns .reliable twoOpenFiles middle 5000 ∧
      overwriteB.Returns .reliable middle left 9000 ∧
      overwriteB.Returns .reliable twoOpenFiles middle' 9000 ∧
      appendToA.Returns .reliable middle' right 5000 ∧
      appendToA.SameFiles overwriteB twoOpenFiles left right := by
  have succeeds := Host.reliable_reliable.toIoSucceeds
  exact fsWrite_commutes twoOpenFiles_wellFormed.chains
    twoOpenFiles_wellFormed.layout.toDataInside appendToA_ready overwriteB_ready
    (by decide) (by decide) succeeds succeeds succeeds succeeds

end FileWrite

end MsFat
