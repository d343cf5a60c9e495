import MsFat.Directory.Checks
import MsFat.Transfer.Write

/-!
# The effect of `fs_write`

`fs_write` first extends the chain of the file to the end of the write, as far
as free blocks allow, and then stores the bytes.  Only a write that stores all
of its bytes updates the offset and the size.
-/

namespace MsFat

/-- The number of blocks a file needs to hold the bytes up to the end of a
transfer. -/
def targetBlocks (offset count : Nat) : Nat :=
  (offset + count + (blockSize - 1)) / blockSize

namespace Session

/-- The free blocks that a write takes. -/
def takenBlocks
    (session : Session)
    (chain : List UInt16)
    (offset count : Nat) : List UInt16 :=
  (freeBlocks session.fat).take (targetBlocks offset count - chain.length)

/-- The chain of the file when the blocks for a write are allocated. -/
def extendedChain
    (session : Session)
    (chain : List UInt16)
    (offset count : Nat) : List UInt16 :=
  chain ++ session.takenBlocks chain offset count

end Session

/-- `Written grown chain host index descriptor buf count after result`: from the
session `grown`, in which the file has the given chain, a write through the
descriptor leaves `after` and returns `result`. -/
inductive Written
    (grown : Session)
    (chain : List UInt16)
    (host : Host)
    (index : Descriptor)
    (descriptor : FileDescriptor)
    (buf : Buffer)
    (count : Nat) : Session → Int → Prop
  | complete
      (inside : descriptor.offset.toNat + count ≤ blockSize * chain.length) :
      Written grown chain host index descriptor buf count
        ((grown.stored chain descriptor.offset.toNat buf count).finishWrite
          index descriptor count)
        count
  | short
      (short : blockSize * chain.length - descriptor.offset.toNat < count) :
      Written grown chain host index descriptor buf count
        (grown.stored chain descriptor.offset.toNat buf
          (blockSize * chain.length - descriptor.offset.toNat))
        (blockSize * chain.length - descriptor.offset.toNat : Nat)
  | hostFailed
      (bytes : Nat)
      (le : bytes ≤ count)
      (inside : bytes = 0 ∨
        descriptor.offset.toNat + bytes ≤ blockSize * chain.length)
      (unreliable : ¬host.IoSucceeds) :
      Written grown chain host index descriptor buf count
        (grown.stored chain descriptor.offset.toNat buf bytes)
        (-1)

namespace Session

/-- The file keeps the grown chain in the session behind an allocation. -/
theorem fileChain_setChain
    {session : Session}
    {file : Slot}
    {chain : List UInt16}
    {missing : Nat}
    {fat' : Fat session.sb.numDataBlocks.toNat}
    {firstIndex' : UInt16}
    {allocated : Int}
    (grown : Grown session.fat chain missing fat' firstIndex' allocated) :
    (session.setChain file fat' firstIndex').FileChain file
      (chain ++ (freeBlocks session.fat).take missing) := by
  have isChain := grown.isChain
  simpa [FileChain, setChain] using isChain

/-- The allocation of a write gives the file the extended chain. -/
theorem fileChain_extended
    {session : Session}
    {chain : List UInt16}
    {offset count : Nat}
    {fat' : Fat session.sb.numDataBlocks.toNat}
    {firstIndex' : UInt16}
    {allocated : Int}
    (file : Slot)
    (grown : Grown session.fat chain (targetBlocks offset count - chain.length)
      fat' firstIndex' allocated) :
    (session.setChain file fat' firstIndex').FileChain file
      (session.extendedChain chain offset count) :=
  fileChain_setChain grown

/-- `fs_write` behind its checks, from a session in which the file has a
chain. -/
theorem write_computes
    {session : Session}
    (index : Descriptor)
    {descriptor : FileDescriptor}
    {chain : List UInt16}
    (inside : session.DataInside)
    (isChain : session.FileChain descriptor.file chain)
    (host : Host)
    (buf : Buffer)
    {count : Nat}
    (positive : 0 < count)
    (countFits : count ≤ intMax) :
    ∃ fat' firstIndex' allocated after result,
      Grown session.fat chain
        (targetBlocks descriptor.offset.toNat count - chain.length)
        fat' firstIndex' allocated ∧
      Written (session.setChain descriptor.file fat' firstIndex')
        (session.extendedChain chain descriptor.offset.toNat count)
        host index descriptor buf count after result ∧
      Computes
        (fun fuel => session.write fuel host index descriptor buf count)
        (chain.length + 1) (after, result) := by
  have offsetFits := descriptor.offset.toNat_lt
  obtain ⟨fat', firstIndex', allocated, computes, grown⟩ :=
    allocateInFat_computes session.numDataBlocks_lt isChain
      (findNumTargetBlocks descriptor.offset.toNat count)
  rw [findNumTargetBlocks_eq _ countFits offsetFits] at grown
  have missing :
      (((descriptor.offset.toNat + count + (blockSize - 1)) / blockSize : Nat) -
          (chain.length : Int)).toNat =
        targetBlocks descriptor.offset.toNat count - chain.length := by
    unfold targetBlocks
    omega
  rw [missing] at grown
  have insideGrown : (session.setChain descriptor.file fat'
      firstIndex').DataInside :=
    ⟨inside.data_le, inside.bcount_eq⟩
  have moved := writeBlocks_moved
    insideGrown (fileChain_setChain grown) host buf
    offsetFits positive countFits
  have allocation : Computes
      (fun fuel => session.allocateBlocksInFat fuel descriptor.file
        (findNumTargetBlocks descriptor.offset.toNat count))
      (chain.length + 1)
      (session.setChain descriptor.file fat' firstIndex', allocated) :=
    computes.bind rfl
  generalize outcomeEq : (session.setChain descriptor.file fat'
    firstIndex').writeBlocks host descriptor.file buf descriptor.offset.toNat
      count = outcome at moved
  cases moved with
  | all reached =>
      refine ⟨fat', firstIndex', allocated, _, _, grown, .complete ?_,
        allocation.bind ?_⟩
      · exact reached.resolve_left (by omega)
      · simp only [outcomeEq, outcome_ok_bind]
        rfl
  | exhausted short =>
      refine ⟨fat', firstIndex', allocated, _, _, grown, .short short,
        allocation.bind ?_⟩
      simp only [outcomeEq, outcome_ok_bind]
      rfl
  | hostFailed bytes le reached unreliable =>
      refine ⟨fat', firstIndex', allocated, _, _, grown,
        .hostFailed bytes le reached unreliable, allocation.bind ?_⟩
      simp only [outcomeEq, outcome_ok_bind]
      rfl

/-! ## Writes on a reliable host -/

section Reliable

variable {session : Session} {chain : List UInt16}

/-- The bytes that a file with the given chain can come to hold: those of its
blocks and of all free blocks. -/
def room (session : Session) (chain : List UInt16) : Nat :=
  blockSize * (chain.length + (freeBlocks session.fat).length)

/-- The blocks of a file are part of its room. -/
theorem chain_le_room
    (session : Session)
    (chain : List UInt16) :
    blockSize * chain.length ≤ session.room chain :=
  Nat.mul_le_mul_left _ (Nat.le_add_right _ _)

theorem extendedChain_length
    (session : Session)
    (chain : List UInt16)
    (offset count : Nat) :
    (session.extendedChain chain offset count).length =
      chain.length + min (targetBlocks offset count - chain.length)
        (freeBlocks session.fat).length := by
  simp [extendedChain, takenBlocks]

/-- The extended chain holds the end of a write that fits in the room. -/
theorem extendedChain_holds
    {offset count : Nat}
    (fits : offset + count ≤ session.room chain) :
    offset + count ≤
      blockSize * (session.extendedChain chain offset count).length := by
  rw [extendedChain_length]
  unfold room at fits
  unfold targetBlocks
  simp only [blockSize] at *
  omega

/-- For a write that does not fit, the chain is extended by all free blocks. -/
theorem extendedChain_full
    {offset count : Nat}
    (short : session.room chain < offset + count) :
    blockSize * (session.extendedChain chain offset count).length =
      session.room chain := by
  rw [extendedChain_length]
  unfold room at short ⊢
  unfold targetBlocks
  simp only [blockSize] at *
  omega

variable (index : Descriptor) {descriptor : FileDescriptor} {host : Host}
  (inside : session.DataInside)
  (isChain : session.FileChain descriptor.file chain)
  (reliable : host.IoSucceeds)
  (buf : Buffer)
  {count : Nat}
  (positive : 0 < count)
  (countFits : count ≤ intMax)

include inside isChain reliable positive countFits

/-- A write that fits is complete. -/
theorem write_fits
    (fits : descriptor.offset.toNat + count ≤ session.room chain) :
    ∃ fat' firstIndex' allocated,
      Grown session.fat chain
        (targetBlocks descriptor.offset.toNat count - chain.length)
        fat' firstIndex' allocated ∧
      Computes
        (fun fuel => session.write fuel host index descriptor buf count)
        (chain.length + 1)
        ((((session.setChain descriptor.file fat' firstIndex').stored
            (session.extendedChain chain descriptor.offset.toNat count)
            descriptor.offset.toNat buf count).finishWrite index descriptor
              count), (count : Int)) := by
  obtain ⟨fat', firstIndex', allocated, after, result, grown, written,
    computes⟩ := write_computes index inside isChain host buf
      positive countFits
  refine ⟨fat', firstIndex', allocated, grown, ?_⟩
  have holds := extendedChain_holds fits
  cases written with
  | complete _ => exact computes
  | short short => omega
  | hostFailed _ _ _ unreliable => exact absurd reliable unreliable

/-- A write that does not fit fills the room and returns early. -/
theorem write_short
    (short : session.room chain < descriptor.offset.toNat + count) :
    ∃ fat' firstIndex' allocated,
      Grown session.fat chain
        (targetBlocks descriptor.offset.toNat count - chain.length)
        fat' firstIndex' allocated ∧
      Computes
        (fun fuel => session.write fuel host index descriptor buf count)
        (chain.length + 1)
        ((session.setChain descriptor.file fat' firstIndex').stored
          (session.extendedChain chain descriptor.offset.toNat count)
          descriptor.offset.toNat buf
          (session.room chain - descriptor.offset.toNat),
        ((session.room chain - descriptor.offset.toNat : Nat) : Int)) := by
  obtain ⟨fat', firstIndex', allocated, after, result, grown, written,
    computes⟩ := write_computes index inside isChain host buf
      positive countFits
  refine ⟨fat', firstIndex', allocated, grown, ?_⟩
  have full := extendedChain_full short
  cases written with
  | complete inside => omega
  | short _ =>
      rw [full] at computes
      exact computes
  | hostFailed _ _ _ unreliable => exact absurd reliable unreliable

end Reliable

/-- The updates at the end of `fs_write` leave every name as it was. -/
@[simp] theorem finishWrite_filename
    (session : Session)
    (index : Descriptor)
    (descriptor : FileDescriptor)
    (bytesWritten : Nat)
    (slot : Slot) :
    ((session.finishWrite index descriptor bytesWritten).root slot).filename =
      (session.root slot).filename := by
  unfold finishWrite
  by_cases same : slot = descriptor.file
  · subst same
    rw [setFile_root_self]
  · rw [setFile_root_of_ne same]
    rfl

/-- The updates at the end of `fs_write` grow the size of the file written to
only. -/
theorem finishWrite_root_fileSize
    (session : Session)
    (index : Descriptor)
    (descriptor : FileDescriptor)
    (bytesWritten : Nat)
    (slot : Slot) :
    ((session.finishWrite index descriptor bytesWritten).root slot).fileSize =
      (session.root slot).fileSize +
        if slot = descriptor.file then UInt32.ofNat bytesWritten else 0 := by
  unfold finishWrite
  by_cases same : slot = descriptor.file
  · subst same
    rw [setFile_root_self, if_pos rfl]
  · rw [setFile_root_of_ne same, if_neg same]
    exact (UInt32.add_zero _).symm

/-- The size of the file behind a complete write. -/
theorem finishWrite_fileSize
    (session : Session)
    (index : Descriptor)
    (descriptor : FileDescriptor)
    {count : Nat}
    (sizeFits :
      (session.root descriptor.file).fileSize.toNat + count < 2 ^ 32) :
    ((session.finishWrite index descriptor count).root
        descriptor.file).fileSize.toNat =
      (session.root descriptor.file).fileSize.toNat + count := by
  rw [finishWrite_root_fileSize, if_pos rfl]
  simp only [UInt32.toNat_add, UInt32.toNat_ofNat']
  omega

/-- The updates at the end of `fs_write` leave every first index as it was. -/
@[simp] theorem finishWrite_firstIndex
    (session : Session)
    (index : Descriptor)
    (descriptor : FileDescriptor)
    (bytesWritten : Nat)
    (slot : Slot) :
    ((session.finishWrite index descriptor bytesWritten).root slot).firstIndex =
      (session.root slot).firstIndex := by
  unfold finishWrite
  by_cases same : slot = descriptor.file
  · subst same
    rw [setFile_root_self]
  · rw [setFile_root_of_ne same]
    rfl

/-- The updates at the end of `fs_write` leave every chain as it was. -/
theorem finishWrite_fileChain_iff
    {session : Session}
    {slot : Slot}
    {chain : List UInt16}
    (index : Descriptor)
    (descriptor : FileDescriptor)
    (bytesWritten : Nat) :
    (session.finishWrite index descriptor bytesWritten).FileChain slot chain ↔
      session.FileChain slot chain := by
  unfold FileChain
  rw [finishWrite_firstIndex]
  exact Iff.rfl

theorem finishWrite_fileChain
    {session : Session}
    {slot : Slot}
    {chain : List UInt16}
    (index : Descriptor)
    (descriptor : FileDescriptor)
    (bytesWritten : Nat)
    (isChain : session.FileChain slot chain) :
    (session.finishWrite index descriptor bytesWritten).FileChain slot
      chain :=
  (finishWrite_fileChain_iff index descriptor bytesWritten).mpr isChain

end Session

/-- `fs_write` through an open descriptor. -/
theorem fsWrite_open
    {session : Session}
    {index : Descriptor}
    {descriptor : FileDescriptor}
    (isOpen : session.openFiles index = some descriptor)
    (fuel : Nat)
    (host : Host)
    (buf : Buffer)
    {count : Nat}
    (positive : 0 < count) :
    fsWrite fuel host session.toState index.val (some buf) count =
      (do
        let (after, result) ←
          session.write fuel host index descriptor buf count
        .ok (after.toState, result)) := by
  unfold fsWrite
  rw [onDescriptor_open isOpen]
  simp only []
  rw [if_neg (by omega), Session.toState_session, outcome_ok_bind]

/-- `fs_write` of no bytes through an open descriptor. -/
theorem fsWrite_zero
    {session : Session}
    {index : Descriptor}
    {descriptor : FileDescriptor}
    (isOpen : session.openFiles index = some descriptor)
    (fuel : Nat)
    (host : Host)
    (buf : Buffer) :
    fsWrite fuel host session.toState index.val (some buf) 0 =
      .ok (session.toState, 0) := by
  unfold fsWrite
  rw [onDescriptor_open isOpen]
  rfl

/-- What the write of a session computes, `fs_write` computes. -/
theorem fsWrite_computes
    {session after : Session}
    {index : Descriptor}
    {descriptor : FileDescriptor}
    {host : Host}
    {buf : Buffer}
    {count bound : Nat}
    {result : Int}
    (isOpen : session.openFiles index = some descriptor)
    (positive : 0 < count)
    (computes : Computes
      (fun fuel => session.write fuel host index descriptor buf count) bound
      (after, result)) :
    Computes
      (fun fuel => fsWrite fuel host session.toState index.val (some buf) count)
      bound (after.toState, result) := by
  refine Computes.congr (computes.bind ?_) fun fuel =>
    fsWrite_open isOpen fuel host buf positive
  rfl

end MsFat
