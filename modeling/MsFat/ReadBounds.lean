import MsFat.Invariant
import MsFat.Transfer.EmptyRead

/-!
# The buffer of a read

A read of at least one byte stores exactly the bytes it returns, from the start
of the buffer on.  A read of no bytes in the middle of a block stores the whole
block that follows, if the file has one, and then takes the exit for portions
that do not add up.
-/

namespace MsFat

open Memory

/-- The indices of the buffer that `fs_read` stores a byte to: those that hold
another byte behind the call than in front of it, for some buffer. -/
def storedIndices
    (host : Host)
    (state : State)
    (fd : Int)
    (count : Nat) : Set Nat :=
  {position | ∃ buf after buf' result,
    fsRead host state fd (some buf) count = .ok (after, some buf', result) ∧
      buf' position ≠ buf position}

/-- A read of `count` bytes does not exceed its buffer. -/
structure ReadInBuffer
    (session : Session)
    (index : Descriptor)
    (descriptor : FileDescriptor)
    (count : Nat) : Prop where
  /-- Whatever the host does, no byte from index `count` on is changed. -/
  inside : ∀ (host : Host) (buf : Buffer), ∃ after buf' result,
    fsRead host session.toState index.val (some buf) count =
        .ok (after, some buf', result) ∧
      ∀ position, count ≤ position → buf' position = buf position
  /-- The exit for portions that do not add up is not taken. -/
  portions : ∀ (host : Host) (buf buf' : Buffer) (bytesRead : Nat),
    session.readFront host descriptor.file descriptor.offset.toNat count buf =
        .ok (buf', .going bytesRead) →
      0 ≤ remainderBlockSize count bytesRead ∧
        remainderBlockSize count bytesRead < blockSize
  /-- While reads of the disk succeed, the stored indices are those below the
  result. -/
  stored : ∀ host : Host, host.IoSucceeds → ∃ bytes ≤ count,
    (∀ buf : Buffer, ∃ after buf',
      fsRead host session.toState index.val (some buf) count =
        .ok (after, some buf', (bytes : Int))) ∧
    storedIndices host session.toState index.val count =
      {position | position < bytes}

namespace Session

/-- The part of the buffer behind the bytes that have been delivered. -/
theorem loaded_apply_of_le
    (session : Session)
    (chain : List UInt16)
    (start : Nat)
    (buf : Buffer)
    {bytes position : Nat}
    (behind : bytes ≤ position) :
    session.loaded chain start buf bytes position = buf position :=
  memcpy_apply_outside (.inr (by rwa [Nat.zero_add]))

/-- The bytes that have been delivered. -/
theorem loaded_apply_of_lt
    (session : Session)
    (chain : List UInt16)
    (start : Nat)
    (buf : Buffer)
    {bytes position : Nat}
    (early : position < bytes) :
    session.loaded chain start buf bytes position =
      session.contents chain (start + position) := by
  unfold loaded
  rw [memcpy_apply_inside (Nat.zero_le _) (by rwa [Nat.zero_add]),
    Nat.sub_zero]

end Session

/-- When the first bytes of the file are delivered to every buffer, the indices
in front of their end are the stored ones. -/
theorem storedIndices_eq
    {session : Session}
    {chain : List UInt16}
    {host : Host}
    {state : State}
    {fd : Int}
    {count start bytes : Nat}
    (reads : ∀ buf, ∃ after result,
      fsRead host state fd (some buf) count =
        .ok (after, some (session.loaded chain start buf bytes), result)) :
    storedIndices host state fd count = {position | position < bytes} := by
  ext position
  constructor
  · rintro ⟨buf, after, buf', result, returns, changed⟩
    obtain ⟨after', result', readEq⟩ := reads buf
    have same := Except.ok.inj (readEq.symm.trans returns)
    simp only [Prod.mk.injEq, Option.some.injEq] at same
    obtain ⟨_, rfl, _⟩ := same
    by_contra behind
    exact changed (session.loaded_apply_of_le chain start buf
      (Nat.le_of_not_lt behind))
  · intro early
    -- a buffer that holds other bytes than the file
    let buf : Buffer := fun index => session.contents chain (start + index) + 1
    obtain ⟨after, result, readEq⟩ := reads buf
    refine ⟨buf, after, _, result, readEq, ?_⟩
    rw [session.loaded_apply_of_lt chain start buf early]
    simp [buf]

section

variable {session : Session} {index : Descriptor} {descriptor : FileDescriptor}
  {chain : List UInt16}

/-- A read of at least one byte delivers bytes of the file from the offset on. -/
theorem fsRead_positive
    (inside : session.DataInside)
    (isOpen : session.openFiles index = some descriptor)
    (isChain : session.FileChain descriptor.file chain)
    {count : Nat}
    (positive : 0 < count)
    (countFits : count ≤ intMax)
    (host : Host)
    (buf : Buffer) :
    ∃ after bytes result,
      bytes ≤ count ∧
      (host.IoSucceeds →
        bytes = min count
            (blockSize * chain.length - descriptor.offset.toNat) ∧
          result = (bytes : Int)) ∧
      fsRead host session.toState index.val (some buf) count =
        .ok (after,
          some (session.loaded chain descriptor.offset.toNat buf bytes),
          result) := by
  rcases fsRead_moved inside isOpen isChain host buf positive countFits with
    ⟨readEq, within⟩ | ⟨readEq, short⟩ | ⟨bytes, le, readEq, unreliable⟩
  · exact ⟨_, count, _, le_refl _, fun _ => ⟨by omega, rfl⟩, readEq⟩
  · exact ⟨_, _, _, Nat.le_of_lt short, fun _ => ⟨by omega, rfl⟩, readEq⟩
  · exact ⟨_, bytes, _, le, fun reliable => absurd reliable unreliable,
      readEq⟩

/-- A read of no bytes that has no block to overrun leaves the buffer. -/
theorem fsRead_zero
    (inside : session.DataInside)
    (isOpen : session.openFiles index = some descriptor)
    (isChain : session.FileChain descriptor.file chain)
    (condition : descriptor.offset.toNat % blockSize = 0 ∨
      chain.length ≤ descriptor.offset.toNat / blockSize + 1)
    (host : Host)
    (buf : Buffer) :
    ∃ after result,
      (host.IoSucceeds → result = 0) ∧
      fsRead host session.toState index.val (some buf) 0 =
        .ok (after, some buf, result) := by
  rcases fsRead_zero_cases inside isOpen isChain host buf with
    ⟨readEq, _⟩ | ⟨readEq, _⟩ | ⟨_, unaligned, long⟩ | ⟨readEq, unreliable⟩
  · exact ⟨_, _, fun _ => rfl, readEq⟩
  · exact ⟨_, _, fun _ => rfl, readEq⟩
  · omega
  · exact ⟨_, _, fun reliable => absurd reliable unreliable, readEq⟩

/-- A read of no bytes that has a block to overrun delivers it. -/
theorem fsRead_overrun
    (inside : session.DataInside)
    (isOpen : session.openFiles index = some descriptor)
    (isChain : session.FileChain descriptor.file chain)
    (unaligned : descriptor.offset.toNat % blockSize ≠ 0)
    (long : descriptor.offset.toNat / blockSize + 1 < chain.length)
    {host : Host}
    (succeeds : host.IoSucceeds)
    (buf : Buffer) :
    fsRead host session.toState index.val (some buf) 0 =
      .ok (session.toState,
        some (session.loaded chain
          (blockSize * (descriptor.offset.toNat / blockSize + 1)) buf
          blockSize), -1) := by
  rcases fsRead_zero_cases inside isOpen isChain host buf with
    ⟨_, aligned⟩ | ⟨_, short⟩ | ⟨readEq, _, _⟩ | ⟨_, unreliable⟩
  · exact absurd aligned unaligned
  · omega
  · exact readEq
  · exact absurd succeeds unreliable

/-- A read of at least one byte stays inside its buffer. -/
theorem readInBuffer_of_positive
    (inside : session.DataInside)
    (isOpen : session.openFiles index = some descriptor)
    (isChain : session.FileChain descriptor.file chain)
    {count : Nat}
    (positive : 0 < count)
    (countFits : count ≤ intMax) :
    ReadInBuffer session index descriptor count := by
  have offsetFits := descriptor.offset.toNat_lt
  have calls := fsRead_positive inside isOpen isChain positive countFits
  constructor
  · intro host buf
    obtain ⟨after, bytes, result, le, _, readEq⟩ := calls host buf
    refine ⟨after, _, result, readEq, ?_⟩
    intro position behind
    exact session.loaded_apply_of_le chain _ buf (Nat.le_trans le behind)
  · intro host buf buf' bytesRead frontEq
    have moved := Session.readFront_moved inside isChain host buf offsetFits
      positive countFits
    have le := wholeBytes_le descriptor.offset.toNat countFits
    have lt := wholeBytes_lt descriptor.offset.toNat countFits
    rw [frontEq] at moved
    cases moved with
    | all _ =>
        rw [remainderBlockSize_eq countFits le]
        omega
  · intro host reliable
    refine ⟨min count (blockSize * chain.length - descriptor.offset.toNat),
      Nat.min_le_left _ _, ?_, ?_⟩
    · intro buf
      obtain ⟨after, bytes, result, _, exact_, readEq⟩ := calls host buf
      obtain ⟨rfl, rfl⟩ := exact_ reliable
      exact ⟨after, _, readEq⟩
    · apply storedIndices_eq
      intro buf
      obtain ⟨after, bytes, result, _, exact_, readEq⟩ := calls host buf
      obtain ⟨rfl, rfl⟩ := exact_ reliable
      exact ⟨after, _, readEq⟩

/-- A read of no bytes stays inside its buffer if no block follows. -/
theorem readInBuffer_zero
    (inside : session.DataInside)
    (isOpen : session.openFiles index = some descriptor)
    (isChain : session.FileChain descriptor.file chain)
    (condition : descriptor.offset.toNat % blockSize = 0 ∨
      chain.length ≤ descriptor.offset.toNat / blockSize + 1) :
    ReadInBuffer session index descriptor 0 := by
  have offsetFits := descriptor.offset.toNat_lt
  have calls := fsRead_zero inside isOpen isChain condition
  constructor
  · intro host buf
    obtain ⟨after, result, _, readEq⟩ := calls host buf
    exact ⟨after, buf, result, readEq, fun _ _ => rfl⟩
  · intro host buf buf' bytesRead frontEq
    have front := Session.readFront_zero inside isChain host buf offsetFits
    rw [frontEq] at front
    cases front with
    | aligned _ => decide
    | overrun unaligned long => omega
  · intro host reliable
    refine ⟨0, le_refl _, ?_, ?_⟩
    · intro buf
      obtain ⟨after, result, zero, readEq⟩ := calls host buf
      rw [zero reliable] at readEq
      exact ⟨after, buf, readEq⟩
    · apply @storedIndices_eq session chain host session.toState index.val 0 0 0
      intro buf
      obtain ⟨after, result, _, readEq⟩ := calls host buf
      refine ⟨after, result, ?_⟩
      rw [readEq]
      unfold Session.loaded
      rw [memcpy_zero]

/-- A read of no bytes that has a block to overrun exceeds its buffer. -/
theorem not_readInBuffer_zero
    (inside : session.DataInside)
    (isOpen : session.openFiles index = some descriptor)
    (isChain : session.FileChain descriptor.file chain)
    (unaligned : descriptor.offset.toNat % blockSize ≠ 0)
    (long : descriptor.offset.toNat / blockSize + 1 < chain.length) :
    ¬ReadInBuffer session index descriptor 0 := by
  intro inBuffer
  obtain ⟨bytes, _, returns, _⟩ := inBuffer.stored .reliable
    Host.reliable_reliable.toIoSucceeds
  obtain ⟨after, buf', readEq⟩ := returns fun _ => 0
  have failed := fsRead_overrun inside isOpen isChain unaligned long
    Host.reliable_reliable.toIoSucceeds fun _ => 0
  rw [failed] at readEq
  have same := Except.ok.inj readEq
  simp only [Prod.mk.injEq] at same
  omega

/-- A read does not exceed its buffer exactly if it is one of at least one byte,
or starts at a block boundary, or no block of the file follows the one it starts
in. -/
theorem readInBuffer_iff
    (wellFormed : session.WellFormed)
    (isOpen : session.openFiles index = some descriptor)
    (isChain : session.FileChain descriptor.file chain)
    {count : Nat}
    (countFits : count ≤ intMax) :
    ReadInBuffer session index descriptor count ↔
      0 < count ∨ descriptor.offset.toNat % 4096 = 0 ∨
        chain.length ≤ descriptor.offset.toNat / 4096 + 1 := by
  have inside := wellFormed.layout.toDataInside
  rcases Nat.eq_zero_or_pos count with rfl | positive
  · constructor
    · intro inBuffer
      by_contra overruns
      rw [not_or, not_or] at overruns
      obtain ⟨_, unaligned, long⟩ := overruns
      exact not_readInBuffer_zero inside isOpen isChain unaligned
        (Nat.lt_of_not_le long) inBuffer
    · intro condition
      exact readInBuffer_zero inside isOpen isChain
        (condition.resolve_left (lt_irrefl 0))
  · exact iff_of_true
      (readInBuffer_of_positive inside isOpen isChain positive countFits)
      (.inl positive)

end

/-- A read of five bytes from the file of five bytes. -/
theorem readInBuffer_iff_sample :
    ReadInBuffer Session.sample 0 ⟨0, 0⟩ 5 ↔
      0 < 5 ∨ 0 % 4096 = 0 ∨ 1 ≤ 0 / 4096 + 1 :=
  @readInBuffer_iff Session.sample 0 ⟨0, 0⟩ [1] Session.sample_wellFormed rfl
    Session.sample_fileChain 5 (by decide)

/-- A file of two blocks that descriptor 0 has open behind its first byte. -/
def Session.twoBlocks : Session :=
  (Session.oneFile 4 #v[fatEoc, 2, fatEoc, 0] 1 8192).setOpenFile 0
    (some { file := 0, offset := 1 })

theorem Session.twoBlocks_fileChain : Session.twoBlocks.FileChain 0 [1, 2] :=
  show FatChain #v[fatEoc, 2, fatEoc, 0] 1 [1, 2] by decide

theorem Session.twoBlocks_wellFormed : Session.twoBlocks.WellFormed := by
  have isOpen : (Session.oneFile 4 #v[fatEoc, 2, fatEoc, 0] 1 8192).openFiles 0 =
    some { file := 0, offset := 0 } := rfl
  exact (Session.oneFile_wellFormed (by decide) Session.twoBlocks_fileChain
    8192).setOffset isOpen 1

/-- A read of no bytes there stores a block and returns -1. -/
theorem not_readInBuffer_twoBlocks :
    Session.twoBlocks.WellFormed ∧
      Session.twoBlocks.openFiles 0 = some { file := 0, offset := 1 } ∧
      ¬ReadInBuffer Session.twoBlocks 0 { file := 0, offset := 1 } 0 := by
  have isOpen : Session.twoBlocks.openFiles 0 =
    some { file := 0, offset := 1 } := rfl
  exact ⟨Session.twoBlocks_wellFormed, isOpen,
    not_readInBuffer_zero Session.twoBlocks_wellFormed.layout.toDataInside
      isOpen Session.twoBlocks_fileChain (by decide) (by decide)⟩

end MsFat
