import MsFat.Transfer.Read

/-!
# A read of no bytes

The formula for the number of whole blocks takes the first block off only if
bytes have been read from it.  Behind an empty partial first block it therefore
counts that block once more, and the loop over whole blocks reads the block
behind it.
-/

namespace MsFat

/-- `EmptyRead session chain host start buf outcome`: in front of its last block
a read of no bytes at position `start` of a file with the given chain has this
outcome. -/
inductive EmptyRead
    (session : Session)
    (chain : List UInt16)
    (host : Host)
    (start : Nat)
    (buf : Buffer) : Outcome (Buffer × Progress) → Prop
  | aligned
      (aligned : start % blockSize = 0) :
      EmptyRead session chain host start buf (.ok (buf, .going 0))
  | atEnd
      (short : chain.length ≤ start / blockSize + 1) :
      EmptyRead session chain host start buf (.ok (buf, .stopped 0))
  | overrun
      (unaligned : start % blockSize ≠ 0)
      (long : start / blockSize + 1 < chain.length) :
      EmptyRead session chain host start buf
        (.ok (session.loaded chain (blockSize * (start / blockSize + 1)) buf
          blockSize, .going blockSize))
  | hostFailed
      (unreliable : ¬host.IoSucceeds) :
      EmptyRead session chain host start buf (.ok (buf, .stopped (-1)))

/-- The whole blocks of a read of no bytes. -/
theorem numFullBlocks_zero
    {start : Nat}
    (startFits : start < 2 ^ 16) :
    numFullBlocks start 0 0 = if start % blockSize ≠ 0 then 1 else 0 := by
  unfold numFullBlocks
  rw [findNumTargetBlocks_eq start (Nat.zero_le _) startFits]
  simp only [blockSize]
  split <;> simp <;> omega

namespace Session

variable {session : Session} {file : Slot} {chain : List UInt16}

/-- The empty partial first block. -/
theorem readPartialBlock_zero
    (inside : session.DataInside)
    (isChain : session.FileChain file chain)
    (host : Host)
    (buf : Buffer)
    (blockNum start : Nat) :
    (chain.length ≤ blockNum ∧
        session.readPartialBlock host file blockNum start 0 buf 0 =
          .ok (buf, .stopped 0)) ∨
      (¬host.IoSucceeds ∧
        session.readPartialBlock host file blockNum start 0 buf 0 =
          .ok (buf, .stopped (-1))) ∨
      (blockNum < chain.length ∧
        session.readPartialBlock host file blockNum start 0 buf 0 =
          .ok (buf, .going 0)) := by
  unfold readPartialBlock
  rcases findDataBlock_cases isChain blockNum with
    ⟨behind, atEnd⟩ | ⟨below, found, notEnd⟩
  · left
    rw [atEnd, outcome_ok_bind, if_pos rfl]
    exact ⟨behind, rfl⟩
  · right
    have blockLt := dataBlock_lt_bcount inside isChain below
    rw [found, outcome_ok_bind, if_neg notEnd]
    rcases blockRead_cases host session.disk blockLt with
      ⟨unreliable, noRead⟩ | readEq
    · left
      rw [noRead]
      exact ⟨unreliable, rfl⟩
    · right
      rw [readEq]
      simp only [Memory.memcpy_zero]
      exact ⟨below, trivial⟩

/-- One whole block in front of which no byte has been read. -/
theorem readFullBlocks_single
    (inside : session.DataInside)
    (isChain : session.FileChain file chain)
    (host : Host)
    (buf : Buffer)
    (blockNum : Nat) :
    (chain.length ≤ blockNum ∧
        readFullBlocks host session file 1 blockNum buf 0 =
          .ok (buf, .stopped 0)) ∨
      (¬host.IoSucceeds ∧
        readFullBlocks host session file 1 blockNum buf 0 =
          .ok (buf, .stopped (-1))) ∨
      (blockNum < chain.length ∧
        readFullBlocks host session file 1 blockNum buf 0 =
          .ok (session.loaded chain (blockSize * blockNum) buf blockSize,
            .going blockSize)) := by
  have quotient : (blockSize * blockNum + 0) / blockSize = blockNum :=
    Nat.mul_div_cancel_left _ (by simp)
  have remainder : (blockSize * blockNum + 0) % blockSize = 0 :=
    Nat.mul_mod_right _ _
  rw [readFullBlocks]
  rcases findDataBlock_cases isChain blockNum with
    ⟨behind, atEnd⟩ | ⟨below, found, notEnd⟩
  · left
    rw [atEnd, outcome_ok_bind, if_pos rfl]
    exact ⟨behind, rfl⟩
  · right
    have blockLt := dataBlock_lt_bcount inside isChain below
    rw [found, outcome_ok_bind, if_neg notEnd]
    rcases blockRead_cases host session.disk blockLt with
      ⟨unreliable, noRead⟩ | readEq
    · left
      rw [noRead]
      exact ⟨unreliable, rfl⟩
    · right
      rw [readEq]
      have whole := @loaded_add session file chain inside isChain buf
        (blockSize * blockNum) 0 blockSize (by rw [quotient]; exact below)
        (by rw [remainder, Nat.zero_add])
      simp only [quotient, remainder, Nat.zero_add] at whole
      have untouched : session.loaded chain (blockSize * blockNum) buf 0 =
        buf := Memory.memcpy_zero _ _ _ _
      rw [untouched] at whole
      simp only [whole, readFullBlocks]
      exact ⟨below, rfl⟩

/-- The parts of a read of no bytes in front of its last block. -/
theorem readFront_zero
    (inside : session.DataInside)
    (isChain : session.FileChain file chain)
    (host : Host)
    (buf : Buffer)
    {start : Nat}
    (startFits : start < 2 ^ 16) :
    EmptyRead session chain host start buf
      (session.readFront host file start 0 buf) := by
  have whole := numFullBlocks_zero startFits
  unfold readFront
  by_cases unaligned : start % blockSize ≠ 0
  · have nothing : firstAmount start 0 = 0 := by
      rw [firstAmount_eq start (Nat.zero_le _), Nat.zero_min]
    have startIndex : fullBlockStartIndex start = start / blockSize + 1 :=
      if_pos unaligned
    rw [if_pos unaligned] at whole ⊢
    rw [nothing]
    rcases readPartialBlock_zero inside isChain host buf (start / blockSize)
        (start % blockSize) with
      ⟨behind, partEq⟩ | ⟨unreliable, partEq⟩ | ⟨_, partEq⟩
    · rw [partEq]
      exact .atEnd (Nat.le_succ_of_le behind)
    · rw [partEq]
      exact .hostFailed unreliable
    · rw [partEq]
      change EmptyRead session chain host start buf
        (readFullBlocks host session file (numFullBlocks start 0 0).toNat
          (fullBlockStartIndex start) buf 0)
      rw [whole, startIndex]
      change EmptyRead session chain host start buf
        (readFullBlocks host session file 1 (start / blockSize + 1) buf 0)
      rcases readFullBlocks_single inside isChain host buf
          (start / blockSize + 1) with
        ⟨behind, blockEq⟩ | ⟨unreliable, blockEq⟩ | ⟨below, blockEq⟩
      · rw [blockEq]
        exact .atEnd behind
      · rw [blockEq]
        exact .hostFailed unreliable
      · rw [blockEq]
        exact .overrun unaligned below
  · rw [if_neg unaligned] at whole ⊢
    change EmptyRead session chain host start buf
      (readFullBlocks host session file (numFullBlocks start 0 0).toNat
        (fullBlockStartIndex start) buf 0)
    rw [whole]
    exact .aligned (by omega)

/-- Behind a whole block too many, the remainder is negative. -/
theorem readLastBlock_overrun
    (session : Session)
    (host : Host)
    (file : Slot)
    (offset : Nat)
    (buf : Buffer) :
    session.readLastBlock host file offset 0 buf blockSize =
      .ok (buf, .stopped (-1)) := by
  have negative : remainderBlockSize 0 blockSize = -4096 := by decide
  unfold readLastBlock
  rw [negative]
  rfl

end Session

/-- What `fs_read` of no bytes through an open descriptor does. -/
theorem fsRead_zero_cases
    {session : Session}
    {index : Descriptor}
    {descriptor : FileDescriptor}
    {chain : List UInt16}
    (inside : session.DataInside)
    (isOpen : session.openFiles index = some descriptor)
    (isChain : session.FileChain descriptor.file chain)
    (host : Host)
    (buf : Buffer) :
    (fsRead host session.toState index.val (some buf) 0 =
        .ok ((session.finishRead index descriptor 0).toState, some buf, 0) ∧
      descriptor.offset.toNat % blockSize = 0) ∨
    (fsRead host session.toState index.val (some buf) 0 =
        .ok (session.toState, some buf, 0) ∧
      chain.length ≤ descriptor.offset.toNat / blockSize + 1) ∨
    (fsRead host session.toState index.val (some buf) 0 =
        .ok (session.toState,
          some (session.loaded chain
            (blockSize * (descriptor.offset.toNat / blockSize + 1)) buf
            blockSize), -1) ∧
      descriptor.offset.toNat % blockSize ≠ 0 ∧
      descriptor.offset.toNat / blockSize + 1 < chain.length) ∨
    (fsRead host session.toState index.val (some buf) 0 =
        .ok (session.toState, some buf, -1) ∧
      ¬host.IoSucceeds) := by
  have front := Session.readFront_zero inside isChain host buf
    descriptor.offset.toNat_lt
  rw [fsRead_open isOpen]
  unfold Session.read
  rw [Session.readBlocks_eq]
  generalize session.readFront host descriptor.file descriptor.offset.toNat 0
    buf = outcome at front ⊢
  cases front with
  | aligned aligned => exact .inl ⟨rfl, aligned⟩
  | atEnd short => exact .inr (.inl ⟨rfl, short⟩)
  | overrun unaligned long =>
      refine .inr (.inr (.inl ⟨?_, unaligned, long⟩))
      rw [andThen_going, Session.readLastBlock_overrun]
      rfl
  | hostFailed unreliable => exact .inr (.inr (.inr ⟨rfl, unreliable⟩))

end MsFat
