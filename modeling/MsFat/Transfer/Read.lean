import MsFat.Directory.Checks
import MsFat.Transfer.Places

/-!
# The effect of a read

A read copies the bytes at the places of consecutive positions of the file to
the buffer: all of them, or those up to the end of the chain, or those in front
of the first failure of the host.  Whatever the state, it changes nothing but
the offset of the descriptor.
-/

namespace MsFat

open Memory

namespace Session

/-- The byte at a position of a file with the given chain. -/
def contents
    (session : Session)
    (chain : List UInt16)
    (position : Nat) : UInt8 :=
  session.disk.bytes (session.place chain position)

/-- The buffer when the first `bytes` bytes of a read from position `start` on
have been delivered. -/
def loaded
    (session : Session)
    (chain : List UInt16)
    (start : Nat)
    (buf : Buffer)
    (bytes : Nat) : Buffer :=
  memcpy buf 0 (session.contents chain) start bytes

/-- The parts of `readBlocks` in front of the last block. -/
def readFront
    (host : Host)
    (session : Session)
    (file : Slot)
    (offset count : Nat)
    (buf : Buffer) : Outcome (Buffer × Progress) :=
  let first :=
    if offset % blockSize ≠ 0 then
      session.readPartialBlock host file (offset / blockSize : Nat)
        (offset % blockSize) (firstAmount offset count) buf 0
    else .ok (buf, .going 0)
  andThen first fun buf bytesRead =>
    readFullBlocks host session file
      (numFullBlocks offset count bytesRead).toNat
      (fullBlockStartIndex offset) buf bytesRead

theorem readBlocks_eq
    (host : Host)
    (session : Session)
    (file : Slot)
    (offset count : Nat)
    (buf : Buffer) :
    session.readBlocks host file offset count buf =
      andThen (session.readFront host file offset count buf)
        fun buf bytesRead =>
          session.readLastBlock host file offset count buf bytesRead := rfl

variable {session : Session} {file : Slot} {chain : List UInt16}

section

variable (inside : session.DataInside)
  (isChain : session.FileChain file chain)
  (host : Host)
  (buf : Buffer)

include inside isChain

/-- More bytes of the same block are delivered by one copy. -/
theorem loaded_add
    {start bytes : Nat}
    (amount : Nat)
    (below : (start + bytes) / blockSize < chain.length)
    (sameBlock : (start + bytes) % blockSize + amount ≤ blockSize) :
    memcpy (session.loaded chain start buf bytes) bytes
        (fun index => session.disk.bytes
          (session.dataBlock chain[(start + bytes) / blockSize] * blockSize +
            index)) ((start + bytes) % blockSize) amount =
      session.loaded chain start buf (bytes + amount) := by
  obtain ⟨placeEq, _⟩ := place_eq_dataBlock inside isChain below
  apply memcpy_append _ _ _
  intro offset early
  have adjacent := session.place_add chain (start + bytes) offset (by omega)
  rw [contents, adjacent, placeEq, Nat.add_assoc]

/-- A partial block, from the byte where the read stands. -/
theorem readPartialBlock_moved
    (start bytes amount : Nat)
    (reached : bytes = 0 ∨ start + bytes ≤ blockSize * chain.length)
    (fits : (start + bytes) % blockSize + amount ≤ blockSize)
    (positive : 0 < amount) :
    Moved (session.loaded chain start buf) host start
      (blockSize * chain.length) (bytes + amount)
      (session.readPartialBlock host file ((start + bytes) / blockSize : Nat)
        ((start + bytes) % blockSize) amount
        (session.loaded chain start buf bytes) bytes) := by
  unfold readPartialBlock
  rcases findDataBlock_cases isChain ((start + bytes) / blockSize) with
    ⟨behind, atEnd⟩ | ⟨below, found, notEnd⟩
  · rw [atEnd, outcome_ok_bind, if_pos rfl]
    have behindEnd : blockSize * chain.length ≤ start + bytes := by
      rw [Nat.mul_comm]
      exact (Nat.le_div_iff_mul_le (by simp)).mp behind
    exact .of_end reached behindEnd (by omega)
  · obtain ⟨_, blockLt⟩ := place_eq_dataBlock inside isChain below
    rw [found, outcome_ok_bind, if_neg notEnd]
    rcases blockRead_cases host session.disk blockLt with
      ⟨unreliable, noRead⟩ | readEq
    · rw [noRead]
      exact .hostFailed bytes (by omega) reached unreliable
    · rw [readEq]
      simp only []
      rw [loaded_add inside isChain buf amount below fits]
      refine .all (.inr ?_)
      have inBlock : (start + bytes) / blockSize * blockSize + blockSize ≤
          chain.length * blockSize := by
        rw [← Nat.succ_mul]
        exact Nat.mul_le_mul_right _ below
      rw [Nat.mul_comm blockSize]
      simp only [blockSize] at *
      omega

/-- Whole blocks, from the block boundary where the read stands. -/
theorem readFullBlocks_moved
    (blocks : Nat)
    {start blockNum bytes : Nat}
    (reached : bytes = 0 ∨ start + bytes ≤ blockSize * chain.length)
    (boundary : 0 < blocks → start + bytes = blockSize * blockNum) :
    Moved (session.loaded chain start buf) host start
      (blockSize * chain.length) (bytes + blockSize * blocks)
      (readFullBlocks host session file blocks blockNum
        (session.loaded chain start buf bytes) bytes) := by
  induction blocks generalizing blockNum bytes with
  | zero => exact .all reached
  | succ blocks inductionHypothesis =>
      have atBoundary := boundary (by omega)
      have quotient : (start + bytes) / blockSize = blockNum := by
        rw [atBoundary]
        exact Nat.mul_div_cancel_left _ (by simp)
      have remainder : (start + bytes) % blockSize = 0 := by
        rw [atBoundary]
        exact Nat.mul_mod_right _ _
      rw [readFullBlocks]
      rcases findDataBlock_cases isChain blockNum with
        ⟨behind, atEnd⟩ | ⟨below, found, notEnd⟩
      · rw [atEnd, outcome_ok_bind, if_pos rfl]
        refine .of_end reached ?_ ?_
        · rw [atBoundary]
          exact Nat.mul_le_mul_left _ behind
        · simp only [blockSize]
          omega
      · subst quotient
        obtain ⟨_, blockLt⟩ := place_eq_dataBlock inside isChain below
        rw [found, outcome_ok_bind, if_neg notEnd]
        rcases blockRead_cases host session.disk blockLt with
          ⟨unreliable, noRead⟩ | readEq
        · rw [noRead]
          exact .hostFailed bytes (by omega) reached unreliable
        · rw [readEq]
          simp only []
          have whole := loaded_add inside isChain buf blockSize below
             (by rw [remainder, Nat.zero_add])
          rw [remainder] at whole
          rw [whole]
          have next := @inductionHypothesis
            ((start + bytes) / blockSize + 1) (bytes + blockSize)
            (.inr (by
              rw [← Nat.add_assoc, atBoundary, ← Nat.mul_succ]
              exact Nat.mul_le_mul_left _ below))
            (fun _ => by
              rw [← Nat.add_assoc, Nat.mul_succ, ← atBoundary])
          rw [Nat.add_assoc, Nat.add_comm blockSize, ← Nat.mul_succ] at next
          exact next

/-- The partial last block. -/
theorem readLastBlock_moved
    {start count : Nat}
    (offsetFits : start < 2 ^ 16)
    (countFits : count ≤ intMax)
    (reached : wholeBytes start count = 0 ∨
      start + wholeBytes start count ≤ blockSize * chain.length) :
    Moved (session.loaded chain start buf) host start
      (blockSize * chain.length) count
      (session.readLastBlock host file start count
        (session.loaded chain start buf (wholeBytes start count))
        (wholeBytes start count)) := by
  have le := wholeBytes_le start countFits
  have lt := wholeBytes_lt start countFits
  have inRange : ¬(((count - wholeBytes start count : Nat) : Int) < 0 ∨
      ((count - wholeBytes start count : Nat) : Int) ≥ blockSize) := by
    omega
  unfold readLastBlock
  rw [remainderBlockSize_eq countFits le]
  simp only []
  rw [if_neg inRange]
  by_cases done : wholeBytes start count = count
  · rw [if_pos (by omega)]
    rw [done] at reached ⊢
    exact .all reached
  · obtain ⟨aligned, lastBlock⟩ :=
      wholeBytes_boundary start countFits offsetFits (by omega)
    rw [if_neg (by omega), lastBlock, Int.toNat_natCast]
    have part := readPartialBlock_moved inside isChain host buf start
      (wholeBytes start count) (count - wholeBytes start count) reached
      (by omega) (by omega)
    rw [aligned, Nat.add_sub_cancel' le] at part
    exact part

/-- The parts of a read in front of its last block. -/
theorem readFront_moved
    {start count : Nat}
    (offsetFits : start < 2 ^ 16)
    (positive : 0 < count)
    (countFits : count ≤ intMax) :
    Moved (session.loaded chain start buf) host start
      (blockSize * chain.length) (wholeBytes start count)
      (session.readFront host file start count buf) := by
  have untouched : session.loaded chain start buf 0 = buf := memcpy_zero _ _ _ _
  have firstPart : Moved (session.loaded chain start buf) host start
      (blockSize * chain.length) (firstBytes start count)
      (if start % blockSize ≠ 0 then
        session.readPartialBlock host file (start / blockSize : Nat)
          (start % blockSize) (firstAmount start count) buf 0
      else .ok (buf, .going 0)) := by
    by_cases unaligned : start % blockSize ≠ 0
    · rw [if_pos unaligned]
      have amount := firstBytes_eq start countFits
      rw [if_pos unaligned] at amount
      have part := readPartialBlock_moved inside isChain host buf start 0
        (firstBytes start count) (.inl rfl) (by simp only [blockSize] at *; omega)
        (by simp only [blockSize] at *; omega)
      rw [Nat.zero_add, Nat.add_zero, untouched] at part
      unfold firstBytes at part ⊢
      rw [if_pos unaligned] at part ⊢
      exact part
    · rw [if_neg unaligned]
      unfold firstBytes
      rw [if_neg unaligned]
      have nothing : Moved (session.loaded chain start buf) host start
          (blockSize * chain.length) 0
          (.ok (session.loaded chain start buf 0, .going 0)) :=
        .all (.inl rfl)
      rw [untouched] at nothing
      exact nothing
  unfold readFront
  refine Moved.andThen _ firstPart (Nat.le_add_right _ _) fun reached => ?_
  rw [numFullBlocks_eq start countFits offsetFits positive, Int.toNat_natCast]
  apply readFullBlocks_moved inside isChain host buf _ reached
  intro some
  apply firstBytes_boundary start countFits
  simp only [blockSize] at *
  omega

/-- The three parts of a read. -/
theorem readBlocks_moved
    {start count : Nat}
    (offsetFits : start < 2 ^ 16)
    (positive : 0 < count)
    (countFits : count ≤ intMax) :
    Moved (session.loaded chain start buf) host start
      (blockSize * chain.length) count
      (session.readBlocks host file start count buf) := by
  rw [readBlocks_eq]
  exact Moved.andThen (wholeBytes start count)
    (readFront_moved inside isChain host buf offsetFits positive countFits)
    (wholeBytes_le start countFits)
    (readLastBlock_moved inside isChain host buf offsetFits countFits)

end

/-- Whatever the state, a read that returns has changed nothing but the offset
of its descriptor, and nothing at all if it returns -1. -/
theorem read_cases
    {host : Host}
    {index : Descriptor}
    {descriptor : FileDescriptor}
    {buf buf' : Buffer}
    {count : Nat}
    {after : Session}
    {result : Int}
    (returns : session.read host index descriptor buf count =
      .ok (after, buf', result)) :
    after = session ∨
      ∃ bytesRead : Nat,
        after = session.finishRead index descriptor bytesRead ∧
          result = bytesRead := by
  unfold read at returns
  obtain ⟨⟨_, progress⟩, _, rest⟩ := outcome_bind_eq_ok returns
  cases progress with
  | stopped value =>
      left
      cases rest
      rfl
  | going bytesRead =>
      right
      refine ⟨bytesRead, ?_⟩
      cases rest
      exact ⟨rfl, rfl⟩

end Session

/-- `fs_read` through an open descriptor. -/
theorem fsRead_open
    {session : Session}
    {index : Descriptor}
    {descriptor : FileDescriptor}
    (isOpen : session.openFiles index = some descriptor)
    (host : Host)
    (buf : Buffer)
    (count : Nat) :
    fsRead host session.toState index.val (some buf) count =
      (do
        let (after, buf, result) ←
          session.read host index descriptor buf count
        .ok (after.toState, some buf, result)) := by
  unfold fsRead
  rw [onDescriptor_open isOpen]
  simp only [Session.toState_session, outcome_ok_bind]

/-- What `fs_read` of at least one byte through an open descriptor does. -/
theorem fsRead_moved
    {session : Session}
    {index : Descriptor}
    {descriptor : FileDescriptor}
    {chain : List UInt16}
    (inside : session.DataInside)
    (isOpen : session.openFiles index = some descriptor)
    (isChain : session.FileChain descriptor.file chain)
    (host : Host)
    (buf : Buffer)
    {count : Nat}
    (positive : 0 < count)
    (countFits : count ≤ intMax) :
    (fsRead host session.toState index.val (some buf) count =
        .ok ((session.finishRead index descriptor count).toState,
          some (session.loaded chain descriptor.offset.toNat buf count),
          (count : Int)) ∧
      descriptor.offset.toNat + count ≤ blockSize * chain.length) ∨
    (fsRead host session.toState index.val (some buf) count =
        .ok (session.toState,
          some (session.loaded chain descriptor.offset.toNat buf
            (blockSize * chain.length - descriptor.offset.toNat)),
          ((blockSize * chain.length - descriptor.offset.toNat : Nat) : Int)) ∧
      blockSize * chain.length - descriptor.offset.toNat < count) ∨
    (∃ bytes ≤ count, fsRead host session.toState index.val (some buf) count =
        .ok (session.toState,
          some (session.loaded chain descriptor.offset.toNat buf bytes), -1) ∧
      ¬host.IoSucceeds) := by
  have moved := Session.readBlocks_moved inside isChain host buf
    descriptor.offset.toNat_lt positive countFits
  rw [fsRead_open isOpen]
  unfold Session.read
  generalize session.readBlocks host descriptor.file descriptor.offset.toNat
    count buf = outcome at moved ⊢
  cases moved with
  | all reached => exact .inl ⟨rfl, reached.resolve_left (by omega)⟩
  | exhausted short => exact .inr (.inl ⟨rfl, short⟩)
  | hostFailed bytes le _ unreliable =>
      exact .inr (.inr ⟨bytes, le, rfl, unreliable⟩)

/-- `fs_read` returns the bytes of a file that lie inside its chain. -/
theorem fsRead_complete
    {session : Session}
    {index : Descriptor}
    {descriptor : FileDescriptor}
    {chain : List UInt16}
    (inside : session.DataInside)
    (isOpen : session.openFiles index = some descriptor)
    (isChain : session.FileChain descriptor.file chain)
    {host : Host}
    (succeeds : host.IoSucceeds)
    (buf : Buffer)
    {count : Nat}
    (positive : 0 < count)
    (countFits : count ≤ intMax)
    (within : descriptor.offset.toNat + count ≤ blockSize * chain.length) :
    fsRead host session.toState index.val (some buf) count =
      .ok ((session.finishRead index descriptor count).toState,
        some (session.loaded chain descriptor.offset.toNat buf count),
        (count : Int)) := by
  rcases fsRead_moved inside isOpen isChain host buf positive countFits with
    ⟨readEq, _⟩ | ⟨_, short⟩ | ⟨_, _, _, unreliable⟩
  · exact readEq
  · omega
  · exact absurd succeeds unreliable

end MsFat
