import MsFat.Transfer.Places

/-!
# The effect of a write

Behind the allocation, a write stores the bytes of the buffer one after the
other at the places of consecutive positions of the file: all of them, or those
up to the end of the chain, or those in front of the first failure of the host.
-/

namespace MsFat

open Memory

namespace Session

/-- The session when the first `bytes` bytes of the buffer are stored in a file
with the given chain, from position `start` on. -/
def stored
    (session : Session)
    (chain : List UInt16)
    (start : Nat)
    (buf : Buffer)
    (bytes : Nat) : Session :=
  { session with
    disk := { session.disk with
      bytes := scatter (session.place chain) start buf bytes
        session.disk.bytes } }

@[simp] theorem stored_findDataBlock
    (session : Session)
    (chain : List UInt16)
    (start : Nat)
    (buf : Buffer)
    (bytes : Nat)
    (file : Slot)
    (blockNum : Int) :
    (session.stored chain start buf bytes).findDataBlock file blockNum =
      session.findDataBlock file blockNum := rfl

@[simp] theorem stored_dataBlock
    (session : Session)
    (chain : List UInt16)
    (start : Nat)
    (buf : Buffer)
    (bytes : Nat)
    (index : UInt16) :
    (session.stored chain start buf bytes).dataBlock index =
      session.dataBlock index := rfl

/-- More bytes of the same block are stored by one copy. -/
theorem stored_add
    (session : Session)
    (chain : List UInt16)
    (buf : Buffer)
    {start bytes amount : Nat}
    (sameBlock : (start + bytes) % blockSize + amount ≤ blockSize) :
    session.stored chain start buf (bytes + amount) =
      { session.stored chain start buf bytes with
        disk := { (session.stored chain start buf bytes).disk with
          bytes := memcpy (session.stored chain start buf bytes).disk.bytes
            (session.place chain (start + bytes)) buf bytes amount } } := by
  unfold stored
  rw [scatter_add, scatter_eq_memcpy]
  intro offset inside
  exact session.place_add chain _ _ (by omega)

variable {session : Session} {file : Slot} {chain : List UInt16}

section

variable (inside : session.DataInside)
  (isChain : session.FileChain file chain)
  (host : Host)
  (buf : Buffer)

include inside isChain

/-- A partial block, from the byte where the write stands. -/
theorem writePartialBlock_moved
    (start bytes amount : Nat)
    (reached : bytes = 0 ∨ start + bytes ≤ blockSize * chain.length)
    (fits : (start + bytes) % blockSize + amount ≤ blockSize)
    (positive : 0 < amount) :
    Moved (session.stored chain start buf) host start
      (blockSize * chain.length) (bytes + amount)
      ((session.stored chain start buf bytes).writePartialBlock host file buf
        ((start + bytes) / blockSize : Nat) ((start + bytes) % blockSize)
        amount bytes) := by
  unfold writePartialBlock
  rw [stored_findDataBlock]
  rcases findDataBlock_cases isChain ((start + bytes) / blockSize) with
    ⟨behind, atEnd⟩ | ⟨below, found, notEnd⟩
  · rw [atEnd, outcome_ok_bind, if_pos rfl]
    have behindEnd : blockSize * chain.length ≤ start + bytes := by
      rw [Nat.mul_comm]
      exact (Nat.le_div_iff_mul_le (by simp)).mp behind
    exact .of_end reached behindEnd (by omega)
  · obtain ⟨placeEq, blockLt⟩ := place_eq_dataBlock inside isChain below
    have failed : ¬host.IoSucceeds →
        Moved (session.stored chain start buf) host start
          (blockSize * chain.length) (bytes + amount)
          (.ok (session.stored chain start buf bytes, .stopped (-1))) :=
      fun unreliable => .hostFailed bytes (by omega) reached unreliable
    rw [found, outcome_ok_bind, if_neg notEnd]
    simp only [stored_dataBlock]
    rcases blockRead_cases host
        (session.stored chain start buf bytes).disk blockLt with
      ⟨unreliable, noRead⟩ | readEq
    · rw [noRead]
      exact failed unreliable
    · rw [readEq]
      simp only []
      rcases blockWrite_cases host
          (session.stored chain start buf bytes).disk blockLt
          (memcpy (fun index => (session.stored chain start buf bytes).disk.bytes
            (session.dataBlock chain[(start + bytes) / blockSize] * blockSize +
              index)) ((start + bytes) % blockSize) buf bytes amount) with
        ⟨unreliable, noWrite⟩ | writeEq
      · rw [noWrite]
        exact failed unreliable
      · rw [writeEq]
        simp only []
        rw [memcpy_window _ _ fits, ← placeEq,
          ← stored_add session chain buf fits]
        refine .all (.inr ?_)
        have inBlock : (start + bytes) / blockSize * blockSize + blockSize ≤
            chain.length * blockSize := by
          rw [← Nat.succ_mul]
          exact Nat.mul_le_mul_right _ below
        rw [Nat.mul_comm blockSize]
        simp only [blockSize] at *
        omega

/-- Whole blocks, from the block boundary where the write stands. -/
theorem writeFullBlocks_moved
    (blocks : Nat)
    {start blockNum bytes : Nat}
    (reached : bytes = 0 ∨ start + bytes ≤ blockSize * chain.length)
    (boundary : 0 < blocks → start + bytes = blockSize * blockNum) :
    Moved (session.stored chain start buf) host start
      (blockSize * chain.length) (bytes + blockSize * blocks)
      (writeFullBlocks host file buf blocks blockNum
        (session.stored chain start buf bytes) bytes) := by
  induction blocks generalizing blockNum bytes with
  | zero => exact .all reached
  | succ blocks inductionHypothesis =>
      have atBoundary := boundary (by omega)
      have quotient : (start + bytes) / blockSize = blockNum := by
        rw [atBoundary]
        exact Nat.mul_div_cancel_left _ (by simp)
      have remainder : (start + bytes) % blockSize = 0 := by
        rw [atBoundary]
        exact Nat.mul_mod_right _ _
      rw [writeFullBlocks, stored_findDataBlock]
      rcases findDataBlock_cases isChain blockNum with
        ⟨behind, atEnd⟩ | ⟨below, found, notEnd⟩
      · rw [atEnd, outcome_ok_bind, if_pos rfl]
        refine .of_end reached ?_ ?_
        · rw [atBoundary]
          exact Nat.mul_le_mul_left _ behind
        · simp only [blockSize]
          omega
      · subst quotient
        obtain ⟨placeEq, blockLt⟩ := place_eq_dataBlock inside isChain below
        rw [remainder, Nat.add_zero] at placeEq
        rw [found, outcome_ok_bind, if_neg notEnd]
        simp only [stored_dataBlock]
        rcases blockWrite_cases host
            (session.stored chain start buf bytes).disk blockLt
            (fun position => buf (bytes + position)) with
          ⟨unreliable, noWrite⟩ | writeEq
        · rw [noWrite]
          exact .hostFailed bytes (by omega) reached unreliable
        · rw [writeEq]
          simp only []
          rw [memcpy_shift, ← placeEq,
            ← stored_add session chain buf (by rw [remainder, Nat.zero_add])]
          have next := @inductionHypothesis
            ((start + bytes) / blockSize + 1) (bytes + blockSize)
            (.inr (by
              rw [← Nat.add_assoc, atBoundary, ← Nat.mul_succ]
              exact Nat.mul_le_mul_left _ below))
            (fun _ => by
              rw [← Nat.add_assoc, Nat.mul_succ, ← atBoundary])
          rw [Nat.add_assoc, Nat.add_comm blockSize, ← Nat.mul_succ] at next
          exact next

/-- The partial last block. -/
theorem writeLastBlock_moved
    {start count : Nat}
    (offsetFits : start < 2 ^ 16)
    (countFits : count ≤ intMax)
    (reached : wholeBytes start count = 0 ∨
      start + wholeBytes start count ≤ blockSize * chain.length) :
    Moved (session.stored chain start buf) host start
      (blockSize * chain.length) count
      ((session.stored chain start buf
          (wholeBytes start count)).writeLastBlock host file buf start count
        (wholeBytes start count)) := by
  have le := wholeBytes_le start countFits
  have lt := wholeBytes_lt start countFits
  unfold writeLastBlock
  rw [remainderBlockSize_eq countFits le]
  by_cases done : wholeBytes start count = count
  · rw [if_pos (by omega)]
    rw [done] at reached ⊢
    exact .all reached
  · obtain ⟨aligned, lastBlock⟩ :=
      wholeBytes_boundary start countFits offsetFits (by omega)
    have notTooLarge : ¬(((count - wholeBytes start count : Nat) : Int) < 0 ∨
        ((count - wholeBytes start count : Nat) : Int) > blockSize) := by
      omega
    simp only []
    rw [if_neg (by omega), if_neg notTooLarge, lastBlock, Int.toNat_natCast]
    have part := writePartialBlock_moved inside isChain host buf start
      (wholeBytes start count) (count - wholeBytes start count) reached
      (by omega) (by omega)
    rw [aligned, Nat.add_sub_cancel' le] at part
    exact part

/-- The three parts of a write. -/
theorem writeBlocks_moved
    {start count : Nat}
    (offsetFits : start < 2 ^ 16)
    (positive : 0 < count)
    (countFits : count ≤ intMax) :
    Moved (session.stored chain start buf) host start
      (blockSize * chain.length) count
      (session.writeBlocks host file buf start count) := by
  have firstLe := firstBytes_le start countFits
  have firstPart : Moved (session.stored chain start buf) host start
      (blockSize * chain.length) (firstBytes start count)
      (if start % blockSize ≠ 0 then
        session.writePartialBlock host file buf (start / blockSize : Nat)
          (start % blockSize) (firstAmount start count) 0
      else .ok (session, .going 0)) := by
    by_cases unaligned : start % blockSize ≠ 0
    · rw [if_pos unaligned]
      have amount := firstBytes_eq start countFits
      rw [if_pos unaligned] at amount
      have part := writePartialBlock_moved inside isChain host buf start 0
        (firstBytes start count) (.inl rfl) (by simp only [blockSize] at *; omega)
        (by simp only [blockSize] at *; omega)
      rw [Nat.zero_add] at part
      unfold firstBytes at part ⊢
      rw [if_pos unaligned] at part ⊢
      exact part
    · rw [if_neg unaligned]
      unfold firstBytes
      rw [if_neg unaligned]
      exact .all (.inl rfl)
  unfold writeBlocks
  refine Moved.andThen (wholeBytes start count) ?_
    (wholeBytes_le start countFits)
    (writeLastBlock_moved inside isChain host buf offsetFits countFits)
  refine Moved.andThen _ firstPart (Nat.le_add_right _ _) fun reached => ?_
  rw [numFullBlocks_eq start countFits offsetFits positive, Int.toNat_natCast]
  apply writeFullBlocks_moved inside isChain host buf _ reached
  intro some
  apply firstBytes_boundary start countFits
  simp only [blockSize] at *
  omega

end
end Session
end MsFat
