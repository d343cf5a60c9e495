import MsFat.Transfer.Defs

/-!
# The cut of a transfer

`fs_write` and `fs_read` cut a transfer of `count` bytes at `offset` in the same
way.  For counts from 1 to `INT_MAX` the formulas of the code give the bytes up
to the next block boundary, the number of whole blocks behind them, and a
remainder of less than a block.
-/

namespace MsFat

/-- Bytes of a transfer in its partial first block, 0 if there is none. -/
def firstBytes (offset count : Nat) : Nat :=
  if offset % blockSize ≠ 0 then firstAmount offset count else 0

/-- Bytes of a transfer in front of its partial last block. -/
def wholeBytes (offset count : Nat) : Nat :=
  firstBytes offset count +
    blockSize * ((count - firstBytes offset count) / blockSize)

section

variable (offset : Nat) {count : Nat} (countFits : count ≤ intMax)

include countFits

theorem firstAmount_eq :
    firstAmount offset count =
      min count (blockSize - offset % blockSize) := by
  unfold firstAmount
  simp only [blockSize, intMax] at *
  rw [sizeT_of_lt (by omega)]
  split <;> omega

theorem firstBytes_eq :
    firstBytes offset count =
      if offset % blockSize ≠ 0 then
        min count (blockSize - offset % blockSize)
      else 0 := by
  unfold firstBytes
  rw [firstAmount_eq offset countFits]

theorem firstBytes_le : firstBytes offset count ≤ count := by
  rw [firstBytes_eq offset countFits]
  split <;> omega

theorem wholeBytes_le : wholeBytes offset count ≤ count := by
  have first := firstBytes_le offset countFits
  unfold wholeBytes
  simp only [blockSize]
  omega

theorem wholeBytes_lt : count < wholeBytes offset count + blockSize := by
  have first := firstBytes_le offset countFits
  unfold wholeBytes
  simp only [blockSize]
  omega

/-- Unless the transfer ends in its partial first block, that block is left at
its end. -/
theorem firstBytes_boundary
    (more : firstBytes offset count < count) :
    offset + firstBytes offset count =
      blockSize * fullBlockStartIndex offset := by
  rw [firstBytes_eq offset countFits] at more ⊢
  unfold fullBlockStartIndex
  simp only [blockSize] at *
  split
  · rename_i unaligned
    rw [if_pos unaligned] at more
    omega
  · rename_i aligned
    omega

/-- The remainder is what the parts before it have left. -/
theorem remainderBlockSize_eq
    {bytes : Nat}
    (le : bytes ≤ count) :
    remainderBlockSize count bytes = (count - bytes : Nat) := by
  unfold remainderBlockSize
  simp only [intMax] at *
  rw [int32_of_range (by omega) (by omega)]
  omega

variable (offsetFits : offset < 2 ^ 16)

include offsetFits

/-- The target number of blocks is the number of blocks up to the end of the
transfer, rounded up. -/
theorem findNumTargetBlocks_eq :
    findNumTargetBlocks offset count =
      ((offset + count + (blockSize - 1)) / blockSize : Nat) := by
  unfold findNumTargetBlocks
  simp only [blockSize, intMax] at *
  rw [sizeT_of_lt (by omega), int32_of_range (by omega) (by omega)]
  split <;> omega

/-- The number of whole blocks. -/
theorem numFullBlocks_eq (positive : 0 < count) :
    numFullBlocks offset count (firstBytes offset count) =
      ((count - firstBytes offset count) / blockSize : Nat) := by
  unfold numFullBlocks
  rw [findNumTargetBlocks_eq offset countFits offsetFits, firstBytes_eq offset countFits]
  simp only [blockSize, intMax] at *
  by_cases unaligned : offset % 4096 ≠ 0
  · rw [if_pos unaligned]
    have some : min count (4096 - offset % 4096) ≠ 0 := by omega
    rw [if_pos some]
    split <;> omega
  · rw [if_neg unaligned, if_neg (by simp)]
    split <;> omega

/-- A remainder begins at a block boundary, in the last target block. -/
theorem wholeBytes_boundary
    (more : wholeBytes offset count < count) :
    (offset + wholeBytes offset count) % blockSize = 0 ∧
      findNumTargetBlocks offset count - 1 =
        ((offset + wholeBytes offset count) / blockSize : Nat) := by
  have lastBlock := wholeBytes_lt offset countFits
  have boundary := firstBytes_boundary offset countFits
    (show firstBytes offset count < count by
      unfold wholeBytes at more
      omega)
  rw [findNumTargetBlocks_eq offset countFits offsetFits]
  unfold wholeBytes at *
  simp only [blockSize] at *
  generalize fullBlockStartIndex offset = start at boundary
  generalize (count - firstBytes offset count) / 4096 = blocks at more lastBlock ⊢
  generalize firstBytes offset count = first at boundary more lastBlock ⊢
  omega

end
end MsFat
