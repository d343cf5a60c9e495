import MsFat.Mount.Loaders

/-!
# Fresh images

Small images of a disk to mount: a superblock, an empty FAT, and no files.
-/

namespace MsFat

/-- The image of a disk with these counts of blocks, of data blocks and of FAT
blocks.  The root block follows the FAT, and the data blocks follow the root
block.  The first FAT entry is `FAT_EOC`, and the disk is empty otherwise. -/
def freshImage
    (numBlocks numDataBlocks : UInt16)
    (numFatBlocks : UInt8) : Image where
  size := numBlocks.toNat * blockSize
  bytes := fun index =>
    match index with
    | 8 => numBlocks.toUInt8
    | 9 => (numBlocks >>> 8).toUInt8
    | 10 => numFatBlocks + 1
    | 12 => numFatBlocks + 2
    | 14 => numDataBlocks.toUInt8
    | 15 => (numDataBlocks >>> 8).toUInt8
    | 16 => numFatBlocks
    | 4096 => 0xFF
    | 4097 => 0xFF
    | _ => 0

section FreshImage

variable (numBlocks numDataBlocks : UInt16) (numFatBlocks : UInt8)

/-- Behind the fields of the superblock only the first FAT entry is not 0. -/
theorem freshImage_bytes_eq_zero
    {index : Nat}
    (behind : 17 ≤ index)
    (notFat : index < blockSize ∨ blockSize + 2 ≤ index) :
    (freshImage numBlocks numDataBlocks numFatBlocks).bytes index = 0 := by
  simp only [blockSize] at notFat
  simp only [freshImage]
  split
  all_goals first | rfl | omega

theorem freshImage_numBlocks :
    (freshImage numBlocks numDataBlocks numFatBlocks).sb.numBlocks =
      numBlocks :=
  concatenateTwoBytes_bytes numBlocks

theorem freshImage_numDataBlocks :
    (freshImage numBlocks numDataBlocks numFatBlocks).sb.numDataBlocks =
      numDataBlocks :=
  concatenateTwoBytes_bytes numDataBlocks

theorem freshImage_numFatBlocks :
    (freshImage numBlocks numDataBlocks numFatBlocks).sb.numFatBlocks =
      numFatBlocks := rfl

variable {numFatBlocks}

theorem freshImage_rootIndex (fits : numFatBlocks.toNat + 2 < 2 ^ 8) :
    (freshImage numBlocks numDataBlocks numFatBlocks).sb.rootIndex.toNat =
      numFatBlocks.toNat + 1 := by
  apply (concatenateTwoBytes_zero (numFatBlocks + 1)).trans
  rw [UInt8.toNat_add]
  exact Nat.mod_eq_of_lt (Nat.lt_of_succ_lt fits)

theorem freshImage_dataStartIndex (fits : numFatBlocks.toNat + 2 < 2 ^ 8) :
    (freshImage numBlocks numDataBlocks numFatBlocks).sb.dataStartIndex.toNat =
      numFatBlocks.toNat + 2 := by
  apply (concatenateTwoBytes_zero (numFatBlocks + 2)).trans
  rw [UInt8.toNat_add]
  exact Nat.mod_eq_of_lt fits

variable {numBlocks numDataBlocks}

theorem freshImage_count :
    (freshImage numBlocks numDataBlocks numFatBlocks).size / blockSize =
      numBlocks.toNat :=
  Nat.mul_div_cancel _ (by decide)

/-- The superblock of a fresh image passes the checks of `load_superblock`,
whether or not all blocks are on the disk. -/
theorem freshImage_accepted
    (fits : numFatBlocks.toNat + 2 < 2 ^ 8)
    (dataBlocks : numDataBlocks.toNat < numBlocks.toNat)
    (fatBlocks : numFatBlocks.toNat < numBlocks.toNat) :
    (freshImage numBlocks numDataBlocks numFatBlocks).sb.Accepted
      (int32 ↑((freshImage numBlocks numDataBlocks numFatBlocks).size /
        blockSize)) := by
  have rootIndex := freshImage_rootIndex numBlocks numDataBlocks fits
  have dataStart := freshImage_dataStartIndex numBlocks numDataBlocks fits
  have bound := numBlocks.toNat_lt
  rw [freshImage_count, int32_of_range (by omega) (by omega)]
  constructor
  · rw [freshImage_numBlocks]
  · rw [rootIndex]
    omega
  · intro zero
    rw [zero] at dataStart
    exact absurd dataStart.symm (Nat.succ_ne_zero _)
  · intro same
    rw [same, rootIndex] at dataStart
    omega
  · rwa [freshImage_numBlocks, freshImage_numDataBlocks]
  · rwa [freshImage_numBlocks, freshImage_numFatBlocks]
  · intro index
    have inside : index.val < 4079 := index.isLt
    apply freshImage_bytes_eq_zero _ _ _ (Nat.le_add_right _ _)
    simp only [blockSize]
    omega

end FreshImage

end MsFat
