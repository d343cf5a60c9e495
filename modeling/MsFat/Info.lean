import MsFat.Disk
import MsFat.Directory.Defs
import MsFat.Fat.Allocation

/-!
# Reports

`fs_info` and `fs_ls`, with what they print.  `fs_ls` looks at
`is_disk_mounted` but does not return when it is not set.
-/

namespace MsFat

/-- The numbers that `fs_info` prints, line by line. -/
structure FsInfo where
  /-- `total_blk_count=%d` -/
  totalBlkCount : Int
  /-- `fat_blk_count=%d` -/
  fatBlkCount : Nat
  /-- `rdir_blk=%d` -/
  rdirBlk : Nat
  /-- `data_blk=%d` -/
  dataBlk : Nat
  /-- `data_blk_count=%d` -/
  dataBlkCount : Nat
  /-- `fat_free_ratio=%d/%d`, the second number being `data_blk_count` -/
  freeFatEntries : Nat
  /-- `rdir_free_ratio=%d/%d`, the second number being `FS_FILE_MAX_COUNT` -/
  freeRootEntries : Nat

/-- `free_fat_entries`: the entries of the FAT that are 0. -/
def freeFatEntries {count : Nat} (fat : Fat count) : Nat :=
  (List.range count).countP fun index => fat[index]? == some 0

/-- `free_root_entries`: the entries of the root directory without a name. -/
def freeRootEntries (root : Slot → File) : Nat :=
  (List.finRange fsFileMaxCount).countP fun slot => (root slot).filename 0 == 0

/-- `fs_info`, with what it prints if it prints anything. -/
def fsInfo (state : State) : Outcome (Option FsInfo × Int) :=
  if !state.isDiskMounted then .ok (none, -1)
  else do
    let session ← state.session
    .ok (some
      { totalBlkCount := blockDiskCount state.disk
        fatBlkCount := session.sb.numFatBlocks.toNat
        rdirBlk := session.sb.rootIndex.toNat
        dataBlk := session.sb.dataStartIndex.toNat
        dataBlkCount := session.sb.numDataBlocks.toNat
        freeFatEntries := freeFatEntries session.fat
        freeRootEntries := freeRootEntries session.root }, 0)

/-- A line of `fs_ls`: `file: %s, size: %d, data_blk: %d`. -/
structure LsLine where
  file : List UInt8
  size : Int
  dataBlk : Nat

/-- The line of `fs_ls` about an entry of the root directory, if the entry is in
use. -/
def lsLine (file : File) : Option LsLine :=
  if file.filename 0 ≠ 0 then
    some
      { file := arrayString file.filename
        size := int32 file.fileSize.toNat
        dataBlk := file.firstIndex.toNat }
  else none

/-- `fs_ls`, with the lines it prints.  With nothing mounted it goes on to the
root directory as well. -/
def fsLs (state : State) : Outcome (List LsLine × Int) := do
  let session ← state.session
  .ok ((List.finRange fsFileMaxCount).filterMap fun slot =>
    lsLine (session.root slot), 0)

/-- The free entries are the free blocks, and entry 0 if it is 0. -/
theorem freeFatEntries_eq
    {count : Nat}
    (fits : count < 2 ^ 16)
    (fat : Fat count) :
    freeFatEntries fat =
      (if fatNext fat 0 = some 0 then 1 else 0) + (freeBlocks fat).length := by
  cases count with
  | zero => simp [freeFatEntries, freeBlocks, blockIndices, fatNext]
  | succ count =>
      have behind : (freeBlocks fat).length =
          (List.range' 1 count).countP fun index => fat[index]? == some 0 := by
        unfold freeBlocks blockIndices
        rw [← List.countP_eq_length_filter, List.countP_map]
        apply List.countP_congr
        intro index member
        have value := toNat_ofNat_of_mem_range' fits member
        simp only [Function.comp_apply, fatNext, value]
      rw [behind]
      unfold freeFatEntries
      rw [List.range_eq_range', List.range'_succ, List.countP_cons,
        Nat.add_comm]
      simp [fatNext]

end MsFat
