import MsFat.Mount.FatLayout
import MsFat.Mount.Layout

/-!
# The buffers of the FAT

The blocks of the FAT are read into a buffer on the stack and written from the
allocation of the FAT.  A block that is written takes 2048 entries, so with
fewer of them `fs_umount` saves what lies behind the FAT.
-/

namespace MsFat

open Memory

/-- The transfers of FAT blocks stay inside their buffers, on this disk with
this superblock. -/
structure FatTransfersInside (disk : Disk) (sb : SuperBlock) : Prop where
  /-- No block is read past the buffer of `load_fat`. -/
  reads : ∀ host : Host, loadFat host disk sb ≠ .error .outOfBounds
  /-- Every word that is copied to the FAT comes from a block that was read. -/
  filled : ∀ (host : Host) (buffer : Nat → UInt16),
    readFatBlocks host disk (fatBufSize sb.numDataBlocks)
        sb.numFatBlocks.toNat 0 host.stack = .ok (some buffer) →
      ∀ index < sb.numDataBlocks.toNat, ∃ block word,
        block < sb.numFatBlocks.toNat ∧ word < blockSize / 2 ∧
          index = blockSize * block + word ∧
          buffer index = wordAt (disk.block (block + 1)) word
  /-- Every word that `fs_umount` writes to a FAT block is an entry. -/
  writes : ∀ block < sb.numFatBlocks.toNat, ∀ word < blockSize / 2,
    blockSize * block + word < sb.numDataBlocks.toNat
  /-- What is saved does not depend on the memory around the FAT. -/
  saved : ∀ session : Session, session.sb = sb →
    ∀ host host' : Host, host'.writeSucceeds = host.writeSucceeds →
      session.save host' = session.save host

/-! ## Saving -/

/-- A write takes the first `BLOCK_SIZE` bytes of its buffer only. -/
theorem blockWrite_congr
    {host host' : Host}
    (same : host'.writeSucceeds = host.writeSucceeds)
    (disk : Disk)
    (block : Nat)
    {buf buf' : Buffer}
    (agree : ∀ index < blockSize, buf' index = buf index) :
    blockWrite host' (some disk) block buf' =
      blockWrite host (some disk) block buf := by
  have copies : memcpy disk.bytes (block * blockSize) buf' 0 blockSize =
      memcpy disk.bytes (block * blockSize) buf 0 blockSize := by
    funext index
    unfold memcpy
    split
    · next inside => exact agree _ (by omega)
    · rfl
  unfold blockWrite
  simp only [same, copies]

/-- While every block that is saved lies inside the FAT, the memory behind it
does not matter. -/
theorem saveFat_congr
    {count : Nat}
    {host host' : Host}
    (same : host'.writeSucceeds = host.writeSucceeds)
    (fat : Fat count)
    {blocks index : Nat}
    (disk : Disk)
    (inside : ∀ block, index ≤ block → block < index + blocks →
      ∀ word < blockSize / 2, blockSize * block + word < count) :
    saveFat host' fat blocks index disk = saveFat host fat blocks index disk := by
  induction blocks generalizing index disk with
  | zero => rfl
  | succ blocks inductionHypothesis =>
      have first : blockWrite host' (some disk) (index + 1)
          (byteOfWords fun word =>
            fatMemory host' fat (blockSize * index + word)) =
        blockWrite host (some disk) (index + 1)
          (byteOfWords fun word =>
            fatMemory host fat (blockSize * index + word)) := by
        apply blockWrite_congr same
        intro byte inBlock
        have entry := inside index (le_refl _) (by omega) (byte / 2)
          (by simp only [blockSize] at *; omega)
        have sameWord : fatMemory host' fat (blockSize * index + byte / 2) =
            fatMemory host fat (blockSize * index + byte / 2) := by
          unfold fatMemory
          rw [Vector.getElem?_eq_getElem entry, Option.getD_some,
            Option.getD_some]
        simp only [byteOfWords, sameWord]
      rw [saveFat, saveFat, first]
      apply inductionHypothesis
      intro block lower upper
      exact inside block (by omega) (by omega)

namespace Session

/-- So what is saved does not depend on it. -/
theorem save_congr
    (session : Session)
    {host host' : Host}
    (same : host'.writeSucceeds = host.writeSucceeds)
    (inside : ∀ block < session.sb.numFatBlocks.toNat,
      ∀ word < blockSize / 2,
        blockSize * block + word < session.sb.numDataBlocks.toNat) :
    session.save host' = session.save host := by
  have fatSaved := @saveFat_congr _ host host' same session.fat
    session.sb.numFatBlocks.toNat 0 session.disk fun block _ below =>
      inside block (by omega)
  unfold save
  simp only [fatSaved]
  rw [blockWrite_congr same _ _ fun _ _ => rfl]

end Session

/-! ## When the transfers stay inside -/

section

variable {disk : Disk} {sb : SuperBlock}

/-- One block for 2048 entries. -/
theorem fatTransfersInside_of_one
    (one : sb.numFatBlocks.toNat = 1)
    (full : sb.numDataBlocks.toNat = blockSize / 2) :
    FatTransfersInside disk sb := by
  have writes : ∀ block < sb.numFatBlocks.toNat, ∀ word < blockSize / 2,
      blockSize * block + word < sb.numDataBlocks.toNat := by
    intro block isBlock word inBlock
    rw [full]
    have isFirst : block = 0 := by omega
    rw [isFirst]
    omega
  refine ⟨?_, ?_, writes, ?_⟩
  · intro host faults
    obtain ⟨fat, returns⟩ := loadFat_one_returns host disk one (Nat.le_of_eq full)
    rw [returns] at faults
    exact nomatch faults
  · intro host buffer reads index inside
    rw [one] at reads
    refine ⟨0, index, by omega, by omega, by omega, ?_⟩
    exact readFatBlocks_one_apply (Nat.le_of_eq full) reads (by omega)
  · rintro session rfl host host' same
    exact session.save_congr same writes

/-- No block for no entries. -/
theorem fatTransfersInside_of_zero
    (none : sb.numFatBlocks.toNat = 0)
    (empty : sb.numDataBlocks.toNat = 0) :
    FatTransfersInside disk sb := by
  have writes : ∀ block < sb.numFatBlocks.toNat, ∀ word < blockSize / 2,
      blockSize * block + word < sb.numDataBlocks.toNat := by
    intro block isBlock
    omega
  refine ⟨?_, ?_, writes, ?_⟩
  · intro host faults
    have loop : readFatBlocks host disk (fatBufSize sb.numDataBlocks)
        sb.numFatBlocks.toNat 0 host.stack = .ok (some host.stack) := by
      rw [none]
      rfl
    obtain ⟨fat, returns⟩ := loadFat_returns loop
    rw [returns] at faults
    exact nomatch faults
  · intro host buffer _ index inside
    omega
  · rintro session rfl host host' same
    exact session.save_congr same writes

/-- The loop of `load_fat` comes to its end. -/
theorem FatTransfersInside.readsAll
    (accepted : sb.Accepted (blockDiskCount (some disk)))
    (stays : FatTransfersInside disk sb) :
    ∃ buffer, readFatBlocks .reliable disk (fatBufSize sb.numDataBlocks)
      sb.numFatBlocks.toNat 0 Host.reliable.stack = .ok (some buffer) := by
  have inside : 0 + sb.numFatBlocks.toNat < disk.bcount := by
    rw [Nat.zero_add]
    exact Nat.lt_of_lt_of_le accepted.numFatBlocks accepted.numBlocks_le
  rcases readFatBlocks_cases (fatBufSize sb.numDataBlocks)
    Host.reliable.stack Host.reliable_reliable.toIoSucceeds inside with
    ⟨fault, _⟩ | returns
  · refine absurd ?_ (stays.reads .reliable)
    unfold loadFat
    rw [fault]
    rfl
  · exact returns

/-- For a superblock that is accepted, the transfers of FAT blocks stay inside
their buffers exactly if there is one block with 2048 entries, or no block and no
entry. -/
theorem fatTransfersInside_iff
    {host : Host}
    {superblockPtr : Buffer}
    (loads : loadSuperblock host (some disk) superblockPtr = some sb) :
    FatTransfersInside disk sb ↔
      (sb.numFatBlocks.toNat = 1 ∧ sb.numDataBlocks.toNat = 2048) ∨
        (sb.numFatBlocks.toNat = 0 ∧ sb.numDataBlocks.toNat = 0) := by
  obtain ⟨_, _, accepted⟩ := loadSuperblock_eq_some.mp loads
  constructor
  · intro stays
    obtain ⟨buffer, reads⟩ := stays.readsAll accepted
    have filled := stays.filled .reliable buffer reads
    rcases Nat.eq_zero_or_pos sb.numFatBlocks.toNat with none | some
    · right
      refine ⟨none, ?_⟩
      by_contra entries
      obtain ⟨block, _, isBlock, _⟩ := filled 0 (Nat.pos_of_ne_zero entries)
      omega
    · left
      have first := stays.writes 0 some (blockSize / 2 - 1) (by decide)
      have atMost : sb.numDataBlocks.toNat ≤ 2048 := by
        by_contra more
        obtain ⟨block, word, _, inBlock, isWord, _⟩ := filled 2048 (by omega)
        simp only [blockSize] at inBlock isWord
        omega
      have single : sb.numFatBlocks.toNat = 1 := by
        by_contra more
        have second := stays.writes 1 (by omega) 0 (by decide)
        simp only [blockSize] at second
        omega
      simp only [blockSize] at first
      exact ⟨single, by omega⟩
  · rintro (⟨one, full⟩ | ⟨none, empty⟩)
    · exact fatTransfersInside_of_one one full
    · exact fatTransfersInside_of_zero none empty

end

/-- One FAT block for 2048 entries. -/
theorem fatTransfersInside_iff_fullBlock :
    FatTransfersInside ((freshImage 2051 2048 1).toDisk "disk.fs")
        (freshImage 2051 2048 1).sb ↔
      ((freshImage 2051 2048 1).sb.numFatBlocks.toNat = 1 ∧
        (freshImage 2051 2048 1).sb.numDataBlocks.toNat = 2048) ∨
      ((freshImage 2051 2048 1).sb.numFatBlocks.toNat = 0 ∧
        (freshImage 2051 2048 1).sb.numDataBlocks.toNat = 0) :=
  @fatTransfersInside_iff _ _ .reliable (freshImage 2051 2048 1).bytes
    (loadSuperblock_eq_some.mpr ⟨rfl, rfl,
      freshImage_accepted (by decide) (by decide) (by decide)⟩)

/-- A host on which every call succeeds, with this word behind the FAT. -/
def Host.withHeap (word : UInt16) : Host :=
  { Host.reliable with heap := fun _ => word }

/-- One FAT block for four entries: the word behind them is saved. -/
theorem not_fatTransfersInside_fourEntries :
    loadSuperblock .reliable (some ((freshImage 7 4 1).toDisk "disk.fs"))
        (freshImage 7 4 1).bytes = some (freshImage 7 4 1).sb ∧
      ¬FatTransfersInside ((freshImage 7 4 1).toDisk "disk.fs")
        (freshImage 7 4 1).sb ∧
      ∃ session : Session, session.sb = (freshImage 7 4 1).sb ∧
        ∀ word, fatWord (session.save (Host.withHeap word)).bytes 4 = word := by
  have entries := freshImage_numDataBlocks 7 4 1
  refine ⟨loadSuperblock_eq_some.mpr ⟨rfl, rfl,
    freshImage_accepted (by decide) (by decide) (by decide)⟩, ?_, ?_⟩
  · intro stays
    have entry := stays.writes 0 (show 0 < (1 : UInt8).toNat by decide) 4
      (by decide)
    rw [entries] at entry
    exact absurd entry (by decide)
  · refine ⟨(freshImage 7 4 1).session (Vector.replicate _ 0), rfl, ?_⟩
    intro word
    have rootIndex := @freshImage_rootIndex 7 4 1 (by decide)
    have saved := @Session.save_fatWord
      ((freshImage 7 4 1).session (Vector.replicate _ 0)) (Host.withHeap word)
      ⟨fun _ => rfl, fun _ => rfl⟩ (show 1 < 7 * blockSize / blockSize by decide)
      (by
        change 1 < (freshImage 7 4 1).sb.rootIndex.toNat
        rw [rootIndex]
        decide)
      0 4 (show 0 < (1 : UInt8).toNat by decide) (by decide)
    refine saved.trans ?_
    unfold fatMemory
    rw [Vector.getElem?_eq_none]
    · rfl
    · change (freshImage 7 4 1).sb.numDataBlocks.toNat ≤ 4
      rw [entries]
      decide

end MsFat
