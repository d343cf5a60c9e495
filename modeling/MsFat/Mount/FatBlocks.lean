import MsFat.Mount.Loaders

/-!
# The loops over the FAT blocks

Which words `load_fat` fills from the disk, and which bytes of the disk
`fs_umount` replaces.  Block `b` of the FAT is read to, and written from, word
`4096 * b` of memory, although it only holds 2048 words.
-/

namespace MsFat

open Memory

/-- The word at an index of the concatenation of the FAT blocks. -/
def fatWord (bytes : Buffer) (index : Nat) : UInt16 :=
  wordAt (fun byte => bytes (blockSize + byte)) index

/-! ## Loading -/

section Load

variable {host : Host} {disk : Disk} {bufSize blocks index : Nat}
  {buffer after : Nat → UInt16}

/-- The first block that a loop reads, and the rest of the loop. -/
theorem readFatBlocks_succ
    (reads : readFatBlocks host disk bufSize (blocks + 1) index buffer =
      .ok (some after)) :
    blockSize * index + blockSize / 2 ≤ bufSize ∧
      readFatBlocks host disk bufSize blocks (index + 1)
        (memcpy buffer (blockSize * index) (wordAt (disk.block (index + 1))) 0
          (blockSize / 2)) = .ok (some after) := by
  rw [readFatBlocks] at reads
  cases block : blockRead host (some disk) (index + 1) with
  | none =>
      simp only [block] at reads
      exact nomatch reads
  | some bytes =>
      obtain ⟨_, _, isBlock⟩ := blockRead_eq_some.mp block
      subst isBlock
      simp only [block] at reads
      split at reads
      · next fits => exact ⟨fits, reads⟩
      · exact nomatch reads

/-- The words that lie behind a block, and those in front of the first one, are
not filled. -/
theorem readFatBlocks_outside
    (reads : readFatBlocks host disk bufSize blocks index buffer =
      .ok (some after))
    {word : Nat}
    (outside : word < blockSize * index ∨ blockSize / 2 ≤ word % blockSize) :
    after word = buffer word := by
  induction blocks generalizing index buffer with
  | zero =>
      cases reads
      rfl
  | succ blocks inductionHypothesis =>
      obtain ⟨_, rest⟩ := readFatBlocks_succ reads
      rw [inductionHypothesis rest (by simp only [blockSize] at *; omega)]
      apply memcpy_apply_outside
      simp only [blockSize] at *
      omega

/-- All blocks of a loop that returns lie in the buffer. -/
theorem readFatBlocks_fits
    (reads : readFatBlocks host disk bufSize (blocks + 1) index buffer =
      .ok (some after)) :
    blockSize * (index + blocks) + blockSize / 2 ≤ bufSize := by
  induction blocks generalizing index buffer with
  | zero => exact (readFatBlocks_succ reads).1
  | succ blocks inductionHypothesis =>
      have rest := inductionHypothesis (readFatBlocks_succ reads).2
      rwa [Nat.add_right_comm, Nat.add_assoc] at rest

/-- The first word of the FAT is filled from its first block. -/
theorem readFatBlocks_first
    (reads : readFatBlocks host disk bufSize (blocks + 1) 0 buffer =
      .ok (some after)) :
    after 0 = fatWord disk.bytes 0 := by
  rw [readFatBlocks_outside (readFatBlocks_succ reads).2
    (.inl (by simp only [blockSize]; omega))]
  rfl

/-- While reads succeed, the loop returns unless a block lies outside the
buffer. -/
theorem readFatBlocks_cases
    (bufSize : Nat)
    (buffer : Nat → UInt16)
    (succeeds : host.IoSucceeds)
    (inside : index + blocks < disk.bcount) :
    (readFatBlocks host disk bufSize blocks index buffer =
        .error .outOfBounds ∧
      bufSize + blockSize / 2 < blockSize * (index + blocks)) ∨
      ∃ after, readFatBlocks host disk bufSize blocks index buffer =
        .ok (some after) := by
  induction blocks generalizing index buffer with
  | zero => exact .inr ⟨buffer, rfl⟩
  | succ blocks inductionHypothesis =>
      rw [readFatBlocks, blockRead_of_succeeds succeeds (by omega)]
      simp only
      by_cases fits : blockSize * index + blockSize / 2 ≤ bufSize
      · rw [if_pos fits]
        rw [show index + (blocks + 1) = index + 1 + blocks by omega]
        exact inductionHypothesis _ (by omega)
      · rw [if_neg fits]
        refine .inl ⟨rfl, ?_⟩
        simp only [blockSize] at *
        omega

end Load

/-- One FAT block that fits into the buffer is read to its start, unless the
host fails. -/
theorem readFatBlocks_one
    (host : Host)
    (disk : Disk)
    {bufSize : Nat}
    (fits : blockSize / 2 ≤ bufSize)
    (buffer : Nat → UInt16) :
    readFatBlocks host disk bufSize 1 0 buffer = .ok none ∨
      readFatBlocks host disk bufSize 1 0 buffer =
        .ok (some (memcpy buffer 0 (fatWord disk.bytes) 0 (blockSize / 2))) := by
  rw [readFatBlocks]
  cases block : blockRead host (some disk) (0 + 1) with
  | none => exact .inl rfl
  | some bytes =>
      obtain ⟨_, _, isBlock⟩ := blockRead_eq_some.mp block
      subst isBlock
      right
      simp only
      rw [if_pos (by simpa using fits)]
      rfl

/-- While reads succeed, one FAT block is read. -/
theorem readFatBlocks_one_of_succeeds
    {host : Host}
    (succeeds : host.IoSucceeds)
    {disk : Disk}
    (inside : 1 < disk.bcount)
    {bufSize : Nat}
    (fits : blockSize / 2 ≤ bufSize)
    (buffer : Nat → UInt16) :
    readFatBlocks host disk bufSize 1 0 buffer =
      .ok (some (memcpy buffer 0 (fatWord disk.bytes) 0 (blockSize / 2))) := by
  rcases readFatBlocks_one host disk fits buffer with failed | filled
  · rw [readFatBlocks, blockRead_of_succeeds succeeds
      (show 0 + 1 < disk.bcount from inside)] at failed
    simp only at failed
    split at failed
    · exact nomatch failed
    · exact nomatch failed
  · exact filled

/-- A FAT that fits into one block needs the shortest buffer. -/
theorem fatBufSize_of_le
    {numDataBlocks : UInt16}
    (fits : numDataBlocks.toNat ≤ blockSize / 2) :
    fatBufSize numDataBlocks = blockSize := by
  unfold fatBufSize
  rw [if_neg]
  simp only [blockSize] at *
  omega

/-- With one FAT block that holds the entries, `load_fat` returns. -/
theorem loadFat_one_returns
    (host : Host)
    (disk : Disk)
    {sb : SuperBlock}
    (one : sb.numFatBlocks.toNat = 1)
    (fits : sb.numDataBlocks.toNat ≤ blockSize / 2) :
    ∃ fat, loadFat host disk sb = .ok fat := by
  have loop : ∃ buffer, readFatBlocks host disk (fatBufSize sb.numDataBlocks)
      sb.numFatBlocks.toNat 0 host.stack = .ok buffer := by
    rw [one, fatBufSize_of_le fits]
    rcases readFatBlocks_one host disk
      (show blockSize / 2 ≤ blockSize by decide) host.stack with failed | filled
    · exact ⟨_, failed⟩
    · exact ⟨_, filled⟩
  obtain ⟨_, reads⟩ := loop
  exact loadFat_returns reads

/-- The words of its buffer then come from the disk. -/
theorem readFatBlocks_one_apply
    {host : Host}
    {disk : Disk}
    {numDataBlocks : UInt16}
    (fits : numDataBlocks.toNat ≤ blockSize / 2)
    {before buffer : Nat → UInt16}
    (reads : readFatBlocks host disk (fatBufSize numDataBlocks) 1 0 before =
      .ok (some buffer))
    {index : Nat}
    (inside : index < blockSize / 2) :
    buffer index = fatWord disk.bytes index := by
  rw [fatBufSize_of_le fits] at reads
  rcases readFatBlocks_one host disk
    (show blockSize / 2 ≤ blockSize by decide) before with failed | filled
  · rw [failed] at reads
    exact nomatch reads
  · rw [filled] at reads
    cases reads
    rw [memcpy_apply_inside (Nat.zero_le _) (by omega), Nat.zero_add,
      Nat.sub_zero]

/-- A FAT of one block is loaded from it. -/
theorem LoadsVolume.fat_one
    {host : Host}
    {disk : Disk}
    {volume : Volume}
    (loads : LoadsVolume host disk volume)
    (one : volume.sb.numFatBlocks.toNat = 1)
    (fits : volume.sb.numDataBlocks.toNat ≤ blockSize / 2)
    {index : Nat}
    (inside : index < volume.sb.numDataBlocks.toNat) :
    volume.fat[index] = fatWord disk.bytes index := by
  obtain ⟨_, buffer, reads, isFat, _⟩ := loadFat_eq_some.mp loads.fat
  rw [one] at reads
  rw [isFat, fatOfWords_getElem inside]
  exact readFatBlocks_one_apply fits reads (by omega)

/-- A FAT with entries starts with `FAT_EOC`. -/
theorem LoadsVolume.firstEntry
    {host : Host}
    {disk : Disk}
    {volume : Volume}
    (loads : LoadsVolume host disk volume)
    (entries : 1 ≤ volume.sb.numDataBlocks.toNat) :
    volume.fat[0]? = some fatEoc := by
  obtain ⟨_, _, _, _, first⟩ := loadFat_eq_some.mp loads.fat
  rw [Vector.getElem?_eq_getElem entries, Option.getD_some] at first
  rw [Vector.getElem?_eq_getElem entries, first]

/-! ## Saving -/

section Save

variable {count : Nat} {host : Host} {fat : Fat count} {blocks index : Nat}
  {disk : Disk}

/-- Saving the FAT keeps the name and the length of the disk. -/
theorem saveFat_diskname :
    (saveFat host fat blocks index disk).diskname = disk.diskname := by
  induction blocks generalizing index disk with
  | zero => rfl
  | succ blocks inductionHypothesis =>
      rw [saveFat, inductionHypothesis]
      exact (blockWrite_getD host disk (index + 1) _).1

theorem saveFat_bcount :
    (saveFat host fat blocks index disk).bcount = disk.bcount := by
  induction blocks generalizing index disk with
  | zero => rfl
  | succ blocks inductionHypothesis =>
      rw [saveFat, inductionHypothesis]
      exact (blockWrite_getD host disk (index + 1) _).2.1

/-- The bytes outside the FAT blocks are kept. -/
theorem saveFat_outside
    {byte : Nat}
    (outside : byte < blockSize * (index + 1) ∨
      blockSize * (index + blocks + 1) ≤ byte) :
    (saveFat host fat blocks index disk).bytes byte = disk.bytes byte := by
  induction blocks generalizing index disk with
  | zero => rfl
  | succ blocks inductionHypothesis =>
      rw [saveFat]
      refine (inductionHypothesis ?_).trans
        ((blockWrite_getD host disk (index + 1) _).2.2 byte ?_)
      · simp only [blockSize] at outside ⊢
        omega
      · simp only [blockSize] at outside ⊢
        omega

/-- While writes succeed, a FAT block holds the words from its place in memory
on. -/
theorem saveFat_inside
    (fat : Fat count)
    (succeeds : host.IoSucceeds)
    (inside : index + blocks < disk.bcount)
    {block offset : Nat}
    (lower : index ≤ block)
    (upper : block < index + blocks)
    (inBlock : offset < blockSize) :
    (saveFat host fat blocks index disk).bytes
        (blockSize * (block + 1) + offset) =
      byteOfWords (fun word => fatMemory host fat (blockSize * block + word))
        offset := by
  induction blocks generalizing index disk with
  | zero => omega
  | succ blocks inductionHypothesis =>
      rw [saveFat]
      rcases Nat.eq_or_lt_of_le lower with first | later
      · subst first
        refine (saveFat_outside (.inl ?_)).trans
          (blockWrite_inside succeeds (by omega) _ inBlock)
        simp only [blockSize] at inBlock ⊢
        omega
      · refine inductionHypothesis ?_ later (by omega)
        rw [(blockWrite_getD host disk (index + 1) _).2.1]
        omega

/-- The words of the FAT blocks that are saved. -/
theorem saveFat_fatWord
    (fat : Fat count)
    (succeeds : host.IoSucceeds)
    (inside : blocks < disk.bcount)
    {block word : Nat}
    (isBlock : block < blocks)
    (inBlock : word < blockSize / 2) :
    fatWord (saveFat host fat blocks 0 disk).bytes
        (blockSize / 2 * block + word) =
      fatMemory host fat (blockSize * block + word) := by
  have saved : ∀ offset < blockSize,
      (saveFat host fat blocks 0 disk).bytes
          (blockSize + (2 * (blockSize / 2 * block) + offset)) =
        byteOfWords (fun word => fatMemory host fat (blockSize * block + word))
          offset := by
    intro offset bound
    have written := saveFat_inside fat succeeds
      (show 0 + blocks < disk.bcount by omega) (Nat.zero_le block)
      (show block < 0 + blocks by omega) bound
    rw [← written]
    congr 1
    simp only [blockSize]
    omega
  rw [← wordAt_byteOfWords
    (fun word => fatMemory host fat (blockSize * block + word)) word]
  unfold fatWord wordAt
  rw [← saved (2 * word) (by simp only [blockSize] at *; omega),
    ← saved (2 * word + 1) (by simp only [blockSize] at *; omega),
    Nat.mul_add, Nat.add_assoc (2 * (blockSize / 2 * block))]

end Save

end MsFat
