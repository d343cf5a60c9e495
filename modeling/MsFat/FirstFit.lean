import MsFat.Transfer.Effect

/-!
# First fit

`allocate_blocks_in_fat` brings the chain of a file to the target length with
the first free blocks, or appends all of them if there are too few.  It touches
no other chain and no other root entry, and `find_data_block` then finds the
blocks of the new chain.
-/

namespace MsFat

variable {count : Nat}

/-- The blocks from 1 on are listed in increasing order. -/
theorem pairwise_blockIndices (fits : count < 2 ^ 16) :
    (blockIndices count).Pairwise fun left right => left < right := by
  unfold blockIndices
  rw [List.pairwise_map]
  apply List.Pairwise.imp_of_mem _ List.pairwise_lt_range'
  intro left right leftMember rightMember less
  rw [UInt16.lt_iff_toNat_lt, toNat_ofNat_of_mem_range' fits leftMember,
    toNat_ofNat_of_mem_range' fits rightMember]
  exact less

/-- So are the free blocks. -/
theorem pairwise_freeBlocks
    (fits : count < 2 ^ 16)
    (fat : Fat count) :
    (freeBlocks fat).Pairwise fun left right => left < right :=
  (pairwise_blockIndices fits).filter _

/-- The free blocks are the indices from 1 on whose entry is 0. -/
theorem mem_freeBlocks_iff
    (fits : count < 2 ^ 16)
    {fat : Fat count}
    {index : UInt16} :
    index ∈ freeBlocks fat ↔
      1 ≤ index.toNat ∧ index.toNat < count ∧ fatNext fat index = some 0 := by
  have nonzero : index ≠ 0 ↔ 1 ≤ index.toNat := by
    rw [Nat.one_le_iff_ne_zero, ne_eq, ne_eq, ← UInt16.toNat_inj]
    exact Iff.rfl
  rw [mem_freeBlocks fits, nonzero]
  constructor
  · rintro ⟨positive, free⟩
    exact ⟨positive, fatNext_lt free, free⟩
  · rintro ⟨positive, _, free⟩
    exact ⟨positive, free⟩

/-- The free blocks that an allocation up to `target` blocks takes. -/
def Session.allocatedBlocks
    (session : Session)
    (chain : List UInt16)
    (target : Int) : List UInt16 :=
  (freeBlocks session.fat).take (target - chain.length).toNat

/-- `FirstFit before after file chain target result`: an allocation that is to
bring the chain of the file to `target` blocks leaves `after` and returns
`result`. -/
structure FirstFit
    (before after : Session)
    (file : Slot)
    (chain : List UInt16)
    (target : Int)
    (result : Int) : Prop where
  /-- The first free blocks are appended in order. -/
  fileChain : after.FileChain file
    (chain ++ before.allocatedBlocks chain target)
  /-- The other entries of the FAT are as they were. -/
  entries : ∀ index, chain.getLast? ≠ some index →
    index ∉ before.allocatedBlocks chain target →
      fatNext after.fat index = fatNext before.fat index
  /-- The other root entries are as they were. -/
  others : ∀ slot, slot ≠ file → after.root slot = before.root slot
  /-- Of the entry of the file only the first index changes. -/
  entry : ∃ firstIndex,
    after.root file = { before.root file with firstIndex := firstIndex }
  sb : after.sb = before.sb
  disk : after.disk = before.disk
  openFiles : after.openFiles = before.openFiles
  result_eq : result =
    if (target - chain.length).toNat ≤ (freeBlocks before.fat).length then 0
    else -1
  /-- The blocks of the new chain are found by their numbers. -/
  found : ∀ (n : Nat)
    (below : n < (chain ++ before.allocatedBlocks chain target).length),
    after.findDataBlock file n =
      .ok (chain ++ before.allocatedBlocks chain target)[n]
  /-- No other block is found. -/
  notFound : ∀ n : Nat,
    (chain ++ before.allocatedBlocks chain target).length ≤ n →
      after.findDataBlock file n = .ok fatEoc

/-- Block allocation is exact and takes the first free blocks. -/
theorem allocateBlocksInFat_firstFit
    {session : Session}
    {file : Slot}
    {chain : List UInt16}
    (isChain : session.FileChain file chain)
    (target : Int) :
    ((freeBlocks session.fat).Pairwise fun left right => left < right) ∧
    (∀ index, index ∈ freeBlocks session.fat ↔
      1 ≤ index.toNat ∧ index.toNat < session.sb.numDataBlocks.toNat ∧
        fatNext session.fat index = some 0) ∧
    ∃ after result,
      Computes (fun fuel => session.allocateBlocksInFat fuel file target)
        (chain.length + 1) (after, result) ∧
      FirstFit session after file chain target result := by
  have fits := session.numDataBlocks_lt
  refine ⟨pairwise_freeBlocks fits _, fun _ => mem_freeBlocks_iff fits, ?_⟩
  obtain ⟨fat', firstIndex', result, computes, grown⟩ :=
    allocateInFat_computes fits isChain target
  have fileChain : (session.setChain file fat' firstIndex').FileChain file
      (chain ++ session.allocatedBlocks chain target) :=
    Session.fileChain_setChain grown
  refine ⟨session.setChain file fat' firstIndex', result, computes.bind rfl, ?_⟩
  constructor
  · exact fileChain
  · exact grown.frame
  · intro slot different
    exact Function.update_of_ne different _ _
  · exact ⟨firstIndex', Function.update_self _ _ _⟩
  · rfl
  · rfl
  · rfl
  · exact grown.result_eq
  · intro n below
    rcases Session.findDataBlock_cases fileChain n with
      ⟨behind, _⟩ | ⟨_, found, _⟩
    · exact absurd below (Nat.not_lt.mpr behind)
    · exact found
  · intro n behind
    rcases Session.findDataBlock_cases fileChain n with
      ⟨_, atEnd⟩ | ⟨below, _⟩
    · exact atEnd
    · exact absurd below (Nat.not_lt.mpr behind)

/-- A chain of one block that is to have three gets the blocks 2 and 3. -/
theorem allocateBlocksInFat_firstFit_sample :
    ∃ after result,
      Computes (fun fuel => Session.sample.allocateBlocksInFat fuel 0 3)
        2 (after, result) ∧
      FirstFit Session.sample after 0 [1] 3 result :=
  (allocateBlocksInFat_firstFit Session.sample_fileChain 3).2.2

end MsFat
