import MsFat.Mount.Unmount
import MsFat.Mount.FreshImage

/-!
# The layout of the FAT on the disk

A FAT block holds 2048 words.  `fs_mount` and `fs_umount` step through the words
of memory by 4096 for each block.  So they agree with the layout on the disk
only about the first block: a FAT of more than one block is not loaded, and
entries from 2048 on are not saved.
-/

namespace MsFat

open Memory

/-! ## Images -/

/-- The regions of a disk lie on the disk, one beside the other: the superblock,
the FAT in the blocks from 1 on, the root block, and the data blocks.  The FAT
blocks hold an entry for each data block. -/
structure SuperBlock.Layout
    (sb : SuperBlock)
    (diskCount : Nat) : Prop where
  fatBlocks : 1 ≤ sb.numFatBlocks.toNat
  entries : 1 ≤ sb.numDataBlocks.toNat
  capacity : sb.numDataBlocks.toNat ≤ blockSize / 2 * sb.numFatBlocks.toNat
  rootBehindFat : sb.numFatBlocks.toNat < sb.rootIndex.toNat
  rootInside : sb.rootIndex.toNat < diskCount
  dataBehindFat : sb.numFatBlocks.toNat < sb.dataStartIndex.toNat
  dataInside : sb.dataStartIndex.toNat + sb.numDataBlocks.toNat ≤ diskCount
  rootNotData : sb.rootIndex.toNat < sb.dataStartIndex.toNat ∨
    sb.dataStartIndex.toNat + sb.numDataBlocks.toNat ≤ sb.rootIndex.toNat

namespace Image

/-- The block that the root directory is read from. -/
def rootBlock (image : Image) : Buffer :=
  fun index =>
    image.bytes ((image.sb.numFatBlocks.toNat + 1) * blockSize + index)

/-- An image with disjoint regions on the disk, whose first FAT entry is
`FAT_EOC`, and which passes the other checks of `fs_mount`. -/
structure Acceptable (image : Image) : Prop where
  multiple : image.size % blockSize = 0
  accepted : image.sb.Accepted (int32 ↑(image.size / blockSize))
  layout : image.sb.Layout (image.size / blockSize)
  firstEntry : fatWord image.bytes 0 = fatEoc
  rootPadding : ∀ slot index, (decodeRoot image.rootBlock slot).padding index = 0

end Image

/-- The FAT that `fs_mount` loads is the one on the disk: a mount of the image
returns, and if it succeeds, every entry is the word of the FAT blocks. -/
def LoadFollowsLayout (image : Image) : Prop :=
  ∀ (host : Host) (state : State) (name : String),
    state.isDiskMounted = false → state.disk = none →
      state.files name = some image →
        ∃ after result,
          fsMount host state (some name) = .ok (after, result) ∧
          (result = 0 → ∃ session : Session,
            after = session.toState ∧ session.sb = image.sb ∧
              ∀ index (_ : index < session.sb.numDataBlocks.toNat),
                session.fat[index] = fatWord image.bytes index)

/-- The same, with nothing asked of a mount that does not return. -/
def LoadedFollowsLayout (image : Image) : Prop :=
  ∀ (host : Host) (state : State) (name : String) (session : Session),
    state.isDiskMounted = false → state.disk = none →
      state.files name = some image →
        fsMount host state (some name) = .ok (session.toState, 0) →
          session.sb = image.sb ∧
            ∀ index (_ : index < session.sb.numDataBlocks.toNat),
              session.fat[index] = fatWord image.bytes index

/-- The FAT that `fs_umount` saves is the one in memory, whatever it is: every
word of the FAT blocks is the entry. -/
def SaveFollowsLayout (image : Image) : Prop :=
  ∀ (host : Host) (session : Session),
    host.IoSucceeds → session.sb = image.sb →
      session.disk.bcount = image.size / blockSize →
        ∃ after saved,
          fsUmount host session.toState = .ok (after, 0) ∧
          after.files session.disk.diskname = some saved ∧
          ∀ index (_ : index < session.sb.numDataBlocks.toNat),
            fatWord saved.bytes index = session.fat[index]

/-! ## Mounting an image -/

section Mount

variable {host : Host} {state : State} {name : String} {image : Image}

/-- The superblock of an acceptable image is read and loaded. -/
theorem Image.Acceptable.loadsSuperblock
    (acceptable : image.Acceptable)
    (name : String)
    (reliable : host.Reliable) :
    blockRead host (some (image.toDisk name)) 0 =
        some ((image.toDisk name).block 0) ∧
      loadSuperblock host (some (image.toDisk name))
        ((image.toDisk name).block 0) = some image.sb := by
  have inside := acceptable.layout.rootInside
  constructor
  · exact blockRead_of_succeeds reliable.toIoSucceeds
      (show 0 < image.size / blockSize by omega)
  · rw [Disk.block_zero]
    exact loadSuperblock_eq_some.mpr
      ⟨reliable.mallocs 0, rfl, acceptable.accepted⟩

/-- An acceptable image is mounted once the loop of `load_fat` returns, with the
words it has read. -/
theorem Image.Acceptable.mounts
    (acceptable : image.Acceptable)
    (reliable : host.Reliable)
    (notMounted : state.isDiskMounted = false)
    (noDisk : state.disk = none)
    (found : state.files name = some image)
    {buffer : Nat → UInt16}
    (reads : readFatBlocks host (image.toDisk name)
      (fatBufSize image.sb.numDataBlocks) image.sb.numFatBlocks.toNat 0
      host.stack = .ok (some buffer)) :
    fsMount host state (some name) =
      .ok ((state.mounted (image.toDisk name)
        { sb := image.sb
          fat := fatOfWords _ buffer
          root := decodeRoot ((image.toDisk name).block
            (image.sb.numFatBlocks.toNat + 1)) }).toState, 0) := by
  have layout := acceptable.layout
  obtain ⟨readsSuperblock, superblock⟩ :=
    acceptable.loadsSuperblock name reliable
  apply fsMount_of_loads
    (loadDisk_of_image reliable notMounted noDisk found acceptable.multiple)
  refine ⟨readsSuperblock, superblock, ?_, ?_⟩
  · refine loadFat_eq_some.mpr ⟨reliable.mallocs 1, buffer, reads, rfl, ?_⟩
    have entries := layout.entries
    obtain ⟨blocks, isBlocks⟩ := Nat.exists_eq_add_of_le' layout.fatBlocks
    rw [isBlocks] at reads
    rw [Vector.getElem?_eq_getElem (show 0 < image.sb.numDataBlocks.toNat from
      entries), Option.getD_some]
    rw [fatOfWords_getElem entries]
    exact (readFatBlocks_first reads).trans acceptable.firstEntry
  · have rootBehindFat := layout.rootBehindFat
    have rootInside := layout.rootInside
    rw [blockRead_of_succeeds reliable.toIoSucceeds
      (show image.sb.numFatBlocks.toNat + 1 < image.size / blockSize by omega),
      Option.getD_some]
    exact loadRootDirectory_eq_some.mpr ⟨rfl, fun slot =>
      ⟨reliable.mallocs _, acceptable.rootPadding slot⟩⟩

end Mount

/-! ## Loading -/

/-- There is another word. -/
theorem exists_word_ne (word : UInt16) :
    ∃ other : UInt16, other ≠ word := by
  by_cases zero : word = 0
  · exact ⟨1, zero ▸ by decide⟩
  · exact ⟨0, Ne.symm zero⟩

/-- A FAT of one block is loaded as it is on the disk. -/
theorem loadFollowsLayout_of_one
    {image : Image}
    (layout : image.sb.Layout (image.size / blockSize))
    (one : image.sb.numFatBlocks.toNat = 1) :
    LoadFollowsLayout image := by
  intro host state name notMounted noDisk found
  have fits : image.sb.numDataBlocks.toNat ≤ blockSize / 2 := by
    have capacity := layout.capacity
    rwa [one, Nat.mul_one] at capacity
  have returns : ∃ after result,
      fsMount host state (some name) = .ok (after, result) := by
    apply fsMount_returns
    intro disk sb opens superblock
    rw [loadDisk_eq_some found opens, Disk.block_zero] at superblock
    obtain ⟨_, rfl, _⟩ := loadSuperblock_eq_some.mp superblock
    exact loadFat_one_returns host disk one fits
  obtain ⟨after, result, mounts⟩ := returns
  refine ⟨after, result, mounts, ?_⟩
  rintro rfl
  rcases fsMount_cases mounts with
    ⟨_, _, failed⟩ | ⟨disk, opens, ⟨_, failed⟩ | ⟨volume, loads, rfl, _⟩⟩
  · exact absurd failed (by decide)
  · exact absurd failed (by decide)
  · have isDisk := loadDisk_eq_some found opens
    subst isDisk
    have isSb : volume.sb = image.sb := by
      have superblock := loads.superblock
      rw [Disk.block_zero] at superblock
      exact (loadSuperblock_eq_some.mp superblock).2.1
    refine ⟨_, rfl, isSb, fun index inside => ?_⟩
    exact loads.fat_one (by rw [isSb, one]) (by rwa [isSb]) inside

/-- With more than one FAT block, a mount leaves the buffer or leaves what was
on the stack in entry 2048. -/
theorem mount_of_two_le
    {image : Image}
    (acceptable : image.Acceptable)
    (two : 2 ≤ image.sb.numFatBlocks.toNat)
    {host : Host}
    (reliable : host.Reliable)
    (state : State)
    (notMounted : state.isDiskMounted = false)
    (noDisk : state.disk = none)
    (name : String)
    (found : state.files name = some image) :
    (fsMount host state (some name) = .error .outOfBounds ∧
        fatBufSize image.sb.numDataBlocks + blockSize / 2 <
          blockSize * image.sb.numFatBlocks.toNat) ∨
      ∃ (session : Session)
        (inside : blockSize / 2 < session.sb.numDataBlocks.toNat),
        fsMount host state (some name) = .ok (session.toState, 0) ∧
          session.sb = image.sb ∧
          session.fat[blockSize / 2] = host.stack (blockSize / 2) := by
  have rootBehindFat := acceptable.layout.rootBehindFat
  have rootInside := acceptable.layout.rootInside
  obtain ⟨readsSuperblock, superblock⟩ :=
    acceptable.loadsSuperblock name reliable
  have inside : 0 + image.sb.numFatBlocks.toNat <
      (image.toDisk name).bcount := by
    change 0 + image.sb.numFatBlocks.toNat < image.size / blockSize
    omega
  rcases readFatBlocks_cases (fatBufSize image.sb.numDataBlocks) host.stack
    reliable.toIoSucceeds inside with
    ⟨fault, tooShort⟩ | ⟨buffer, reads⟩
  · left
    rw [Nat.zero_add] at tooShort
    refine ⟨fsMount_of_fault
      (loadDisk_of_image reliable notMounted noDisk found acceptable.multiple)
      readsSuperblock superblock ?_, tooShort⟩
    unfold loadFat
    rw [if_neg (by simp [reliable.mallocs]), fault]
    rfl
  · right
    have bound : blockSize / 2 < image.sb.numDataBlocks.toNat := by
      by_contra small
      obtain ⟨blocks, isBlocks⟩ := Nat.exists_eq_add_of_le' (Nat.le_of_lt two)
      rw [isBlocks, fatBufSize_of_le (Nat.le_of_not_lt small)] at reads
      have fits := readFatBlocks_fits reads
      simp only [blockSize] at fits
      omega
    refine ⟨_, bound,
      acceptable.mounts reliable notMounted noDisk found reads, rfl, ?_⟩
    apply (fatOfWords_getElem bound buffer).trans
    exact readFatBlocks_outside reads
      (.inr (show blockSize / 2 ≤ blockSize / 2 % blockSize by decide))

/-- A host on which every call succeeds, with this word on its stack. -/
def Host.withStack (word : UInt16) : Host :=
  { Host.reliable with stack := fun _ => word }

theorem Host.withStack_reliable (word : UInt16) :
    (Host.withStack word).Reliable where
  opens := fun _ => rfl
  fstat := rfl
  reads := fun _ => rfl
  writes := fun _ => rfl
  mallocs := fun _ => rfl

/-- The FAT is loaded as it is on the disk exactly if it is one block. -/
theorem loadFollowsLayout_iff
    {image : Image}
    (acceptable : image.Acceptable) :
    LoadFollowsLayout image ↔ image.sb.numFatBlocks.toNat = 1 := by
  constructor
  · intro follows
    by_contra notOne
    have fatBlocks := acceptable.layout.fatBlocks
    obtain ⟨junk, differs⟩ :=
      exists_word_ne (fatWord image.bytes (blockSize / 2))
    obtain ⟨after, result, mounts, loaded⟩ :=
      follows (Host.withStack junk) (State.initial fun _ => some image)
        "disk.fs" rfl rfl rfl
    rcases mount_of_two_le acceptable (by omega) (Host.withStack_reliable junk)
      (State.initial fun _ => some image) rfl rfl "disk.fs" rfl with
      ⟨fault, _⟩ | ⟨session, inside, mounted, _, isJunk⟩
    · rw [fault] at mounts
      exact nomatch mounts
    · rw [mounted] at mounts
      cases mounts
      obtain ⟨other, same, _, words⟩ := loaded rfl
      cases Session.toState_injective same
      exact differs (isJunk.symm.trans (words _ inside))
  · exact loadFollowsLayout_of_one acceptable.layout

/-- A mount that returns has loaded a FAT that fits into one block as it is on
the disk, for with more FAT blocks it leaves the buffer. -/
theorem loadedFollowsLayout_of_le
    {image : Image}
    (layout : image.sb.Layout (image.size / blockSize))
    (fits : image.sb.numDataBlocks.toNat ≤ blockSize / 2) :
    LoadedFollowsLayout image := by
  intro host state name session notMounted noDisk found mounts
  obtain ⟨opens, loads, _⟩ := fsMount_eq_zero mounts
  have isSb : session.sb = image.sb := by
    have superblock := loads.superblock
    rw [loadDisk_eq_some found opens, Disk.block_zero] at superblock
    exact (loadSuperblock_eq_some.mp superblock).2.1
  have one : session.sb.numFatBlocks.toNat = 1 := by
    obtain ⟨_, _, reads, _, _⟩ := loadFat_eq_some.mp loads.fat
    have fatBlocks := layout.fatBlocks
    rw [← isSb] at fits fatBlocks
    obtain ⟨blocks, isBlocks⟩ := Nat.exists_eq_add_of_le' fatBlocks
    rw [fatBufSize_of_le fits, isBlocks] at reads
    have inBuffer := readFatBlocks_fits reads
    simp only [blockSize] at inBuffer
    omega
  refine ⟨isSb, fun index inside => ?_⟩
  rw [loads.fat_one one (by rwa [isSb]) inside, loadDisk_eq_some found opens]
  rfl

/-! ## Saving -/

/-- A FAT that fits into one block is saved as it is in memory. -/
theorem saveFollowsLayout_of_le
    {image : Image}
    (layout : image.sb.Layout (image.size / blockSize))
    (fits : image.sb.numDataBlocks.toNat ≤ blockSize / 2) :
    SaveFollowsLayout image := by
  intro host session succeeds isSb isCount
  have rootBehindFat := layout.rootBehindFat
  have rootInside := layout.rootInside
  rw [← isSb] at layout fits rootBehindFat rootInside
  rw [← isCount] at rootInside
  refine ⟨_, _, session.fsUmount_toState host, session.unmounted_files host, ?_⟩
  intro index inside
  exact Session.save_fatWord_one succeeds (Nat.lt_trans rootBehindFat rootInside)
    rootBehindFat layout.fatBlocks fits inside

/-- A session on the disk of an image, with this FAT and no files. -/
def Image.session
    (image : Image)
    (fat : Fat image.sb.numDataBlocks.toNat) : Session :=
  (State.initial fun _ => some image).mounted (image.toDisk "disk.fs")
    { sb := image.sb
      fat := fat
      root := fun _ => decodeFile fun _ => 0 }

/-- Entry 2048 is saved as entry 4096, or as what lies behind the FAT. -/
theorem saveFollowsLayout_iff
    {image : Image}
    (layout : image.sb.Layout (image.size / blockSize)) :
    SaveFollowsLayout image ↔
      image.sb.numDataBlocks.toNat ≤ blockSize / 2 := by
  constructor
  · intro follows
    by_contra tooMany
    have inside : blockSize / 2 < image.sb.numDataBlocks.toNat := by omega
    have second : 1 < image.sb.numFatBlocks.toNat := by
      have capacity := layout.capacity
      simp only [blockSize] at *
      omega
    let marked : Fat image.sb.numDataBlocks.toNat :=
      Vector.ofFn fun index => if index.val = blockSize / 2 then 1 else 0
    obtain ⟨after, saved, unmounts, isFile, words⟩ :=
      follows Host.reliable (image.session marked)
        Host.reliable_reliable.toIoSucceeds rfl rfl
    rw [Session.fsUmount_toState] at unmounts
    cases unmounts
    rw [Session.unmounted_files] at isFile
    cases isFile
    have stored : fatWord ((image.session marked).save Host.reliable).bytes
        (blockSize / 2 * 1 + 0) =
          fatMemory Host.reliable marked (blockSize * 1 + 0) :=
      Session.save_fatWord Host.reliable_reliable.toIoSucceeds
        (Nat.lt_trans layout.rootBehindFat layout.rootInside)
        layout.rootBehindFat second (show 0 < blockSize / 2 by decide)
    have isMarked : marked[blockSize / 2] = 1 := by
      rw [Vector.getElem_ofFn]
      exact if_pos rfl
    have unmarked : fatMemory Host.reliable marked (blockSize * 1 + 0) = 0 := by
      unfold fatMemory
      by_cases longer : blockSize * 1 + 0 < image.sb.numDataBlocks.toNat
      · rw [Vector.getElem?_eq_getElem longer, Option.getD_some,
          Vector.getElem_ofFn]
        exact if_neg (show blockSize * 1 + 0 ≠ blockSize / 2 by decide)
      · rw [Vector.getElem?_eq_none (by omega)]
        rfl
    have equal : (0 : UInt16) = 1 :=
      calc
        (0 : UInt16) = fatWord ((image.session marked).save
            Host.reliable).bytes (blockSize / 2) := (stored.trans unmarked).symm
        _ = marked[blockSize / 2] := words _ inside
        _ = 1 := isMarked
    exact absurd equal (by decide)
  · exact saveFollowsLayout_of_le layout

/-- Both directions follow the layout on the disk exactly if the FAT is one
block.  The FAT is loaded as it is on the disk exactly if it is one block, and
saved as it is in memory exactly if it has at most the 2048 entries of one.  If
mounts that leave the buffer may do anything, the entries alone count. -/
theorem followsLayout_iff
    {image : Image}
    (acceptable : image.Acceptable) :
    (LoadFollowsLayout image ∧ SaveFollowsLayout image ↔
        image.sb.numFatBlocks.toNat = 1) ∧
      (LoadFollowsLayout image ↔ image.sb.numFatBlocks.toNat = 1) ∧
      (SaveFollowsLayout image ↔
        image.sb.numDataBlocks.toNat ≤ blockSize / 2) ∧
      (LoadedFollowsLayout image ∧ SaveFollowsLayout image ↔
        image.sb.numDataBlocks.toNat ≤ blockSize / 2) := by
  refine ⟨?_, loadFollowsLayout_iff acceptable,
    saveFollowsLayout_iff acceptable.layout, ?_⟩
  · rw [loadFollowsLayout_iff acceptable,
      saveFollowsLayout_iff acceptable.layout, and_iff_left_iff_imp]
    intro one
    have capacity := acceptable.layout.capacity
    rwa [one, Nat.mul_one] at capacity
  · rw [saveFollowsLayout_iff acceptable.layout, and_iff_right_iff_imp]
    exact loadedFollowsLayout_of_le acceptable.layout

/-! ## Fresh images -/

/-- A fresh image whose blocks are all on the disk, with FAT blocks for all data
blocks, is acceptable. -/
theorem freshImage_acceptable
    {numBlocks numDataBlocks : UInt16}
    {numFatBlocks : UInt8}
    (fits : numFatBlocks.toNat + 2 < 2 ^ 8)
    (fatBlocks : 1 ≤ numFatBlocks.toNat)
    (entries : 1 ≤ numDataBlocks.toNat)
    (capacity : numDataBlocks.toNat ≤ blockSize / 2 * numFatBlocks.toNat)
    (inside : numFatBlocks.toNat + 2 + numDataBlocks.toNat ≤
      numBlocks.toNat) :
    (freshImage numBlocks numDataBlocks numFatBlocks).Acceptable := by
  have rootIndex := freshImage_rootIndex numBlocks numDataBlocks fits
  have dataStart := freshImage_dataStartIndex numBlocks numDataBlocks fits
  constructor
  · exact Nat.mul_mod_left _ _
  · exact freshImage_accepted fits (by omega) (by omega)
  · rw [freshImage_count]
    constructor
    · exact fatBlocks
    · rwa [freshImage_numDataBlocks]
    · rwa [freshImage_numDataBlocks]
    · rw [rootIndex, freshImage_numFatBlocks]
      omega
    · rw [rootIndex]
      omega
    · rw [dataStart, freshImage_numFatBlocks]
      omega
    · rwa [dataStart, freshImage_numDataBlocks]
    · left
      rw [rootIndex, dataStart]
      omega
  · rfl
  · intro slot index
    change (freshImage numBlocks numDataBlocks numFatBlocks).bytes _ = 0
    apply freshImage_bytes_eq_zero
    · rw [freshImage_numFatBlocks]
      simp only [blockSize]
      omega
    · right
      rw [freshImage_numFatBlocks]
      simp only [blockSize]
      omega

/-- A FAT of 4096 entries in two blocks.  Its mount returns 0, but entry 2048 is
the word that was on the stack. -/
theorem not_followsLayout_twoFatBlocks :
    (freshImage 4100 4096 2).Acceptable ∧
      (∃ (session : Session)
        (inside : 2048 < session.sb.numDataBlocks.toNat),
        fsMount (Host.withStack 1)
            (State.initial fun _ => some (freshImage 4100 4096 2))
            (some "disk.fs") = .ok (session.toState, 0) ∧
          session.fat[2048] = 1 ∧
          fatWord (freshImage 4100 4096 2).bytes 2048 = 0) ∧
      ¬LoadedFollowsLayout (freshImage 4100 4096 2) ∧
      ¬SaveFollowsLayout (freshImage 4100 4096 2) := by
  have acceptable : (freshImage 4100 4096 2).Acceptable :=
    freshImage_acceptable (by decide) (by decide) (by decide) (by decide)
      (by decide)
  have isZero : fatWord (freshImage 4100 4096 2).bytes 2048 = 0 := rfl
  rcases mount_of_two_le acceptable (show 2 ≤ (2 : UInt8).toNat by decide)
    (Host.withStack_reliable 1)
    (State.initial fun _ => some (freshImage 4100 4096 2)) rfl rfl "disk.fs"
    rfl with ⟨_, tooShort⟩ | ⟨session, inside, mounts, _, isJunk⟩
  · rw [freshImage_numDataBlocks] at tooShort
    exact absurd tooShort (by decide)
  · refine ⟨acceptable, ⟨session, inside, mounts, isJunk, isZero⟩, ?_, ?_⟩
    · intro loaded
      obtain ⟨_, words⟩ := loaded _ _ _ session rfl rfl rfl mounts
      have equal : (1 : UInt16) = 0 :=
        isJunk.symm.trans ((words _ inside).trans isZero)
      exact absurd equal (by decide)
    · intro saved
      have fits := (saveFollowsLayout_iff acceptable.layout).mp saved
      rw [freshImage_numDataBlocks] at fits
      exact absurd fits (by decide)

/-- A FAT of 2048 entries in one block. -/
theorem followsLayout_iff_oneFatBlock :
    LoadFollowsLayout (freshImage 2051 2048 1) ∧
      SaveFollowsLayout (freshImage 2051 2048 1) :=
  (followsLayout_iff (freshImage_acceptable (by decide) (by decide) (by decide)
    (by decide) (by decide))).1.mpr rfl

end MsFat
