import MsFat.Mount.Codec

/-!
# The stages of mounting

When each loader accepts, and the three ways in which `fs_mount` ends: no disk
is opened, a later stage fails, or a volume is mounted.  `load_root_directory`
reads back the entries that `fs_umount` lays out in the root block, and
`fs_umount` lays out the bytes of every block that `load_root_directory` accepts.
-/

namespace MsFat

open Memory

/-! ## Opening -/

namespace Image

/-- The superblock of an image. -/
def sb (image : Image) : SuperBlock :=
  decodeSuperblock image.bytes

/-- The image as an open disk. -/
def toDisk (image : Image) (name : String) : Disk where
  diskname := name
  bcount := image.size / blockSize
  bytes := image.bytes

end Image

/-- The disk that is opened is the file of that name. -/
theorem loadDisk_eq_some
    {host : Host}
    {state : State}
    {name : String}
    {image : Image}
    {disk : Disk}
    (found : state.files name = some image)
    (opens : (loadDisk host state (some name)).1 = some disk) :
    disk = image.toDisk name := by
  unfold loadDisk at opens
  split at opens
  · exact nomatch opens
  · obtain ⟨_, _, _, other, otherImage, isName, otherFound, _, isDisk⟩ :=
      blockDiskOpen_eq_some.mp opens
    cases isName
    rw [found] at otherFound
    cases otherFound
    exact isDisk

/-- With nothing mounted, a file of whole blocks is opened. -/
theorem loadDisk_of_image
    {host : Host}
    {state : State}
    {name : String}
    {image : Image}
    (reliable : host.Reliable)
    (notMounted : state.isDiskMounted = false)
    (noDisk : state.disk = none)
    (found : state.files name = some image)
    (multiple : image.size % blockSize = 0) :
    (loadDisk host state (some name)).1 = some (image.toDisk name) := by
  unfold loadDisk
  rw [if_neg (by simp [notMounted]), noDisk]
  exact blockDiskOpen_eq_some.mpr
    ⟨rfl, reliable.opens _, reliable.fstat, name, image, rfl, found, multiple,
      rfl⟩

/-! ## The loaders -/

/-- The checks of `load_superblock`, on a disk with this number of blocks. -/
structure SuperBlock.Accepted
    (sb : SuperBlock)
    (diskCount : Int) : Prop where
  numBlocks : (sb.numBlocks.toNat : Int) = diskCount
  rootIndex : 0 < sb.rootIndex.toNat
  dataStart : sb.dataStartIndex ≠ 0
  apart : sb.dataStartIndex ≠ sb.rootIndex
  numDataBlocks : sb.numDataBlocks.toNat < sb.numBlocks.toNat
  numFatBlocks : sb.numFatBlocks.toNat < sb.numBlocks.toNat
  padding : ∀ index, sb.padding index = 0

theorem loadSuperblock_eq_some
    {host : Host}
    {disk : Option Disk}
    {superblockPtr : Buffer}
    {sb : SuperBlock} :
    loadSuperblock host disk superblockPtr = some sb ↔
      host.mallocSucceeds 0 = true ∧ sb = decodeSuperblock superblockPtr ∧
        sb.Accepted (blockDiskCount disk) := by
  unfold loadSuperblock
  constructor
  · intro loads
    simp only [Option.ite_none_left_eq_some, Bool.not_eq_eq_eq_not,
      Bool.not_true, Bool.not_eq_false, not_not, not_le, not_exists,
      ne_eq] at loads
    obtain ⟨malloc, numBlocks, rootIndex, dataStart, apart, numDataBlocks,
      numFatBlocks, padding, equal⟩ := loads
    cases equal
    exact ⟨malloc, rfl, numBlocks, rootIndex, dataStart, apart, numDataBlocks,
      numFatBlocks, padding⟩
  · rintro ⟨malloc, rfl, accepted⟩
    simp only [Option.ite_none_left_eq_some, Bool.not_eq_eq_eq_not,
      Bool.not_true, Bool.not_eq_false, not_not, not_le, not_exists, ne_eq]
    exact ⟨malloc, accepted.numBlocks, accepted.rootIndex, accepted.dataStart,
      accepted.apart, accepted.numDataBlocks, accepted.numFatBlocks,
      accepted.padding, trivial⟩

theorem loadRootDirectory_eq_some
    {host : Host}
    {rootPtr : Buffer}
    {root : Slot → File} :
    loadRootDirectory host rootPtr = some root ↔
      root = decodeRoot rootPtr ∧
        ∀ slot : Slot, host.mallocSucceeds (2 + slot) = true ∧
          ∀ index, (root slot).padding index = 0 := by
  unfold loadRootDirectory
  rw [Option.ite_none_right_eq_some, Option.some.injEq]
  constructor
  · rintro ⟨accepted, rfl⟩
    exact ⟨rfl, accepted⟩
  · rintro ⟨rfl, accepted⟩
    exact ⟨accepted, rfl⟩

/-- Root entries with padding of zeros are read back from the block that is
built of them, and the block built of the entries of an accepted block is this
block. -/
theorem rootDirectory_codec :
    (∀ (host : Host) (root : Slot → File),
      (∀ number, host.mallocSucceeds number = true) →
      (∀ slot index, (root slot).padding index = 0) →
        loadRootDirectory host (rootArray root) = some root) ∧
    ∀ (host : Host) (block : Buffer) (root : Slot → File),
      loadRootDirectory host block = some root →
        ∀ position < 4096, rootArray root position = block position := by
  constructor
  · intro host root mallocs padding
    rw [loadRootDirectory_eq_some, decodeRoot_rootArray]
    exact ⟨rfl, fun slot => ⟨mallocs _, padding slot⟩⟩
  · intro host block root loads position inside
    obtain ⟨rfl, _⟩ := loadRootDirectory_eq_some.mp loads
    exact rootArray_decodeRoot block inside

/-- A directory of files of 70000 bytes, and a block with the same bytes in front
of the padding of every entry. -/
theorem rootDirectory_codec_sample :
    loadRootDirectory .reliable (rootArray fun _ => ⟨fun _ => 97, 70000, 300,
        fun _ => 0⟩) =
        some (fun _ => ⟨fun _ => 97, 70000, 300, fun _ => 0⟩) ∧
      ∀ position < 4096,
        rootArray (decodeRoot fun index => if index % 32 < 22 then 7 else 0)
          position = if position % 32 < 22 then 7 else 0 := by
  refine ⟨rootDirectory_codec.1 .reliable _ (fun _ => rfl) fun _ _ => rfl, ?_⟩
  apply rootDirectory_codec.2 .reliable
    (fun index => if index % 32 < 22 then 7 else 0)
  refine loadRootDirectory_eq_some.mpr ⟨rfl, fun slot => ⟨rfl, ?_⟩⟩
  intro index
  change (if (32 * slot.val + (22 + index.val)) % 32 < 22 then (7 : UInt8)
    else 0) = 0
  have bound : index.val < 10 := index.isLt
  rw [if_neg (by omega)]

/-- What `load_fat` takes from the words its buffer holds. -/
def fatOfWords (count : Nat) (buffer : Nat → UInt16) : Fat count :=
  Vector.ofFn fun index => buffer index

theorem fatOfWords_getElem
    {count index : Nat}
    (inside : index < count)
    (buffer : Nat → UInt16) :
    (fatOfWords count buffer)[index] = buffer index :=
  Vector.getElem_ofFn inside

theorem loadFat_eq_some
    {host : Host}
    {disk : Disk}
    {sb : SuperBlock}
    {fat : Fat sb.numDataBlocks.toNat} :
    loadFat host disk sb = .ok (some fat) ↔
      host.mallocSucceeds 1 = true ∧
        ∃ buffer,
          readFatBlocks host disk (fatBufSize sb.numDataBlocks)
            sb.numFatBlocks.toNat 0 host.stack = .ok (some buffer) ∧
          fat = fatOfWords _ buffer ∧
          fat[0]?.getD (host.heap 0) = fatEoc := by
  unfold loadFat
  cases malloc : host.mallocSucceeds 1 with
  | false => simp
  | true =>
      cases reads : readFatBlocks host disk (fatBufSize sb.numDataBlocks)
          sb.numFatBlocks.toNat 0 host.stack with
      | error fault => simp
      | ok buffer =>
          cases buffer with
          | none => simp
          | some buffer =>
              simp only [Bool.not_true, Bool.false_eq_true, if_false,
                outcome_ok_bind, Except.ok.injEq, Option.some.injEq, true_and,
                exists_eq_left']
              by_cases first :
                  (fatOfWords sb.numDataBlocks.toNat buffer)[0]?.getD
                    (host.heap 0) = fatEoc
              · apply Iff.trans (Eq.congr_left (if_neg (not_not.mpr first)))
                constructor
                · intro equal
                  cases equal
                  exact ⟨rfl, first⟩
                · rintro ⟨rfl, _⟩
                  rfl
              · apply Iff.trans (Eq.congr_left (if_pos first))
                constructor
                · intro equal
                  exact nomatch equal
                · rintro ⟨rfl, equal⟩
                  exact absurd equal first

/-- `load_fat` returns if its loop does. -/
theorem loadFat_returns
    {host : Host}
    {disk : Disk}
    {sb : SuperBlock}
    {buffer : Option (Nat → UInt16)}
    (reads : readFatBlocks host disk (fatBufSize sb.numDataBlocks)
      sb.numFatBlocks.toNat 0 host.stack = .ok buffer) :
    ∃ fat, loadFat host disk sb = .ok fat := by
  unfold loadFat
  simp only [reads, outcome_ok_bind]
  split
  · exact ⟨none, rfl⟩
  · cases buffer with
    | none => exact ⟨none, rfl⟩
    | some buffer =>
        simp only
        split
        · exact ⟨none, rfl⟩
        · exact ⟨_, rfl⟩

/-! ## Mounting -/

/-- The mounted state that `fs_mount` reaches from a state. -/
def State.mounted
    (state : State)
    (disk : Disk)
    (volume : Volume) : Session :=
  { volume with
    files := state.files
    disk := disk
    leakedFds := state.leakedFds
    openFiles := fun _ => none
    numOpenFiles := state.numOpenFiles }

/-- Every stage behind `load_disk` accepts, and the volume is what they load. -/
structure LoadsVolume
    (host : Host)
    (disk : Disk)
    (volume : Volume) : Prop where
  readsSuperblock : blockRead host (some disk) 0 = some (disk.block 0)
  superblock : loadSuperblock host (some disk) (disk.block 0) = some volume.sb
  fat : loadFat host disk volume.sb = .ok (some volume.fat)
  root : loadRootDirectory host
    ((blockRead host (some disk) (volume.sb.numFatBlocks.toNat + 1)).getD
      (disk.block 0)) = some volume.root

/-- Once every stage accepts, the mount succeeds. -/
theorem fsMount_of_loads
    {host : Host}
    {state : State}
    {diskname : Option String}
    {disk : Disk}
    {volume : Volume}
    (opens : (loadDisk host state diskname).1 = some disk)
    (loads : LoadsVolume host disk volume) :
    fsMount host state diskname =
      .ok ((state.mounted disk volume).toState, 0) := by
  unfold fsMount
  simp only [opens, loads.readsSuperblock, loads.superblock, loads.fat,
    outcome_ok_bind, loads.root]
  rfl

/-- While a disk counts as mounted, no other one is opened. -/
theorem fsMount_of_mounted
    {state : State}
    (mounted : state.isDiskMounted = true)
    (host : Host)
    (diskname : Option String) :
    fsMount host state diskname = .ok (state, -1) := by
  have noDisk : loadDisk host state diskname = (none, state.leakedFds) := by
    unfold loadDisk
    rw [if_pos mounted]
  unfold fsMount
  rw [noDisk]
  rfl

/-- A fault of `load_fat` is one of the mount. -/
theorem fsMount_of_fault
    {host : Host}
    {state : State}
    {diskname : Option String}
    {disk : Disk}
    {sb : SuperBlock}
    {fault : Fault}
    (opens : (loadDisk host state diskname).1 = some disk)
    (reads : blockRead host (some disk) 0 = some (disk.block 0))
    (superblock : loadSuperblock host (some disk) (disk.block 0) = some sb)
    (faults : loadFat host disk sb = .error fault) :
    fsMount host state diskname = .error fault := by
  unfold fsMount
  simp only [opens, reads, superblock, faults, outcome_error_bind]

/-- A mount returns if its `load_fat` does. -/
theorem fsMount_returns
    {host : Host}
    {state : State}
    {diskname : Option String}
    (fatReturns : ∀ disk sb, (loadDisk host state diskname).1 = some disk →
      loadSuperblock host (some disk) (disk.block 0) = some sb →
      ∃ fat, loadFat host disk sb = .ok fat) :
    ∃ after result, fsMount host state diskname = .ok (after, result) := by
  unfold fsMount
  cases opens : (loadDisk host state diskname).1 with
  | none => exact ⟨_, _, rfl⟩
  | some disk =>
      dsimp only
      cases reads : blockRead host (some disk) 0 with
      | none => exact ⟨_, _, rfl⟩
      | some buffer =>
          obtain ⟨_, _, isBlock⟩ := blockRead_eq_some.mp reads
          subst isBlock
          dsimp only
          cases superblock : loadSuperblock host (some disk) (disk.block 0) with
          | none => exact ⟨_, _, rfl⟩
          | some sb =>
              obtain ⟨fat, loadsFat⟩ := fatReturns disk sb opens superblock
              simp only [loadsFat, outcome_ok_bind]
              cases fat with
              | none => exact ⟨_, _, rfl⟩
              | some fat =>
                  dsimp only
                  cases loadsRoot : loadRootDirectory host
                    ((blockRead host (some disk)
                      (sb.numFatBlocks.toNat + 1)).getD (disk.block 0)) with
                  | none => exact ⟨_, _, rfl⟩
                  | some root => exact ⟨_, _, rfl⟩

/-- A mount that returns has opened no disk, has failed later on, or has mounted
a volume. -/
theorem fsMount_cases
    {host : Host}
    {state after : State}
    {diskname : Option String}
    {result : Int}
    (returns : fsMount host state diskname = .ok (after, result)) :
    ((loadDisk host state diskname).1 = none ∧
        after = state.diskNotLoaded (loadDisk host state diskname).2 ∧
        result = -1) ∨
      ∃ disk, (loadDisk host state diskname).1 = some disk ∧
        ((after = state.diskLoaded disk ∧ result = -1) ∨
          ∃ volume, LoadsVolume host disk volume ∧
            after = (state.mounted disk volume).toState ∧ result = 0) := by
  unfold fsMount at returns
  cases opens : (loadDisk host state diskname).1 with
  | none =>
      simp only [opens] at returns
      cases returns
      exact .inl ⟨rfl, rfl, rfl⟩
  | some disk =>
      refine .inr ⟨disk, rfl, ?_⟩
      simp only [opens] at returns
      cases reads : blockRead host (some disk) 0 with
      | none =>
          simp only [reads] at returns
          cases returns
          exact .inl ⟨rfl, rfl⟩
      | some buffer =>
          obtain ⟨_, _, isBlock⟩ := blockRead_eq_some.mp reads
          subst isBlock
          simp only [reads] at returns
          cases superblock : loadSuperblock host (some disk) (disk.block 0) with
          | none =>
              simp only [superblock] at returns
              cases returns
              exact .inl ⟨rfl, rfl⟩
          | some sb =>
              simp only [superblock] at returns
              obtain ⟨fat, loadsFat, returns⟩ := outcome_bind_eq_ok returns
              cases fat with
              | none =>
                  cases returns
                  exact .inl ⟨rfl, rfl⟩
              | some fat =>
                  simp only at returns
                  cases loadsRoot : loadRootDirectory host
                    ((blockRead host (some disk)
                      (sb.numFatBlocks.toNat + 1)).getD (disk.block 0)) with
                  | none =>
                      simp only [loadsRoot] at returns
                      cases returns
                      exact .inl ⟨rfl, rfl⟩
                  | some root =>
                      simp only [loadsRoot] at returns
                      cases returns
                      exact .inr ⟨⟨sb, fat, root⟩,
                        ⟨reads, superblock, loadsFat, loadsRoot⟩, rfl, rfl⟩

/-- A mount that returns 0 leaves the mounted state of its disk and volume. -/
theorem eq_mounted_of_fsMount
    {host : Host}
    {state : State}
    {diskname : Option String}
    {session : Session}
    (mounts : fsMount host state diskname = .ok (session.toState, 0)) :
    session = state.mounted session.disk session.toVolume := by
  rcases fsMount_cases mounts with
    ⟨_, _, failed⟩ | ⟨disk, opens, ⟨_, failed⟩ | ⟨volume, loads, same, _⟩⟩
  · exact absurd failed (by decide)
  · exact absurd failed (by decide)
  · cases Session.toState_injective same
    rfl

/-- A mount that returns 0 has mounted what the loaders load, with no file
open. -/
theorem fsMount_eq_zero
    {host : Host}
    {state : State}
    {diskname : Option String}
    {session : Session}
    (mounts : fsMount host state diskname = .ok (session.toState, 0)) :
    (loadDisk host state diskname).1 = some session.disk ∧
      LoadsVolume host session.disk session.toVolume ∧
      ∀ index, session.openFiles index = none := by
  rcases fsMount_cases mounts with
    ⟨_, _, failed⟩ | ⟨disk, opens, ⟨_, failed⟩ | ⟨volume, loads, same, _⟩⟩
  · exact absurd failed (by decide)
  · exact absurd failed (by decide)
  · cases Session.toState_injective same
    exact ⟨opens, loads, fun _ => rfl⟩

end MsFat
