import MsFat.Mount.FatLayout
import MsFat.Directory.Defs

/-!
# Unmounting and mounting again

A file system with one FAT block, the root block behind it and the data blocks
behind that is restored by mounting its disk again, if the root block is on the
disk.  `fs_mount` does not look at whether it could read the root block, so it
mounts a disk without one: the root directory is then decoded from the bytes of
the superblock, and changes to it are lost.
-/

namespace MsFat

open Memory

/-- A superblock is decoded from the bytes of its block only. -/
theorem decodeSuperblock_congr
    {left right : Buffer}
    (agree : ∀ index < blockSize, left index = right index) :
    decodeSuperblock left = decodeSuperblock right := by
  unfold decodeSuperblock
  simp only [blockSize] at agree
  congr 1
  · funext index
    have bound : index.val < 8 := index.isLt
    exact agree index (by omega)
  · rw [agree 8 (by omega), agree 9 (by omega)]
  · rw [agree 10 (by omega), agree 11 (by omega)]
  · rw [agree 12 (by omega), agree 13 (by omega)]
  · rw [agree 14 (by omega), agree 15 (by omega)]
  · exact agree 16 (by omega)
  · funext index
    have bound : index.val < 4079 := index.isLt
    exact agree (17 + index) (by omega)

/-- A root directory is decoded from the bytes of its block only. -/
theorem decodeRoot_congr
    {left right : Buffer}
    (agree : ∀ index < blockSize, left index = right index) :
    decodeRoot left = decodeRoot right := by
  funext slot
  apply decodeFile_congr
  intro index inside
  apply agree
  have bound : slot.val < 128 := slot.isLt
  simp only [blockSize, rootEntryLen] at *
  omega

namespace Session

/-- The data block of this number. -/
def dataBlockBytes (session : Session) (number : Nat) : Buffer :=
  session.disk.block (session.sb.dataStartIndex.toNat + number)

/-- What a client may have changed of a mounted file system in between: the FAT
but for its first entry, the names, sizes and first indices of the root
directory, and the data blocks.  All files are closed. -/
structure Changed (mounted session : Session) : Prop where
  sb : session.sb = mounted.sb
  firstEntry : session.fat[0]? = some fatEoc
  padding : ∀ slot, (session.root slot).padding = (mounted.root slot).padding
  diskname : session.disk.diskname = mounted.disk.diskname
  bcount : session.disk.bcount = mounted.disk.bcount
  bytes : ∀ byte,
    (byte < blockSize * mounted.sb.dataStartIndex.toNat ∨
      blockSize * (mounted.sb.dataStartIndex.toNat +
        mounted.sb.numDataBlocks.toNat) ≤ byte) →
      session.disk.bytes byte = mounted.disk.bytes byte
  closed : ∀ index, session.openFiles index = none

/-- However a mounted file system has been changed, `fs_umount` and `fs_mount`
both return 0 and give it back: superblock, FAT, root directory and data
blocks. -/
def RestoredByRemount (mounted : Session) : Prop :=
  ∀ (session : Session) (saving loading : Host),
    mounted.Changed session → saving.IoSucceeds → loading.Reliable →
      ∃ (unmounted : State) (remounted : Session),
        fsUmount saving session.toState = .ok (unmounted, 0) ∧
        fsMount loading unmounted (some session.disk.diskname) =
          .ok (remounted.toState, 0) ∧
        remounted.toVolume = session.toVolume ∧
        ∀ number < session.sb.numDataBlocks.toNat, ∀ offset < blockSize,
          remounted.dataBlockBytes number offset = session.dataBlockBytes number offset

/-- The disk as the next `fs_mount` opens it. -/
def savedDisk (session : Session) (host : Host) : Disk :=
  { session.disk with bytes := (session.save host).bytes }

/-- After `fs_umount` the disk is opened again. -/
theorem loadDisk_unmounted
    (session : Session)
    (saving : Host)
    {loading : Host}
    (reliable : loading.Reliable) :
    (loadDisk loading (session.unmounted saving)
      (some session.disk.diskname)).1 = some (session.savedDisk saving) := by
  refine (loadDisk_of_image reliable rfl rfl (session.unmounted_files saving)
    (Nat.mul_mod_left _ _)).trans (congrArg some ?_)
  exact Disk.ext rfl (Nat.mul_div_cancel _ (by decide)) rfl

/-- One FAT block, the root block behind it, and the data blocks behind that. -/
structure OneFatBlock (sb : SuperBlock) : Prop where
  numFatBlocks : sb.numFatBlocks.toNat = 1
  rootIndex : sb.rootIndex.toNat = 2
  dataStart : sb.dataStartIndex.toNat = 3
  fits : sb.numDataBlocks.toNat ≤ blockSize / 2

section Remount

variable {mounted session : Session} {host saving loading : Host}

/-- Neither the change nor the unmount touches the superblock. -/
theorem savedDisk_superblock
    (oneFatBlock : OneFatBlock mounted.sb)
    (changed : mounted.Changed session)
    (saving : Host)
    {byte : Nat}
    (inBlock : byte < blockSize) :
    (session.savedDisk saving).bytes byte = mounted.disk.bytes byte := by
  have rootIndex := oneFatBlock.rootIndex
  have dataStart := oneFatBlock.dataStart
  have kept : (session.save saving).bytes byte = session.disk.bytes byte := by
    refine session.save_outside saving (.inl inBlock) (.inl ?_)
    rw [changed.sb, rootIndex]
    omega
  refine kept.trans (changed.bytes byte (.inl ?_))
  rw [dataStart]
  omega

theorem OneFatBlock.of_changed
    (oneFatBlock : OneFatBlock mounted.sb)
    (changed : mounted.Changed session) :
    OneFatBlock session.sb :=
  changed.sb ▸ oneFatBlock

/-- `load_superblock` loads what was saved. -/
theorem loadSuperblock_savedDisk
    (oneFatBlock : OneFatBlock mounted.sb)
    (loads : LoadsVolume host mounted.disk mounted.toVolume)
    (changed : mounted.Changed session)
    (saving : Host)
    (reliable : loading.Reliable) :
    loadSuperblock loading (some (session.savedDisk saving))
      ((session.savedDisk saving).block 0) = some session.sb := by
  obtain ⟨_, isSb, accepted⟩ := loadSuperblock_eq_some.mp loads.superblock
  refine loadSuperblock_eq_some.mpr ⟨reliable.mallocs 0, ?_, ?_⟩
  · rw [changed.sb]
    refine isSb.trans (decodeSuperblock_congr fun index inBlock => ?_)
    rw [Disk.block_zero, Disk.block_zero]
    exact (savedDisk_superblock oneFatBlock changed saving inBlock).symm
  · rw [changed.sb]
    change mounted.sb.Accepted (int32 session.disk.bcount)
    rw [changed.bcount]
    exact accepted

/-- `load_fat` loads what was saved. -/
theorem loadFat_savedDisk
    (oneFatBlock : OneFatBlock session.sb)
    (rootInside : 3 ≤ session.disk.bcount)
    (firstEntry : session.fat[0]? = some fatEoc)
    (succeeds : saving.IoSucceeds)
    (reliable : loading.Reliable) :
    loadFat loading (session.savedDisk saving) session.sb =
      .ok (some session.fat) := by
  have numFatBlocks := oneFatBlock.numFatBlocks
  have rootIndex := oneFatBlock.rootIndex
  have fits := oneFatBlock.fits
  let words := memcpy loading.stack 0
    (fatWord (session.savedDisk saving).bytes) 0 (blockSize / 2)
  have reads : readFatBlocks loading (session.savedDisk saving)
      (fatBufSize session.sb.numDataBlocks) session.sb.numFatBlocks.toNat 0
      loading.stack = .ok (some words) := by
    rw [numFatBlocks, fatBufSize_of_le fits]
    exact readFatBlocks_one_of_succeeds reliable.toIoSucceeds
      (show 1 < (session.savedDisk saving).bcount by
        change 1 < session.disk.bcount
        omega)
      (show blockSize / 2 ≤ blockSize by decide) loading.stack
  have isFat : session.fat = fatOfWords _ words := by
    apply Vector.ext
    intro index inside
    rw [fatOfWords_getElem inside]
    refine Eq.trans ?_
      (memcpy_apply_inside (Nat.zero_le _) (by omega)).symm
    rw [Nat.zero_add, Nat.sub_zero]
    exact (save_fatWord_one succeeds
      (show session.sb.numFatBlocks.toNat < session.disk.bcount by omega)
      (by omega) (by omega) fits inside).symm
  refine loadFat_eq_some.mpr ⟨reliable.mallocs 1, words, reads, isFat, ?_⟩
  rw [firstEntry]
  rfl

/-- `load_root_directory` loads what was saved. -/
theorem loadRootDirectory_savedDisk
    (oneFatBlock : OneFatBlock session.sb)
    (rootInside : 3 ≤ session.disk.bcount)
    (padding : ∀ slot index, (session.root slot).padding index = 0)
    (succeeds : saving.IoSucceeds)
    (reliable : loading.Reliable) :
    loadRootDirectory loading
      ((blockRead loading (some (session.savedDisk saving))
        (session.sb.numFatBlocks.toNat + 1)).getD
          ((session.savedDisk saving).block 0)) = some session.root := by
  have rootIndex := oneFatBlock.rootIndex
  have readsRoot : blockRead loading (some (session.savedDisk saving))
      (session.sb.numFatBlocks.toNat + 1) =
        some ((session.savedDisk saving).block 2) := by
    rw [oneFatBlock.numFatBlocks]
    exact blockRead_of_succeeds reliable.toIoSucceeds
      (show 2 < session.disk.bcount by omega)
  rw [readsRoot, Option.getD_some]
  have isRoot : session.root =
      decodeRoot ((session.savedDisk saving).block 2) := by
    rw [← decodeRoot_rootArray session.root]
    apply decodeRoot_congr
    intro offset inBlock
    rw [← save_rootBlock succeeds
      (show session.sb.rootIndex.toNat < session.disk.bcount by omega)
      inBlock, rootIndex]
    rfl
  exact loadRootDirectory_eq_some.mpr
    ⟨isRoot, fun slot => ⟨reliable.mallocs _, padding slot⟩⟩

/-- If the root block is on the disk, the loaders load what was saved. -/
theorem loadsVolume_savedDisk
    (oneFatBlock : OneFatBlock mounted.sb)
    (loads : LoadsVolume host mounted.disk mounted.toVolume)
    (rootInside : 3 ≤ mounted.disk.bcount)
    (changed : mounted.Changed session)
    (succeeds : saving.IoSucceeds)
    (reliable : loading.Reliable) :
    LoadsVolume loading (session.savedDisk saving) session.toVolume := by
  obtain ⟨_, padding⟩ := loadRootDirectory_eq_some.mp loads.root
  have rootInside' : 3 ≤ session.disk.bcount := by
    rw [changed.bcount]
    exact rootInside
  have oneFatBlock' := oneFatBlock.of_changed changed
  refine ⟨?_, ?_, ?_, ?_⟩
  · exact blockRead_of_succeeds reliable.toIoSucceeds
      (show 0 < session.disk.bcount by omega)
  · exact loadSuperblock_savedDisk oneFatBlock loads changed saving reliable
  · exact loadFat_savedDisk oneFatBlock' rootInside' changed.firstEntry succeeds
      reliable
  · refine loadRootDirectory_savedDisk oneFatBlock' rootInside' ?_ succeeds
      reliable
    intro slot index
    rw [changed.padding]
    exact (padding slot).2 index

/-- If the root block is on the disk, what was saved is mounted again. -/
theorem fsMount_unmounted
    (oneFatBlock : OneFatBlock mounted.sb)
    (loads : LoadsVolume host mounted.disk mounted.toVolume)
    (rootInside : 3 ≤ mounted.disk.bcount)
    (changed : mounted.Changed session)
    (succeeds : saving.IoSucceeds)
    (reliable : loading.Reliable) :
    fsMount loading (session.unmounted saving) (some session.disk.diskname) =
      .ok (((session.unmounted saving).mounted (session.savedDisk saving)
        session.toVolume).toState, 0) :=
  fsMount_of_loads (session.loadDisk_unmounted saving reliable)
    (loadsVolume_savedDisk oneFatBlock loads rootInside changed succeeds
      reliable)

/-- If the root block is on the disk, every change is restored. -/
theorem restoredByRemount_of_le
    (oneFatBlock : OneFatBlock mounted.sb)
    (loads : LoadsVolume host mounted.disk mounted.toVolume)
    (rootInside : 3 ≤ mounted.disk.bcount) :
    RestoredByRemount mounted := by
  intro session saving loading changed succeeds reliable
  refine ⟨_, _, session.fsUmount_toState saving,
    fsMount_unmounted oneFatBlock loads rootInside changed succeeds reliable,
    rfl, ?_⟩
  intro number _ offset _
  obtain ⟨numFatBlocks, rootIndex, dataStart, _⟩ :=
    oneFatBlock.of_changed changed
  change (session.save saving).bytes
    ((session.sb.dataStartIndex.toNat + number) * blockSize + offset) = _
  refine session.save_outside saving (.inr ?_) (.inr ?_)
  · rw [numFatBlocks, dataStart, Nat.mul_comm (3 + number)]
    simp only [blockSize]
    omega
  · rw [rootIndex, dataStart, Nat.mul_comm (3 + number)]
    simp only [blockSize]
    omega

/-- If the root block is not on the disk, the root directory is decoded from the
superblock. -/
theorem root_of_outside
    {disk : Disk}
    {volume : Volume}
    (loads : LoadsVolume host disk volume)
    (numFatBlocks : volume.sb.numFatBlocks.toNat = 1)
    (rootOutside : disk.bcount < 3) :
    volume.root = decodeRoot (disk.block 0) := by
  have isRoot := (loadRootDirectory_eq_some.mp loads.root).1
  rw [numFatBlocks, blockRead_of_le host (show disk.bcount ≤ 1 + 1 by omega)]
    at isRoot
  exact isRoot

/-- A file that keeps the padding of its root entry changes no padding. -/
theorem setFile_padding
    {slot : Slot}
    {file : File}
    (padding : file.padding = (mounted.root slot).padding)
    (other : Slot) :
    ((mounted.setFile slot file).root other).padding =
      (mounted.root other).padding := by
  by_cases same : other = slot
  · subst same
    rw [setFile_root_self, padding]
  · rw [setFile_root_of_ne same]

/-- The size of the first entry of the root directory is changed. -/
def resized (mounted : Session) : Session :=
  mounted.setFile 0
    { mounted.root 0 with fileSize := (mounted.root 0).fileSize + 1 }

/-- If the root block is not on the disk, a change of the root directory is
lost. -/
theorem not_restoredByRemount_of_lt
    (oneFatBlock : OneFatBlock mounted.sb)
    (loads : LoadsVolume host mounted.disk mounted.toVolume)
    (firstEntry : mounted.fat[0]? = some fatEoc)
    (closed : ∀ index, mounted.openFiles index = none)
    (rootOutside : mounted.disk.bcount < 3) :
    ¬RestoredByRemount mounted := by
  intro restored
  have changed : mounted.Changed mounted.resized :=
    { sb := rfl
      firstEntry := firstEntry
      padding := setFile_padding rfl
      diskname := rfl
      bcount := rfl
      bytes := fun _ _ => rfl
      closed := closed }
  obtain ⟨unmounted, remounted, unmounts, mounts, same, _⟩ :=
    restored mounted.resized Host.reliable Host.reliable changed
      Host.reliable_reliable.toIoSucceeds Host.reliable_reliable
  rw [fsUmount_toState] at unmounts
  cases unmounts
  obtain ⟨opens, reloads, _⟩ := fsMount_eq_zero mounts
  rw [loadDisk_unmounted _ _ Host.reliable_reliable] at opens
  have isDisk := Option.some.inj opens
  have numFatBlocks : remounted.sb.numFatBlocks.toNat = 1 := by
    rw [show remounted.sb = mounted.resized.sb from congrArg Volume.sb same]
    exact oneFatBlock.numFatBlocks
  have isRoot : remounted.root = mounted.root := by
    rw [← isDisk] at reloads
    rw [root_of_outside reloads numFatBlocks rootOutside,
      root_of_outside loads oneFatBlock.numFatBlocks rootOutside]
    apply decodeRoot_congr
    intro index inBlock
    rw [Disk.block_zero, Disk.block_zero]
    exact savedDisk_superblock oneFatBlock changed Host.reliable inBlock
  have resizedRoot : remounted.root = mounted.resized.root :=
    congrArg Volume.root same
  have sizes : (mounted.root 0).fileSize = (mounted.root 0).fileSize + 1 := by
    calc
      (mounted.root 0).fileSize = (mounted.resized.root 0).fileSize := by
        rw [← isRoot, resizedRoot]
      _ = (mounted.root 0).fileSize + 1 := by
        rw [resized, setFile_root_self]
  have values := congrArg UInt32.toNat sizes
  rw [UInt32.toNat_add] at values
  change _ = (_ + 1) % 2 ^ 32 at values
  omega

end Remount

/-- A mounted file system with one FAT block is restored exactly if its root
block is on the disk. -/
theorem restoredByRemount_iff
    {host : Host}
    {state : State}
    {diskname : Option String}
    {mounted : Session}
    (mounts : fsMount host state diskname = .ok (mounted.toState, 0))
    (oneFatBlock : OneFatBlock mounted.sb)
    (entries : 1 ≤ mounted.sb.numDataBlocks.toNat) :
    RestoredByRemount mounted ↔ 3 ≤ mounted.disk.bcount := by
  obtain ⟨_, loads, closed⟩ := fsMount_eq_zero mounts
  constructor
  · intro restored
    by_contra tooShort
    exact not_restoredByRemount_of_lt oneFatBlock loads
      (loads.firstEntry entries) closed (Nat.lt_of_not_le tooShort) restored
  · exact restoredByRemount_of_le oneFatBlock loads

theorem freshImage_oneFatBlock
    {numBlocks numDataBlocks : UInt16}
    (fits : numDataBlocks.toNat ≤ blockSize / 2) :
    OneFatBlock (freshImage numBlocks numDataBlocks 1).sb := by
  refine ⟨rfl, rfl, rfl, ?_⟩
  rw [freshImage_numDataBlocks]
  exact fits

/-- A fresh image with one FAT block is mounted, whether or not its root block
is on the disk. -/
theorem freshImage_mounts
    {numBlocks numDataBlocks : UInt16}
    (entries : 1 ≤ numDataBlocks.toNat)
    (fits : numDataBlocks.toNat ≤ blockSize / 2)
    (dataBlocks : numDataBlocks.toNat < numBlocks.toNat) :
    ∃ mounted : Session,
      fsMount Host.reliable
          (State.initial fun _ => some (freshImage numBlocks numDataBlocks 1))
          (some "disk.fs") = .ok (mounted.toState, 0) ∧
        mounted.sb = (freshImage numBlocks numDataBlocks 1).sb ∧
        mounted.disk =
          (freshImage numBlocks numDataBlocks 1).toDisk "disk.fs" := by
  let image := freshImage numBlocks numDataBlocks 1
  let disk := image.toDisk "disk.fs"
  let words := memcpy Host.reliable.stack 0 (fatWord disk.bytes) 0
    (blockSize / 2)
  have isCount : image.sb.numDataBlocks = numDataBlocks :=
    freshImage_numDataBlocks _ _ _
  have bcount : disk.bcount = numBlocks.toNat := freshImage_count
  have loads : LoadsVolume Host.reliable disk
      { sb := image.sb
        fat := fatOfWords _ words
        root := decodeRoot
          ((blockRead Host.reliable (some disk) 2).getD (disk.block 0)) } := by
    refine ⟨?_, ?_, ?_, ?_⟩
    · exact blockRead_of_succeeds Host.reliable_reliable.toIoSucceeds
        (by omega)
    · rw [Disk.block_zero]
      exact loadSuperblock_eq_some.mpr ⟨rfl, rfl,
        freshImage_accepted (by decide) dataBlocks
          (Nat.lt_of_le_of_lt entries dataBlocks)⟩
    · refine loadFat_eq_some.mpr ⟨rfl, words, ?_, rfl, ?_⟩
      · rw [fatBufSize_of_le (isCount ▸ fits)]
        exact readFatBlocks_one_of_succeeds
          Host.reliable_reliable.toIoSucceeds (by omega)
          (show blockSize / 2 ≤ blockSize by decide) _
      · rw [Vector.getElem?_eq_getElem (isCount ▸ entries), Option.getD_some]
        exact fatOfWords_getElem (isCount ▸ entries) words
    · refine loadRootDirectory_eq_some.mpr ⟨rfl, fun slot => ⟨rfl, ?_⟩⟩
      intro index
      have slotBound : slot.val < 128 := slot.isLt
      have indexBound : index.val < 10 := index.isLt
      cases reads : blockRead Host.reliable (some disk) 2 with
      | none =>
          rw [Option.getD_none, Disk.block_zero]
          apply freshImage_bytes_eq_zero
          · omega
          · left
            simp only [blockSize, rootEntryLen]
            omega
      | some buffer =>
          obtain ⟨_, _, isBlock⟩ := blockRead_eq_some.mp reads
          subst isBlock
          apply freshImage_bytes_eq_zero
          · simp only [blockSize]
            omega
          · right
            simp only [blockSize]
            omega
  exact ⟨_, fsMount_of_loads
    (loadDisk_of_image Host.reliable_reliable rfl rfl rfl
      (Nat.mul_mod_left _ _)) loads, rfl, rfl⟩

/-- The root directory of a fresh image holds no files. -/
theorem freshImage_root
    {numBlocks numDataBlocks : UInt16}
    {name : String}
    {host : Host}
    {volume : Volume}
    (loads : LoadsVolume host
      ((freshImage numBlocks numDataBlocks 1).toDisk name) volume)
    (rootInside : 2 < numBlocks.toNat)
    (succeeds : host.IoSucceeds) :
    volume.root = fun _ => decodeFile fun _ => 0 := by
  let disk := (freshImage numBlocks numDataBlocks 1).toDisk name
  have isRoot := (loadRootDirectory_eq_some.mp loads.root).1
  have isSb : volume.sb = (freshImage numBlocks numDataBlocks 1).sb := by
    rw [(loadSuperblock_eq_some.mp loads.superblock).2.1, Disk.block_zero]
    rfl
  have reads : blockRead host (some disk) 2 = some (disk.block 2) :=
    blockRead_of_succeeds succeeds
      (show 2 < disk.bcount from rootInside.trans_eq freshImage_count.symm)
  rw [isSb, freshImage_numFatBlocks, show (1 : UInt8).toNat + 1 = 2 from rfl,
    reads, Option.getD_some] at isRoot
  have blank : decodeRoot (disk.block 2) = decodeRoot fun _ => 0 := by
    apply decodeRoot_congr
    intro index _
    apply freshImage_bytes_eq_zero
    · simp only [blockSize]
      omega
    · right
      simp only [blockSize]
      omega
  exact isRoot.trans blank

/-- What is mounted from a fresh disk of four blocks, one of each kind. -/
structure FourBlocks (mounted : Session) : Prop where
  mounts : fsMount .reliable (State.initial fun _ => some (freshImage 4 1 1))
    (some "disk.fs") = .ok (mounted.toState, 0)
  sb : mounted.sb = (freshImage 4 1 1).sb
  disk : mounted.disk = (freshImage 4 1 1).toDisk "disk.fs"

theorem exists_fourBlocks : ∃ mounted : Session, mounted.FourBlocks := by
  obtain ⟨mounted, mounts, isSb, isDisk⟩ :=
    freshImage_mounts (show 1 ≤ (1 : UInt16).toNat by decide) (by decide)
      (show (1 : UInt16).toNat < (4 : UInt16).toNat by decide)
  exact ⟨mounted, mounts, isSb, isDisk⟩

namespace FourBlocks

variable {mounted : Session} (fourBlocks : mounted.FourBlocks)

include fourBlocks

theorem loads : LoadsVolume .reliable mounted.disk mounted.toVolume :=
  (fsMount_eq_zero fourBlocks.mounts).2.1

theorem openFiles : mounted.openFiles = fun _ => none :=
  funext (fsMount_eq_zero fourBlocks.mounts).2.2

theorem numOpenFiles : mounted.numOpenFiles = 0 :=
  congrArg Session.numOpenFiles (eq_mounted_of_fsMount fourBlocks.mounts)

theorem oneFatBlock : OneFatBlock mounted.sb := by
  rw [fourBlocks.sb]
  exact freshImage_oneFatBlock (by decide)

theorem entries : mounted.sb.numDataBlocks.toNat = 1 := by
  rw [fourBlocks.sb]
  rfl

theorem firstEntry : mounted.fat[0]? = some fatEoc :=
  fourBlocks.loads.firstEntry fourBlocks.entries.ge

theorem rootInside : 3 ≤ mounted.disk.bcount := by
  rw [fourBlocks.disk]
  decide

theorem root : mounted.root = fun _ => decodeFile fun _ => 0 :=
  freshImage_root (fourBlocks.disk ▸ fourBlocks.loads) (by decide)
    Host.reliable_reliable.toIoSucceeds

/-- Whatever a client changes, it is mounted again. -/
theorem remounts
    {session : Session}
    (changed : mounted.Changed session) :
    fsMount .reliable (session.unmounted .reliable) (some "disk.fs") =
      .ok (((session.unmounted .reliable).mounted (session.savedDisk .reliable)
        session.toVolume).toState, 0) := by
  have remounts := fsMount_unmounted fourBlocks.oneFatBlock fourBlocks.loads
    fourBlocks.rootInside changed Host.reliable_reliable.toIoSucceeds
    Host.reliable_reliable
  rw [changed.diskname, fourBlocks.disk] at remounts
  exact remounts

end FourBlocks

/-- A disk of two blocks, the superblock and the FAT. -/
theorem not_restoredByRemount_twoBlocks :
    ∃ mounted : Session,
      fsMount Host.reliable
          (State.initial fun _ => some (freshImage 2 1 1))
          (some "disk.fs") = .ok (mounted.toState, 0) ∧
        OneFatBlock mounted.sb ∧
        mounted.sb.numDataBlocks.toNat = 1 ∧
        ¬RestoredByRemount mounted := by
  obtain ⟨mounted, mounts, isSb, isDisk⟩ :=
    freshImage_mounts (show 1 ≤ (1 : UInt16).toNat by decide) (by decide)
      (show (1 : UInt16).toNat < (2 : UInt16).toNat by decide)
  have oneFatBlock : OneFatBlock mounted.sb := by
    rw [isSb]
    exact freshImage_oneFatBlock (by decide)
  have entries : mounted.sb.numDataBlocks.toNat = 1 := by
    rw [isSb]
    rfl
  obtain ⟨_, loads, closed⟩ := fsMount_eq_zero mounts
  refine ⟨mounted, mounts, oneFatBlock, entries, ?_⟩
  refine not_restoredByRemount_of_lt oneFatBlock loads
    (loads.firstEntry (by omega)) closed ?_
  rw [isDisk]
  decide

/-- A disk of four blocks, one of each kind. -/
theorem restoredByRemount_iff_fourBlocks :
    ∃ mounted : Session,
      fsMount Host.reliable
          (State.initial fun _ => some (freshImage 4 1 1))
          (some "disk.fs") = .ok (mounted.toState, 0) ∧
        RestoredByRemount mounted := by
  obtain ⟨mounted, fourBlocks⟩ := exists_fourBlocks
  exact ⟨mounted, fourBlocks.mounts,
    (restoredByRemount_iff fourBlocks.mounts fourBlocks.oneFatBlock
      fourBlocks.entries.ge).mpr fourBlocks.rootInside⟩

end Session

end MsFat
