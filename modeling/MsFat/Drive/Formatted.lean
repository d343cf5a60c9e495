import MsFat.Frame
import MsFat.Mount.Layout
import MsFat.Mount.Remount

/-!
# Formatted disks

Disks with one FAT block whose fields fit, and what holds of them between a
mount and the next one: no call on files changes the superblock, the FAT block
or the root block of the disk.  Only `fs_umount` stores the volume there, and
from there the next `fs_mount` loads it.
-/

namespace MsFat

open Memory

/-- A layout with one FAT block, which holds the entries of the FAT, of which
there is one at least. -/
structure OneFatLayout (sb : SuperBlock) : Prop where
  numFatBlocks : sb.numFatBlocks.toNat = 1
  fits : sb.LayoutFits
  entries : 1 ≤ sb.numDataBlocks.toNat

namespace OneFatLayout

variable {sb : SuperBlock} (layout : OneFatLayout sb)

include layout

theorem rootIndex : sb.rootIndex.toNat = 2 := by
  rw [layout.fits.root, layout.numFatBlocks]

theorem entries_le : sb.numDataBlocks.toNat ≤ blockSize / 2 := by
  have fat := layout.fits.fat
  rw [layout.numFatBlocks] at fat
  omega

theorem dataStart_lt : 2 < sb.dataStartIndex.toNat := by
  have data := layout.fits.data
  have entries := layout.entries
  rw [layout.numFatBlocks] at data
  omega

/-- The three blocks in front of the data blocks. -/
theorem front_not_mem
    {block : Nat}
    (front : block ≤ 2) :
    block ∉ sb.dataRegion := by
  have dataStart := layout.dataStart_lt
  rw [SuperBlock.dataRegion, Set.mem_Ico]
  omega

/-- The FAT block is read. -/
theorem reads_fat
    {disk : Disk}
    (accepted : sb.Accepted (blockDiskCount (some disk)))
    {host : Host}
    (succeeds : host.IoSucceeds) :
    readFatBlocks host disk (fatBufSize sb.numDataBlocks) sb.numFatBlocks.toNat
      0 host.stack =
        .ok (some (memcpy host.stack 0 (fatWord disk.bytes) 0
          (blockSize / 2))) := by
  have inside := layout.fits.inside
  have enough := accepted.numBlocks_le
  rw [layout.numFatBlocks] at inside
  rw [layout.numFatBlocks, fatBufSize_of_le layout.entries_le]
  exact readFatBlocks_one_of_succeeds succeeds (by omega) (by decide) host.stack

end OneFatLayout

namespace Session

/-- The disk was formatted with the superblock that is mounted. -/
structure Formatted (session : Session) : Prop where
  layout : OneFatLayout session.sb
  superblock : session.sb = decodeSuperblock session.disk.bytes
  accepted : session.sb.Accepted (blockDiskCount (some session.disk))
  padding : ∀ slot index, (session.root slot).padding index = 0

/-- What the calls on files leave as it was: the superblock and all bytes
outside the data blocks. -/
structure SameFront (before after : Session) : Prop where
  sb : after.sb = before.sb
  padding : ∀ slot, (after.root slot).padding = (before.root slot).padding
  files : after.files = before.files
  diskname : after.disk.diskname = before.disk.diskname
  bcount : after.disk.bcount = before.disk.bcount
  bytes : ∀ byte, byte / blockSize ∉ before.sb.dataRegion →
    after.disk.bytes byte = before.disk.bytes byte

variable {session after : Session}

namespace SameFront

theorem refl (session : Session) : SameFront session session where
  sb := rfl
  padding := fun _ => rfl
  files := rfl
  diskname := rfl
  bcount := rfl
  bytes := fun _ _ => rfl

theorem trans
    {last : Session}
    (first : SameFront session after)
    (second : SameFront after last) :
    SameFront session last where
  sb := second.sb.trans first.sb
  padding := fun slot => (second.padding slot).trans (first.padding slot)
  files := second.files.trans first.files
  diskname := second.diskname.trans first.diskname
  bcount := second.bcount.trans first.bcount
  bytes := by
    intro byte outside
    refine (second.bytes byte ?_).trans (first.bytes byte outside)
    rw [first.sb]
    exact outside

/-- The disk stays formatted. -/
theorem formatted
    (same : SameFront session after)
    (formatted : session.Formatted) :
    after.Formatted where
  layout := by
    rw [same.sb]
    exact formatted.layout
  superblock := by
    rw [same.sb, formatted.superblock]
    apply decodeSuperblock_congr
    intro index inBlock
    refine (same.bytes index (formatted.layout.front_not_mem ?_)).symm
    rw [Nat.div_eq_of_lt inBlock]
    omega
  accepted := by
    change after.sb.Accepted (int32 after.disk.bcount)
    rw [same.sb, same.bcount]
    exact formatted.accepted
  padding := by
    intro slot index
    rw [same.padding]
    exact formatted.padding slot index

end SameFront

/-! ## Calls on files -/

/-- Bytes that are stored in a chain lie in data blocks. -/
theorem bytes_stored
    {chain : List UInt16}
    {firstIndex : UInt16}
    (isChain : FatChain session.fat firstIndex chain)
    {start bytes : Nat}
    (buf : Buffer)
    (inside : bytes = 0 ∨ start + bytes ≤ blockSize * chain.length)
    {byte : Nat}
    (outside : byte / blockSize ∉ session.sb.dataRegion) :
    (session.stored chain start buf bytes).disk.bytes byte =
      session.disk.bytes byte := by
  apply scatter_apply_of_ne
  intro offset early same
  apply outside
  obtain ⟨index, member, isBlock⟩ :=
    session.place_diskBlocks (show start + offset < blockSize * chain.length by
      rcases inside with none | holds <;> omega)
  have below := isChain.lt_count member
  rw [← same, isBlock, SuperBlock.dataRegion, Set.mem_Ico]
  omega

/-- The stages of a write. -/
theorem sameFront_of_written
    {index : Descriptor}
    {descriptor : FileDescriptor}
    {host : Host}
    {buf : Buffer}
    {count : Nat}
    {chain : List UInt16}
    {fat' : Fat session.sb.numDataBlocks.toNat}
    {firstIndex' : UInt16}
    {result : Int}
    (isChain : FatChain fat' firstIndex' chain)
    (written : Written (session.setChain descriptor.file fat' firstIndex')
      chain host index descriptor buf count after result) :
    SameFront session after := by
  have allocates : SameFront session
      (session.setChain descriptor.file fat' firstIndex') :=
    ⟨rfl, setFile_padding rfl, rfl, rfl, rfl, fun _ _ => rfl⟩
  have stores : ∀ bytes, bytes = 0 ∨
      descriptor.offset.toNat + bytes ≤ blockSize * chain.length →
      SameFront session
        ((session.setChain descriptor.file fat' firstIndex').stored chain
          descriptor.offset.toNat buf bytes) := by
    intro bytes inside
    refine allocates.trans ⟨rfl, fun _ => rfl, rfl, rfl, rfl, ?_⟩
    exact fun _ outside => bytes_stored isChain buf inside outside
  cases written with
  | complete inside =>
      exact (stores count (.inr inside)).trans
        ⟨rfl, setFile_padding rfl, rfl, rfl, rfl, fun _ _ => rfl⟩
  | short short => exact stores _ (by omega)
  | hostFailed bytes _ inside _ => exact stores bytes inside

end Session

/-- No call on files changes what lies in front of the data blocks. -/
theorem Effect.sameFront
    {session after : Session}
    {event : Event}
    (effect : Effect session event after) :
    session.SameFront after := by
  cases effect with
  | unchanged _ => exact .refl session
  | created _ _ _ _ _ =>
      exact ⟨rfl, Session.setFile_padding rfl, rfl, rfl, rfl, fun _ _ => rfl⟩
  | @deleted _ slot _ _ _ _ _ _ _ _ =>
      have padding := @Session.setFile_padding session slot
        (clearedFile (session.root slot)) rfl
      exact ⟨rfl, padding, rfl, rfl, rfl, fun _ _ => rfl⟩
  | opened _ _ _ _ _ =>
      exact ⟨rfl, fun _ => rfl, rfl, rfl, rfl, fun _ _ => rfl⟩
  | closed _ _ _ => exact ⟨rfl, fun _ => rfl, rfl, rfl, rfl, fun _ _ => rfl⟩
  | sought _ _ _ _ => exact ⟨rfl, fun _ => rfl, rfl, rfl, rfl, fun _ _ => rfl⟩
  | read _ _ _ => exact ⟨rfl, fun _ => rfl, rfl, rfl, rfl, fun _ _ => rfl⟩
  | wrote _ _ _ _ grown written =>
      exact Session.sameFront_of_written grown.isChain written

/-! ## Volumes on a disk -/

/-- The disk holds the volume in its first three blocks. -/
structure Disk.Holds (disk : Disk) (volume : Volume) : Prop where
  superblock : volume.sb = decodeSuperblock disk.bytes
  fat : ∀ index (inside : index < volume.sb.numDataBlocks.toNat),
    volume.fat[index] = fatWord disk.bytes index
  root : volume.root = decodeRoot (disk.block 2)

namespace Disk.Holds

variable {disk : Disk} {volume : Volume}

/-- What is loaded from a disk is what it holds. -/
theorem of_loads
    {host : Host}
    (loads : LoadsVolume host disk volume)
    (layout : OneFatLayout volume.sb)
    (succeeds : host.IoSucceeds) :
    disk.Holds volume where
  superblock := by
    have isSb := (loadSuperblock_eq_some.mp loads.superblock).2.1
    rw [Disk.block_zero] at isSb
    exact isSb
  fat := fun _ inside =>
    loads.fat_one layout.numFatBlocks layout.entries_le inside
  root := by
    have accepted := (loadSuperblock_eq_some.mp loads.superblock).2.2
    have rootInside := layout.fits.inside
    have enough := accepted.numBlocks_le
    have isRoot := (loadRootDirectory_eq_some.mp loads.root).1
    rw [layout.numFatBlocks] at rootInside isRoot
    rw [blockRead_of_succeeds succeeds (show 1 + 1 < disk.bcount by omega),
      Option.getD_some] at isRoot
    exact isRoot

/-- What a disk holds is loaded from it, if the FAT begins as a mount expects
it. -/
theorem loads
    (holds : disk.Holds volume)
    (layout : OneFatLayout volume.sb)
    (accepted : volume.sb.Accepted (blockDiskCount (some disk)))
    (padding : ∀ slot index, (volume.root slot).padding index = 0)
    (firstEntry : fatNext volume.fat 0 = some fatEoc)
    {host : Host}
    (reliable : host.Reliable) :
    LoadsVolume host disk volume := by
  have rootInside := layout.fits.inside
  have enough := accepted.numBlocks_le
  have one := layout.numFatBlocks
  rw [one] at rootInside
  refine ⟨?_, ?_, ?_, ?_⟩
  · exact blockRead_of_succeeds reliable.toIoSucceeds (by omega)
  · rw [Disk.block_zero]
    exact loadSuperblock_eq_some.mpr
      ⟨reliable.mallocs 0, holds.superblock, accepted⟩
  · refine loadFat_eq_some.mpr ⟨reliable.mallocs 1, _,
      layout.reads_fat accepted reliable.toIoSucceeds, ?_, ?_⟩
    · apply Vector.ext
      intro index inside
      have entries := layout.entries_le
      rw [fatOfWords_getElem inside, holds.fat index inside]
      refine Eq.trans ?_ (memcpy_apply_inside (Nat.zero_le _) (by omega)).symm
      rw [Nat.zero_add, Nat.sub_zero]
    · have first : volume.fat[0]? = some fatEoc := firstEntry
      rw [first]
      rfl
  · rw [one, blockRead_of_succeeds reliable.toIoSucceeds
      (show 1 + 1 < disk.bcount by omega), Option.getD_some]
    exact loadRootDirectory_eq_some.mpr
      ⟨holds.root, fun slot => ⟨reliable.mallocs _, padding slot⟩⟩

/-- Bytes outside the three blocks do not matter. -/
theorem congr
    (holds : disk.Holds volume)
    (layout : OneFatLayout volume.sb)
    {other : Disk}
    (same : ∀ byte, byte / blockSize ≤ 2 →
      other.bytes byte = disk.bytes byte) :
    other.Holds volume where
  superblock := by
    refine holds.superblock.trans (decodeSuperblock_congr ?_)
    intro index inBlock
    refine (same index ?_).symm
    rw [Nat.div_eq_of_lt inBlock]
    omega
  fat := by
    intro index inside
    have entries := layout.entries_le
    refine (holds.fat index inside).trans (wordAt_congr ?_ ?_)
    · refine (same _ ?_).symm
      simp only [blockSize] at *
      omega
    · refine (same _ ?_).symm
      simp only [blockSize] at *
      omega
  root := by
    refine holds.root.trans (decodeRoot_congr ?_)
    intro index inBlock
    refine (same _ ?_).symm
    simp only [blockSize] at *
    omega

end Disk.Holds

namespace Session

variable {session after : Session}

/-- What the disk holds stays on it until the next `fs_umount`. -/
theorem SameFront.holds
    (same : SameFront session after)
    {volume : Volume}
    (layout : OneFatLayout session.sb)
    (sb : volume.sb = session.sb)
    (holds : session.disk.Holds volume) :
    after.disk.Holds volume := by
  apply holds.congr
  · rw [sb]
    exact layout
  · intro byte front
    exact same.bytes byte (layout.front_not_mem front)

/-- `fs_umount` leaves the bytes of the data blocks. -/
theorem savedDisk_bytes
    (layout : OneFatLayout session.sb)
    (host : Host)
    {byte : Nat}
    (behind : 3 ≤ byte / blockSize) :
    (session.savedDisk host).bytes byte = session.disk.bytes byte := by
  apply session.save_outside host
  · right
    rw [layout.numFatBlocks]
    simp only [blockSize] at *
    omega
  · right
    rw [layout.rootIndex]
    simp only [blockSize] at *
    omega

/-- `fs_umount` leaves the volume on the disk. -/
theorem holds_savedDisk
    (formatted : session.Formatted)
    {host : Host}
    (succeeds : host.IoSucceeds) :
    (session.savedDisk host).Holds session.toVolume := by
  have layout := formatted.layout
  have enough := formatted.accepted.numBlocks_le
  have inside := layout.fits.inside
  have one := layout.numFatBlocks
  have rootIndex := layout.rootIndex
  refine ⟨?_, ?_, ?_⟩
  · refine formatted.superblock.trans (decodeSuperblock_congr ?_)
    intro index inBlock
    refine (session.save_outside host (.inl inBlock) (.inl ?_)).symm
    rw [rootIndex]
    omega
  · intro index below
    exact (save_fatWord_one succeeds (by omega) (by omega) (by omega)
      layout.entries_le below).symm
  · rw [← decodeRoot_rootArray session.root]
    apply decodeRoot_congr
    intro offset inBlock
    have saved := save_rootBlock succeeds
      (show session.sb.rootIndex.toNat < session.disk.bcount by omega) inBlock
    rw [rootIndex] at saved
    exact saved.symm

end Session
end MsFat
