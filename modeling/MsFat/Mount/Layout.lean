import MsFat.CallEffect
import MsFat.Fat.Ends
import MsFat.Mount.Remount
import Mathlib.Order.Interval.Set.Basic

/-!
# Regions of a disk

A superblock divides its disk into regions: its own block, the FAT, the root
directory and the data blocks.  The checks of `load_superblock` compare some of
its fields only, so a mounted disk need not be divided consistently.  Where it
is, calls on files store into data blocks only, and `fs_umount` stores the FAT
and the root directory each into its own region.
-/

namespace MsFat

namespace SuperBlock

variable (sb : SuperBlock)

/-- The blocks that `load_fat` reads. -/
def fatRegion : Set Nat :=
  Set.Icc 1 sb.numFatBlocks.toNat

/-- The block that `fs_mount` reads the root directory from. -/
def rootRegion : Set Nat :=
  {sb.numFatBlocks.toNat + 1}

/-- The blocks behind the entries of the FAT. -/
def dataRegion : Set Nat :=
  Set.Ico sb.dataStartIndex.toNat
    (sb.dataStartIndex.toNat + sb.numDataBlocks.toNat)

/-- The regions of a disk. -/
def regions : List (Set Nat) :=
  [{0}, sb.fatRegion, sb.rootRegion, sb.dataRegion]

/-- No block is in two of the regions. -/
def RegionsApart : Prop :=
  sb.regions.Pairwise fun left right => ∀ block ∈ left, block ∉ right

/-- The root block follows the FAT blocks and the data blocks come behind it,
all of them on the disk, and the FAT blocks have room for the FAT. -/
structure LayoutFits : Prop where
  root : sb.rootIndex.toNat = sb.numFatBlocks.toNat + 1
  inside : sb.numFatBlocks.toNat + 1 < sb.numBlocks.toNat
  fat : sb.numDataBlocks.toNat ≤ blockSize / 2 * sb.numFatBlocks.toNat
  data : sb.numDataBlocks.toNat = 0 ∨
    (sb.numFatBlocks.toNat + 1 < sb.dataStartIndex.toNat ∧
      sb.dataStartIndex.toNat + sb.numDataBlocks.toNat ≤ sb.numBlocks.toNat)

instance : Decidable sb.LayoutFits :=
  decidable_of_iff
    (sb.rootIndex.toNat = sb.numFatBlocks.toNat + 1 ∧
      sb.numFatBlocks.toNat + 1 < sb.numBlocks.toNat ∧
      sb.numDataBlocks.toNat ≤ blockSize / 2 * sb.numFatBlocks.toNat ∧
      (sb.numDataBlocks.toNat = 0 ∨
        (sb.numFatBlocks.toNat + 1 < sb.dataStartIndex.toNat ∧
          sb.dataStartIndex.toNat + sb.numDataBlocks.toNat ≤
            sb.numBlocks.toNat)))
    ⟨fun all => ⟨all.1, all.2.1, all.2.2.1, all.2.2.2⟩,
      fun fits => ⟨fits.root, fits.inside, fits.fat, fits.data⟩⟩

end SuperBlock

/-- A disk with the block count that `block_disk_count` gives has at least as
many blocks. -/
theorem le_of_int32_eq
    {count blocks : Nat}
    (isCount : (count : Int) = int32 blocks)
    (small : count < 2 ^ 31) :
    count ≤ blocks := by
  unfold int32 Int.bmod at isCount
  simp only at isCount
  split at isCount <;> omega

/-- The disk has the blocks that an accepted superblock gives it. -/
theorem SuperBlock.Accepted.numBlocks_le
    {disk : Disk}
    {sb : SuperBlock}
    (accepted : sb.Accepted (blockDiskCount (some disk))) :
    sb.numBlocks.toNat ≤ disk.bcount := by
  have bound := sb.numBlocks.toNat_lt
  exact le_of_int32_eq accepted.numBlocks (by omega)

namespace Session

/-- The superblock of a mounted file system divides its disk consistently. -/
structure ConsistentLayout (mounted : Session) : Prop where
  rootRead : mounted.sb.numFatBlocks.toNat + 1 < mounted.disk.bcount
  rootWritten : mounted.sb.rootIndex.toNat =
    mounted.sb.numFatBlocks.toNat + 1
  fatHolds : mounted.sb.numDataBlocks.toNat ≤
    blockSize / 2 * mounted.sb.numFatBlocks.toNat
  apart : mounted.sb.RegionsApart
  inside : ∀ region ∈ mounted.sb.regions, ∀ block ∈ region,
    (block : Int) < blockDiskCount (some mounted.disk)

/-- The disk once `fs_umount` has saved the FAT. -/
def fatSaved (session : Session) (host : Host) : Disk :=
  saveFat host session.fat session.sb.numFatBlocks.toNat 0 session.disk

/-- Every chain of a file ends. -/
def ChainsEnd (session : Session) : Prop :=
  ∀ slot, ChainEnds session.fat (session.root slot).firstIndex

/-- While this superblock is mounted, nothing is stored outside its own region:
neither by a call on files, with a count an `int` can hold or on a FAT whose
chains end, nor by `fs_umount`, which stores first the FAT and then the root
directory. -/
structure KeepsRegions (mounted : Session) : Prop where
  file : ∀ (session after : Session) (event : Event) (fuel : Nat),
    session.sb = mounted.sb →
    event.call.exec fuel event.host session.toState =
      .ok (after.toState, event.result) →
    event.call.CountFits ∨ session.ChainsEnd →
      ∀ byte, byte / blockSize ∉ mounted.sb.dataRegion →
        after.disk.bytes byte = session.disk.bytes byte
  umount : ∀ (session : Session) (host : Host) (after : State),
    session.sb = mounted.sb →
    fsUmount host session.toState = .ok (after, 0) →
      ∃ image, after.files session.disk.diskname = some image ∧
        (∀ byte, byte / blockSize ∉ mounted.sb.fatRegion →
          (session.fatSaved host).bytes byte = session.disk.bytes byte) ∧
        ∀ byte, byte / blockSize ∉ mounted.sb.rootRegion →
          image.bytes byte = (session.fatSaved host).bytes byte

section Layout

variable {session after mounted : Session}

/-- An index of the FAT stands for a data block. -/
theorem dataBlock_mem
    (inside : session.sb.dataStartIndex.toNat +
      session.sb.numDataBlocks.toNat ≤ session.sb.numBlocks.toNat)
    {index : UInt16}
    (below : index.toNat < session.sb.numDataBlocks.toNat) :
    session.dataBlock index ∈ session.sb.dataRegion := by
  have bound := session.sb.numBlocks.toNat_lt
  have value : session.dataBlock index =
      index.toNat + session.sb.dataStartIndex.toNat := by
    change (index + session.sb.dataStartIndex).toNat = _
    rw [UInt16.toNat_add]
    exact Nat.mod_eq_of_lt (by omega)
  rw [value]
  exact Set.mem_Ico.mpr ⟨by omega, by omega⟩

/-- The blocks of a chain that ends are data blocks. -/
theorem Reaches.mem_dataRegion
    {file : Slot}
    {block : Nat}
    (reaches : session.Reaches file block)
    (ends : ChainEnds session.fat (session.root file).firstIndex)
    (inside : session.sb.dataStartIndex.toNat +
      session.sb.numDataBlocks.toNat ≤ session.sb.numBlocks.toNat) :
    block ∈ session.sb.dataRegion := by
  obtain ⟨blockNum, index, finds, notEnd, rfl⟩ := reaches
  obtain ⟨other, findsOther, isBlock⟩ := findDataBlock_of_ends ends blockNum
  cases finds.symm.trans findsOther
  exact dataBlock_mem inside (isBlock.resolve_left notEnd)

/-- No block is reached without data blocks. -/
theorem Reaches.numDataBlocks_ne_zero
    {file : Slot}
    {block : Nat}
    (reaches : session.Reaches file block)
    (ends : ChainEnds session.fat (session.root file).firstIndex) :
    session.sb.numDataBlocks.toNat ≠ 0 := by
  obtain ⟨blockNum, index, finds, notEnd, _⟩ := reaches
  obtain ⟨other, findsOther, isBlock⟩ := findDataBlock_of_ends ends blockNum
  cases finds.symm.trans findsOther
  have below := isBlock.resolve_left notEnd
  omega

/-- A write stores into data blocks only. -/
theorem bytes_of_confined
    (fits : session.sb.LayoutFits)
    {file : Slot}
    {fat' : Fat session.sb.numDataBlocks.toNat}
    {firstIndex' : UInt16}
    {moved : Session}
    (ends : ChainEnds fat' firstIndex')
    (confined : (session.setChain file fat' firstIndex').Confined file moved)
    {byte : Nat}
    (outside : byte / blockSize ∉ session.sb.dataRegion) :
    moved.disk.bytes byte = session.disk.bytes byte := by
  apply confined.bytes byte
  intro reaches
  have own := chainEnds_setChain file ends
  have some := reaches.numDataBlocks_ne_zero own
  rcases fits.data with none | ⟨_, inside⟩
  · exact some none
  · exact outside (reaches.mem_dataRegion own inside)

/-- A call on files stores into data blocks only. -/
theorem bytes_of_exec
    (fits : session.sb.LayoutFits)
    {event : Event}
    {fuel : Nat}
    (returns : event.call.exec fuel event.host session.toState =
      .ok (after.toState, event.result))
    (bounded : event.call.CountFits ∨ session.ChainsEnd)
    {byte : Nat}
    (outside : byte / blockSize ∉ session.sb.dataRegion) :
    after.disk.bytes byte = session.disk.bytes byte := by
  obtain ⟨next, same, effect⟩ := exec_effect returns
  cases toState_injective same
  cases effect with
  | unchanged => rfl
  | created => rfl
  | deleted => rfl
  | opened => rfl
  | closed => rfl
  | positioned => rfl
  | @wrote index descriptor buf count _ _ _ _ moved _ isCall positive isOpen
      allocates confined finishes =>
      have walked : 0 < findNumTargetBlocks descriptor.offset.toNat count ∨
          ChainEnds session.fat (session.root descriptor.file).firstIndex := by
        rcases bounded with countFits | chainsEnd
        · rw [isCall] at countFits
          left
          rw [findNumTargetBlocks_eq _ countFits descriptor.offset.toNat_lt]
          simp only [blockSize]
          omega
        · exact .inr (chainsEnd descriptor.file)
      have ends := (allocateInFat_ends session.sb.numDataBlocks.toNat_lt
        allocates).2 walked
      have stored := bytes_of_confined fits ends confined outside
      rcases finishes with rfl | ⟨bytes, rfl⟩
      · exact stored
      · exact stored

/-- Where the layout fits, every region is kept. -/
theorem keepsRegions_of_fits
    (fits : mounted.sb.LayoutFits) :
    mounted.KeepsRegions where
  file := by
    intro session after event fuel same returns bounded byte outside
    rw [← same] at fits outside
    exact bytes_of_exec fits returns bounded outside
  umount := by
    intro session host after same unmounts
    rw [fsUmount_toState] at unmounts
    cases unmounts
    refine ⟨_, session.unmounted_files host, ?_, ?_⟩
    · intro byte outside
      rw [SuperBlock.fatRegion, ← same, Set.mem_Icc] at outside
      apply saveFat_outside
      simp only [blockSize] at *
      omega
    · intro byte outside
      rw [SuperBlock.rootRegion, ← same, Set.mem_singleton_iff] at outside
      apply (blockWrite_getD host _ _ _).2.2 byte
      have isRoot := fits.root
      rw [← same] at isRoot
      rw [isRoot]
      simp only [blockSize] at *
      omega

/-- The regions are apart exactly if the data blocks come behind the root
block. -/
theorem regionsApart_iff
    {sb : SuperBlock}
    (dataStart : sb.dataStartIndex ≠ 0) :
    sb.RegionsApart ↔
      (sb.numDataBlocks.toNat = 0 ∨
        sb.numFatBlocks.toNat + 1 < sb.dataStartIndex.toNat) := by
  have positive : 0 < sb.dataStartIndex.toNat := by
    rw [Nat.pos_iff_ne_zero]
    exact fun zero => dataStart (UInt16.toNat_inj.mp zero)
  unfold SuperBlock.RegionsApart SuperBlock.regions SuperBlock.fatRegion
    SuperBlock.rootRegion SuperBlock.dataRegion
  simp only [List.pairwise_cons, List.mem_cons, List.not_mem_nil, or_false,
    forall_eq_or_imp, forall_eq, Set.mem_singleton_iff, Set.mem_Icc,
    Set.mem_Ico]
  constructor
  · rintro ⟨_, ⟨_, fatApart⟩, rootApart, _⟩
    by_contra overlaps
    rw [not_or, Nat.not_lt] at overlaps
    -- The first data block is the root block, or one of the FAT blocks.
    rcases Nat.lt_or_ge sb.numFatBlocks.toNat sb.dataStartIndex.toNat with
      behind | within
    · exact rootApart ⟨by omega, by omega⟩
    · exact fatApart _ ⟨positive, within⟩ ⟨Nat.le_refl _, by omega⟩
  · intro behind
    refine ⟨⟨by omega, by omega, by omega⟩, ⟨?_, ?_⟩, by omega, ?_⟩
    · intro block inFat
      omega
    · intro block inFat
      omega
    · exact ⟨fun _ => False.elim, .nil⟩

/-- On a disk of the size that the superblock gives, the layout is consistent
exactly if it fits. -/
theorem consistentLayout_iff_fits
    (accepted : mounted.sb.Accepted (blockDiskCount (some mounted.disk))) :
    mounted.ConsistentLayout ↔ mounted.sb.LayoutFits := by
  have count := accepted.numBlocks
  have bound := mounted.sb.numBlocks.toNat_lt
  have enough := accepted.numBlocks_le
  have isApart := regionsApart_iff accepted.dataStart
  constructor
  · intro layout
    have inside := layout.inside
    unfold SuperBlock.regions SuperBlock.fatRegion SuperBlock.rootRegion
      SuperBlock.dataRegion at inside
    rw [← count] at inside
    simp only [List.mem_cons, List.not_mem_nil, or_false, forall_eq_or_imp,
      forall_eq, Set.mem_singleton_iff, Set.mem_Icc, Set.mem_Ico,
      Int.ofNat_lt] at inside
    obtain ⟨_, _, rootInside, dataInside⟩ := inside
    refine ⟨layout.rootWritten, rootInside, layout.fatHolds, ?_⟩
    rcases isApart.mp layout.apart with none | behind
    · exact .inl none
    · by_cases none : mounted.sb.numDataBlocks.toNat = 0
      · exact .inl none
      · have last := dataInside (mounted.sb.dataStartIndex.toNat +
          mounted.sb.numDataBlocks.toNat - 1) ⟨by omega, by omega⟩
        exact .inr ⟨behind, by omega⟩
  · intro fits
    have rootInside := fits.inside
    have data := fits.data
    refine ⟨by omega, fits.root, fits.fat, isApart.mpr (by omega), ?_⟩
    unfold SuperBlock.regions SuperBlock.fatRegion SuperBlock.rootRegion
      SuperBlock.dataRegion
    rw [← count]
    simp only [List.mem_cons, List.not_mem_nil, or_false, forall_eq_or_imp,
      forall_eq, Set.mem_singleton_iff, Set.mem_Icc, Set.mem_Ico,
      Int.ofNat_lt]
    refine ⟨by omega, fun block member => by omega, by omega, ?_⟩
    intro block member
    omega

end Layout

/-- A mounted file system is laid out consistently, and keeps its regions, exactly
if the fields of its superblock fit. -/
theorem consistent_iff_layoutFits
    {host : Host}
    {state : State}
    {diskname : Option String}
    {mounted : Session}
    (mounts : fsMount host state diskname = .ok (mounted.toState, 0)) :
    (mounted.ConsistentLayout ∧ mounted.KeepsRegions) ↔
      mounted.sb.LayoutFits := by
  obtain ⟨_, loads, _⟩ := fsMount_eq_zero mounts
  obtain ⟨_, _, accepted⟩ := loadSuperblock_eq_some.mp loads.superblock
  constructor
  · exact fun consistent => (consistentLayout_iff_fits accepted).mp consistent.1
  · exact fun fits => ⟨(consistentLayout_iff_fits accepted).mpr fits,
      keepsRegions_of_fits fits⟩

/-- A disk of four blocks, one of each kind. -/
theorem consistent_iff_layoutFits_fourBlocks :
    ∃ mounted : Session,
      fsMount .reliable (State.initial fun _ => some (freshImage 4 1 1))
          (some "disk.fs") = .ok (mounted.toState, 0) ∧
        mounted.ConsistentLayout ∧ mounted.KeepsRegions := by
  obtain ⟨mounted, fourBlocks⟩ := exists_fourBlocks
  have mounts := fourBlocks.mounts
  refine ⟨mounted, mounts, (consistent_iff_layoutFits mounts).mpr ?_⟩
  rw [fourBlocks.sb]
  decide

/-- A disk of two blocks is mounted, though it has neither a root block nor a
data block. -/
theorem not_consistent_twoBlocks :
    ∃ mounted : Session,
      fsMount .reliable (State.initial fun _ => some (freshImage 2 1 1))
          (some "disk.fs") = .ok (mounted.toState, 0) ∧
        mounted.disk.bcount = 2 ∧
        mounted.sb.numFatBlocks.toNat + 1 = 2 ∧
        ¬(mounted.ConsistentLayout ∧ mounted.KeepsRegions) := by
  obtain ⟨mounted, mounts, isSb, isDisk⟩ :=
    freshImage_mounts (show 1 ≤ (1 : UInt16).toNat by decide) (by decide)
      (show (1 : UInt16).toNat < (2 : UInt16).toNat by decide)
  have bcount : mounted.disk.bcount = 2 := by
    rw [isDisk]
    decide
  have rootBlock : mounted.sb.numFatBlocks.toNat + 1 = 2 := by
    rw [isSb]
    decide
  refine ⟨mounted, mounts, bcount, rootBlock, ?_⟩
  rintro ⟨layout, _⟩
  have rootRead := layout.rootRead
  omega

end Session

end MsFat
