import MsFat.Api
import MsFat.Drive.Formatted

/-!
# Mounts of formatted disks

While nothing is mounted, the file of a formatted disk keeps a session: the one
that the next `fs_mount` gives.  `fs_umount` keeps the session it ends, with all
files closed.
-/

namespace MsFat

namespace Disk.Holds

variable {disk : Disk} {volume : Volume}

/-- A disk holds one volume only. -/
theorem unique
    {other : Volume}
    (holds : disk.Holds volume)
    (holds' : disk.Holds other) :
    volume = other := by
  obtain ⟨sb, fat, root⟩ := volume
  obtain ⟨sb', fat', root'⟩ := other
  obtain ⟨isSb, isFat, isRoot⟩ := holds
  obtain ⟨isSb', isFat', isRoot'⟩ := holds'
  dsimp only at isSb isFat isRoot isSb' isFat' isRoot'
  subst isSb isRoot isSb' isRoot'
  have same : fat = fat' := Vector.ext fun index inside =>
    (isFat index inside).trans (isFat' index inside).symm
  rw [same]

end Disk.Holds

/-- Nothing is mounted, and the file of the disk holds what the session has
mounted. -/
structure State.Keeps (state : State) (session : Session) : Prop where
  unmounted : state.Unmounted
  isSession : session = state.mounted session.disk session.toVolume
  image : state.files session.disk.diskname =
    some { size := session.disk.bcount * blockSize, bytes := session.disk.bytes }
  holds : session.disk.Holds session.toVolume
  formatted : session.Formatted

namespace State.Keeps

variable {state : State} {session : Session} (keeps : state.Keeps session)

include keeps

/-- The disk of the session is opened. -/
theorem opens
    {host : Host}
    (reliable : host.Reliable) :
    (loadDisk host state (some session.disk.diskname)).1 =
      some session.disk := by
  refine (loadDisk_of_image reliable keeps.unmounted.notMounted
    keeps.unmounted.noDisk keeps.image (Nat.mul_mod_left _ _)).trans
    (congrArg some ?_)
  exact Disk.ext rfl (Nat.mul_div_cancel _ (by decide)) rfl

/-- The next mount gives the session, if the FAT begins as a mount expects
it. -/
theorem mounts
    (firstEntry : fatNext session.fat 0 = some fatEoc)
    {host : Host}
    (reliable : host.Reliable) :
    fsMount host state (some session.disk.diskname) =
      .ok (session.toState, 0) := by
  have formatted := keeps.formatted
  have loads := keeps.holds.loads formatted.layout formatted.accepted
    formatted.padding firstEntry reliable
  have mounts := fsMount_of_loads (keeps.opens reliable) loads
  rwa [← keeps.isSession] at mounts

/-- A FAT that begins otherwise is not mounted; the disk stays open. -/
theorem mount_fails
    (firstEntry : fatNext session.fat 0 ≠ some fatEoc)
    {host : Host}
    (reliable : host.Reliable) :
    fsMount host state (some session.disk.diskname) =
      .ok (state.diskLoaded session.disk, -1) := by
  have layout := keeps.formatted.layout
  have opens := keeps.opens reliable
  have isSuperblock : ∀ {sb : SuperBlock},
      loadSuperblock host (some session.disk) (session.disk.block 0) =
        some sb → sb = session.sb := by
    intro sb loadsSb
    have isSb := (loadSuperblock_eq_some.mp loadsSb).2.1
    rw [Disk.block_zero] at isSb
    exact isSb.trans keeps.holds.superblock.symm
  obtain ⟨after, result, returns⟩ : ∃ after result,
      fsMount host state (some session.disk.diskname) = .ok (after, result) := by
    apply fsMount_returns
    intro disk sb opensDisk loadsSb
    rw [opens] at opensDisk
    cases opensDisk
    cases isSuperblock loadsSb
    exact loadFat_returns
      (layout.reads_fat keeps.formatted.accepted reliable.toIoSucceeds)
  rcases fsMount_cases returns with
    ⟨none, _, _⟩ | ⟨disk, opensDisk, ⟨rfl, rfl⟩ | ⟨volume, loads, _, _⟩⟩
  · rw [opens] at none
    exact nomatch none
  · rw [opens] at opensDisk
    cases opensDisk
    exact returns
  · rw [opens] at opensDisk
    cases opensDisk
    have isSb := isSuperblock loads.superblock
    have holds := Disk.Holds.of_loads loads (isSb ▸ layout) reliable.toIoSucceeds
    cases holds.unique keeps.holds
    exact absurd (loads.firstEntry layout.entries) firstEntry

end State.Keeps

namespace Session

variable {session : Session}

/-- The session that the next mount gives. -/
def remounted (session : Session) (host : Host) : Session :=
  (session.unmounted host).mounted (session.savedDisk host) session.toVolume

/-- `fs_umount` keeps the session. -/
theorem keeps_unmounted
    (formatted : session.Formatted)
    {host : Host}
    (succeeds : host.IoSucceeds) :
    (session.unmounted host).Keeps (session.remounted host) where
  unmounted := ⟨rfl, rfl, rfl⟩
  isSession := rfl
  image := session.unmounted_files host
  holds := holds_savedDisk formatted succeeds
  formatted :=
    { layout := formatted.layout
      superblock := (holds_savedDisk formatted succeeds).superblock
      accepted := formatted.accepted
      padding := formatted.padding }

/-- Every file of the session is kept. -/
theorem sameFile_remounted
    (formatted : session.Formatted)
    (host : Host)
    (slot : Slot) :
    session.SameFile slot (session.remounted host) where
  sb := rfl
  entry := rfl
  chain := fun _ isChain => isChain
  contents := by
    intro chain isChain position inChain
    obtain ⟨index, member, isBlock⟩ := session.place_diskBlocks inChain
    have dataStart := formatted.layout.dataStart_lt
    have behind : 3 ≤ session.place chain position / blockSize := by omega
    exact session.savedDisk_bytes formatted.layout host behind

/-- The disk that is mounted has the name that was given. -/
theorem diskname_of_mount
    {host : Host}
    {state : State}
    {diskname : String}
    (mounts : fsMount host state (some diskname) = .ok (session.toState, 0)) :
    session.disk.diskname = diskname := by
  have opens := (fsMount_eq_zero mounts).1
  unfold loadDisk at opens
  split at opens
  · exact nomatch opens
  · obtain ⟨_, _, _, _, _, isName, _, _, isDisk⟩ :=
      blockDiskOpen_eq_some.mp opens
    cases isName
    rw [isDisk]

/-- The disk that a mount has loaded holds what is mounted. -/
theorem holds_of_mount
    {host : Host}
    {state : State}
    {diskname : Option String}
    (mounts : fsMount host state diskname = .ok (session.toState, 0))
    (layout : OneFatLayout session.sb)
    (succeeds : host.IoSucceeds) :
    session.Formatted ∧ session.disk.Holds session.toVolume ∧
      fatNext session.fat 0 = some fatEoc := by
  obtain ⟨_, loads, _⟩ := fsMount_eq_zero mounts
  have holds := Disk.Holds.of_loads loads layout succeeds
  have accepted := (loadSuperblock_eq_some.mp loads.superblock).2.2
  have padding := (loadRootDirectory_eq_some.mp loads.root).2
  exact ⟨⟨layout, holds.superblock, accepted, fun slot => (padding slot).2⟩,
    holds, loads.firstEntry layout.entries⟩

end Session
end MsFat
