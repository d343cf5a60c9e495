import MsFat.Drive.Refinement

/-!
# Processes

A process runs one program and leaves the files of the host to the next one.  A
disk that can be mounted and holds a well-formed file system in one FAT block is
a drive to every process; a fresh image is a drive with an empty store.
-/

namespace MsFat

open Memory

variable {diskname : String} {host : Host} {session : Session} {store : Store}

/-- Among the files of the host, the one of this name is a disk with this
superblock and holds the store. -/
def HoldsStore
    (sb : SuperBlock)
    (diskname : String)
    (files : String → Option Image)
    (store : Store) : Prop :=
  (State.initial files).Represents sb diskname (.unmounted store)

/-- What a mount of the disk gives is what the drive holds. -/
theorem holdsStore_of_mount
    {files : String → Option Image}
    (mounts : fsMount host (State.initial files) (some diskname) =
      .ok (session.toState, 0))
    (layout : OneFatLayout session.sb)
    (succeeds : host.IoSucceeds)
    (represents : session.Represents store) :
    HoldsStore session.sb diskname files store := by
  obtain ⟨opens, _, closed⟩ := fsMount_eq_zero mounts
  obtain ⟨formatted, holds, _⟩ := Session.holds_of_mount mounts layout succeeds
  have isSession := eq_mounted_of_fsMount mounts
  change (blockDiskOpen host files none 0 (some diskname)).1 =
    some session.disk at opens
  obtain ⟨_, _, _, name, image, isName, found, multiple, isDisk⟩ :=
    blockDiskOpen_eq_some.mp opens
  cases isName
  refine .unmounted ⟨State.initial_unmounted files, isSession, ?_, holds,
    formatted⟩ rfl (by rw [isDisk]) ?_
  · rw [isDisk]
    change files diskname = _
    refine found.trans (congrArg (fun size => some (Image.mk size image.bytes)) ?_)
    exact size_of_multiple (not_not.mpr multiple)
  · rw [represents.closed_eq closed]
    exact represents

/-! ## Fresh images -/

/-- A store without files. -/
def emptyStore (freeBlocks : Nat) : Store where
  files := fun _ => none
  handles := fun _ => none
  handleCount := 0
  freeEntries := fsFileMaxCount
  freeBlocks := freeBlocks
  guarded := true

section FreshImage

variable {numBlocks numDataBlocks : UInt16}

/-- The FAT of a fresh image is 0 behind its first entry. -/
theorem freshImage_fatWord
    {index : Nat}
    (behind : 1 ≤ index) :
    fatWord (freshImage numBlocks numDataBlocks 1).bytes index = 0 := by
  have zero : ∀ byte, blockSize + 2 ≤ byte →
      (freshImage numBlocks numDataBlocks 1).bytes byte = 0 := by
    intro byte later
    apply freshImage_bytes_eq_zero
    · simp only [blockSize] at later
      omega
    · exact .inr later
  unfold fatWord wordAt
  dsimp only
  rw [zero _ (by omega), zero _ (by omega)]
  rfl

theorem freshImage_oneFatLayout
    (entries : 1 ≤ numDataBlocks.toNat)
    (fits : numDataBlocks.toNat ≤ blockSize / 2)
    (inside : numDataBlocks.toNat + 3 ≤ numBlocks.toNat) :
    OneFatLayout (freshImage numBlocks numDataBlocks 1).sb := by
  have isNumBlocks := freshImage_numBlocks numBlocks numDataBlocks 1
  have isNumData := freshImage_numDataBlocks numBlocks numDataBlocks 1
  have one : (freshImage numBlocks numDataBlocks 1).sb.numFatBlocks.toNat = 1 :=
    rfl
  have rootIndex : (freshImage numBlocks numDataBlocks 1).sb.rootIndex.toNat =
    2 := rfl
  have dataStart :
      (freshImage numBlocks numDataBlocks 1).sb.dataStartIndex.toNat = 3 := rfl
  refine ⟨one, ⟨?_, ?_, ?_, .inr ⟨?_, ?_⟩⟩, ?_⟩
  · rw [rootIndex, one]
  · rw [one, isNumBlocks]
    omega
  · rw [one, isNumData]
    omega
  · rw [one, dataStart]
    omega
  · rw [dataStart, isNumData, isNumBlocks]
    omega
  · rw [isNumData]
    exact entries

/-- All blocks of a fresh FAT but the first one are free. -/
theorem freeBlocks_length_of_zero
    {count : Nat}
    {fat : Fat count}
    (zero : ∀ index (inside : index < count), 1 ≤ index → fat[index] = 0)
    (fits : count < 2 ^ 16) :
    (freeBlocks fat).length = count - 1 := by
  have all : freeBlocks fat = blockIndices count := by
    refine List.filter_eq_self.mpr fun index member => ?_
    obtain ⟨nonzero, inside⟩ := (mem_blockIndices fits).mp member
    have behind : 1 ≤ index.toNat := by
      rw [Nat.one_le_iff_ne_zero, ne_eq, ← UInt16.toNat_zero, UInt16.toNat_inj]
      exact nonzero
    rw [fatNext, Vector.getElem?_eq_getElem inside,
      zero index.toNat inside behind]
    rfl
  rw [all, blockIndices, List.length_map, List.length_range']

/-- A fresh image is mounted as a well-formed file system without files. -/
theorem freshImage_represents
    (entries : 1 ≤ numDataBlocks.toNat)
    (fits : numDataBlocks.toNat ≤ blockSize / 2)
    (inside : numDataBlocks.toNat + 3 ≤ numBlocks.toNat) :
    ∃ mounted : Session,
      fsMount .reliable
          (State.initial fun _ => some (freshImage numBlocks numDataBlocks 1))
          (some "disk.fs") = .ok (mounted.toState, 0) ∧
        OneFatLayout mounted.sb ∧
        mounted.Represents (emptyStore (numDataBlocks.toNat - 1)) := by
  obtain ⟨mounted, mounts, isSb, isDisk⟩ :=
    Session.freshImage_mounts entries fits
      (show numDataBlocks.toNat < numBlocks.toNat by omega)
  have layout : OneFatLayout mounted.sb := by
    rw [isSb]
    exact freshImage_oneFatLayout entries fits inside
  have numBlocksEq : mounted.sb.numBlocks = numBlocks := by
    rw [isSb]
    exact freshImage_numBlocks _ _ _
  have numDataEq : mounted.sb.numDataBlocks = numDataBlocks := by
    rw [isSb]
    exact freshImage_numDataBlocks _ _ _
  have dataStart : mounted.sb.dataStartIndex.toNat = 3 := by
    rw [isSb]
    rfl
  have bcount : mounted.disk.bcount = numBlocks.toNat := by
    rw [isDisk]
    exact freshImage_count
  obtain ⟨_, loads, closed⟩ := fsMount_eq_zero mounts
  have root : mounted.root = fun _ => decodeFile fun _ => 0 := by
    rw [isDisk] at loads
    exact Session.freshImage_root loads (by omega)
      Host.reliable_reliable.toIoSucceeds
  have unused : ∀ slot, ¬mounted.InUse slot := by
    intro slot used
    apply used
    rw [root]
    rfl
  have firstEntry := loads.firstEntry layout.entries
  refine ⟨mounted, mounts, layout, ?_⟩
  refine
    { wellFormed := ⟨⟨⟨?_, ?_⟩, ?_, ?_⟩, ⟨?_, ?_⟩, ⟨?_, ?_⟩, ?_⟩
      files := ⟨fun slot used => absurd used (unused slot),
        fun _ present => absurd rfl present⟩
      handles := fun index => by rw [closed index]; rfl
      handleCount := by rw [eq_mounted_of_fsMount mounts]; rfl
      freeEntries := ?_
      freeBlocks := ?_
      firstEntry := firstEntry }
  · rw [dataStart, numDataEq, bcount]
    omega
  · rw [bcount, numBlocksEq]
  · rw [layout.numFatBlocks, dataStart]
    omega
  · rw [layout.rootIndex, dataStart]
    omega
  · exact fun slot used => absurd used (unused slot)
  · exact fun slot _ used => absurd used (unused slot)
  · exact fun slot used => absurd used (unused slot)
  · exact fun slot _ _ _ _ used => absurd used (unused slot)
  · intro index descriptor isOpen
    rw [closed index] at isOpen
    exact nomatch isOpen
  · unfold freeRootEntries
    rw [root]
    rfl
  · rw [freeBlocks_length_of_zero ?_ mounted.numDataBlocks_lt, numDataEq]
    · rfl
    · intro index isInside behind
      rw [loads.fat_one layout.numFatBlocks layout.entries_le isInside, isDisk]
      exact freshImage_fatWord behind

/-- A fresh image holds a store without files. -/
theorem freshImage_holdsStore
    (entries : 1 ≤ numDataBlocks.toNat)
    (fits : numDataBlocks.toNat ≤ blockSize / 2)
    (inside : numDataBlocks.toNat + 3 ≤ numBlocks.toNat) :
    ∃ sb, HoldsStore sb "disk.fs"
      (fun _ => some (freshImage numBlocks numDataBlocks 1))
      (emptyStore (numDataBlocks.toNat - 1)) := by
  obtain ⟨mounted, mounts, layout, represents⟩ :=
    freshImage_represents entries fits inside
  exact ⟨mounted.sb, holdsStore_of_mount mounts layout
    Host.reliable_reliable.toIoSucceeds represents⟩

end FreshImage

/-! ## Running a program -/

/-- A process that runs the program: the files of the host behind it, and the
value of the program. -/
def runProcess
    {α : Type}
    (program : Program ApiCall Reply α)
    (fuel : Nat)
    (hosts : Nat → Host)
    (files : String → Option Image) :
    Outcome ((String → Option Image) × α) := do
  let (state, value) ← program.run Drive.interface fuel hosts
    (State.initial files)
  .ok (state.atExit, value)

/-- What a program ensures over the drive, the process that runs it does. -/
theorem HoldsStore.runs
    {sb : SuperBlock}
    {files : String → Option Image}
    (holds : HoldsStore sb diskname files store)
    {hosts : Nat → Host}
    (reliable : ∀ number, (hosts number).Reliable)
    {α : Type}
    {program : Program ApiCall Reply α}
    {post : Drive → α → Prop}
    (ensures : program.Ensures (Drive.exec sb diskname) (.unmounted store)
      post) :
    ∃ files' value bound drive,
      Computes (fun fuel => runProcess program fuel hosts files) bound
        (files', value) ∧
      HoldsStore sb diskname files' drive.atExit ∧ post drive value := by
  obtain ⟨after, value, bound, drive, computes, represents, holds⟩ :=
    Drive.runs_of_ensures holds reliable ensures
  exact ⟨after.atExit, value, bound, drive, computes.bind rfl,
    represents.atExit, holds⟩

/-- A process does not end if its program hangs over the drive. -/
theorem HoldsStore.hangs
    {sb : SuperBlock}
    {files : String → Option Image}
    (holds : HoldsStore sb diskname files store)
    {hosts : Nat → Host}
    (reliable : ∀ number, (hosts number).Reliable)
    {α : Type}
    {program : Program ApiCall Reply α}
    (hangs : program.Hangs (Drive.exec sb diskname) Drive.Stuck
      (.unmounted store)) :
    ¬Terminates fun fuel => runProcess program fuel hosts files := by
  intro terminates
  exact Drive.not_terminates_of_hangs holds reliable hangs terminates.of_bind

/-- A disk holds its files with none of them open. -/
theorem HoldsStore.restarted
    {sb : SuperBlock}
    {files : String → Option Image}
    (holds : HoldsStore sb diskname files store) :
    HoldsStore sb diskname files store.restarted :=
  State.Represents.atExit holds

/-- On a disk that can be mounted, a process does what its program ensures over
the drive: with enough fuel it comes to its end, and behind it the disk holds
the store that the drive leaves. -/
theorem runs_of_mount
    {files : String → Option Image}
    (mounts : fsMount host (State.initial files) (some diskname) =
      .ok (session.toState, 0))
    (layout : OneFatLayout session.sb)
    (succeeds : host.IoSucceeds)
    (represents : session.Represents store)
    {hosts : Nat → Host}
    (reliable : ∀ number, (hosts number).Reliable)
    {α : Type}
    {program : Program ApiCall Reply α}
    {post : Drive → α → Prop}
    (ensures : program.Ensures (Drive.exec session.sb diskname)
      (.unmounted store) post) :
    ∃ files' value bound drive,
      Computes (fun fuel => runProcess program fuel hosts files) bound
        (files', value) ∧
      HoldsStore session.sb diskname files' drive.atExit ∧ post drive value :=
  (holdsStore_of_mount mounts layout succeeds represents).runs reliable ensures

/-- A disk is mounted and a file is created on it; then the process ends. -/
def createA : Program ApiCall Reply (List Int) := do
  let mounted ← Program.call (.mount (some "disk.fs"))
  let created ← Program.call (.file (.create (some nameA)))
  return [mounted.result, created.result]

theorem createA_ensures (sb : SuperBlock) (freeBlocks : Nat) :
    createA.Ensures (Drive.exec sb "disk.fs")
      (.unmounted (emptyStore freeBlocks)) fun drive results =>
        results = [0, 0] ∧ drive.atExit = emptyStore freeBlocks := by
  refine ⟨_, _, rfl, fun mounted isMounted => ⟨_, _, rfl, ?_⟩⟩
  intro created isCreated
  have createdResult : created.result = 0 := isCreated.result
  change [mounted.result, created.result] = [0, 0] ∧ _
  rw [isMounted, createdResult]
  exact ⟨rfl, rfl⟩

/-- The file is lost, since the disk is not unmounted. -/
theorem runs_of_mount_createA :
    ∃ mounted : Session,
      ∃ files' value bound, ∃ drive : Drive,
        Computes
          (fun fuel => runProcess createA fuel (fun _ => .reliable)
            fun _ => some (freshImage 100 50 1))
          bound (files', value) ∧
        HoldsStore mounted.sb "disk.fs" files' drive.atExit ∧
        value = [0, 0] ∧ drive.atExit = emptyStore 49 := by
  obtain ⟨mounted, mounts, layout, represents⟩ :=
    freshImage_represents (show 1 ≤ (50 : UInt16).toNat by decide) (by decide)
      (show (50 : UInt16).toNat + 3 ≤ (100 : UInt16).toNat by decide)
  exact ⟨mounted, runs_of_mount mounts layout
    Host.reliable_reliable.toIoSucceeds represents
    (fun _ => Host.reliable_reliable) (createA_ensures mounted.sb 49)⟩

end MsFat
