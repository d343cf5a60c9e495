import MsFat.Directory.Invariant
import MsFat.Fat.Ends
import MsFat.Faults
import MsFat.Mount.Remount

/-!
# Walks on any mounted FAT

`fs_mount` looks at the first entry of the FAT only, so the chains of a mounted
disk may leave the FAT or run in a circle.  Opening, reading and writing files
is safe exactly if the chain of every file that can be opened ends.
-/

namespace MsFat

/-- A call of `fs_open`, `fs_lseek`, `fs_read` or `fs_write`. -/
def Call.IsTransfer : Call → Prop
  | .open _ => True
  | .lseek _ _ => True
  | .write _ _ _ => True
  | .read _ _ _ => True
  | _ => False

/-- The descriptor argument, if there is one, either fails the checks or is an
index of `open_files`. -/
def Call.FdFits (call : Call) : Prop :=
  ∀ fd, call.TakesFd fd → fd < fsOpenMaxCount ∨ (fsFileMaxCount : Int) ≤ fd

/-- A call of `fs_open`, `fs_lseek`, `fs_read` or `fs_write` that returns. -/
def TransferStep (before : State) (event : Event) (after : State) : Prop :=
  event.call.IsTransfer ∧
    ∃ fuel, event.call.exec fuel event.host before = .ok (after, event.result)

namespace Session

/-- `fs_open` can give a descriptor on this entry: the counter is within its
limit, and a name is found here. -/
def Openable (session : Session) (slot : Slot) : Prop :=
  session.numOpenFiles.toNat ≤ fsOpenMaxCount ∧
    ∃ name, ValidName name ∧ session.findMatchingFilename name = some slot

/-- In this state both walks along the FAT stay inside it and come to an end, and
so does every call. -/
structure WalksSafe (session : Session) : Prop where
  /-- The walk of `allocate_blocks_in_fat`, whatever its target, and that of
  `find_data_block` behind it. -/
  allocates : ∀ index descriptor,
    session.openFiles index = some descriptor → ∀ numTargetBlocks,
      ∃ fuel grown result,
        session.allocateBlocksInFat fuel descriptor.file numTargetBlocks =
          .ok (grown, result) ∧
        ∀ blockNum, ∃ block,
          grown.findDataBlock descriptor.file blockNum = .ok block
  /-- The walk of `find_data_block`, whatever block is looked for. -/
  finds : ∀ index descriptor,
    session.openFiles index = some descriptor → ∀ blockNum,
      ∃ block, session.findDataBlock descriptor.file blockNum = .ok block
  /-- No call goes on for ever. -/
  terminates : ∀ (host : Host) (call : Call), call.IsTransfer →
    ∃ fuel, call.exec fuel host session.toState ≠ .error .outOfFuel
  /-- With arguments that fit, every call returns. -/
  returns : ∀ (host : Host) (call : Call),
    call.IsTransfer → call.CountFits → call.FdFits →
    ∃ fuel after result,
      call.exec fuel host session.toState = .ok (after, result)

/-- In every state that calls of `fs_open`, `fs_lseek`, `fs_read` and `fs_write`
lead to, the walks are safe. -/
def TransfersSafe (mounted : Session) : Prop :=
  ∀ (events : List Event) (session : Session),
    Run TransferStep mounted.toState events session.toState →
      session.WalksSafe

/-- The chain of every open file ends, and so does that of every file that can
be opened. -/
structure OpenChainsEnd (session : Session) : Prop where
  openable : ∀ slot, session.Openable slot →
    ChainEnds session.fat (session.root slot).firstIndex
  isOpen : ∀ index descriptor, session.openFiles index = some descriptor →
    ChainEnds session.fat (session.root descriptor.file).firstIndex

section Safe

variable {session after : Session}

/-- Where the chains of the open files end, calls fault with arguments that do
not fit only. -/
theorem OpenChainsEnd.exec_faultsOnly
    (chains : session.OpenChainsEnd)
    {allowed : Fault → Prop}
    {call : Call}
    (transfer : call.IsTransfer)
    (fits : allowed .outOfBounds ∨ (call.CountFits ∧ call.FdFits))
    {fuel : Nat}
    (enough : session.sb.numDataBlocks.toNat < fuel)
    (host : Host) :
    FaultsOnly allowed (call.exec fuel host session.toState) := by
  have fdFits : ∀ fd, call.TakesFd fd → allowed .outOfBounds ∨
      fd < fsOpenMaxCount ∨ (fsFileMaxCount : Int) ≤ fd :=
    fun fd takes => fits.imp_right fun both => both.2 fd takes
  have finds : ∀ {session : Session} {file : Slot},
      ChainEnds session.fat (session.root file).firstIndex → ∀ blockNum : Int,
        FaultsOnly allowed (session.findDataBlock file blockNum) := by
    intro session file ends blockNum
    obtain ⟨index, returns, _⟩ := findDataBlock_of_ends ends blockNum
    exact .of_returns ⟨index, returns⟩
  cases call with
  | create filename => exact transfer.elim
  | delete filename => exact transfer.elim
  | «open» filename => exact onFilename_faultsOnly fun name => .ok _
  | close fd => exact transfer.elim
  | stat fd => exact transfer.elim
  | lseek fd offset =>
      change FaultsOnly _ (fsLseek session.toState fd offset)
      exact onDescriptor_faultsOnly (fdFits fd rfl)
        fun index descriptor _ => .ite (fun _ => .ok _) fun _ => .ok _
  | write fd buf count =>
      refine fsWrite_faultsOnly (fdFits fd rfl)
        fun index descriptor buf isOpen positive => ?_
      have ends := chains.isOpen index descriptor isOpen
      refine write_faultsOnly ?_ ?_ positive
        (fits.imp_right fun both => both.1)
      · have returns := allocateInFat_returns session.sb.numDataBlocks.toNat_lt
          ends (findNumTargetBlocks descriptor.offset.toNat count) enough
        exact (FaultsOnly.of_returns returns).bind fun _ _ => .ok _
      · intro grown result returns
        obtain ⟨⟨fat', firstIndex', _⟩, allocates, rest⟩ :=
          outcome_bind_eq_ok returns
        cases rest
        exact finds (chainEnds_setChain _
          ((allocateInFat_ends session.sb.numDataBlocks.toNat_lt allocates).2
            (.inr ends)))
  | read fd buf count =>
      exact exec_read_faultsOnly (fdFits fd rfl)
        fun index descriptor buf isOpen =>
          read_faultsOnly (finds (chains.isOpen index descriptor isOpen)) rfl
            buf count

/-- Where the chains of the open files end, the walks are safe. -/
theorem OpenChainsEnd.walksSafe
    (chains : session.OpenChainsEnd) :
    session.WalksSafe where
  allocates := by
    intro index descriptor isOpen numTargetBlocks
    have ends := chains.isOpen index descriptor isOpen
    obtain ⟨⟨fat', firstIndex', result⟩, allocates⟩ :=
      allocateInFat_returns session.sb.numDataBlocks.toNat_lt ends
        numTargetBlocks (Nat.lt_succ_self _)
    have grown : session.allocateBlocksInFat
        (session.sb.numDataBlocks.toNat + 1) descriptor.file numTargetBlocks =
          .ok (session.setChain descriptor.file fat' firstIndex', result) := by
      unfold allocateBlocksInFat
      rw [allocates]
      rfl
    refine ⟨_, _, result, grown, fun blockNum => ?_⟩
    have grownEnds :=
      (allocateInFat_ends session.sb.numDataBlocks.toNat_lt allocates).2
        (.inr ends)
    obtain ⟨block, found, _⟩ :=
      findDataBlock_of_ends (chainEnds_setChain _ grownEnds) blockNum
    exact ⟨block, found⟩
  finds := by
    intro index descriptor isOpen blockNum
    obtain ⟨block, found, _⟩ :=
      findDataBlock_of_ends (chains.isOpen index descriptor isOpen) blockNum
    exact ⟨block, found⟩
  terminates := by
    intro host call transfer
    have faults : FaultsOnly (· ≠ Fault.outOfFuel) (call.exec
        (session.sb.numDataBlocks.toNat + 1) host session.toState) :=
      chains.exec_faultsOnly transfer (.inl nofun) (Nat.lt_succ_self _) host
    exact ⟨_, fun endless => faults _ endless rfl⟩
  returns := by
    intro host call transfer countFits fdFits
    obtain ⟨⟨last, result⟩, returns⟩ := (chains.exec_faultsOnly transfer
      (.inr ⟨countFits, fdFits⟩) (Nat.lt_succ_self _) host).returns
    exact ⟨_, last, result, returns⟩

/-! ## Steps -/

/-- Names are found by the names in the root directory only. -/
theorem findMatchingFilename_congr
    (filename : ∀ slot,
      (after.root slot).filename = (session.root slot).filename)
    (name : CString) :
    after.findMatchingFilename name = session.findMatchingFilename name := by
  unfold findMatchingFilename
  simp only [filename]

/-- With the same names and no smaller counter, no other entry can be opened. -/
theorem Openable.of_le
    {slot : Slot}
    (openable : after.Openable slot)
    (filename : ∀ slot,
      (after.root slot).filename = (session.root slot).filename)
    (counter : after.numOpenFiles.toNat ≤ fsOpenMaxCount →
      session.numOpenFiles.toNat ≤ fsOpenMaxCount) :
    session.Openable slot := by
  obtain ⟨room, name, valid, found⟩ := openable
  rw [findMatchingFilename_congr filename] at found
  exact ⟨counter room, name, valid, found⟩

/-- The chains behind a write end where they have ended, and so does the one of
the file written to. -/
theorem chainEnds_of_wrote
    {index : Descriptor}
    {descriptor : FileDescriptor}
    {fat' : Fat session.sb.numDataBlocks.toNat}
    {firstIndex' : UInt16}
    {moved : Session}
    (confined : (session.setChain descriptor.file fat' firstIndex').Confined
      descriptor.file moved)
    (finishes : after = moved ∨
      ∃ bytes, after = moved.finishWrite index descriptor bytes)
    (keeps : ∀ head, ChainEnds session.fat head → ChainEnds fat' head)
    (own : ChainEnds fat' firstIndex')
    {slot : Slot}
    (ends : slot ≠ descriptor.file →
      ChainEnds session.fat (session.root slot).firstIndex) :
    ChainEnds after.fat (after.root slot).firstIndex := by
  obtain ⟨disk, rfl⟩ : ∃ disk, moved =
      { session.setChain descriptor.file fat' firstIndex' with disk := disk } :=
    ⟨_, confined.rest⟩
  by_cases same : slot = descriptor.file
  · subst same
    rcases finishes with rfl | ⟨bytes, rfl⟩
    · simpa [setChain] using own
    · simpa [setChain, finishWrite, setFile, setOpenFile] using own
  · have others := keeps _ (ends same)
    rcases finishes with rfl | ⟨bytes, rfl⟩
    · simpa [setChain, same] using others
    · simpa [setChain, finishWrite, setFile, setOpenFile, same] using others

end Safe

end Session

open Session

/-- No transfer makes the chain of a file that is or can be opened run on. -/
theorem CallEffect.openChainsEnd
    {session after : Session}
    {event : Event}
    (effect : CallEffect session event after)
    (transfer : event.call.IsTransfer)
    (chains : session.OpenChainsEnd) :
    after.OpenChainsEnd := by
  cases effect with
  | unchanged => exact chains
  | created isCall =>
      rw [isCall] at transfer
      exact transfer.elim
  | deleted _ isCall =>
      rw [isCall] at transfer
      exact transfer.elim
  | closed isCall =>
      rw [isCall] at transfer
      exact transfer.elim
  | @opened name slot index isCall valid found available empty =>
      have room : session.numOpenFiles.toNat ≤ 32 :=
        Nat.le_of_not_lt fun tooMany => available (.inl tooMany)
      refine ⟨?_, ?_⟩
      · intro other openable
        exact chains.openable other (openable.of_le (fun _ => rfl) fun _ => room)
      · intro other descriptor isOther
        rcases openFiles_setOpenFile_cases isOther with isEntry | wasOpen
        · cases isEntry
          exact chains.openable slot ⟨room, name, valid, found⟩
        · exact chains.isOpen other descriptor wasOpen
  | @positioned index descriptor offset _ isOpen =>
      refine ⟨fun other openable => chains.openable other openable, ?_⟩
      intro other otherDescriptor isOther
      rcases openFiles_setOpenFile_cases isOther with isEntry | wasOpen
      · cases isEntry
        exact chains.isOpen index descriptor isOpen
      · exact chains.isOpen other otherDescriptor wasOpen
  | @wrote index descriptor buf count _ fat' firstIndex' _ moved _ isCall
      positive isOpen allocates confined finishes =>
      obtain ⟨_, counter, filename, others, offset, own⟩ :=
        CallEffect.of_wrote isOpen confined finishes
      obtain ⟨keeps, ownEnds⟩ :=
        allocateInFat_ends session.sb.numDataBlocks.toNat_lt allocates
      have ends := chains.isOpen index descriptor isOpen
      refine ⟨?_, ?_⟩
      · intro slot openable
        refine chainEnds_of_wrote confined finishes keeps (ownEnds (.inr ends))
          fun _ => chains.openable slot (openable.of_le filename fun room => ?_)
        rwa [counter] at room
      · intro other otherDescriptor isOther
        refine chainEnds_of_wrote confined finishes keeps (ownEnds (.inr ends))
          fun different => ?_
        by_cases same : other = index
        · rw [same, own] at isOther
          cases isOther
          exact absurd rfl different
        · rw [others other same] at isOther
          exact chains.isOpen other otherDescriptor isOther

namespace Session

variable {mounted : Session}

/-- Where the chains of the files that can be opened end, transfers are safe. -/
theorem transfersSafe_of_chainsEnd
    (closed : ∀ index, mounted.openFiles index = none)
    (openable : ∀ slot, mounted.Openable slot →
      ChainEnds mounted.fat (mounted.root slot).firstIndex) :
    mounted.TransfersSafe := by
  intro events session run
  have holds : ∃ current : Session, session.toState = current.toState ∧
      current.OpenChainsEnd := by
    refine run.invariant
      (fun state => ∃ current : Session, state = current.toState ∧
        current.OpenChainsEnd) ?_ ⟨mounted, rfl, openable, ?_⟩
    · rintro _ event after ⟨current, rfl, chains⟩ ⟨transfer, fuel, returns⟩
      obtain ⟨next, rfl, effect⟩ := exec_effect returns
      exact ⟨next, rfl, effect.openChainsEnd transfer chains⟩
    · intro index descriptor isOpen
      rw [closed] at isOpen
      exact nomatch isOpen
  obtain ⟨current, same, chains⟩ := holds
  cases toState_injective same
  exact chains.walksSafe

/-- Where transfers are safe, the chain of every file that can be opened ends:
the first `fs_write` behind an `fs_open` walks along it. -/
theorem chainEnds_of_transfersSafe
    (closed : ∀ index, mounted.openFiles index = none)
    (safe : mounted.TransfersSafe)
    {slot : Slot}
    (openable : mounted.Openable slot) :
    ChainEnds mounted.fat (mounted.root slot).firstIndex := by
  obtain ⟨room, name, valid, found⟩ := openable
  have available : ¬mounted.NoDescriptor .reliable := by
    rintro (tooMany | failed | full)
    · exact Nat.not_lt.mpr room tooMany
    · exact absurd failed (by decide)
    · exact full 0 (closed 0)
  obtain ⟨index, opens⟩ := fsOpen_of_available valid found available
  have walks := safe [⟨.reliable, .open (some name), index.val⟩] _
    (.cons ⟨trivial, 0, opens⟩ .nil)
  obtain ⟨fuel, grown, result, allocates, _⟩ :=
    walks.allocates index { file := slot, offset := 0 }
      (Function.update_self _ _ _) 1
  obtain ⟨⟨fat', firstIndex', _⟩, walked, _⟩ := outcome_bind_eq_ok allocates
  exact chainEnds_of_allocateInFat mounted.sb.numDataBlocks.toNat_lt walked
    (by decide)

/-- Transfers on a mounted disk are safe exactly if the chain of every file that
can be opened ends. -/
theorem transfersSafe_iff
    {host : Host}
    {state : State}
    {diskname : Option String}
    (mounts : fsMount host state diskname = .ok (mounted.toState, 0)) :
    mounted.TransfersSafe ↔
      ∀ slot, mounted.Openable slot →
        ChainEnds mounted.fat (mounted.root slot).firstIndex := by
  obtain ⟨_, _, closed⟩ := fsMount_eq_zero mounts
  exact ⟨fun safe slot openable =>
      chainEnds_of_transfersSafe closed safe openable,
    transfersSafe_of_chainsEnd closed⟩

/-- A root directory with one file `a` of this first index. -/
def rootWithA (firstIndex : UInt16) : Slot → File :=
  Function.update (fun _ => decodeFile fun _ => 0) 0
    { newFile (decodeFile fun _ => 0) nameA with firstIndex := firstIndex }

theorem openable_rootWithA
    {firstIndex : UInt16}
    (root : mounted.root = rootWithA firstIndex)
    (counter : mounted.numOpenFiles = 0) :
    mounted.Openable 0 := by
  refine ⟨?_, nameA, ⟨by decide, by decide⟩, ?_⟩
  · rw [counter]
    decide
  · unfold findMatchingFilename
    rw [root]
    rfl

/-- There is a disk with this FAT and such a root directory, and it is mounted. -/
theorem exists_mounted_withA
    {numBlocks numDataBlocks : UInt16}
    (entries : 1 ≤ numDataBlocks.toNat)
    (fits : numDataBlocks.toNat ≤ blockSize / 2)
    (inside : numDataBlocks.toNat + 3 ≤ numBlocks.toNat)
    {fat : Fat numDataBlocks.toNat}
    (firstEntry : fat[0]? = some fatEoc)
    (firstIndex : UInt16) :
    ∃ (state : State) (mounted : Session),
      fsMount .reliable state (some "disk.fs") = .ok (mounted.toState, 0) ∧
        mounted.sb.numDataBlocks = numDataBlocks ∧
        (∀ index : Nat, mounted.fat[index]? = fat[index]?) ∧
        mounted.numOpenFiles = 0 ∧
        mounted.root = rootWithA firstIndex := by
  obtain ⟨fresh, mounts, isSb, isDisk⟩ :=
    freshImage_mounts entries fits (show numDataBlocks.toNat < numBlocks.toNat by
      omega)
  obtain ⟨_, loads, closed⟩ := fsMount_eq_zero mounts
  have numData : fresh.sb.numDataBlocks = numDataBlocks := by
    rw [isSb]
    exact freshImage_numDataBlocks _ _ _
  have blank : fresh.root = fun _ => decodeFile fun _ => 0 :=
    freshImage_root (isDisk ▸ loads) (by omega)
      Host.reliable_reliable.toIoSucceeds
  have layout : OneFatBlock fresh.sb := by
    rw [isSb]
    exact freshImage_oneFatBlock fits
  have rootInside : 3 ≤ fresh.disk.bcount := by
    rw [isDisk]
    exact (show 3 ≤ numBlocks.toNat by omega).trans_eq freshImage_count.symm
  let words : Fat fresh.sb.numDataBlocks.toNat :=
    Vector.ofFn fun index => fat[index.val]?.getD 0
  have areWords : ∀ index : Nat, words[index]? = fat[index]? := by
    intro index
    rw [Vector.getElem?_ofFn, numData]
    split
    · rename_i isEntry
      rw [Vector.getElem?_eq_getElem isEntry, Option.getD_some]
    · rename_i behind
      exact (Vector.getElem?_eq_none (Nat.le_of_not_lt behind)).symm
  let session : Session :=
    { fresh.setFile 0
        { newFile (decodeFile fun _ => 0) nameA with firstIndex := firstIndex }
      with fat := words }
  have changed : fresh.Changed session :=
    { sb := rfl
      firstEntry := (areWords 0).trans firstEntry
      padding := by
        apply setFile_padding
        rw [blank]
        rfl
      diskname := rfl
      bcount := rfl
      bytes := fun _ _ => rfl
      closed := closed }
  have remounts := fsMount_unmounted layout loads rootInside changed
    Host.reliable_reliable.toIoSucceeds Host.reliable_reliable
  have isName : session.disk.diskname = "disk.fs" := by
    rw [show session.disk = _ from isDisk]
    rfl
  rw [isName] at remounts
  refine ⟨_, _, remounts, numData, areWords,
    congrArg Session.numOpenFiles (eq_mounted_of_fsMount mounts), ?_⟩
  change Function.update fresh.root 0 _ = _
  rw [blank]
  rfl

/-- The only file on the disk has the blocks 1 and 2. -/
theorem transfersSafe_iff_twoBlocks :
    ∃ (state : State) (mounted : Session),
      fsMount .reliable state (some "disk.fs") = .ok (mounted.toState, 0) ∧
        mounted.Openable 0 ∧ (mounted.root 0).firstIndex = 1 ∧
        mounted.fat[1]? = some 2 ∧ mounted.TransfersSafe := by
  obtain ⟨state, mounted, mounts, entries, isFat, counter, root⟩ :=
    @exists_mounted_withA 6 3 (by decide) (by decide) (by decide)
      #v[fatEoc, 2, fatEoc] rfl 1
  have toEnd : ChainEnds mounted.fat 1 :=
    .cons (show (1 : UInt16) ≠ fatEoc by decide) (isFat 1)
      (.cons (show (2 : UInt16) ≠ fatEoc by decide) (isFat 2) .refl)
  refine ⟨state, mounted, mounts, openable_rootWithA root counter, ?_,
    isFat 1, (transfersSafe_iff mounts).mpr fun slot _ => ?_⟩
  · rw [root]
    rfl
  · rw [root]
    by_cases first : slot = 0
    · subst first
      exact toEnd
    · rw [rootWithA, Function.update_of_ne first]
      exact .cons (show (0 : UInt16) ≠ fatEoc by decide) (isFat 0) .refl

/-- The first index of the only file on the disk is 5, and there is one data
block. -/
theorem not_transfersSafe_firstIndexFive :
    ∃ (state : State) (mounted : Session),
      fsMount .reliable state (some "disk.fs") = .ok (mounted.toState, 0) ∧
        mounted.sb.numDataBlocks.toNat = 1 ∧
        mounted.Openable 0 ∧
        (mounted.root 0).firstIndex = 5 ∧
        ¬mounted.TransfersSafe := by
  obtain ⟨state, mounted, mounts, entries, _, counter, root⟩ :=
    @exists_mounted_withA 4 1 (by decide) (by decide) (by decide) #v[fatEoc]
      rfl 5
  have openable := openable_rootWithA root counter
  have firstIndex : (mounted.root 0).firstIndex = 5 := by
    rw [root]
    rfl
  have oneBlock : mounted.sb.numDataBlocks.toNat = 1 := by
    rw [entries]
    rfl
  refine ⟨state, mounted, mounts, oneBlock, openable, firstIndex,
    fun safe => ?_⟩
  obtain ⟨_, _, closed⟩ := fsMount_eq_zero mounts
  obtain ⟨chain, links⟩ := chainEnds_of_transfersSafe closed safe openable
  rw [firstIndex] at links
  cases chain with
  | nil => exact absurd links (show (5 : UInt16) ≠ fatEoc by decide)
  | cons first rest =>
      have inside := lt_of_mem_links links (List.mem_cons_self ..)
      rw [← links.1, oneBlock] at inside
      exact absurd inside (by decide)

end Session

end MsFat
