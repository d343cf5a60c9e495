import MsFat.Apps.Rules
import MsFat.Drive.Start

/-!
# The commands of `test_fs` do what they mean

Every command ends, and leaves and prints what its meaning says.  A sequence of
commands, each in a process of its own, does what the sequence of their meanings
says.
-/

namespace MsFat

namespace Store

variable {store : Store} {name : CString} {file : StoredFile}

/-! ## One open file -/

/-- The store with the file of this name open, and no other one. -/
def opened (store : Store) (name : CString) : Store :=
  { store.restarted.setHandle 0 (some { name := name, offset := 0 }) with
    handleCount := 1 }

theorem opened_handle (store : Store) (name : CString) :
    (store.opened name).handles 0 = some { name := name, offset := 0 } := by
  simp [opened, setHandle]

theorem opened_restarted (store : Store) (name : CString) :
    (store.opened name).restarted = store.restarted := rfl

/-- The first file that is opened has the first handle. -/
theorem exec_open
    (isFile : store.files name = some file) :
    store.restarted.exec (.open (some name)) =
      some (store.opened name, { result := 0 }) := by
  have present : ¬((store.restarted.files name).isNone ∨
      fsOpenMaxCount < store.restarted.handleCount.toNat) := by
    change ¬((store.files name).isNone ∨ fsOpenMaxCount < 0)
    simp [isFile, fsOpenMaxCount]
  change some (store.restarted.open (some name)) = _
  unfold «open»
  dsimp only
  rw [if_neg present]
  rfl

theorem exec_open_missing
    (missing : store.files name = none) :
    store.restarted.exec (.open (some name)) =
      some (store.restarted, { result := -1 }) := by
  change some (store.restarted.open (some name)) = _
  unfold «open»
  dsimp only
  rw [if_pos (.inl (by rw [show store.restarted.files name = none from missing]; rfl))]
  rfl

theorem exec_stat
    (isFile : store.files name = some file) :
    (store.opened name).exec (.stat 0) =
      some (store.opened name, { result := int32 file.size.toNat }) := by
  unfold exec stat
  exact onFile_of_handle rfl (store.opened_handle name) isFile _

/-- Closing the file that has the first handle. -/
theorem exec_close
    {handle : Handle}
    (isHandle : store.handles 0 = some handle) :
    ∃ after, store.exec (.close 0) = some (after, { result := 0 }) ∧
      after.restarted = store.restarted := by
  unfold exec close
  exact ⟨_, onHandle_of_handle rfl isHandle _, rfl⟩

theorem moved_restarted
    (store : Store)
    (index : Descriptor)
    (handle : Handle)
    (bytes count : Nat) :
    (store.moved index handle bytes count).restarted = store.restarted := by
  unfold moved
  split
  · rfl
  · rfl

/-- A transfer keeps its handle. -/
theorem moved_handle
    {index : Descriptor}
    {handle : Handle}
    (isHandle : store.handles index = some handle)
    (bytes count : Nat) :
    ∃ handle', (store.moved index handle bytes count).handles index =
      some handle' := by
  unfold moved setHandle
  split
  · exact ⟨_, Function.update_self ..⟩
  · exact ⟨handle, isHandle⟩

/-! ## Transfers of whole files -/

/-- The whole file is read. -/
theorem exec_read
    (isFile : store.files name = some file)
    (memory : Buffer)
    {count : Nat}
    (positive : 0 < count) :
    ∃ after handle,
      (store.opened name).exec (.read 0 (some memory) count) =
          some (after, {
            result := (min count (file.behind 0) : Nat)
            buffer := some (file.read 0 memory (min count (file.behind 0)))
            stored := min count (file.behind 0) }) ∧
        after.handles 0 = some handle ∧ after.restarted = store.restarted := by
  have isHandle := store.opened_handle name
  have notEmpty : ¬(count = 0 ∧ 0 % blockSize ≠ 0 ∧
      0 / blockSize + 1 < file.blocks) := by omega
  obtain ⟨handle, isMoved⟩ := moved_handle isHandle
    (min count (file.behind 0)) count
  refine ⟨_, handle, ?_, isMoved, ?_⟩
  · unfold exec read
    refine (onFile_of_handle rfl isHandle isFile _).trans ?_
    exact congrArg some (if_neg notEmpty)
  · rw [moved_restarted, opened_restarted]

/-- Nothing is written to a new file. -/
theorem addedFile_of_empty
    (store : Store)
    {hostFile : HostFile}
    (empty : hostFile.size = 0) :
    store.addedFile hostFile = .empty := by
  unfold addedFile
  rw [empty]
  have none : StoredFile.empty.taken store.freeBlocks 0 0 = 0 := by
    simp [StoredFile.taken, blockSize]
  refine StoredFile.ext rfl none (funext fun position => ?_)
  simp [StoredFile.write, StoredFile.written]

/-- As many bytes of a host file are written as fit. -/
theorem written_eq_fitting (store : Store) (hostFile : HostFile) :
    StoredFile.empty.written store.freeBlocks 0 hostFile.size =
      store.fitting hostFile := by
  unfold StoredFile.written StoredFile.taken fitting
  simp only [StoredFile.empty, blockSize]
  omega

/-- A host file is written to a new file. -/
theorem exec_write
    (isFile : store.files name = some .empty)
    (hostFile : HostFile) :
    ∃ after handle,
      (store.opened name).exec
          (.write 0 (some hostFile.bytes) hostFile.size) =
        some (after, { result := (store.fitting hostFile : Nat) }) ∧
      after.handles 0 = some handle ∧
      after.restarted =
        { store.restarted.setFile name (some (store.addedFile hostFile)) with
          freeBlocks :=
            store.freeBlocks - (store.addedFile hostFile).blocks } := by
  have isHandle := store.opened_handle name
  by_cases empty : hostFile.size = 0
  · refine ⟨store.opened name, _, ?_, isHandle, ?_⟩
    · have nothing : store.fitting hostFile = 0 := by
        rw [fitting, empty, Nat.zero_min]
      rw [nothing]
      unfold exec write
      refine (onFile_of_handle rfl isHandle isFile _).trans ?_
      exact congrArg some (if_pos empty)
    · rw [store.addedFile_of_empty empty, opened_restarted, setFile, ← isFile,
        show store.files = store.restarted.files from rfl,
        Function.update_eq_self]
      rfl
  · let stored : Store :=
      { (store.opened name).setFile name (some (store.addedFile hostFile)) with
        freeBlocks := store.freeBlocks -
          StoredFile.empty.taken store.freeBlocks 0 hostFile.size }
    obtain ⟨handle, isMoved⟩ := @moved_handle stored 0 _ isHandle
      (store.fitting hostFile) hostFile.size
    refine ⟨_, handle, ?_, isMoved, ?_⟩
    · unfold exec write
      refine (onFile_of_handle rfl isHandle isFile _).trans ?_
      refine congrArg some ((if_neg empty).trans ?_)
      rw [← store.written_eq_fitting hostFile]
      rfl
    · rw [moved_restarted]
      have taken : (store.addedFile hostFile).blocks =
          StoredFile.empty.taken store.freeBlocks 0 hostFile.size := by
        exact Nat.zero_add _
      rw [taken]
      rfl

/-! ## Deleting and creating -/

theorem exec_delete_missing
    (missing : store.files name = none) :
    store.restarted.exec (.delete (some name)) =
      some (store.restarted, { result := -1 }) := by
  have missing' : store.restarted.files name = none := missing
  simp only [exec, delete, missing', refused]

/-- A file of a disk that has just been mounted is deleted. -/
theorem exec_delete
    (guarded : store.guarded = true)
    (isFile : store.files name = some file) :
    ∃ after, store.restarted.exec (.delete (some name)) =
        some (after, { result := 0 }) ∧
      after.restarted = (store.removed name file).restarted := by
  have isFile' : store.restarted.files name = some file := isFile
  have guarded' : store.restarted.guarded = true := guarded
  have notOpen : store.restarted.isOpen name = false := by
    simp [isOpen, restarted, closed]
  unfold exec delete
  simp only [isFile', notOpen, guarded']
  by_cases short : file.blocks ≤ 1
  · refine ⟨_, if_pos short, ?_⟩
    rw [removed, Nat.min_eq_left short, decide_eq_true short, ← guarded]
    rfl
  · refine ⟨_, if_neg short, ?_⟩
    rw [removed, Nat.min_eq_right (by omega), decide_eq_false short]
    rfl

theorem exec_create_refused
    (notAdmitted : ¬store.Admits name) :
    store.restarted.exec (.create (some name)) =
      some (store.restarted, { result := -1 }) :=
  congrArg some (if_neg notAdmitted)

/-- A new file is created. -/
theorem exec_create
    (admits : store.Admits name) :
    store.restarted.exec (.create (some name)) =
      some ({ store.restarted.setFile name (some .empty) with
        freeEntries := store.freeEntries - 1 }, { result := 0 }) :=
  congrArg some (if_pos admits)

end Store

namespace Client

variable {sb : SuperBlock} {diskname : String} {store kept : Store}
  {post : Drive → Printed → Prop}

/-! ## Mounting and unmounting -/

/-- A disk that is mounted. -/
theorem ensures_mounted
    {rest : Client Printed}
    (guarded : store.guarded = true)
    (follows : rest.Ensures (Drive.exec sb diskname)
      (.mounted store.restarted store.restarted) post) :
    Program.Ensures (Drive.exec sb diskname) (do
      let mounted ← fsMount diskname
      if mounted.result ≠ 0 then return .died "Cannot mount diskname"
      rest) (.unmounted store.restarted) post := by
  refine ensures_fsMount guarded fun mounted isMounted => ?_
  rw [if_neg (not_not.mpr isMounted)]
  exact follows

/-- A disk that is not mounted stays as it is. -/
theorem ensures_notMounted
    {rest : Client Printed}
    (unguarded : store.guarded = false)
    (dies : post (.broken store.restarted) (.died "Cannot mount diskname")) :
    Program.Ensures (Drive.exec sb diskname) (do
      let mounted ← fsMount diskname
      if mounted.result ≠ 0 then return .died "Cannot mount diskname"
      rest) (.unmounted store.restarted) post := by
  refine ensures_fsMount_broken unguarded fun mounted failed => ?_
  rw [if_pos (by rw [failed]; decide)]
  exact dies

/-- A disk that is unmounted at the end. -/
theorem ensures_unmounted
    {message : String}
    {printed : Printed}
    (holds : post (.unmounted store) printed) :
    Program.Ensures (Drive.exec sb diskname) (do
      let unmounted ← fsUmount
      if unmounted.result ≠ 0 then return .died message
      return printed) (.mounted store kept) post := by
  refine ensures_fsUmount fun unmounted isUnmounted => ?_
  rw [if_neg (not_not.mpr isUnmounted)]
  exact holds

/-! ## Commands -/

/-- The program leaves and prints what is described. -/
def Does
    (program : Client Printed)
    (sb : SuperBlock)
    (diskname : String)
    (store : Store)
    (described : Store × (Printed → Prop)) : Prop :=
  program.Ensures (Drive.exec sb diskname) (.unmounted store.restarted)
    fun drive printed =>
      drive.atExit = described.1.restarted ∧ described.2 printed

theorem threadFsLs_does :
    Does (threadFsLs diskname) sb diskname store (Command.ls.exec sb store) := by
  unfold Command.exec
  cases guarded : store.guarded with
  | false => exact ensures_notMounted guarded ⟨rfl, rfl⟩
  | true =>
      refine ensures_mounted guarded ?_
      refine Program.ensures_call_bind.mpr ⟨_, _, rfl, fun listed lists => ?_⟩
      exact ensures_unmounted
        ⟨rfl, listed.lines, rfl, ⟨lists.2.distinct, lists.2.listed, lists.2.only⟩⟩

theorem threadFsInfo_does :
    Does (threadFsInfo diskname) sb diskname store
      (Command.info.exec sb store) := by
  unfold Command.exec
  cases guarded : store.guarded with
  | false => exact ensures_notMounted guarded ⟨rfl, rfl⟩
  | true =>
      refine ensures_mounted guarded ?_
      refine Program.ensures_call_bind.mpr ⟨_, _, rfl, fun informed informs => ?_⟩
      exact ensures_unmounted ⟨rfl, congrArg Printed.info informs.2⟩

theorem threadFsRm_does (filename : CString) :
    Does (threadFsRm diskname filename) sb diskname store
      ((Command.rm filename).exec sb store) := by
  unfold Command.exec
  cases guarded : store.guarded with
  | false => exact ensures_notMounted guarded ⟨rfl, rfl⟩
  | true =>
      refine ensures_mounted guarded ?_
      dsimp only [Bool.not_true]
      cases isFile : store.files filename with
      | none =>
          refine ensures_file trivial (Store.exec_delete_missing isFile)
            fun deleted refused => ?_
          rw [refused.result, if_pos (by decide)]
          exact ensures_unmountAndDie ⟨rfl, rfl⟩
      | some stored =>
          obtain ⟨after, deletes, isAfter⟩ := Store.exec_delete guarded isFile
          refine ensures_file trivial deletes fun deleted isDeleted => ?_
          rw [isDeleted.result, if_neg (by decide)]
          exact ensures_unmounted ⟨isAfter, rfl⟩

/-- The size of a file, if `fs_stat` does not give a negative number. -/
theorem int32_of_nonneg
    {size : UInt32}
    {stat : Int}
    (isStat : int32 size.toNat = stat)
    (nonneg : ¬stat < 0) :
    stat = size.toNat ∧ size.toNat ≤ intMax := by
  have bound := size.toNat_lt
  subst isStat
  unfold int32 Int.bmod at nonneg ⊢
  simp only [intMax] at nonneg ⊢
  omega

theorem threadFsStat_does (filename : CString) :
    Does (threadFsStat diskname filename) sb diskname store
      ((Command.stat filename).exec sb store) := by
  unfold Command.exec
  cases guarded : store.guarded with
  | false => exact ensures_notMounted guarded ⟨rfl, rfl⟩
  | true =>
      refine ensures_mounted guarded ?_
      dsimp only [Bool.not_true]
      cases isFile : store.files filename with
      | none =>
          refine ensures_file trivial (Store.exec_open_missing isFile)
            fun opened refused => ?_
          rw [refused.result, if_pos (by decide)]
          exact ensures_unmountAndDie ⟨rfl, rfl⟩
      | some stored =>
          obtain ⟨after, closes, isAfter⟩ :=
            Store.exec_close (store.opened_handle filename)
          refine ensures_file trivial (Store.exec_open isFile)
            fun opened isOpened => ?_
          rw [isOpened.result, if_neg (by decide)]
          refine ensures_file trivial (Store.exec_stat isFile)
            fun stat isStat => ?_
          rw [isStat.result]
          dsimp only
          generalize isSize : int32 stored.size.toNat = size
          by_cases negative : size < 0
          · rw [if_pos negative, if_pos negative]
            refine ensures_file trivial closes fun _ _ => ?_
            exact ensures_unmountAndDie ⟨isAfter, rfl⟩
          · obtain ⟨rfl, _⟩ := int32_of_nonneg isSize negative
            rw [if_neg negative, if_neg negative]
            by_cases empty : stored.size = 0
            · rw [if_pos empty, if_pos (by rw [empty]; rfl)]
              refine ensures_file trivial closes fun _ _ => ?_
              exact ensures_fsUmount fun _ _ => ⟨isAfter, rfl⟩
            · have nonzero : ¬(stored.size.toNat : Int) = 0 := by
                intro zero
                exact empty (UInt32.toNat_inj.mp (Int.ofNat_inj.mp zero))
              rw [if_neg empty, if_neg nonzero]
              refine ensures_file trivial closes fun closed isClosed => ?_
              rw [if_neg (not_not.mpr isClosed.result)]
              exact ensures_unmounted ⟨isAfter, rfl⟩

/-- The bytes that are printed are those that the file is known to have. -/
theorem prints_of_allows
    {stored : StoredFile}
    {filename : CString}
    {stat : Nat}
    {memory : Buffer}
    {reply : Reply}
    (allows : Answer.Allows {
      result := (min stat (stored.behind 0) : Nat)
      buffer := some (stored.read 0 memory (min stat (stored.behind 0)))
      stored := min stat (stored.behind 0) }
      reply) :
    stored.Prints filename stat memory
      (.content filename reply.result stat
        ((List.range stat).map (reply.buffer.getD memory))) := by
  obtain ⟨buffer, isBuffer, known⟩ := allows.buffer _ rfl
  refine ⟨_, by rw [allows.result], ?_, ?_⟩
  · rw [List.length_map, List.length_range]
  · intro position byte inside isKnown
    rw [List.getElem?_map, List.getElem?_range inside, isBuffer,
      Option.getD_some, Option.map_some, known position byte isKnown]

theorem threadFsCat_does (filename : CString) (memory : Option Buffer) :
    Does (threadFsCat diskname filename memory) sb diskname store
      ((Command.cat filename memory).exec sb store) := by
  unfold Command.exec
  cases guarded : store.guarded with
  | false => exact ensures_notMounted guarded ⟨rfl, rfl⟩
  | true =>
      refine ensures_mounted guarded ?_
      dsimp only [Bool.not_true]
      cases isFile : store.files filename with
      | none =>
          refine ensures_file trivial (Store.exec_open_missing isFile)
            fun opened refused => ?_
          rw [refused.result, if_pos (by decide)]
          exact ensures_unmountAndDie ⟨rfl, rfl⟩
      | some stored =>
          refine ensures_file trivial (Store.exec_open isFile)
            fun opened isOpened => ?_
          rw [isOpened.result, if_neg (by decide)]
          refine ensures_file trivial (Store.exec_stat isFile)
            fun stat isStat => ?_
          rw [isStat.result]
          dsimp only
          generalize isSize : int32 stored.size.toNat = size
          by_cases negative : size < 0
          · rw [if_pos negative, if_pos negative]
            exact ensures_unmountAndDie ⟨rfl, rfl⟩
          · obtain ⟨rfl, countFits⟩ := int32_of_nonneg isSize negative
            rw [if_neg negative, if_neg negative]
            by_cases empty : stored.size = 0
            · rw [if_pos empty, if_pos (by rw [empty]; rfl)]
              exact ⟨rfl, rfl⟩
            · have nonzero : stored.size.toNat ≠ 0 := by
                intro zero
                exact empty (UInt32.toNat_inj.mp zero)
              rw [if_neg empty, if_neg (by omega)]
              cases memory with
              | none => exact ensures_unmountAndDie ⟨rfl, rfl⟩
              | some buf =>
                  obtain ⟨after, handle, reads, isHandle, isAfter⟩ :=
                    Store.exec_read isFile buf (Nat.pos_of_ne_zero nonzero)
                  obtain ⟨last, closes, isLast⟩ := Store.exec_close isHandle
                  refine ensures_file countFits reads fun read isRead => ?_
                  refine ensures_file trivial closes fun closed isClosed => ?_
                  rw [if_neg (not_not.mpr isClosed.result)]
                  exact ensures_unmounted
                    ⟨isLast.trans isAfter, prints_of_allows isRead⟩

/-- The checks of a host file. -/
theorem checks_eq
    (hostFile : HostFile)
    (rest : Client Printed) :
    (do
      if !hostFile.opens then return Printed.died "open"
      if !hostFile.fstatSucceeds then return Printed.died "fstat"
      if !hostFile.isRegular then return Printed.died "Not a regular file: %s\n"
      rest) =
        match hostFile.failure with
        | some message => pure (Printed.died message)
        | none => rest := by
  unfold HostFile.failure
  cases hostFile.opens with
  | false => rfl
  | true =>
      cases hostFile.fstatSucceeds with
      | false => rfl
      | true =>
          cases hostFile.isRegular with
          | false => rfl
          | true => rfl

theorem threadFsAdd_does
    (filename : CString)
    {hostFile : HostFile}
    (countFits : hostFile.size ≤ intMax) :
    Does (threadFsAdd diskname filename hostFile) sb diskname store
      ((Command.add filename hostFile).exec sb store) := by
  unfold Command.exec threadFsAdd
  rw [checks_eq]
  dsimp only
  cases hostFile.failure with
  | some message => exact ⟨rfl, rfl⟩
  | none =>
      cases guarded : store.guarded with
      | false => exact ensures_notMounted guarded ⟨rfl, rfl⟩
      | true =>
          refine ensures_mounted guarded ?_
          dsimp only [Bool.not_true]
          by_cases admits : store.Admits filename
          · let created : Store :=
              { store.setFile filename (some .empty) with
                freeEntries := store.freeEntries - 1 }
            have isFile : created.files filename = some .empty :=
              Function.update_self ..
            obtain ⟨after, handle, writes, isHandle, isAfter⟩ :=
              Store.exec_write isFile hostFile
            obtain ⟨last, closes, isLast⟩ := Store.exec_close isHandle
            refine ensures_file trivial (Store.exec_create admits)
              fun made isMade => ?_
            rw [if_neg (not_not.mpr isMade.result)]
            refine ensures_file trivial (Store.exec_open isFile)
              fun opened isOpened => ?_
            rw [isOpened.result, if_neg (by decide)]
            refine ensures_file countFits writes fun written isWritten => ?_
            refine ensures_file trivial closes fun closed isClosed => ?_
            rw [if_neg (not_not.mpr isClosed.result)]
            refine ensures_unmounted ⟨?_, ?_⟩
            · rw [if_pos admits]
              refine (isLast.trans isAfter).trans ?_
              unfold Store.added Store.setFile Store.restarted Store.closed
              simp only [created, Store.setFile, Function.update_idem]
              rfl
            · rw [if_pos admits, isWritten.result]
              rfl
          · refine ensures_file trivial (Store.exec_create_refused admits)
              fun made refused => ?_
            rw [if_pos (by rw [refused.result]; decide), if_neg admits]
            exact ensures_unmountAndDie ⟨rfl, rfl⟩

end Client

/-- Every command does what it means. -/
theorem Command.client_does
    {command : Command}
    (fits : command.Fits)
    (sb : SuperBlock)
    (diskname : String)
    (store : Store) :
    Client.Does (command.client diskname) sb diskname store
      (command.exec sb store) := by
  cases command with
  | info => exact Client.threadFsInfo_does
  | ls => exact Client.threadFsLs_does
  | add filename hostFile => exact Client.threadFsAdd_does filename fits
  | rm filename => exact Client.threadFsRm_does filename
  | cat filename memory => exact Client.threadFsCat_does filename memory
  | stat filename => exact Client.threadFsStat_does filename

/-! ## Sequences of commands -/

/-- Commands one after the other, each in a process of its own. -/
def runCommands
    (diskname : String)
    (fuel : Nat) :
    List ((Nat → Host) × Command) → (String → Option Image) →
      Outcome ((String → Option Image) × List Printed)
  | [], files => .ok (files, [])
  | (hosts, command) :: rest, files => do
      let (files, printed) ← runProcess (command.client diskname) fuel hosts
        files
      let (files, others) ← runCommands diskname fuel rest files
      .ok (files, printed :: others)

/-- What commands one after the other mean. -/
def execCommands
    (sb : SuperBlock) :
    List Command → Store → Store × List (Printed → Prop)
  | [], store => (store, [])
  | command :: rest, store =>
      let (store, allowed) := command.exec sb store
      let (store, others) := execCommands sb rest store
      (store, allowed :: others)

section Sequences

variable {sb : SuperBlock} {diskname : String}
  {files : String → Option Image} {store : Store}

/-- A process that runs a command. -/
theorem HoldsStore.runs_command
    (holds : HoldsStore sb diskname files store.restarted)
    {hosts : Nat → Host}
    (reliable : ∀ number, (hosts number).Reliable)
    {command : Command}
    (fits : command.Fits) :
    ∃ files' printed bound,
      Computes
        (fun fuel => runProcess (command.client diskname) fuel hosts files)
        bound (files', printed) ∧
      HoldsStore sb diskname files' (command.exec sb store).1.restarted ∧
      (command.exec sb store).2 printed := by
  obtain ⟨files', printed, bound, drive, computes, holds', isDrive, allowed⟩ :=
    holds.runs reliable (Command.client_does fits sb diskname store)
  rw [isDrive] at holds'
  exact ⟨files', printed, bound, computes, holds', allowed⟩

/-- Processes that run commands. -/
theorem HoldsStore.runs_commands
    (holds : HoldsStore sb diskname files store.restarted)
    {commands : List ((Nat → Host) × Command)}
    (reliable : ∀ made ∈ commands, ∀ number, (made.1 number).Reliable)
    (fits : ∀ made ∈ commands, made.2.Fits) :
    ∃ files' printed bound,
      Computes (fun fuel => runCommands diskname fuel commands files) bound
        (files', printed) ∧
      HoldsStore sb diskname files'
        (execCommands sb (commands.map Prod.snd) store).1.restarted ∧
      List.Forall₂ (fun allowed line => allowed line)
        (execCommands sb (commands.map Prod.snd) store).2 printed := by
  induction commands generalizing files store with
  | nil => exact ⟨files, [], 0, .const fun _ => rfl, holds, .nil⟩
  | cons made rest inductionHypothesis =>
      obtain ⟨hosts, command⟩ := made
      obtain ⟨middle, printed, bound, computes, holdsMiddle, allowed⟩ :=
        holds.runs_command (reliable _ List.mem_cons_self)
          (fits _ List.mem_cons_self)
      obtain ⟨files', others, bound', computes', holdsLast, allowedAll⟩ :=
        inductionHypothesis holdsMiddle
          (fun made member => reliable made (List.mem_cons_of_mem _ member))
          (fun made member => fits made (List.mem_cons_of_mem _ member))
      exact ⟨files', printed :: others, max bound bound',
        computes.andThen (computes'.bind rfl), holdsLast,
        .cons allowed allowedAll⟩

/-- On a disk that holds a store, every sequence of commands comes to its end,
leaves what the sequence of their meanings leaves, and prints what they
print. -/
theorem runCommands_refines
    (holds : HoldsStore sb diskname files store)
    {commands : List ((Nat → Host) × Command)}
    (reliable : ∀ made ∈ commands, ∀ number, (made.1 number).Reliable)
    (fits : ∀ made ∈ commands, made.2.Fits) :
    ∃ files' printed bound,
      Computes (fun fuel => runCommands diskname fuel commands files) bound
        (files', printed) ∧
      HoldsStore sb diskname files'
        (execCommands sb (commands.map Prod.snd) store).1.restarted ∧
      List.Forall₂ (fun allowed line => allowed line)
        (execCommands sb (commands.map Prod.snd) store).2 printed :=
  holds.restarted.runs_commands reliable fits

end Sequences

/-! ## A host file of two blocks -/

/-- A host file of 5000 bytes. -/
def twoBlockFile : HostFile where
  opens := true
  fstatSucceeds := true
  isRegular := true
  bytes := fun position => UInt8.ofNat position
  size := 5000

/-- The commands of a list, each in a process of a host that is reliable. -/
def onReliable (commands : List Command) : List ((Nat → Host) × Command) :=
  commands.map fun command => (fun _ => .reliable, command)

theorem onReliable_reliable (commands : List Command) :
    ∀ made ∈ onReliable commands, ∀ number, (made.1 number).Reliable := by
  intro made member number
  obtain ⟨command, _, rfl⟩ := List.mem_map.mp member
  exact Host.reliable_reliable

/-- It is added to a fresh disk, listed and removed. -/
theorem runCommands_refines_twoBlockFile :
    ∃ sb files' printed bound,
      Computes
        (fun fuel => runCommands "disk.fs" fuel
          (onReliable [.add nameA twoBlockFile, .ls, .rm nameA])
          fun _ => some (freshImage 100 50 1))
        bound (files', printed) ∧
      HoldsStore sb "disk.fs" files'
        (execCommands sb [.add nameA twoBlockFile, .ls, .rm nameA]
          (emptyStore 49)).1.restarted ∧
      List.Forall₂ (fun allowed line => allowed line)
        (execCommands sb [.add nameA twoBlockFile, .ls, .rm nameA]
          (emptyStore 49)).2 printed := by
  obtain ⟨sb, holds⟩ := @freshImage_holdsStore 100 50 (by decide) (by decide)
    (by decide)
  exact ⟨sb, runCommands_refines holds (onReliable_reliable _)
    (by simp [onReliable, Command.Fits, twoBlockFile, intMax])⟩

end MsFat
