import MsFat.Commute
import MsFat.Store.Refinement

/-!
# Every file for itself

Calls that go through handles and are made on several files in turn are answered
for each file as if nobody had called for the others.  Only the room on the disk
is shared: no write may have been short.
-/

namespace MsFat

/-- The descriptor that a call goes through. -/
def Call.descriptor : Call → Option Int
  | .close fd => some fd
  | .stat fd => some fd
  | .lseek fd _ => some fd
  | .write fd _ _ => some fd
  | .read fd _ _ => some fd
  | _ => none

theorem Call.takesFd_of_descriptor
    {call : Call}
    {fd : Int}
    (isFd : call.descriptor = some fd) :
    call.TakesFd fd := by
  cases call with
  | create filename => cases isFd
  | delete filename => cases isFd
  | «open» filename => cases isFd
  | close fd' => exact Option.some.inj isFd
  | stat fd' => exact Option.some.inj isFd
  | lseek fd' offset => exact Option.some.inj isFd
  | read fd' buf count => exact Option.some.inj isFd
  | write fd' buf count => exact Option.some.inj isFd

theorem Call.TakesFd.toNat
    {call : Call}
    {fd : Int}
    (takes : call.TakesFd fd)
    (nonneg : 0 ≤ fd) :
    call.TakesFd (fd.toNat : Nat) := by
  rw [Int.toNat_of_nonneg nonneg]
  exact takes

namespace Store

/-! ## The file behind a call -/

/-- The name of the file that a descriptor stands for. -/
def nameOf (store : Store) (fd : Int) : Option CString :=
  if fd < 0 then none
  else if inside : fd.toNat < fsOpenMaxCount then
    (store.handles ⟨fd.toNat, inside⟩).map Handle.name
  else none

theorem nameOf_of_inside
    {store : Store}
    {fd : Int}
    (inside : 0 ≤ fd ∧ fd.toNat < fsOpenMaxCount) :
    store.nameOf fd =
      (store.handles ⟨fd.toNat, inside.2⟩).map Handle.name := by
  unfold nameOf
  rw [if_neg (by omega), dif_pos inside.2]

theorem inside_of_nameOf
    {store : Store}
    {fd : Int}
    {name : CString}
    (isName : store.nameOf fd = some name) :
    0 ≤ fd ∧ fd.toNat < fsOpenMaxCount := by
  unfold nameOf at isName
  split at isName
  · cases isName
  · split at isName
    · constructor
      · omega
      · assumption
    · cases isName

/-- The call goes through a handle on the file of this name. -/
def Concerns (store : Store) (name : CString) (call : Call) : Prop :=
  call.descriptor.bind store.nameOf = some name

instance decidableConcerns (store : Store) (name : CString) :
    DecidablePred (store.Concerns name) :=
  fun _ => inferInstanceAs (Decidable (_ = _))

/-- A write that has been answered is not short: all of it has been written, or
it has been refused. -/
def NotShort (call : Call) (result : Int) : Prop :=
  match call with
  | .write _ _ count => result = count ∨ result = -1
  | _ => True

variable {store : Store} {index : Descriptor} {handle : Handle}
  {file : StoredFile} {call : Call}

/-- A write that has room takes the same blocks where there is more room. -/
theorem taken_of_room
    {room more offset count : Nat}
    (positive : count ≠ 0)
    (whole : file.written room offset count = count)
    (le : room ≤ more) :
    file.taken more offset count = file.taken room offset count := by
  unfold StoredFile.written StoredFile.taken at *
  simp only [blockSize] at *
  omega

/-- The call does the same on every store with this handle, this file and this
much room: it puts another handle in the place of the one and another file in
the place of the other. -/
def ActsAlike
    (call : Call)
    (index : Descriptor)
    (handle : Handle)
    (file : StoredFile)
    (room : Nat)
    (answer : Answer) : Prop :=
  ∃ handle' file' taken,
    (∀ moved, handle' = some moved → moved.name = handle.name) ∧
    ∀ store : Store, store.handles index = some handle →
      store.files handle.name = some file → room ≤ store.freeBlocks →
      ∃ after, store.exec call = some (after, answer) ∧
        after.handles = Function.update store.handles index handle' ∧
        after.files = Function.update store.files handle.name (some file') ∧
        after.freeBlocks = store.freeBlocks - taken

/-- A call that changes the handle only. -/
theorem actsAlike_of_handle
    {handle' : Option Handle}
    {answer : Answer}
    {room : Nat}
    (named : ∀ moved, handle' = some moved → moved.name = handle.name)
    (executes : ∀ store : Store, store.handles index = some handle →
      store.files handle.name = some file →
      ∃ after, store.exec call = some (after, answer) ∧
        after.handles = Function.update store.handles index handle' ∧
        after.files = store.files ∧ after.freeBlocks = store.freeBlocks) :
    ActsAlike call index handle file room answer := by
  refine ⟨handle', file, 0, named, fun store isHandle isFile _ => ?_⟩
  obtain ⟨after, runs, handles, files, freeBlocks⟩ :=
    executes store isHandle isFile
  refine ⟨after, runs, handles, ?_, freeBlocks⟩
  rw [files, ← isFile, Function.update_eq_self]

/-- The handle behind a transfer does not depend on the store. -/
theorem moved_alike
    (index : Descriptor)
    (handle : Handle)
    (bytes count : Nat) :
    ∃ handle' : Handle, handle'.name = handle.name ∧
      ∀ store : Store, store.handles index = some handle →
        (store.moved index handle bytes count).handles =
            Function.update store.handles index (some handle') ∧
          (store.moved index handle bytes count).files = store.files ∧
          (store.moved index handle bytes count).freeBlocks =
            store.freeBlocks := by
  by_cases whole : bytes = count
  · refine ⟨{ handle with offset := handle.offset + UInt16.ofNat count }, rfl,
      fun store _ => ?_⟩
    unfold moved
    rw [if_pos whole]
    exact ⟨rfl, rfl, rfl⟩
  · refine ⟨handle, rfl, fun store isHandle => ?_⟩
    unfold moved
    rw [if_neg whole, ← isHandle, Function.update_eq_self]
    exact ⟨rfl, rfl, rfl⟩

theorem actsAlike_close (room : Nat) :
    ActsAlike (.close index.val) index handle file room { result := 0 } := by
  refine @actsAlike_of_handle _ _ _ _ none _ _ (by simp) fun store isHandle _ => ?_
  refine ⟨{ store.setHandle index none with
    handleCount := store.handleCount - 1 }, ?_, rfl, rfl, rfl⟩
  unfold exec close
  exact onHandle_of_handle rfl isHandle _

/-- A call that leaves the store as it is. -/
theorem actsAlike_of_same
    {answer : Answer}
    {room : Nat}
    (executes : ∀ store : Store, store.handles index = some handle →
      store.files handle.name = some file →
        store.exec call = some (store, answer)) :
    ActsAlike call index handle file room answer := by
  refine @actsAlike_of_handle _ _ _ _ (some handle) _ _ (by simp)
    fun store isHandle isFile => ?_
  refine ⟨store, executes store isHandle isFile, ?_, rfl, rfl⟩
  rw [← isHandle, Function.update_eq_self]

theorem actsAlike_stat (room : Nat) :
    ActsAlike (.stat index.val) index handle file room
      { result := int32 file.size.toNat } := by
  refine actsAlike_of_same fun store isHandle isFile => ?_
  unfold exec stat
  exact onFile_of_handle rfl isHandle isFile _

theorem actsAlike_lseek (offset room : Nat) :
    ∃ answer, ActsAlike (.lseek index.val offset) index handle file room
      answer := by
  by_cases beyond : offset > file.size.toNat
  · refine ⟨{ result := -1 }, actsAlike_of_same fun store isHandle isFile => ?_⟩
    unfold exec lseek
    refine (onFile_of_handle rfl isHandle isFile _).trans ?_
    exact congrArg some (if_pos beyond)
  · refine ⟨{ result := 0 }, @actsAlike_of_handle _ _ _ _
      (some { handle with offset := UInt16.ofNat offset }) _ _
      (by rintro moved ⟨⟩; rfl) fun store isHandle isFile => ?_⟩
    refine ⟨store.setHandle index
      (some { handle with offset := UInt16.ofNat offset }), ?_, rfl, rfl, rfl⟩
    unfold exec lseek
    refine (onFile_of_handle rfl isHandle isFile _).trans ?_
    exact congrArg some (if_neg beyond)

theorem actsAlike_read (buf : Option Buffer) (count room : Nat) :
    ∃ answer, ActsAlike (.read index.val buf count) index handle file room
      answer := by
  cases buf with
  | none =>
      refine ⟨{ result := -1 }, actsAlike_of_same fun store isHandle isFile => ?_⟩
      unfold exec read
      exact onFile_of_handle rfl isHandle isFile _
  | some buf =>
      let offset := handle.offset.toNat
      by_cases behind : count = 0 ∧ offset % blockSize ≠ 0 ∧
          offset / blockSize + 1 < file.blocks
      · refine ⟨{
            result := -1
            buffer := some (file.read
              (blockSize * (offset / blockSize + 1)) buf blockSize)
            stored := blockSize },
          actsAlike_of_same fun store isHandle isFile => ?_⟩
        unfold exec read
        refine (onFile_of_handle rfl isHandle isFile _).trans ?_
        exact congrArg some (if_pos behind)
      · let bytes := min count (file.behind offset)
        obtain ⟨handle', named, moves⟩ := moved_alike index handle bytes count
        refine ⟨{
            result := (bytes : Nat)
            buffer := some (file.read offset buf bytes)
            stored := bytes },
          @actsAlike_of_handle _ _ _ _ (some handle') _ _
            (by rintro moved ⟨⟩; exact named) fun store isHandle isFile => ?_⟩
        refine ⟨store.moved index handle bytes count, ?_, moves store isHandle⟩
        unfold exec read
        refine (onFile_of_handle rfl isHandle isFile _).trans ?_
        exact congrArg some (if_neg behind)

/-- A write that is not short. -/
theorem actsAlike_write
    {buf : Option Buffer}
    {count room : Nat}
    (notShort : buf ≠ none → count ≠ 0 →
      file.written room handle.offset.toNat count = count) :
    ∃ answer, ActsAlike (.write index.val buf count) index handle file room
      answer := by
  cases buf with
  | none =>
      refine ⟨{ result := -1 }, actsAlike_of_same fun store isHandle isFile => ?_⟩
      unfold exec write
      exact onFile_of_handle rfl isHandle isFile _
  | some buf =>
      by_cases empty : count = 0
      · refine ⟨{ result := 0 }, actsAlike_of_same fun store isHandle isFile => ?_⟩
        unfold exec write
        refine (onFile_of_handle rfl isHandle isFile _).trans ?_
        exact congrArg some (if_pos empty)
      · let offset := handle.offset.toNat
        obtain ⟨handle', named, moves⟩ := moved_alike index handle count count
        refine ⟨{ result := (count : Nat) }, some handle',
          file.write room offset buf count, file.taken room offset count,
          by rintro moved ⟨⟩; exact named, fun store isHandle isFile le => ?_⟩
        have taken : file.taken store.freeBlocks offset count =
            file.taken room offset count :=
          taken_of_room empty (notShort (by simp) empty) le
        have wholeThere : file.written room offset count = count :=
          notShort (by simp) empty
        have whole : file.written store.freeBlocks offset count = count := by
          unfold StoredFile.written at wholeThere ⊢
          rw [taken]
          exact wholeThere
        have sameFile : file.write store.freeBlocks offset buf count =
            file.write room offset buf count := by
          unfold StoredFile.write
          rw [whole, taken, wholeThere]
        let stored : Store :=
          { store.setFile handle.name
              (some (file.write store.freeBlocks offset buf count)) with
            freeBlocks := store.freeBlocks -
              file.taken store.freeBlocks offset count }
        obtain ⟨handles, files, freeBlocks⟩ := moves stored isHandle
        refine ⟨stored.moved index handle count count, ?_, handles, ?_, ?_⟩
        · unfold exec write
          refine (onFile_of_handle rfl isHandle isFile _).trans
            (congrArg some ((if_neg empty).trans ?_))
          dsimp only
          rw [whole]
        · rw [files, ← sameFile]
          rfl
        · rw [freeBlocks, ← taken]

/-- What a write returns. -/
theorem written_of_exec
    {buf : Buffer}
    {count : Nat}
    (isHandle : store.handles index = some handle)
    (isFile : store.files handle.name = some file)
    (positive : count ≠ 0)
    {after : Store}
    {answer : Answer}
    (executes : store.exec (.write index.val (some buf) count) =
      some (after, answer)) :
    answer.result =
      (file.written store.freeBlocks handle.offset.toNat count : Nat) := by
  change store.write index.val (some buf) count = _ at executes
  unfold write at executes
  rw [onFile_of_handle rfl isHandle isFile] at executes
  dsimp only at executes
  rw [if_neg positive] at executes
  cases executes
  rfl

/-- What a call does through a handle depends on the handle and its file, and on
nothing else unless it is a short write. -/
theorem actsAlike_of_exec
    (takes : call.TakesFd index.val)
    (isHandle : store.handles index = some handle)
    (isFile : store.files handle.name = some file)
    {after : Store}
    {answer : Answer}
    (executes : store.exec call = some (after, answer))
    (notShort : NotShort call answer.result) :
    ActsAlike call index handle file store.freeBlocks answer := by
  have acts : ∃ answer',
      ActsAlike call index handle file store.freeBlocks answer' := by
    cases call with
    | create filename => exact takes.elim
    | delete filename => exact takes.elim
    | «open» filename => exact takes.elim
    | close fd =>
        obtain rfl : fd = index.val := takes
        exact ⟨_, actsAlike_close _⟩
    | stat fd =>
        obtain rfl : fd = index.val := takes
        exact ⟨_, actsAlike_stat _⟩
    | lseek fd offset =>
        obtain rfl : fd = index.val := takes
        exact actsAlike_lseek offset _
    | read fd buf count =>
        obtain rfl : fd = index.val := takes
        exact actsAlike_read buf count _
    | write fd buf count =>
        obtain rfl : fd = index.val := takes
        refine actsAlike_write fun some positive => ?_
        obtain ⟨bytes, rfl⟩ := Option.ne_none_iff_exists'.mp some
        have result := written_of_exec isHandle isFile positive executes
        have whole : answer.result = count ∨ answer.result = -1 := notShort
        omega
  obtain ⟨answer', handle', file', taken, named, alike⟩ := acts
  obtain ⟨after', runs, _⟩ := alike store isHandle isFile le_rfl
  cases executes.symm.trans runs
  exact ⟨handle', file', taken, named, alike⟩

/-- Every call with a descriptor begins with the checks of the descriptor. -/
theorem exec_eq_onHandle
    {fd : Int}
    (takes : call.TakesFd fd)
    (store : Store) :
    ∃ body, store.exec call = store.onHandle fd body := by
  cases call with
  | create filename => exact takes.elim
  | delete filename => exact takes.elim
  | «open» filename => exact takes.elim
  | close fd' =>
      obtain rfl : fd' = fd := takes
      unfold exec close
      exact ⟨_, rfl⟩
  | stat fd' =>
      obtain rfl : fd' = fd := takes
      unfold exec stat onFile
      exact ⟨_, rfl⟩
  | lseek fd' offset =>
      obtain rfl : fd' = fd := takes
      unfold exec lseek onFile
      exact ⟨_, rfl⟩
  | read fd' buf count =>
      obtain rfl : fd' = fd := takes
      unfold exec read onFile
      exact ⟨_, rfl⟩
  | write fd' buf count =>
      obtain rfl : fd' = fd := takes
      unfold exec write onFile
      exact ⟨_, rfl⟩

/-- A call with a handle that is not there is refused. -/
theorem exec_of_noHandle
    (takes : call.TakesFd index.val)
    (noHandle : store.handles index = none) :
    store.exec call = some store.refused := by
  have bound : index.val < 32 := index.isLt
  have inTable : (index.val : Int).toNat < fsOpenMaxCount := index.isLt
  obtain ⟨body, isChecked⟩ := exec_eq_onHandle takes store
  rw [isChecked]
  unfold onHandle
  rw [if_neg (by simp only [fsFileMaxCount]; omega), dif_pos inTable]
  simp only [Int.toNat_natCast, Fin.eta, noHandle]

/-- A call with a number that is no handle does nothing. -/
theorem exec_of_outside
    {fd : Int}
    (takes : call.TakesFd fd)
    (outside : ¬(0 ≤ fd ∧ fd.toNat < fsOpenMaxCount))
    {after : Store}
    {answer : Answer}
    (executes : store.exec call = some (after, answer)) :
    after = store := by
  obtain ⟨body, isChecked⟩ := exec_eq_onHandle takes store
  rw [isChecked] at executes
  unfold onHandle at executes
  split at executes
  · cases executes
    rfl
  · rw [dif_neg (fun inside => outside ⟨by omega, inside⟩)] at executes
    cases executes

/-! ## Two stores -/

/-- A store in which everybody's calls have been made, and one in which only the
calls on the file of this name have been made, both from `start` on. -/
structure Alike (start : Store) (name : CString) (whole alone : Store) :
    Prop where
  /-- An open handle is on the file that it was on at the start. -/
  named : ∀ index handle, whole.handles index = some handle →
    (start.handles index).map Handle.name = some handle.name
  /-- Every handle is on a file. -/
  present : ∀ index handle, whole.handles index = some handle →
    (whole.files handle.name).isSome
  handles : ∀ index, (start.handles index).map Handle.name = some name →
    alone.handles index = whole.handles index
  file : alone.files name = whole.files name
  room : whole.freeBlocks ≤ alone.freeBlocks

variable {start whole alone after : Store} {name : CString} {answer : Answer}

/-- What a call through a handle leaves of the other handles and files. -/
theorem Alike.changed
    (alike : Alike start name whole alone)
    (isHandle : whole.handles index = some handle)
    {handle' : Option Handle}
    {file' : StoredFile}
    (named : ∀ moved, handle' = some moved → moved.name = handle.name)
    (handles : after.handles = Function.update whole.handles index handle')
    (files : after.files =
      Function.update whole.files handle.name (some file')) :
    (∀ other moved, after.handles other = some moved →
      (start.handles other).map Handle.name = some moved.name) ∧
    ∀ other moved, after.handles other = some moved →
      (after.files moved.name).isSome := by
  have ofHandle : ∀ other moved, after.handles other = some moved →
      ∃ before, whole.handles other = some before ∧
        moved.name = before.name := by
    intro other moved isMoved
    rw [handles] at isMoved
    by_cases same : other = index
    · subst same
      rw [Function.update_self] at isMoved
      exact ⟨handle, isHandle, named moved isMoved⟩
    · rw [Function.update_of_ne same] at isMoved
      exact ⟨moved, isMoved, rfl⟩
  constructor
  · intro other moved isMoved
    obtain ⟨before, isBefore, sameName⟩ := ofHandle other moved isMoved
    rw [sameName]
    exact alike.named other before isBefore
  · intro other moved isMoved
    obtain ⟨before, isBefore, sameName⟩ := ofHandle other moved isMoved
    rw [sameName, files]
    by_cases same : before.name = handle.name
    · rw [same, Function.update_self]
      rfl
    · rw [Function.update_of_ne same]
      exact alike.present other before isBefore

/-- A call through an open handle moves the handle and changes its file, and it
does so wherever the two are found with as much room. -/
theorem Alike.exec_of_handle
    (alike : Alike start name whole alone)
    (takes : call.TakesFd index.val)
    (isHandle : whole.handles index = some handle)
    (executes : whole.exec call = some (after, answer))
    (notShort : NotShort call answer.result) :
    ∃ handle' file' taken,
      (∀ moved, handle' = some moved → moved.name = handle.name) ∧
      after.handles = Function.update whole.handles index handle' ∧
      after.files = Function.update whole.files handle.name (some file') ∧
      after.freeBlocks = whole.freeBlocks - taken ∧
      ∀ store : Store, store.handles index = some handle →
        store.files handle.name = whole.files handle.name →
        whole.freeBlocks ≤ store.freeBlocks →
        ∃ after', store.exec call = some (after', answer) ∧
          after'.handles = Function.update store.handles index handle' ∧
          after'.files =
            Function.update store.files handle.name (some file') ∧
          after'.freeBlocks = store.freeBlocks - taken := by
  obtain ⟨file, isFile⟩ :=
    Option.isSome_iff_exists.mp (alike.present index handle isHandle)
  obtain ⟨handle', file', taken, named, acts⟩ :=
    actsAlike_of_exec takes isHandle isFile executes notShort
  obtain ⟨after₁, runs, handles, files, room⟩ :=
    acts whole isHandle isFile le_rfl
  cases executes.symm.trans runs
  exact ⟨handle', file', taken, named, handles, files, room,
    fun store there sameFile more =>
      acts store there (sameFile.trans isFile) more⟩

/-- A call on the file does the same in both stores. -/
theorem Alike.step_same
    (alike : Alike start name whole alone)
    (concerns : start.Concerns name call)
    (executes : whole.exec call = some (after, answer))
    (notShort : NotShort call answer.result) :
    ∃ after', alone.exec call = some (after', answer) ∧
      Alike start name after after' := by
  obtain ⟨fd, isFd, isName⟩ := Option.bind_eq_some_iff.mp concerns
  have takes := Call.takesFd_of_descriptor isFd
  have inside := inside_of_nameOf isName
  rw [nameOf_of_inside inside] at isName
  let index : Descriptor := ⟨fd.toNat, inside.2⟩
  have takes' : call.TakesFd index.val := takes.toNat inside.1
  have sameHandle := alike.handles index isName
  cases isHandle : whole.handles index with
  | none =>
      rw [isHandle] at sameHandle
      have refuses := exec_of_noHandle takes' isHandle
      cases executes.symm.trans refuses
      exact ⟨alone, exec_of_noHandle takes' sameHandle, alike⟩
  | some handle =>
      rw [isHandle] at sameHandle
      obtain rfl : name = handle.name := by
        have named := alike.named index handle isHandle
        exact Option.some.inj (isName.symm.trans named)
      obtain ⟨handle', file', taken, named, handles, files, room, acts⟩ :=
        alike.exec_of_handle takes' isHandle executes notShort
      obtain ⟨after', runs', handles', files', room'⟩ :=
        acts alone sameHandle alike.file alike.room
      obtain ⟨stillNamed, stillPresent⟩ :=
        alike.changed isHandle named handles files
      refine ⟨after', runs', stillNamed, stillPresent, ?_, ?_, ?_⟩
      · intro other isOther
        rw [handles, handles']
        by_cases same : other = index
        · subst same
          rw [Function.update_self, Function.update_self]
        · rw [Function.update_of_ne same, Function.update_of_ne same]
          exact alike.handles other isOther
      · rw [files, files', Function.update_self, Function.update_self]
      · rw [room, room']
        exact Nat.sub_le_sub_right alike.room taken

/-- A call on another file does nothing to this one. -/
theorem Alike.step_other
    (alike : Alike start name whole alone)
    {fd : Int}
    (isFd : call.descriptor = some fd)
    (unconcerned : ¬start.Concerns name call)
    (executes : whole.exec call = some (after, answer))
    (notShort : NotShort call answer.result) :
    Alike start name after alone := by
  have takes := Call.takesFd_of_descriptor isFd
  by_cases inside : 0 ≤ fd ∧ fd.toNat < fsOpenMaxCount
  · let index : Descriptor := ⟨fd.toNat, inside.2⟩
    have takes' : call.TakesFd index.val := takes.toNat inside.1
    cases isHandle : whole.handles index with
    | none =>
        have refuses := exec_of_noHandle takes' isHandle
        cases executes.symm.trans refuses
        exact alike
    | some handle =>
        have startName := alike.named index handle isHandle
        have different : name ≠ handle.name := by
          rintro rfl
          refine unconcerned (Option.bind_eq_some_iff.mpr ⟨fd, isFd, ?_⟩)
          rw [nameOf_of_inside inside]
          exact startName
        obtain ⟨handle', file', taken, named, handles, files, room, _⟩ :=
          alike.exec_of_handle takes' isHandle executes notShort
        obtain ⟨stillNamed, stillPresent⟩ :=
          alike.changed isHandle named handles files
        refine ⟨stillNamed, stillPresent, ?_, ?_, ?_⟩
        · intro other isOther
          have notIndex : other ≠ index := by
            rintro rfl
            exact different (Option.some.inj (isOther.symm.trans startName))
          rw [handles, Function.update_of_ne notIndex]
          exact alike.handles other isOther
        · rw [files, Function.update_of_ne different]
          exact alike.file
        · rw [room]
          exact (Nat.sub_le _ _).trans alike.room
  · obtain rfl := exec_of_outside takes inside executes
    exact alike

/-! ## Runs -/

/-- What belongs to the calls on the file of this name. -/
def ofFile
    {α : Type}
    (store : Store)
    (name : CString)
    (calls : List Call)
    (values : List α) : List α :=
  ((calls.zip values).filter fun made => store.Concerns name made.1).map
    Prod.snd

theorem ofFile_cons_of_concerns
    {α : Type}
    (concerns : store.Concerns name call)
    (calls : List Call)
    (value : α)
    (values : List α) :
    store.ofFile name (call :: calls) (value :: values) =
      value :: store.ofFile name calls values := by
  unfold ofFile
  rw [List.zip_cons_cons, List.filter_cons_of_pos (by simpa using concerns),
    List.map_cons]

theorem ofFile_cons_of_not
    {α : Type}
    (unconcerned : ¬store.Concerns name call)
    (calls : List Call)
    (value : α)
    (values : List α) :
    store.ofFile name (call :: calls) (value :: values) =
      store.ofFile name calls values := by
  unfold ofFile
  rw [List.zip_cons_cons, List.filter_cons_of_neg (by simpa using unconcerned)]

/-- The store answers the calls on a file alone as it has answered them among
the others. -/
theorem Alike.execAll
    (alike : Alike start name whole alone)
    {calls : List Call}
    {answers : List Answer}
    (takes : ∀ call ∈ calls, call.descriptor ≠ none)
    (runs : whole.execAll calls = some (after, answers))
    (notShort : List.Forall₂ (fun call answer =>
      NotShort call answer.result) calls answers) :
    ∃ after', alone.execAll (calls.filter (start.Concerns name)) =
        some (after', start.ofFile name calls answers) ∧
      Alike start name after after' := by
  induction calls generalizing whole alone answers with
  | nil =>
      cases notShort
      cases runs
      exact ⟨alone, rfl, alike⟩
  | cons call rest inductionHypothesis =>
      have restTakes : ∀ call ∈ rest, call.descriptor ≠ none :=
        fun call member => takes call (List.mem_cons_of_mem _ member)
      obtain ⟨fd, isFd⟩ := Option.ne_none_iff_exists'.mp
        (takes call List.mem_cons_self)
      unfold Store.execAll at runs
      obtain ⟨⟨middle, answer⟩, executes, runs⟩ :=
        Option.bind_eq_some_iff.mp runs
      obtain ⟨⟨last, others⟩, restRuns, isLast⟩ :=
        Option.bind_eq_some_iff.mp runs
      cases isLast
      cases notShort with
      | cons first restNotShort =>
          by_cases concerns : start.Concerns name call
          · obtain ⟨middle', executes', alike'⟩ :=
              alike.step_same concerns executes first
            obtain ⟨after', runs', alikeLast⟩ :=
              inductionHypothesis alike' restTakes restRuns restNotShort
            refine ⟨after', ?_, alikeLast⟩
            rw [ofFile_cons_of_concerns concerns,
              List.filter_cons_of_pos (by simpa using concerns)]
            exact Option.bind_eq_some_iff.mpr ⟨(middle', answer), executes',
              Option.bind_eq_some_iff.mpr ⟨_, runs', rfl⟩⟩
          · rw [ofFile_cons_of_not concerns,
              List.filter_cons_of_neg (by simpa using concerns)]
            exact inductionHypothesis
              (alike.step_other isFd concerns executes first) restTakes restRuns
              restNotShort

end Store

/-- Every store that a session represents is alike itself. -/
theorem Session.Represents.alike
    {session : Session}
    {store : Store}
    (represents : session.Represents store)
    (name : CString) :
    store.Alike name store store where
  named := fun index handle isHandle => by rw [isHandle, Option.map_some]
  present := by
    intro index handle isHandle
    rw [represents.handles] at isHandle
    obtain ⟨descriptor, isOpen, rfl⟩ := Option.map_eq_some_iff.mp isHandle
    obtain ⟨file, _, isFile, _⟩ := represents.file_of_open isOpen
    exact Option.isSome_iff_exists.mpr ⟨file, isFile⟩
  handles := fun _ _ => rfl
  file := rfl
  room := le_rfl

/-- What the replies of a run satisfy as far as their results go, the answers
do. -/
theorem forall₂_answers_of_replies
    {holds : Call → Int → Prop}
    {calls : List Call}
    {answers : List Answer}
    {replies : List Reply}
    (allowsAll : List.Forall₂ Answer.Allows answers replies)
    (all : List.Forall₂ (fun call reply => holds call reply.result) calls
      replies) :
    List.Forall₂ (fun call answer => holds call answer.result) calls
      answers := by
  induction all generalizing answers with
  | nil =>
      cases allowsAll
      exact .nil
  | cons first _ inductionHypothesis =>
      cases allowsAll with
      | cons allows restAllow =>
          rw [allows.result] at first
          exact .cons first (inductionHypothesis restAllow)

/-- The replies to the calls on a file are allowed by the answers to them. -/
theorem allows_ofFile
    {store : Store}
    {name : CString}
    {answers : List Answer}
    {replies : List Reply}
    (allowsAll : List.Forall₂ Answer.Allows answers replies)
    (calls : List Call) :
    List.Forall₂ Answer.Allows (store.ofFile name calls answers)
      (store.ofFile name calls replies) := by
  induction calls generalizing answers replies with
  | nil => exact .nil
  | cons call rest inductionHypothesis =>
      cases allowsAll with
      | nil => exact .nil
      | cons allows restAllow =>
          by_cases concerns : store.Concerns name call
          · rw [Store.ofFile_cons_of_concerns concerns,
              Store.ofFile_cons_of_concerns concerns]
            exact .cons allows (inductionHypothesis restAllow)
          · rw [Store.ofFile_cons_of_not concerns,
              Store.ofFile_cons_of_not concerns]
            exact inductionHypothesis restAllow

/-- Calls through handles have been made on several files in any order, and no
write has been short.  Then the calls on one of the files can be made alone from
the same session.  The store answers them as it has answered them among the
others, with the same results and the same bytes, both sessions reply as it
answers, and it holds the same file behind them. -/
theorem answerAll_alone
    {session : Session}
    {store : Store}
    (represents : session.Represents store)
    {calls alone : List (Host × Call)}
    {name : CString}
    (sameCalls : alone.map Prod.snd =
      (calls.map Prod.snd).filter (store.Concerns name))
    (serves : ∀ made ∈ calls, made.1.Serves ∧ made.2.CountFits)
    (serves' : ∀ made ∈ alone, made.1.Serves ∧ made.2.CountFits)
    (takes : ∀ made ∈ calls, made.2.descriptor ≠ none)
    {fuel : Nat}
    {after : State}
    {replies : List Reply}
    (returns : answerAll fuel calls session.toState = .ok (after, replies))
    (notShort : List.Forall₂ (fun call reply =>
      Store.NotShort call reply.result) (calls.map Prod.snd) replies) :
    ∃ (last last' : Session) (left left' : Store) (answers : List Answer)
        (replies' : List Reply) (bound : Nat),
      after = last.toState ∧
      Computes (fun fuel => answerAll fuel alone session.toState) bound
        (last'.toState, replies') ∧
      store.execAll (calls.map Prod.snd) = some (left, answers) ∧
      store.execAll (alone.map Prod.snd) =
        some (left', store.ofFile name (calls.map Prod.snd) answers) ∧
      List.Forall₂ Answer.Allows
        (store.ofFile name (calls.map Prod.snd) answers)
        (store.ofFile name (calls.map Prod.snd) replies) ∧
      List.Forall₂ Answer.Allows
        (store.ofFile name (calls.map Prod.snd) answers) replies' ∧
      last.Represents left ∧ last'.Represents left' ∧
      left'.files name = left.files name := by
  have answersWhole := represents.answersAll serves
  obtain ⟨left, answers, isAnswered, allowsAll⟩ :=
    answersWhole.of_returns returns
  rw [isAnswered] at answersWhole
  obtain ⟨last, _, _, computesWhole, isLeft, _⟩ := answersWhole
  cases computesWhole.only fuel _ returns
  have takesAll : ∀ call ∈ calls.map Prod.snd, call.descriptor ≠ none := by
    intro call member
    obtain ⟨made, isMade, rfl⟩ := List.mem_map.mp member
    exact takes made isMade
  obtain ⟨left', runsAlone, alike⟩ := (represents.alike name).execAll takesAll
    isAnswered (forall₂_answers_of_replies allowsAll notShort)
  rw [← sameCalls] at runsAlone
  have answersAlone := represents.answersAll serves'
  rw [runsAlone] at answersAlone
  obtain ⟨last', replies', bound, computes, isLeft', allowsAlone⟩ := answersAlone
  exact ⟨last, last', left, left', answers, replies', bound, rfl, computes,
    isAnswered, runsAlone, allows_ofFile allowsAll (calls.map Prod.snd),
    allowsAlone, isLeft, isLeft', alike.file⟩

/-- Writes to `a` and to `b`, and a read of what `a` has been given. -/
def writesToBoth : List (Host × Call) :=
  [(.reliable, .write 0 (some fun _ => 7) 5000),
    (.reliable, .write 1 (some fun _ => 8) 9000), (.reliable, .lseek 0 5),
    (.reliable, .read 0 (some fun _ => 0) 5000)]

/-- The calls among them that concern `a`. -/
def writesToA : List (Host × Call) :=
  [(.reliable, .write 0 (some fun _ => 7) 5000), (.reliable, .lseek 0 5),
    (.reliable, .read 0 (some fun _ => 0) 5000)]

/-- The write and the read of `a` are answered alone as beside those of `b`. -/
theorem answerAll_alone_twoOpenFiles :
    ∃ (last last' : Session) (left left' : Store) (answers : List Answer)
        (replies replies' : List Reply) (bound : Nat),
      replies.map Reply.result = [5000, 9000, 0, 5000] ∧
      answerAll 9 writesToBoth FileWrite.twoOpenFiles.toState =
        .ok (last.toState, replies) ∧
      Computes
        (fun fuel => answerAll fuel writesToA FileWrite.twoOpenFiles.toState)
        bound (last'.toState, replies') ∧
      FileWrite.twoOpenFiles.store.execAll (writesToBoth.map Prod.snd) =
        some (left, answers) ∧
      FileWrite.twoOpenFiles.store.execAll (writesToA.map Prod.snd) =
        some (left', FileWrite.twoOpenFiles.store.ofFile nameA
          (writesToBoth.map Prod.snd) answers) ∧
      List.Forall₂ Answer.Allows
        (FileWrite.twoOpenFiles.store.ofFile nameA
          (writesToBoth.map Prod.snd) answers) replies' ∧
      last.Represents left ∧ last'.Represents left' ∧
      left'.files nameA = left.files nameA := by
  have represents := Session.represents_store
    FileWrite.twoOpenFiles_wellFormed (.inl (by decide))
  have serves := Host.reliable_reliable.serves
  obtain ⟨after, replies, returns, results⟩ : ∃ after replies,
      answerAll 9 writesToBoth FileWrite.twoOpenFiles.toState =
        .ok (after, replies) ∧
      replies.map Reply.result = [5000, 9000, 0, 5000] := ⟨_, _, rfl, rfl⟩
  have notShort : List.Forall₂ (fun call reply =>
      Store.NotShort call reply.result) (writesToBoth.map Prod.snd) replies := by
    refine List.forall₂_map_right_iff.mp ?_
    rw [results]
    exact .cons (.inl rfl) (.cons (.inl rfl) (.cons trivial (.cons trivial .nil)))
  have sameCalls : writesToA.map Prod.snd = (writesToBoth.map Prod.snd).filter
      (FileWrite.twoOpenFiles.store.Concerns nameA) := by
    have ofA : FileWrite.twoOpenFiles.store.nameOf 0 = some nameA :=
      congrArg some (CString.ext
        (show arrayString (Session.letterName 0) = [97] by decide))
    have ofB : FileWrite.twoOpenFiles.store.nameOf 1 = some nameB :=
      congrArg some (CString.ext
        (show arrayString (Session.letterName 1) = [98] by decide))
    have different : nameB ≠ nameA := by decide
    simp [writesToA, writesToBoth, Store.Concerns, Call.descriptor, ofA, ofB,
      different]
  obtain ⟨last, last', left, left', answers, replies', bound, rfl, computes,
      whole, alone, _, allows, isLeft, isLeft', sameFile⟩ :=
    answerAll_alone represents sameCalls
      (by simp [writesToBoth, serves, Call.CountFits, intMax])
      (by simp [writesToA, serves, Call.CountFits, intMax])
      (by simp [writesToBoth, Call.descriptor]) returns notShort
  exact ⟨last, last', left, left', answers, replies, replies', bound, results,
    returns, computes, whole, alone, allows, isLeft, isLeft', sameFile⟩

end MsFat
