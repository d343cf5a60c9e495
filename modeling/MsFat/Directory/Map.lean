import MsFat.Directory.Invariant
import MsFat.Library.Runs
import Mathlib.Data.Set.Card

/-!
# The directory as a map

What the root directory and the table of open files are for: a map of at most
`FS_FILE_MAX_COUNT` names to files, and handles on names.  A call succeeds
exactly if the map admits it, and otherwise returns -1 and changes nothing.
-/

namespace MsFat

instance decidableEqCString : DecidableEq CString := fun left right =>
  decidable_of_iff (left.bytes = right.bytes)
    ⟨CString.ext, congrArg CString.bytes⟩

/-- What the directory says about a file. -/
@[ext] structure FileEntry where
  fileSize : UInt32
  firstIndex : UInt16
  deriving DecidableEq

/-- A map of names to files, with handles on names. -/
@[ext] structure DirectoryMap where
  files : CString → Option FileEntry
  handles : Descriptor → Option CString
  handleCount : UInt8

namespace DirectoryMap

variable (map : DirectoryMap)

/-- The names of the files. -/
def names : Set CString :=
  {name | map.files name ≠ none}

/-- The map with a file of this name, or without one. -/
def setFile (name : CString) (entry : Option FileEntry) : DirectoryMap :=
  { map with files := Function.update map.files name entry }

/-- The map with another handle, or without one. -/
def setHandle
    (index : Descriptor)
    (handle : Option CString)
    (handleCount : UInt8) : DirectoryMap :=
  { map with
    handles := Function.update map.handles index handle
    handleCount := handleCount }

variable {map}

@[simp] theorem setFile_files_self
    (name : CString)
    (entry : Option FileEntry) :
    (map.setFile name entry).files name = entry :=
  Function.update_self _ _ _

theorem setFile_files_of_ne
    {name other : CString}
    (different : other ≠ name)
    (entry : Option FileEntry) :
    (map.setFile name entry).files other = map.files other :=
  Function.update_of_ne different _ _

@[simp] theorem setHandle_handles_self
    (index : Descriptor)
    (handle : Option CString)
    (handleCount : UInt8) :
    (map.setHandle index handle handleCount).handles index = handle :=
  Function.update_self _ _ _

theorem setHandle_handles_of_ne
    {index other : Descriptor}
    (different : other ≠ index)
    (handle : Option CString)
    (handleCount : UInt8) :
    (map.setHandle index handle handleCount).handles other =
      map.handles other :=
  Function.update_of_ne different _ _

variable (map)

/-- There is a handle to give. -/
def HandleAvailable (host : Host) : Prop :=
  map.handleCount.toNat ≤ fsOpenMaxCount ∧ host.mallocSucceeds 0 = true ∧
    ∃ index, map.handles index = none

/-- The calls that succeed, with what they return and the map they leave. -/
inductive Admits (host : Host) : Call → Int → DirectoryMap → Prop
  | create
      {name : CString}
      (valid : ValidName name)
      (fresh : name ∉ map.names)
      (room : map.names.ncard < fsFileMaxCount) :
      Admits host (.create (some name)) 0
        (map.setFile name (some { fileSize := 0, firstIndex := fatEoc }))
  | delete
      {name : CString}
      (present : name ∈ map.names)
      (closed : ∀ index, map.handles index ≠ some name) :
      Admits host (.delete (some name)) 0 (map.setFile name none)
  | open
      {name : CString}
      {index : Descriptor}
      (present : name ∈ map.names)
      (available : map.HandleAvailable host)
      (free : map.handles index = none) :
      Admits host (.open (some name)) index.val
        (map.setHandle index (some name) (map.handleCount + 1))
  | close
      {index : Descriptor}
      (isOpen : map.handles index ≠ none) :
      Admits host (.close index.val) 0
        (map.setHandle index none (map.handleCount - 1))

/-- A call succeeds if the map admits it, and otherwise returns -1 and changes
nothing. -/
def Step (event : Event) (after : DirectoryMap) : Prop :=
  map.Admits event.host event.call event.result after ∨
    ((∀ result other, ¬map.Admits event.host event.call result other) ∧
      event.result = -1 ∧ after = map)

end DirectoryMap

/-- The call is one of `fs_create`, `fs_delete`, `fs_open` and `fs_close`. -/
def Call.OnDirectory : Call → Prop
  | .create _ => True
  | .delete _ => True
  | .open _ => True
  | .close _ => True
  | _ => False

namespace Session

/-- What the root entry says about its file. -/
def entryAt (session : Session) (slot : Slot) : FileEntry where
  fileSize := (session.root slot).fileSize
  firstIndex := (session.root slot).firstIndex

/-- The map that the session represents. -/
def directoryMap (session : Session) : DirectoryMap where
  files := fun name =>
    ((List.finRange fsFileMaxCount).find? fun slot =>
      (session.root slot).filename 0 != 0 && session.nameAt slot == name).map
        session.entryAt
  handles := fun index =>
    (session.openFiles index).map fun descriptor =>
      session.nameAt descriptor.file
  handleCount := session.numOpenFiles

variable {session : Session} {name : CString}

/-- The entry of a name is the one of the file of that name. -/
theorem NamesOk.files_eq_some_iff
    (names : session.NamesOk)
    {entry : FileEntry} :
    session.directoryMap.files name = some entry ↔
      ∃ slot, session.InUse slot ∧ session.nameAt slot = name ∧
        session.entryAt slot = entry := by
  change ((List.finRange fsFileMaxCount).find? _).map _ = _ ↔ _
  rw [Option.map_eq_some_iff]
  constructor
  · rintro ⟨slot, found, isEntry⟩
    have holds := List.find?_some found
    rw [Bool.and_eq_true, bne_iff_ne, beq_iff_eq] at holds
    exact ⟨slot, holds.1, holds.2, isEntry⟩
  · rintro ⟨slot, used, named, isEntry⟩
    cases found : (List.finRange fsFileMaxCount).find? fun slot =>
        (session.root slot).filename 0 != 0 && session.nameAt slot == name with
    | none =>
        have absent := List.find?_eq_none.mp found slot (List.mem_finRange slot)
        rw [Bool.and_eq_true, bne_iff_ne, beq_iff_eq] at absent
        exact absurd ⟨used, named⟩ absent
    | some other =>
        have holds := List.find?_some found
        rw [Bool.and_eq_true, bne_iff_ne, beq_iff_eq] at holds
        have same := names.slot_unique holds.1 used (holds.2.trans named.symm)
        exact ⟨other, rfl, by rw [same]; exact isEntry⟩

theorem NamesOk.mem_names_iff (names : session.NamesOk) :
    name ∈ session.directoryMap.names ↔
      ∃ slot, session.InUse slot ∧ session.nameAt slot = name := by
  unfold DirectoryMap.names
  rw [Set.mem_ofPred_eq, Option.ne_none_iff_exists']
  simp only [names.files_eq_some_iff]
  exact ⟨fun ⟨_, slot, used, named, _⟩ => ⟨slot, used, named⟩,
    fun ⟨slot, used, named⟩ => ⟨_, slot, used, named, rfl⟩⟩

/-- A valid name is looked up exactly if it is a name of the map. -/
theorem NamesOk.found_iff
    (names : session.NamesOk)
    (valid : ValidName name) :
    session.findMatchingFilename name ≠ none ↔
      name ∈ session.directoryMap.names := by
  rw [names.mem_names_iff, Option.ne_none_iff_exists']
  simp only [names.findMatchingFilename_iff valid]

/-- There are as many names as entries in use. -/
theorem NamesOk.names_ncard (names : session.NamesOk) :
    session.directoryMap.names.ncard = {slot | session.InUse slot}.ncard := by
  have isImage : session.directoryMap.names =
      session.nameAt '' {slot | session.InUse slot} := by
    ext name
    rw [names.mem_names_iff]
    rfl
  rw [isImage]
  apply Set.InjOn.ncard_image
  intro slot used other usedOther same
  exact names.slot_unique used usedOther same

/-- The map is full exactly if every entry is in use. -/
theorem NamesOk.room_iff (names : session.NamesOk) :
    session.directoryMap.names.ncard < fsFileMaxCount ↔
      ∃ slot, ¬session.InUse slot := by
  have total : Nat.card Slot = fsFileMaxCount := Nat.card_fin _
  have le := Set.ncard_le_card {slot | session.InUse slot}
  have full := Set.eq_univ_iff_ncard {slot | session.InUse slot}
  rw [total] at le full
  rw [names.names_ncard, ← not_forall, ← not_iff_not, not_not, Nat.not_lt]
  rw [Set.eq_univ_iff_forall] at full
  exact ⟨fun enough => full.mpr (Nat.le_antisymm le enough),
    fun all => (full.mp all).ge⟩

theorem handles_eq_none_iff {index : Descriptor} :
    session.directoryMap.handles index = none ↔
      session.openFiles index = none :=
  Option.map_eq_none_iff

/-- There is a handle to give exactly if there is a descriptor. -/
theorem handleAvailable_iff {host : Host} :
    session.directoryMap.HandleAvailable host ↔ ¬session.NoDescriptor host := by
  unfold DirectoryMap.HandleAvailable NoDescriptor
  simp only [handles_eq_none_iff, not_or, Nat.not_lt, Bool.not_eq_false,
    not_forall, not_not]
  exact Iff.rfl

end Session
end MsFat
