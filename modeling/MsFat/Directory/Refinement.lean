import MsFat.Directory.Map
import MsFat.Deletion

/-!
# The directory refines a map

Every call on the directory does to the root directory and the table of open
files what it does to the map, whatever stale bytes the arrays of the names
hold.
-/

namespace MsFat
namespace Session

variable {session after : Session} {slot : Slot} {name : CString}

/-! ## Changes of one entry -/

section Kept

variable
  (kept : ∀ other, other ≠ slot → after.root other = session.root other)

include kept

/-- A name that the changed entry holds neither before nor after is mapped to the
same file. -/
theorem files_eq_of_kept
    (names : session.NamesOk)
    (namesAfter : after.NamesOk)
    (notBefore : session.InUse slot → session.nameAt slot ≠ name)
    (notAfter : after.InUse slot → after.nameAt slot ≠ name) :
    after.directoryMap.files name = session.directoryMap.files name := by
  apply Option.ext
  intro entry
  rw [namesAfter.files_eq_some_iff, names.files_eq_some_iff]
  apply exists_congr
  intro other
  by_cases same : other = slot
  · subst same
    exact iff_of_false (fun holds => notAfter holds.1 holds.2.1)
      (fun holds => notBefore holds.1 holds.2.1)
  · unfold InUse nameAt entryAt
    rw [kept other same]

/-- Handles on the other files stay. -/
theorem handles_eq_of_kept
    (openFiles : after.openFiles = session.openFiles)
    (apart : ∀ index descriptor, session.openFiles index = some descriptor →
      descriptor.file ≠ slot) :
    after.directoryMap.handles = session.directoryMap.handles := by
  funext index
  change Option.map _ (after.openFiles index) =
    Option.map _ (session.openFiles index)
  rw [openFiles]
  apply Option.map_congr
  intro descriptor isOpen
  unfold nameAt
  rw [kept _ (apart index descriptor isOpen)]

end Kept

/-- A new file is a new name of the map. -/
theorem directoryMap_created
    (directory : session.DirectoryOk)
    (valid : ValidName name)
    (fresh : session.findMatchingFilename name = none)
    (empty : ¬session.InUse slot) :
    (session.setFile slot (newFile (session.root slot) name)).directoryMap =
      session.directoryMap.setFile name
        (some { fileSize := 0, firstIndex := fatEoc }) := by
  have namesAfter := directory.names.created slot valid fresh
  have own : (session.setFile slot
      (newFile (session.root slot) name)).nameAt slot = name := by
    unfold nameAt
    rw [setFile_root_self]
    exact arrayName_eq_iff.mpr (arrayString_storeFilename _ valid.2)
  have ownEntry : (session.setFile slot
      (newFile (session.root slot) name)).entryAt slot =
        { fileSize := 0, firstIndex := fatEoc } := by
    unfold entryAt
    rw [setFile_root_self]
    rfl
  have kept : ∀ other, other ≠ slot →
      (session.setFile slot (newFile (session.root slot) name)).root other =
        session.root other :=
    fun other different => setFile_root_of_ne different _
  apply DirectoryMap.ext
  · funext other
    by_cases same : other = name
    · subst same
      rw [DirectoryMap.setFile_files_self, namesAfter.files_eq_some_iff]
      exact ⟨slot, inUse_of_nameAt valid own, own, ownEntry⟩
    · rw [DirectoryMap.setFile_files_of_ne same]
      apply files_eq_of_kept kept directory.names namesAfter
      · intro used
        exact absurd used empty
      · rintro - named
        exact same (named.symm.trans own)
  · apply handles_eq_of_kept kept rfl
    rintro index descriptor isOpen rfl
    exact empty (directory.descriptors index descriptor isOpen)
  · rfl

/-- A deletion removes the name from the map. -/
theorem directoryMap_cleared
    (directory : session.DirectoryOk)
    (fat' : Fat session.sb.numDataBlocks.toNat)
    (valid : ValidName name)
    (found : session.findMatchingFilename name = some slot)
    (closed : session.isOpen name = false) :
    (session.cleared slot fat').directoryMap =
      session.directoryMap.setFile name none := by
  have names := directory.names
  have namesAfter := names.cleared slot fat'
  obtain ⟨used, named⟩ := (names.findMatchingFilename_iff valid).mp found
  have kept : ∀ other, other ≠ slot →
      (session.cleared slot fat').root other = session.root other :=
    fun other different => cleared_root_of_ne different
  apply DirectoryMap.ext
  · funext other
    by_cases same : other = name
    · rw [same, DirectoryMap.setFile_files_self,
        Option.eq_none_iff_forall_ne_some]
      intro entry present
      obtain ⟨holder, holds, holderNamed, _⟩ :=
        namesAfter.files_eq_some_iff.mp present
      obtain ⟨usedHolder, different⟩ := inUse_cleared_iff.mp holds
      unfold nameAt at holderNamed
      rw [kept holder different] at holderNamed
      exact different
        (names.slot_unique usedHolder used (Eq.trans holderNamed named.symm))
    · rw [DirectoryMap.setFile_files_of_ne same]
      apply files_eq_of_kept kept names namesAfter
      · rintro - isOther
        exact same (isOther.symm.trans named)
      · intro usedAfter
        exact absurd usedAfter not_inUse_cleared
  · apply handles_eq_of_kept kept rfl
    intro index descriptor isOpen
    exact file_ne_of_not_isOpen valid found closed isOpen
  · rfl

/-! ## Handles -/

/-- A new entry of the table is a new handle. -/
theorem directoryMap_setOpenFile
    (session : Session)
    (index : Descriptor)
    (entry : Option FileDescriptor)
    (numOpenFiles : UInt8) :
    directoryMap
        { session.setOpenFile index entry with numOpenFiles := numOpenFiles } =
      session.directoryMap.setHandle index
        (entry.map fun descriptor => session.nameAt descriptor.file)
        numOpenFiles := by
  apply DirectoryMap.ext
  · rfl
  · funext other
    by_cases same : other = index
    · subst same
      rw [DirectoryMap.setHandle_handles_self]
      exact congrArg (Option.map fun descriptor : FileDescriptor =>
        session.nameAt descriptor.file) (setOpenFile_self other entry)
    · rw [DirectoryMap.setHandle_handles_of_ne same]
      exact congrArg (Option.map fun descriptor : FileDescriptor =>
        session.nameAt descriptor.file) (setOpenFile_of_ne entry same)
  · rfl

/-- A name is found open exactly if there is a handle on it. -/
theorem isOpen_iff_handle (valid : ValidName name) :
    session.isOpen name = true ↔
      ∃ index, session.directoryMap.handles index = some name := by
  rw [isOpen_iff valid.2]
  apply exists_congr
  intro index
  change _ ↔ Option.map _ (session.openFiles index) = some name
  rw [Option.map_eq_some_iff]

/-- The names of the map are valid. -/
theorem DirectoryOk.validName
    (directory : session.DirectoryOk)
    (present : name ∈ session.directoryMap.names) :
    ValidName name := by
  obtain ⟨slot, used, rfl⟩ := directory.names.mem_names_iff.mp present
  exact directory.names.validName used

/-- A call that refuses is one that the map does not admit. -/
theorem Refused.not_admits
    {event : Event}
    (directory : session.DirectoryOk)
    (refused : session.Refused event)
    (result : Int)
    (other : DirectoryMap) :
    ¬session.directoryMap.Admits event.host event.call result other := by
  have names := directory.names
  intro admits
  generalize isCall : event.call = call at admits
  cases admits with
  | @create name valid fresh room =>
      have notFound : session.findMatchingFilename name = none := by
        rw [← names.found_iff valid, not_not] at fresh
        exact fresh
      have full := (refused.create _ isCall).2 name rfl valid notFound
      obtain ⟨slot, unused⟩ := names.room_iff.mp room
      exact unused (findEmptyRootEntry_eq_none_iff.mp full slot)
  | @delete name present closed =>
      have valid := directory.validName present
      obtain ⟨slot, found⟩ :=
        Option.ne_none_iff_exists'.mp ((names.found_iff valid).mpr present)
      have isOpen := (refused.delete _ isCall).2 name slot rfl valid found
      obtain ⟨index, handle⟩ := (isOpen_iff_handle valid).mp isOpen
      exact closed index handle
  | @«open» name index present available free =>
      have valid := directory.validName present
      obtain ⟨slot, found⟩ :=
        Option.ne_none_iff_exists'.mp ((names.found_iff valid).mpr present)
      exact handleAvailable_iff.mp available
        ((refused.open _ isCall).2 name slot rfl valid found)
  | @close index isOpen =>
      exact isOpen (handles_eq_none_iff.mpr
        ((refused.close _ isCall).2 index rfl))

end Session

open Session

variable {session after : Session} {event : Event}

/-- A call on the directory that refuses returns -1. -/
theorem Session.Refused.result_eq
    (refused : session.Refused event)
    (onDirectory : event.call.OnDirectory) :
    event.result = -1 := by
  cases isCall : event.call with
  | create filename => exact (refused.create filename isCall).1
  | delete filename => exact (refused.delete filename isCall).1
  | «open» filename => exact (refused.open filename isCall).1
  | close fd => exact (refused.close fd isCall).1
  | stat fd => exact absurd onDirectory (by rw [isCall]; exact id)
  | lseek fd offset => exact absurd onDirectory (by rw [isCall]; exact id)
  | write fd buf count => exact absurd onDirectory (by rw [isCall]; exact id)
  | read fd buf count => exact absurd onDirectory (by rw [isCall]; exact id)

/-- What a call on the directory does to the session, it does to the map. -/
theorem CallEffect.directoryMap_step
    (effect : CallEffect session event after)
    (directory : session.DirectoryOk)
    (onDirectory : event.call.OnDirectory) :
    session.directoryMap.Step event after.directoryMap := by
  have names := directory.names
  unfold DirectoryMap.Step
  cases effect with
  | unchanged refused =>
      exact .inr ⟨refused.not_admits directory,
        refused.result_eq onDirectory, rfl⟩
  | created call valid fresh empty result =>
      have unused := findEmptyRootEntry_eq_some empty
      rw [call, result, directoryMap_created directory valid fresh unused]
      refine .inl (.create valid ?_ (names.room_iff.mpr ⟨_, unused⟩))
      rw [← names.found_iff valid, not_not]
      exact fresh
  | deleted fat' call valid found closed result =>
      rw [call, result, directoryMap_cleared directory fat' valid found closed]
      refine .inl (.delete ?_ fun index handle => ?_)
      · rw [← names.found_iff valid, found]
        exact Option.some_ne_none _
      · rw [(isOpen_iff_handle valid).mpr ⟨index, handle⟩] at closed
        exact Bool.noConfusion closed
  | opened call valid found available empty result =>
      have named := nameAt_eq_iff.mpr (findMatchingFilename_eq_some found)
      rw [call, result, directoryMap_setOpenFile, Option.map_some, named]
      refine .inl (.open ?_ (handleAvailable_iff.mpr available)
        (handles_eq_none_iff.mpr empty))
      rw [← names.found_iff valid, found]
      exact Option.some_ne_none _
  | closed call isOpen result =>
      rw [call, result]
      unfold closeFile
      rw [directoryMap_setOpenFile, Option.map_none]
      refine .inl (.close ?_)
      rw [Ne, handles_eq_none_iff, isOpen]
      exact Option.some_ne_none _
  | positioned _ call _ =>
      rcases call with ⟨_, isCall⟩ | ⟨_, _, isCall⟩
      all_goals
        rw [isCall] at onDirectory
        exact onDirectory.elim
  | wrote call _ _ _ _ _ =>
      rw [call] at onDirectory
      exact onDirectory.elim

/-- A call on the directory leaves every entry in use as it is, apart from the
one of the file that it deletes. -/
theorem CallEffect.root_eq
    (effect : CallEffect session event after)
    (onDirectory : event.call.OnDirectory)
    {slot : Slot}
    (used : session.InUse slot) :
    after.root slot = session.root slot ∨
      (event.call = .delete (some (session.nameAt slot)) ∧ event.result = 0 ∧
        ¬after.InUse slot) := by
  cases effect with
  | unchanged _ => exact .inl rfl
  | created _ _ _ empty _ =>
      refine .inl (setFile_root_of_ne ?_ _)
      rintro rfl
      exact findEmptyRootEntry_eq_some empty used
  | @deleted name deleted fat' call valid found _ result =>
      by_cases same : slot = deleted
      · subst same
        have named := nameAt_eq_iff.mpr (findMatchingFilename_eq_some found)
        exact .inr ⟨by rw [named]; exact call, result, not_inUse_cleared⟩
      · exact .inl (cleared_root_of_ne same)
  | opened _ _ _ _ _ _ => exact .inl rfl
  | closed _ _ _ => exact .inl rfl
  | positioned _ _ _ => exact .inl rfl
  | wrote call _ _ _ _ _ =>
      rw [call] at onDirectory
      exact onDirectory.elim

/-- A call on the directory that returns. -/
def DirectoryStep : State → Event → State → Prop :=
  Guarded Step fun _ event => event.call.OnDirectory

/-- The directory of the session behaves as the map that it represents: names
are terminated and distinct, a valid name is looked up exactly if it is a name of
the map, and the next call does to the map what it does to the directory and
leaves the entries of all other files as they are. -/
structure Session.ActsAsMap (session : Session) : Prop where
  names : session.NamesOk
  descriptors : session.DescriptorsOk
  found_iff : ∀ name, ValidName name →
    (session.findMatchingFilename name ≠ none ↔
      name ∈ session.directoryMap.names)
  step : ∀ event last, DirectoryStep session.toState event last →
    ∃ next : Session, last = next.toState ∧
      session.directoryMap.Step event next.directoryMap ∧
      ∀ slot, session.InUse slot →
        next.root slot = session.root slot ∨
          (event.call = .delete (some (session.nameAt slot)) ∧
            event.result = 0 ∧ ¬next.InUse slot)

theorem Session.DirectoryOk.actsAsMap (directory : session.DirectoryOk) :
    session.ActsAsMap where
  names := directory.names
  descriptors := directory.descriptors
  found_iff := fun _ valid => directory.names.found_iff valid
  step := by
    rintro event last ⟨⟨_, fuel, returns⟩, onDirectory⟩
    obtain ⟨next, rfl, effect⟩ := exec_effect returns
    exact ⟨next, rfl, effect.directoryMap_step directory onDirectory,
      fun slot used => effect.root_eq onDirectory used⟩

/-- Every run of calls on the directory is a run of the map that the directory
represents, and leads to a directory that behaves as its map. -/
theorem directory_refines_map
    {start : Session}
    (names : start.NamesOk)
    (descriptors : start.DescriptorsOk)
    {events : List Event}
    {state : State}
    (run : Run DirectoryStep start.toState events state) :
    ∃ session : Session, state = session.toState ∧ session.ActsAsMap ∧
      Run DirectoryMap.Step start.directoryMap events session.directoryMap := by
  obtain ⟨image, ran, session, rfl, directory, rfl⟩ := run.simulation
    (fun state map => ∃ session : Session, state = session.toState ∧
      session.DirectoryOk ∧ map = session.directoryMap)
    (by
      rintro _ event last _ ⟨session, rfl, directory, rfl⟩
        ⟨⟨_, fuel, returns⟩, onDirectory⟩
      obtain ⟨next, rfl, effect⟩ := exec_effect returns
      exact ⟨_, effect.directoryMap_step directory onDirectory, next, rfl,
        effect.directoryOk directory, rfl⟩)
    ⟨start, rfl, ⟨names, descriptors⟩, rfl⟩
  exact ⟨session, rfl, directory.actsAsMap, ran⟩

/-- The file `a` is deleted and created again. -/
theorem directory_refines_map_twoLongFiles :
    ∃ session : Session,
      ((twoLongFiles.removed 0 [1, 2]).createFile nameA).1.toState =
        session.toState ∧
      session.ActsAsMap ∧
      Run DirectoryMap.Step twoLongFiles.directoryMap
        [⟨.reliable, .delete (some nameA), 0⟩,
          ⟨.reliable, .create (some nameA), 0⟩] session.directoryMap :=
  directory_refines_map twoLongFiles_wellFormed.names
    twoLongFiles_wellFormed.descriptors
    (.cons ⟨⟨trivial, 2, rfl⟩, trivial⟩
      (.cons ⟨⟨trivial, 0, rfl⟩, trivial⟩ .nil))

end MsFat
