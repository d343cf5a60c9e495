import MsFat.Directory.Lookup

/-!
# Changes of the directory

What `fs_create`, `fs_delete` and `fs_open` do behind their checks, and that
names and descriptors stay in order with it.
-/

namespace MsFat

/-- A new file of this name, in place of a root entry. -/
def newFile (old : File) (name : CString) : File :=
  { old with
    filename := storeFilename old.filename name
    fileSize := 0
    firstIndex := fatEoc }

/-- A root entry whose file is deleted. -/
def clearedFile (old : File) : File :=
  { old with
    filename := Function.update old.filename 0 0
    fileSize := 0
    firstIndex := fatEoc }

namespace Session

/-- `fs_open` has no descriptor to give: the counter is beyond its limit, no
memory is left, or every entry of the table is taken. -/
def NoDescriptor (session : Session) (host : Host) : Prop :=
  fsOpenMaxCount < session.numOpenFiles.toNat ∨
    host.mallocSucceeds 0 = false ∨
    ∀ index, session.openFiles index ≠ none

/-- The session behind the deletion of the file at a slot, whatever has become
of the FAT. -/
def cleared
    (session : Session)
    (slot : Slot)
    (fat' : Fat session.sb.numDataBlocks.toNat) : Session :=
  { session with
    fat := fat'
    root := Function.update session.root slot (clearedFile (session.root slot)) }

variable {session after : Session}

/-! ## The ways out -/

/-- `add_file_to_fd_array` fails exactly if it has no descriptor to give. -/
theorem addFileToFdArray_eq_none_iff
    {host : Host}
    {slot : Slot} :
    session.addFileToFdArray host slot = none ↔ session.NoDescriptor host := by
  unfold addFileToFdArray NoDescriptor
  by_cases full : session.numOpenFiles.toNat > fsOpenMaxCount
  · rw [if_pos full]
    exact iff_of_true rfl (.inl full)
  · rw [if_neg full]
    cases malloc : host.mallocSucceeds 0 with
    | false => exact iff_of_true rfl (.inr (.inl rfl))
    | true =>
        simp only [Bool.not_true, Bool.false_eq_true, if_false]
        cases free : (List.finRange fsOpenMaxCount).find? fun index =>
            (session.openFiles index).isNone with
        | none =>
            refine iff_of_true rfl (.inr (.inr fun index none => ?_))
            have taken := List.find?_eq_none.mp free index
              (List.mem_finRange index)
            simp [none] at taken
        | some index =>
            have empty := List.find?_some free
            rw [Option.isNone_iff_eq_none] at empty
            apply iff_of_false (Option.some_ne_none _)
            rintro (tooMany | malloc | taken)
            · exact full tooMany
            · exact absurd malloc (by decide)
            · exact taken index empty

/-- What `add_file_to_fd_array` does when it has a descriptor. -/
theorem addFileToFdArray_eq_some
    {host : Host}
    {slot : Slot}
    {after : Session}
    {index : Descriptor}
    (adds : session.addFileToFdArray host slot = some (after, index)) :
    session.openFiles index = none ∧
      after =
        { session.setOpenFile index (some { file := slot, offset := 0 }) with
          numOpenFiles := session.numOpenFiles + 1 } := by
  unfold addFileToFdArray at adds
  rw [Option.ite_none_left_eq_some, Option.ite_none_left_eq_some] at adds
  obtain ⟨_, _, adds⟩ := adds
  cases free : (List.finRange fsOpenMaxCount).find? fun index =>
      (session.openFiles index).isNone with
  | none =>
      rw [free] at adds
      exact nomatch adds
  | some other =>
      rw [free] at adds
      cases adds
      have empty := List.find?_some free
      exact ⟨Option.isNone_iff_eq_none.mp empty, rfl⟩

/-- The ways out of `fs_open` behind its checks. -/
theorem openFile_eq
    (host : Host)
    (session : Session)
    (name : CString) :
    (session.openFile host name = (session, -1) ∧
        ∀ slot, session.findMatchingFilename name = some slot →
          session.NoDescriptor host) ∨
      ∃ (slot : Slot) (index : Descriptor),
        session.findMatchingFilename name = some slot ∧
        ¬session.NoDescriptor host ∧
        session.openFiles index = none ∧
        session.openFile host name =
          ({ session.setOpenFile index (some { file := slot, offset := 0 }) with
              numOpenFiles := session.numOpenFiles + 1 }, (index.val : Int)) := by
  unfold openFile
  cases found : session.findMatchingFilename name with
  | none => exact .inl ⟨rfl, nofun⟩
  | some slot =>
      dsimp only
      cases adds : session.addFileToFdArray host slot with
      | none =>
          exact .inl ⟨rfl, fun _ _ => addFileToFdArray_eq_none_iff.mp adds⟩
      | some added =>
          obtain ⟨empty, isAfter⟩ := addFileToFdArray_eq_some adds
          refine .inr ⟨slot, added.2, rfl, ?_, empty, ?_⟩
          · intro unavailable
            rw [addFileToFdArray_eq_none_iff.mpr unavailable] at adds
            exact nomatch adds
          · rw [← isAfter]

/-- With a descriptor to give, `fs_open` opens the file of a valid name. -/
theorem fsOpen_of_available
    {host : Host}
    {name : CString}
    {slot : Slot}
    (valid : ValidName name)
    (found : session.findMatchingFilename name = some slot)
    (available : ¬session.NoDescriptor host) :
    ∃ index : Descriptor,
      fsOpen host session.toState (some name) =
        .ok (toState
          { session.setOpenFile index (some { file := slot, offset := 0 }) with
            numOpenFiles := session.numOpenFiles + 1 }, index.val) := by
  rcases session.openFile_eq host name with
    ⟨_, reason⟩ | ⟨other, index, isOther, _, _, opens⟩
  · exact absurd (reason slot found) available
  · cases found.symm.trans isOther
    refine ⟨index, ?_⟩
    unfold fsOpen
    rw [onFilename_valid valid, opens]
    rfl

/-- The ways out of `fs_create` behind its checks. -/
theorem createFile_eq
    (session : Session)
    (name : CString) :
    (session.createFile name = (session, -1) ∧
        (session.findMatchingFilename name = none →
          session.findEmptyRootEntry = none)) ∨
      ∃ slot, session.findMatchingFilename name = none ∧
        session.findEmptyRootEntry = some slot ∧
        session.createFile name =
          (session.setFile slot (newFile (session.root slot) name), 0) := by
  unfold createFile
  cases matching : session.findMatchingFilename name with
  | some slot => exact .inl ⟨rfl, nofun⟩
  | none =>
      cases empty : session.findEmptyRootEntry with
      | none => exact .inl ⟨rfl, fun _ => rfl⟩
      | some slot => exact .inr ⟨slot, rfl, rfl, rfl⟩

/-- The ways out of `fs_delete` behind its checks. -/
theorem deleteFile_eq
    {fuel : Nat}
    {name : CString}
    {after : Session}
    {result : Int}
    (returns : session.deleteFile fuel name = .ok (after, result)) :
    (after = session ∧ result = -1 ∧
        ∀ slot, session.findMatchingFilename name = some slot →
          session.isOpen name = true) ∨
      ∃ slot fat', session.findMatchingFilename name = some slot ∧
        session.isOpen name = false ∧
        (((session.root slot).firstIndex = fatEoc ∧ fat' = session.fat) ∨
          ((session.root slot).firstIndex ≠ fatEoc ∧
            freeChain fuel session.fat (session.root slot).firstIndex =
              .ok fat')) ∧
        after = session.cleared slot fat' ∧ result = 0 := by
  unfold deleteFile at returns
  cases found : session.findMatchingFilename name with
  | none =>
      rw [found] at returns
      cases returns
      exact .inl ⟨rfl, rfl, nofun⟩
  | some slot =>
      rw [found] at returns
      dsimp only at returns
      cases isOpen : session.isOpen name with
      | true =>
          rw [isOpen, if_pos rfl] at returns
          cases returns
          exact .inl ⟨rfl, rfl, fun _ _ => rfl⟩
      | false =>
          rw [isOpen, if_neg Bool.false_ne_true] at returns
          right
          by_cases noBlocks : (session.root slot).firstIndex = fatEoc
          · rw [if_neg (not_not.mpr noBlocks)] at returns
            cases returns
            exact ⟨slot, session.fat, rfl, rfl, .inl ⟨noBlocks, rfl⟩, rfl, rfl⟩
          · rw [if_pos noBlocks] at returns
            obtain ⟨fat', freed, rest⟩ := outcome_bind_eq_ok returns
            cases rest
            exact ⟨slot, fat', rfl, rfl, .inr ⟨noBlocks, freed⟩, rfl, rfl⟩

/-! ## Creation -/

/-- The names are in order as long as they stay the same. -/
theorem NamesOk.congr
    (names : session.NamesOk)
    (filename : ∀ slot,
      (after.root slot).filename = (session.root slot).filename) :
    after.NamesOk where
  terminated := by simpa only [InUse, filename] using names.terminated
  distinct := by simpa only [InUse, filename] using names.distinct

theorem inUse_congr
    (filename : ∀ slot,
      (after.root slot).filename = (session.root slot).filename)
    (slot : Slot) :
    after.InUse slot ↔ session.InUse slot := by
  unfold InUse
  rw [filename]

/-- A new entry at one slot leaves the others in use as they were. -/
theorem inUse_setFile_of_ne
    {slot other : Slot}
    {file : File}
    (different : other ≠ slot) :
    (session.setFile slot file).InUse other ↔ session.InUse other := by
  unfold InUse
  rw [setFile_root_of_ne different]

/-- A new name that no file has keeps the names in order. -/
theorem NamesOk.created
    (names : session.NamesOk)
    {name : CString}
    (slot : Slot)
    (valid : ValidName name)
    (fresh : session.findMatchingFilename name = none) :
    (session.setFile slot (newFile (session.root slot) name)).NamesOk := by
  have holds : arrayString (newFile (session.root slot) name).filename =
      name.bytes :=
    arrayString_storeFilename _ valid.2
  have distinctFrom : ∀ other, arrayString (session.root other).filename ≠
      arrayString (newFile (session.root slot) name).filename := by
    intro other
    rw [holds]
    exact findMatchingFilename_eq_none fresh other
  constructor
  · intro other used
    by_cases same : other = slot
    · subst same
      rw [setFile_root_self]
      exact storeFilename_terminated _ valid.2
    · rw [setFile_root_of_ne same]
      exact names.terminated other ((inUse_setFile_of_ne same).mp used)
  · intro first second usedFirst usedSecond equal
    by_cases firstSame : first = slot
    · by_cases secondSame : second = slot
      · rw [firstSame, secondSame]
      · subst firstSame
        rw [setFile_root_self, setFile_root_of_ne secondSame] at equal
        exact absurd equal.symm (distinctFrom second)
    · by_cases secondSame : second = slot
      · subst secondSame
        rw [setFile_root_self, setFile_root_of_ne firstSame] at equal
        exact absurd equal (distinctFrom first)
      · rw [setFile_root_of_ne firstSame, setFile_root_of_ne secondSame] at equal
        exact names.distinct first second
          ((inUse_setFile_of_ne firstSame).mp usedFirst)
          ((inUse_setFile_of_ne secondSame).mp usedSecond) equal

/-- Descriptors on files stay so when an entry that is not in use becomes
one. -/
theorem DescriptorsOk.created
    (descriptors : session.DescriptorsOk)
    {slot : Slot}
    (empty : ¬session.InUse slot)
    (file : File) :
    (session.setFile slot file).DescriptorsOk := by
  intro index descriptor isOpen
  have used := descriptors index descriptor isOpen
  have different : descriptor.file ≠ slot := by
    rintro rfl
    exact empty used
  exact (inUse_setFile_of_ne different).mpr used

/-! ## Deletion -/

section Cleared

variable {slot other : Slot} {fat' : Fat session.sb.numDataBlocks.toNat}

theorem cleared_root_of_ne (different : other ≠ slot) :
    (session.cleared slot fat').root other = session.root other :=
  Function.update_of_ne different _ _

/-- The entry of a deleted file is not in use. -/
theorem not_inUse_cleared : ¬(session.cleared slot fat').InUse slot := by
  simp [InUse, cleared, clearedFile]

/-- The other entries are in use as they were. -/
theorem inUse_cleared_iff :
    (session.cleared slot fat').InUse other ↔
      session.InUse other ∧ other ≠ slot := by
  by_cases same : other = slot
  · subst same
    exact iff_of_false not_inUse_cleared fun both => both.2 rfl
  · unfold InUse
    rw [cleared_root_of_ne same]
    exact (and_iff_left same).symm

theorem NamesOk.cleared
    (names : session.NamesOk)
    (slot : Slot)
    (fat' : Fat session.sb.numDataBlocks.toNat) :
    (session.cleared slot fat').NamesOk := by
  constructor
  · intro other used
    obtain ⟨usedBefore, different⟩ := inUse_cleared_iff.mp used
    rw [cleared_root_of_ne different]
    exact names.terminated other usedBefore
  · intro first second usedFirst usedSecond equal
    obtain ⟨usedFirst, firstDifferent⟩ := inUse_cleared_iff.mp usedFirst
    obtain ⟨usedSecond, secondDifferent⟩ := inUse_cleared_iff.mp usedSecond
    rw [cleared_root_of_ne firstDifferent,
      cleared_root_of_ne secondDifferent] at equal
    exact names.distinct first second usedFirst usedSecond equal

/-- The entry that a name is looked up as is not the one of a descriptor, if the
name is not found open. -/
theorem file_ne_of_not_isOpen
    {name : CString}
    (valid : ValidName name)
    (found : session.findMatchingFilename name = some slot)
    (closed : session.isOpen name = false)
    {index : Descriptor}
    {descriptor : FileDescriptor}
    (isOpen : session.openFiles index = some descriptor) :
    descriptor.file ≠ slot := by
  intro same
  apply (isOpen_eq_false_iff valid.2).mp closed index descriptor isOpen
  rw [same]
  exact findMatchingFilename_eq_some found

theorem DescriptorsOk.cleared
    (descriptors : session.DescriptorsOk)
    {name : CString}
    (valid : ValidName name)
    (found : session.findMatchingFilename name = some slot)
    (closed : session.isOpen name = false) :
    (session.cleared slot fat').DescriptorsOk := by
  intro index descriptor isOpen
  exact inUse_cleared_iff.mpr ⟨descriptors index descriptor isOpen,
    file_ne_of_not_isOpen valid found closed isOpen⟩

end Cleared

/-! ## Opening, closing and transfers -/

/-- What is open with a new entry of the table is that entry, or was open. -/
theorem openFiles_setOpenFile_cases
    {index other : Descriptor}
    {entry : Option FileDescriptor}
    {descriptor : FileDescriptor}
    (isOpen : (session.setOpenFile index entry).openFiles other =
      some descriptor) :
    entry = some descriptor ∨ session.openFiles other = some descriptor := by
  by_cases same : other = index
  · subst same
    rw [setOpenFile_self] at isOpen
    exact .inl isOpen
  · rw [setOpenFile_of_ne _ same] at isOpen
    exact .inr isOpen

/-- A new entry of the table that refers to a file, or none. -/
theorem DescriptorsOk.setOpenFile
    (descriptors : session.DescriptorsOk)
    (index : Descriptor)
    {entry : Option FileDescriptor}
    (refers : ∀ descriptor, entry = some descriptor →
      session.InUse descriptor.file) :
    (session.setOpenFile index entry).DescriptorsOk := by
  intro other descriptor isOpen
  rcases openFiles_setOpenFile_cases isOpen with isEntry | wasOpen
  · exact refers descriptor isEntry
  · exact descriptors other descriptor wasOpen

end Session
end MsFat
