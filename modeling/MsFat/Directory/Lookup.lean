import MsFat.Directory.Checks
import MsFat.WellFormed

/-!
# Looking up files by name

While the names of the files are terminated and distinct, the three scans of
`fs.c` over the root directory agree: a valid name is looked up as the one file
of that name, an entry is found empty exactly if it is not in use, and a name
is found open exactly if a descriptor refers to the file of that name.
-/

namespace MsFat

/-- The name that a character array holds. -/
def arrayName (array : Fin fsFilenameLen → UInt8) : CString where
  bytes := arrayString array
  nonzero := by
    intro byte member
    simpa using List.mem_takeWhile_imp member

theorem arrayName_eq_iff
    {array : Fin fsFilenameLen → UInt8}
    {name : CString} :
    arrayName array = name ↔ arrayString array = name.bytes := by
  constructor
  · rintro rfl
    rfl
  · exact fun equal => CString.ext equal

/-- A terminated array holds fewer bytes than its length. -/
theorem arrayString_length_lt
    {array : Fin fsFilenameLen → UInt8}
    (terminated : ∃ index, array index = 0) :
    (arrayString array).length < fsFilenameLen := by
  obtain ⟨index, zero⟩ := terminated
  have isPrefix : arrayString array <+: List.ofFn array :=
    List.takeWhile_prefix _
  have le := isPrefix.length_le
  rw [List.length_ofFn] at le
  apply Nat.lt_of_le_of_ne le
  intro full
  have whole := isPrefix.eq_of_length (by rw [full, List.length_ofFn])
  have member : array index ∈ arrayString array := by
    rw [whole]
    exact List.mem_ofFn.mpr ⟨index, rfl⟩
  exact (arrayName array).nonzero _ member zero

/-- An array whose first byte is not the NUL holds a nonempty string. -/
theorem arrayString_length_pos
    {array : Fin fsFilenameLen → UInt8}
    (nonzero : array 0 ≠ 0) :
    0 < (arrayString array).length := by
  have head := head?_arrayString nonzero
  cases string : arrayString array with
  | nil =>
      rw [string] at head
      exact nomatch head
  | cons first rest => exact Nat.succ_pos _

namespace Session

variable {session : Session} {slot : Slot} {name : CString}

/-- The name of the file at a slot. -/
def nameAt (session : Session) (slot : Slot) : CString :=
  arrayName (session.root slot).filename

theorem nameAt_eq_iff :
    session.nameAt slot = name ↔
      arrayString (session.root slot).filename = name.bytes :=
  arrayName_eq_iff

/-- The names of files pass `is_filename_invalid`. -/
theorem NamesOk.validName
    (names : session.NamesOk)
    (used : session.InUse slot) :
    ValidName (session.nameAt slot) :=
  ⟨arrayString_length_pos used,
    arrayString_length_lt (names.terminated slot used)⟩

/-- Files of the same name are the same. -/
theorem NamesOk.slot_unique
    (names : session.NamesOk)
    {other : Slot}
    (used : session.InUse slot)
    (usedOther : session.InUse other)
    (same : session.nameAt slot = session.nameAt other) :
    slot = other :=
  names.distinct slot other used usedOther (congrArg CString.bytes same)

/-- An entry that holds a valid name is in use. -/
theorem inUse_of_nameAt
    (valid : ValidName name)
    (named : session.nameAt slot = name) :
    session.InUse slot :=
  array_zero_ne_zero valid.2 valid.1 (nameAt_eq_iff.mp named)

/-- A valid name is looked up as the file of that name. -/
theorem NamesOk.findMatchingFilename_iff
    (names : session.NamesOk)
    (valid : ValidName name) :
    session.findMatchingFilename name = some slot ↔
      session.InUse slot ∧ session.nameAt slot = name := by
  have holds : ∀ {found}, session.findMatchingFilename name = some found →
      session.nameAt found = name :=
    fun found => nameAt_eq_iff.mpr (findMatchingFilename_eq_some found)
  constructor
  · intro found
    exact ⟨inUse_of_nameAt valid (holds found), holds found⟩
  · rintro ⟨used, named⟩
    cases found : session.findMatchingFilename name with
    | none =>
        exact absurd (nameAt_eq_iff.mp named)
          (findMatchingFilename_eq_none found slot)
    | some other =>
        have same := names.slot_unique
          (inUse_of_nameAt valid (holds found)) used
          ((holds found).trans named.symm)
        rw [same]

/-- No entry is found empty exactly if all are in use. -/
theorem findEmptyRootEntry_eq_none_iff :
    session.findEmptyRootEntry = none ↔ ∀ slot, session.InUse slot := by
  unfold findEmptyRootEntry
  rw [List.find?_eq_none]
  simp [InUse]

/-- A name is found open exactly if a descriptor refers to an entry that holds
it. -/
theorem isOpen_iff (short : name.length < fsFilenameLen) :
    session.isOpen name = true ↔
      ∃ index descriptor, session.openFiles index = some descriptor ∧
        session.nameAt descriptor.file = name := by
  rw [← Bool.not_eq_false, isOpen_eq_false_iff short]
  simp only [nameAt_eq_iff, not_forall, not_not, exists_prop]

/-- While descriptors refer to files, a file of this name is found open exactly
if a descriptor refers to it. -/
theorem NamesOk.isOpen_iff_file
    (names : session.NamesOk)
    (descriptors : session.DescriptorsOk)
    (used : session.InUse slot) :
    session.isOpen (session.nameAt slot) = true ↔
      ∃ index descriptor, session.openFiles index = some descriptor ∧
        descriptor.file = slot := by
  rw [isOpen_iff (names.validName used).2]
  constructor
  · rintro ⟨index, descriptor, isOpen, named⟩
    exact ⟨index, descriptor, isOpen,
      names.slot_unique (descriptors index descriptor isOpen) used named⟩
  · rintro ⟨index, descriptor, isOpen, rfl⟩
    exact ⟨index, descriptor, isOpen, rfl⟩

end Session
end MsFat
