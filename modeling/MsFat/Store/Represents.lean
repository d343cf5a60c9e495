import MsFat.Frame
import MsFat.Library.Occupancy
import MsFat.Store.Defs

/-!
# Sessions that represent a store

A session represents a store if its root directory, its FAT, its table of open
files and its disk hold what the store says.  A session represents many stores,
since a store need not know all bytes; one of them knows every byte.
-/

namespace MsFat
namespace Session

/-- The file at a slot, which has the given chain, is the file of the store. -/
structure StoresFile
    (session : Session)
    (slot : Slot)
    (file : StoredFile)
    (chain : List UInt16) : Prop where
  isChain : session.FileChain slot chain
  size : (session.root slot).fileSize = file.size
  blocks : chain.length = file.blocks
  bytes : ∀ position byte, file.bytes position = some byte →
    position < blockSize * chain.length ∧
      session.contents chain position = byte

/-- The files of the root directory are the files of the store. -/
structure HoldsFiles
    (session : Session)
    (files : CString → Option StoredFile) : Prop where
  present : ∀ slot, session.InUse slot →
    ∃ file chain, files (session.nameAt slot) = some file ∧
      session.StoresFile slot file chain
  named : ∀ name, files name ≠ none →
    ∃ slot, session.InUse slot ∧ session.nameAt slot = name

/-- The handle behind an entry of the table of open files. -/
def handleOf (session : Session) (descriptor : FileDescriptor) : Handle where
  name := session.nameAt descriptor.file
  offset := descriptor.offset

@[simp] theorem handleOf_offset
    (session : Session)
    (descriptor : FileDescriptor) :
    (session.handleOf descriptor).offset = descriptor.offset := rfl

/-- The session represents the store. -/
structure Represents (session : Session) (store : Store) : Prop where
  wellFormed : session.WellFormed
  files : session.HoldsFiles store.files
  handles : ∀ index,
    store.handles index = (session.openFiles index).map session.handleOf
  handleCount : store.handleCount = session.numOpenFiles
  freeEntries : store.freeEntries = freeRootEntries session.root
  freeBlocks : store.freeBlocks = (MsFat.freeBlocks session.fat).length
  firstEntry : fatNext session.fat 0 =
    some (if store.guarded then fatEoc else 0)

variable {session after : Session} {slot : Slot} {name : CString}

/-! ## Files -/

/-- A file that stays the same is still the file of the store. -/
theorem StoresFile.of_sameFile
    {file : StoredFile}
    {chain : List UInt16}
    (stores : session.StoresFile slot file chain)
    (same : session.SameFile slot after) :
    after.StoresFile slot file chain where
  isChain := same.chain chain stores.isChain
  size := by
    rw [same.entry]
    exact stores.size
  blocks := stores.blocks
  bytes := by
    intro position byte known
    obtain ⟨inside, held⟩ := stores.bytes position byte known
    refine ⟨inside, ?_⟩
    rw [same.contents chain stores.isChain position inside]
    exact held

namespace HoldsFiles

variable {files : CString → Option StoredFile}

/-- The file of a name that is looked up. -/
theorem of_named
    (holds : session.HoldsFiles files)
    (used : session.InUse slot)
    (named : session.nameAt slot = name) :
    ∃ file chain, files name = some file ∧
      session.StoresFile slot file chain := by
  rw [← named]
  exact holds.present slot used

theorem eq_none_iff (holds : session.HoldsFiles files) :
    files name = none ↔
      ∀ slot, session.InUse slot → session.nameAt slot ≠ name := by
  constructor
  · intro absent slot used named
    obtain ⟨file, _, isFile, _⟩ := holds.of_named used named
    rw [absent] at isFile
    exact nomatch isFile
  · intro noSlot
    by_contra present
    obtain ⟨slot, used, named⟩ := holds.named name present
    exact noSlot slot used named

/-- The files stay if every root entry and every file stays the same. -/
theorem of_same
    (holds : session.HoldsFiles files)
    (root : after.root = session.root)
    (same : ∀ slot, session.InUse slot → session.SameFile slot after) :
    after.HoldsFiles files := by
  have nameAt : after.nameAt = session.nameAt := by
    unfold Session.nameAt
    rw [root]
  have inUse : after.InUse = session.InUse := by
    unfold InUse
    rw [root]
  refine ⟨?_, ?_⟩
  · intro slot used
    rw [inUse] at used
    obtain ⟨file, chain, isFile, stores⟩ := holds.present slot used
    rw [nameAt]
    exact ⟨file, chain, isFile, stores.of_sameFile (same slot used)⟩
  · intro name present
    rw [nameAt, inUse]
    exact holds.named name present

/-- Only the file of one name, at one slot, has changed. -/
theorem update
    (holds : session.HoldsFiles files)
    {entry : Option StoredFile}
    (kept : ∀ other, other ≠ slot → after.root other = session.root other)
    (same : ∀ other, other ≠ slot → session.InUse other →
      session.SameFile other after)
    (before : session.InUse slot → session.nameAt slot = name)
    (apart : ∀ other, other ≠ slot → session.InUse other →
      session.nameAt other ≠ name)
    (changed : after.InUse slot → after.nameAt slot = name ∧
      ∃ file chain, entry = some file ∧ after.StoresFile slot file chain)
    (gone : entry ≠ none → after.InUse slot) :
    after.HoldsFiles (Function.update files name entry) := by
  have inUse : ∀ other, other ≠ slot →
      (after.InUse other ↔ session.InUse other) := by
    intro other different
    unfold InUse
    rw [kept other different]
  have nameAt : ∀ other, other ≠ slot →
      after.nameAt other = session.nameAt other := by
    intro other different
    unfold Session.nameAt
    rw [kept other different]
  refine ⟨?_, ?_⟩
  · intro other used
    by_cases isSlot : other = slot
    · subst isSlot
      obtain ⟨named, file, chain, isEntry, stores⟩ := changed used
      rw [named, Function.update_self]
      exact ⟨file, chain, isEntry, stores⟩
    · rw [inUse other isSlot] at used
      obtain ⟨file, chain, isFile, stores⟩ := holds.present other used
      rw [nameAt other isSlot,
        Function.update_of_ne (apart other isSlot used)]
      exact ⟨file, chain, isFile, stores.of_sameFile (same other isSlot used)⟩
  · intro other present
    by_cases isName : other = name
    · subst isName
      rw [Function.update_self] at present
      exact ⟨slot, gone present, (changed (gone present)).1⟩
    · rw [Function.update_of_ne isName] at present
      obtain ⟨holder, used, named⟩ := holds.named other present
      have different : holder ≠ slot := by
        rintro rfl
        exact isName (named.symm.trans (before used))
      exact ⟨holder, (inUse holder different).mpr used,
        (nameAt holder different).trans named⟩

end HoldsFiles

/-! ## Free root entries -/

/-- There is a free root entry exactly if one is found. -/
theorem freeRootEntries_pos_iff :
    0 < freeRootEntries session.root ↔ session.findEmptyRootEntry ≠ none := by
  rw [ne_eq, findEmptyRootEntry_eq_none_iff, not_forall, freeRootEntries,
    List.countP_pos_iff]
  simp [InUse]

/-- Another root entry is in use. -/
theorem freeRootEntries_taken
    {before after : Slot → File}
    (empty : (before slot).filename 0 = 0)
    (used : (after slot).filename 0 ≠ 0)
    (kept : ∀ other, other ≠ slot → after other = before other) :
    freeRootEntries before = freeRootEntries after + 1 := by
  refine countP_of_one_lost (List.nodup_finRange _) (List.mem_finRange slot)
    (beq_iff_eq.mpr empty) (beq_eq_false_iff_ne.mpr used) ?_
  intro other _ different
  rw [kept other different]

/-! ## The store that knows every byte -/

/-- The file at a slot, with all the bytes of its chain. -/
def fileWith
    (session : Session)
    (slot : Slot)
    (chain : List UInt16) : StoredFile where
  size := (session.root slot).fileSize
  blocks := chain.length
  bytes := fun position =>
    if position < blockSize * chain.length then
      some (session.contents chain position)
    else none

theorem storesFile_fileWith
    {chain : List UInt16}
    (isChain : session.FileChain slot chain) :
    session.StoresFile slot (session.fileWith slot chain) chain where
  isChain := isChain
  size := rfl
  blocks := rfl
  bytes := by
    intro position byte known
    unfold fileWith at known
    rw [Option.ite_none_right_eq_some] at known
    exact ⟨known.1, Option.some.inj known.2⟩

open Classical in
/-- The file of a name, with all of its bytes. -/
noncomputable def fileNamed
    (session : Session)
    (name : CString) : Option StoredFile :=
  if found : ∃ chain slot, session.InUse slot ∧ session.nameAt slot = name ∧
      session.FileChain slot chain then
    some (session.fileWith found.choose_spec.choose found.choose)
  else none

/-- The store that a session represents with all of its bytes. -/
noncomputable def store (session : Session) : Store where
  files := session.fileNamed
  handles := fun index => (session.openFiles index).map session.handleOf
  handleCount := session.numOpenFiles
  freeEntries := freeRootEntries session.root
  freeBlocks := (MsFat.freeBlocks session.fat).length
  guarded := fatNext session.fat 0 == some fatEoc

theorem fileNamed_cases (session : Session) (name : CString) :
    (session.fileNamed name = none ∧
        ∀ slot chain, session.InUse slot → session.nameAt slot = name →
          ¬session.FileChain slot chain) ∨
      ∃ slot chain,
        session.fileNamed name = some (session.fileWith slot chain) ∧
        session.InUse slot ∧ session.nameAt slot = name ∧
        session.FileChain slot chain := by
  unfold fileNamed
  by_cases found : ∃ chain slot, session.InUse slot ∧
      session.nameAt slot = name ∧ session.FileChain slot chain
  · rw [dif_pos found]
    exact .inr ⟨_, _, rfl, found.choose_spec.choose_spec⟩
  · rw [dif_neg found]
    refine .inl ⟨rfl, fun slot chain used named isChain => ?_⟩
    exact found ⟨chain, slot, used, named, isChain⟩

theorem holdsFiles_fileNamed (wellFormed : session.WellFormed) :
    session.HoldsFiles session.fileNamed where
  present := by
    intro slot used
    obtain ⟨chain, isChain⟩ := wellFormed.chains.chain slot used
    rcases session.fileNamed_cases (session.nameAt slot) with
      ⟨_, noFile⟩ | ⟨other, chain', isFile, usedOther, named, isChain'⟩
    · exact absurd isChain (noFile slot chain used rfl)
    · cases wellFormed.names.slot_unique usedOther used named
      exact ⟨_, chain', isFile, storesFile_fileWith isChain'⟩
  named := by
    intro name present
    rcases session.fileNamed_cases name with
      ⟨absent, _⟩ | ⟨slot, _, _, used, named, _⟩
    · exact absurd absent present
    · exact ⟨slot, used, named⟩

/-- Entry 0 of the FAT ends the loop of `fs_delete`, or is 0. -/
def FirstEntryOk (session : Session) : Prop :=
  fatNext session.fat 0 = some fatEoc ∨ fatNext session.fat 0 = some 0

/-- A well-formed session represents a store. -/
theorem represents_store
    (wellFormed : session.WellFormed)
    (firstEntry : session.FirstEntryOk) :
    session.Represents session.store where
  wellFormed := wellFormed
  files := holdsFiles_fileNamed wellFormed
  handles := fun _ => rfl
  handleCount := rfl
  freeEntries := rfl
  freeBlocks := rfl
  firstEntry := by
    rcases firstEntry with ends | zero
    · simp [store, ends]
    · simp [store, zero, fatEoc]

end Session
end MsFat
