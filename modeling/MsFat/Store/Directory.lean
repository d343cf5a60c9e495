import MsFat.Reclaim
import MsFat.Store.Answers

/-!
# Calls on the directory of the store

What `fs_create`, `fs_delete`, `fs_open`, `fs_close`, `fs_stat` and `fs_lseek`
do on a session, the store that the session represents answers.
-/

namespace MsFat

/-- A deletion frees the first block of the chain, if there is one. -/
theorem freeBlocks_length_freedFat
    {count : Nat}
    (fits : count < 2 ^ 16)
    {fat : Fat count}
    {firstIndex : UInt16}
    {chain : List UInt16}
    (isChain : FatChain fat firstIndex chain) :
    (freeBlocks (freedFat fat chain)).length =
      (freeBlocks fat).length + min chain.length 1 := by
  cases chain with
  | nil => rfl
  | cons first rest =>
      have member : first ∈ first :: rest := List.mem_cons_self
      have nonzero := isChain.ne_zero first member
      have below := isChain.lt_count member
      have oneMore :
          ((blockIndices count).countP fun index =>
            fatNext (freedFat fat (first :: rest)) index == some 0) =
          ((blockIndices count).countP fun index =>
            fatNext fat index == some 0) + 1 := by
        refine countP_of_one_lost (nodup_blockIndices fits)
          ((mem_blockIndices fits).mpr ⟨nonzero, below⟩)
          (beq_iff_eq.mpr
            ((fatNext_freedFat_eq_zero_iff isChain nonzero).mpr (.inr rfl)))
          (beq_eq_false_iff_ne.mpr (isChain.entry_ne_zero member)) ?_
        intro index isBlock notFirst
        have notZero := ((mem_blockIndices fits).mp isBlock).1
        rw [Bool.eq_iff_iff, beq_iff_eq, beq_iff_eq,
          fatNext_freedFat_eq_zero_iff isChain notZero]
        simp [Ne.symm notFirst]
      rw [List.countP_eq_length_filter, List.countP_eq_length_filter] at oneMore
      simpa [freeBlocks] using oneMore

namespace Session
namespace Represents

variable {session : Session} {store : Store} {host : Host}
  (represents : session.Represents store)

include represents

/-! ## Creating and deleting files -/

section Files

variable {name : CString} {slot : Slot}

/-- The new file of `fs_create` is a new file of the store. -/
theorem created
    (valid : ValidName name)
    (fresh : session.findMatchingFilename name = none)
    (empty : session.findEmptyRootEntry = some slot) :
    Represents (session.setFile slot (newFile (session.root slot) name))
      { store.setFile name (some .empty) with
        freeEntries := store.freeEntries - 1 } := by
  have notUsed := findEmptyRootEntry_eq_some empty
  have kept : ∀ other, other ≠ slot →
      (session.setFile slot (newFile (session.root slot) name)).root other =
        session.root other :=
    fun other different => setFile_root_of_ne different _
  have named : (session.setFile slot
      (newFile (session.root slot) name)).nameAt slot = name := by
    unfold nameAt
    rw [setFile_root_self]
    exact arrayName_eq_iff.mpr (arrayString_storeFilename _ valid.2)
  have effect : Effect session ⟨.reliable, .create (some name), 0⟩
      (session.setFile slot (newFile (session.root slot) name)) :=
    .created rfl valid fresh empty rfl
  have stores : StoresFile
      (session.setFile slot (newFile (session.root slot) name)) slot .empty
        [] := by
    refine ⟨?_, ?_, rfl, nofun⟩
    · unfold FileChain
      rw [setFile_root_self]
      exact FatChain.nil_iff.mpr rfl
    · rw [setFile_root_self]
      rfl
  refine ⟨effect.wellFormed represents.wellFormed, ?_, ?_,
    represents.handleCount, ?_, represents.freeBlocks, represents.firstEntry⟩
  · apply represents.files.update kept
    · intro other _ used
      have spares : SparesFile other session.toState
          ⟨.reliable, .create (some name), 0⟩ := ⟨nofun, nofun⟩
      exact effect.sameFile represents.wellFormed used spares
    · exact fun used => absurd used notUsed
    · intro other _ used isName
      have found := (represents.wellFormed.names.findMatchingFilename_iff
        valid).mpr ⟨used, isName⟩
      rw [fresh] at found
      exact nomatch found
    · exact fun _ => ⟨named, .empty, [], rfl, stores⟩
    · exact fun _ => inUse_of_nameAt valid named
  · apply represents.handles_kept
      (session.setFile slot (newFile (session.root slot) name)) rfl
    intro other used _
    have different : other ≠ slot := by
      rintro rfl
      exact notUsed used
    unfold nameAt
    rw [kept other different]
  · have taken := freeRootEntries_taken (not_not.mp notUsed)
      (inUse_of_nameAt valid named) kept
    change store.freeEntries - 1 = _
    rw [represents.freeEntries, taken, Nat.add_sub_cancel]

/-- A file that `fs_delete` removes is no file of the store any more. -/
theorem deleted
    {chain : List UInt16}
    (valid : ValidName name)
    (found : session.findMatchingFilename name = some slot)
    (closed : session.isOpen name = false)
    (isChain : session.FileChain slot chain)
    (ends : chain.length ≤ 1 ∨ fatNext session.fat 0 = some fatEoc) :
    Represents (session.removed slot chain)
      { store.setFile name none with
        freeEntries := store.freeEntries + 1
        freeBlocks := store.freeBlocks + min chain.length 1
        guarded := store.guarded && decide (chain.length ≤ 1) } := by
  obtain ⟨used, named, _⟩ := represents.file_of_found valid found
  have wellFormed := represents.wellFormed
  have kept : ∀ other, other ≠ slot →
      (session.removed slot chain).root other = session.root other :=
    fun other different => removed_root_of_ne different chain
  have effect : Effect session ⟨.reliable, .delete (some name), 0⟩
      (session.removed slot chain) :=
    .deleted rfl valid found closed isChain ends rfl
  have notUsed := @not_inUse_removed session slot chain
  refine ⟨effect.wellFormed wellFormed, ?_, ?_, represents.handleCount, ?_, ?_,
    ?_⟩
  · apply represents.files.update kept
    · intro other different usedOther
      have spares : SparesFile other session.toState
          ⟨.reliable, .delete (some name), 0⟩ := by
        refine ⟨nofun, ?_⟩
        intro _ volume isCall _ isVolume isName
        cases isCall
        cases isVolume
        exact different (wellFormed.names.slot_unique usedOther used
          ((nameAt_eq_iff.mpr isName).trans named.symm))
      exact effect.sameFile wellFormed usedOther spares
    · exact fun _ => named
    · intro other different usedOther isName
      exact different (wellFormed.names.slot_unique usedOther used
        (isName.trans named.symm))
    · exact fun usedAfter => absurd usedAfter notUsed
    · exact fun present => absurd rfl present
  · apply represents.handles_kept (session.removed slot chain) rfl
    rintro other _ ⟨index, descriptor, isOpen, rfl⟩
    unfold nameAt
    rw [kept _ (file_ne_of_not_isOpen valid found closed isOpen)]
  · have taken := freeRootEntries_taken (not_not.mp notUsed) used
      fun other different => (kept other different).symm
    change store.freeEntries + 1 = _
    rw [represents.freeEntries, taken]
  · change store.freeBlocks + min chain.length 1 = _
    rw [represents.freeBlocks]
    exact (freeBlocks_length_freedFat session.numDataBlocks_lt isChain).symm
  · change fatNext (freedFat session.fat chain) 0 = _
    by_cases short : chain.length ≤ 1
    · rw [fatNext_freedFat_zero_of_short isChain short, represents.firstEntry]
      simp [short]
    · rw [fatNext_freedFat_zero_of_long isChain (by omega)]
      simp [short]

end Files

/-! ## Calls -/

/-- `fs_create` does what the store answers. -/
theorem answers_create (filename : Option CString) :
    session.Answers host (.create filename) (some (store.create filename)) := by
  cases filename with
  | none => exact represents.answers_noName rfl
  | some name =>
      by_cases valid : ValidName name
      · have isCreate : fsCreate session.toState (some name) =
            .ok ((session.createFile name).1.toState,
              (session.createFile name).2) :=
          onFilename_valid valid
        have admits : (0 < name.length ∧ name.length < fsFilenameLen ∧
            (store.files name).isNone ∧ 0 < store.freeEntries) ↔
            session.findMatchingFilename name = none ∧
              session.findEmptyRootEntry ≠ none := by
          rw [represents.not_found_iff valid, represents.freeEntries,
            freeRootEntries_pos_iff, Option.isNone_iff_eq_none]
          exact ⟨fun all => all.2.2, fun both => ⟨valid.1, valid.2, both⟩⟩
        unfold Store.create
        simp only [admits]
        rcases session.createFile_eq name with
          ⟨rejects, reason⟩ | ⟨slot, fresh, empty, makes⟩
        · rw [if_neg fun both => both.2 (reason both.1)]
          rw [rejects] at isCreate
          exact represents.answers_refused (fun _ _ _ => rfl) fun _ => isCreate
        · rw [if_pos ⟨fresh, by rw [empty]; exact nofun⟩]
          rw [makes] at isCreate
          exact Answers.of_computes (fun _ _ _ => rfl)
            (Computes.const fun _ => isCreate)
            (represents.created valid fresh empty) ⟨rfl, rfl⟩
      · have refuses : store.create (some name) = store.refused :=
          if_neg fun admits => valid ⟨admits.1, admits.2.1⟩
        rw [refuses]
        exact represents.answers_notValid rfl valid

/-- The deletion of a closed file does what the store answers. -/
theorem answers_delete_closed
    {name : CString}
    {file : StoredFile}
    (isFile : store.files name = some file)
    (closed : store.isOpen name = false) :
    session.Answers host (.delete (some name)) (store.delete (some name)) := by
  obtain ⟨slot, chain, used, named, found, stores⟩ :=
    represents.slot_of_file isFile
  have valid : ValidName name := by
    rw [← named]
    exact represents.wellFormed.names.validName used
  have notOpen : session.isOpen name = false := by
    rw [← represents.isOpen_eq valid.2]
    exact closed
  have removes : chain.length ≤ 1 ∨ fatNext session.fat 0 = some fatEoc →
      Computes (fun fuel => fsDelete fuel session.toState (some name)) 2
        ((session.removed slot chain).toState, 0) := by
    intro ends
    have body : Computes
        (fun fuel => session.deleteFile fuel name >>=
          fun ran => .ok (ran.1.toState, ran.2))
        2 ((session.removed slot chain).toState, 0) :=
      (deleteFile_computes found notOpen stores.isChain ends).bind rfl
    exact body.congr fun fuel => onFilename_valid valid
  have firstEntry := represents.firstEntry
  unfold Store.delete
  simp only [isFile, closed, Bool.false_eq_true, if_false, ← stores.blocks]
  by_cases short : chain.length ≤ 1
  · rw [if_pos short]
    have removed := represents.deleted valid found notOpen stores.isChain
      (.inl short)
    rw [Nat.min_eq_left short, decide_eq_true short, Bool.and_true] at removed
    exact Answers.of_computes (fun _ _ _ => rfl) (removes (.inl short)) removed
      ⟨rfl, rfl⟩
  · rw [if_neg short]
    cases guarded : store.guarded with
    | true =>
        rw [guarded] at firstEntry
        have removed := represents.deleted valid found notOpen stores.isChain
          (.inr firstEntry)
        rw [Nat.min_eq_right (by omega), decide_eq_false short,
          Bool.and_false] at removed
        exact Answers.of_computes (fun _ _ _ => rfl) (removes (.inr firstEntry))
          removed ⟨rfl, rfl⟩
    | false =>
        rw [guarded] at firstEntry
        apply Answers.of_not_terminates
        change ¬Terminates fun fuel =>
          fsDelete fuel session.toState (some name)
        rw [fsDelete_valid_terminates_iff valid,
          deleteFile_terminates_iff represents.wellFormed valid, not_or, not_not]
        refine ⟨?_, valid, notOpen, slot, chain, found, stores.isChain, ?_⟩
        · unfold ZeroEnds
          rw [firstEntry]
          decide
        · omega

/-- `fs_delete` does what the store answers. -/
theorem answers_delete (filename : Option CString) :
    session.Answers host (.delete filename) (store.delete filename) := by
  cases filename with
  | none => exact represents.answers_noName rfl
  | some name =>
      cases isFile : store.files name with
      | none =>
          have refuses : store.delete (some name) = some store.refused := by
            simp only [Store.delete, isFile]
          rw [refuses]
          by_cases valid : ValidName name
          · have absent := (represents.not_found_iff valid).mpr isFile
            apply represents.answers_refused fun _ _ _ => rfl
            intro fuel
            refine (onFilename_valid valid).trans ?_
            simp only [deleteFile, absent]
            rfl
          · exact represents.answers_notValid rfl valid
      | some file =>
          cases closed : store.isOpen name with
          | false => exact represents.answers_delete_closed isFile closed
          | true =>
              have refuses : store.delete (some name) = some store.refused := by
                simp only [Store.delete, isFile, closed, if_true]
              rw [refuses]
              obtain ⟨slot, chain, used, named, found, _⟩ :=
                represents.slot_of_file isFile
              have valid : ValidName name := by
                rw [← named]
                exact represents.wellFormed.names.validName used
              rw [represents.isOpen_eq valid.2] at closed
              apply represents.answers_refused fun _ _ _ => rfl
              intro fuel
              refine (onFilename_valid valid).trans ?_
              simp only [deleteFile, found, closed, if_true]
              rfl

/-- `fs_open` does what the store answers. -/
theorem answers_open
    (mallocs : host.mallocSucceeds 0 = true)
    (filename : Option CString) :
    session.Answers host (.open filename) (some (store.open filename)) := by
  cases filename with
  | none => exact represents.answers_noName rfl
  | some name =>
      by_cases valid : ValidName name
      · have isOpen : fsOpen host session.toState (some name) =
            .ok ((session.openFile host name).1.toState,
              (session.openFile host name).2) :=
          onFilename_valid valid
        have sameSearch : ((List.finRange fsOpenMaxCount).find? fun index =>
              (store.handles index).isNone) =
            (List.finRange fsOpenMaxCount).find? fun index =>
              (session.openFiles index).isNone := by
          congr 1
          funext index
          rw [represents.handles index, Option.isNone_map]
        unfold Store.open
        simp only [sameSearch, represents.handleCount]
        unfold openFile addFileToFdArray at isOpen
        cases found : session.findMatchingFilename name with
        | none =>
            have absent := (represents.not_found_iff valid).mp found
            rw [if_pos (.inl (Option.isNone_iff_eq_none.mpr absent))]
            simp only [found] at isOpen
            exact represents.answers_refused (fun _ _ _ => rfl) fun _ => isOpen
        | some slot =>
            obtain ⟨used, named, file, chain, isFile, _⟩ :=
              represents.file_of_found valid found
            simp only [found, mallocs, Bool.not_true, Bool.false_eq_true,
              if_false] at isOpen
            by_cases full : session.numOpenFiles.toNat > fsOpenMaxCount
            · rw [if_pos (.inr full)]
              simp only [if_pos full] at isOpen
              exact represents.answers_refused (fun _ _ _ => rfl) fun _ => isOpen
            · rw [if_neg (by simpa [isFile] using full)]
              simp only [if_neg full] at isOpen
              cases free : (List.finRange fsOpenMaxCount).find? fun index =>
                  (session.openFiles index).isNone with
              | none =>
                  simp only [free] at isOpen
                  exact represents.answers_refused (fun _ _ _ => rfl) fun _ => isOpen
              | some index =>
                  simp only [free] at isOpen
                  have opened := represents.setOpenFile index
                    (some { file := slot, offset := 0 })
                    (session.numOpenFiles + 1) (by
                      rintro _ ⟨⟩
                      exact used)
                  unfold handleOf at opened
                  rw [Option.map_some, named] at opened
                  exact Answers.of_computes (fun _ _ _ => rfl)
                    (Computes.const fun _ => isOpen) opened ⟨rfl, rfl⟩
      · have absent : store.files name = none := by
          by_contra present
          exact valid (represents.validName present)
        have refuses : store.open (some name) = store.refused :=
          if_pos (.inl (Option.isNone_iff_eq_none.mpr absent))
        rw [refuses]
        exact represents.answers_notValid rfl valid

/-- `fs_close` does what the store answers. -/
theorem answers_close (fd : Int) :
    session.Answers host (.close fd) (store.close fd) := by
  refine represents.answers_onHandle rfl ?_
  rintro index descriptor rfl isOpen -
  have closes : fsClose session.toState index.val =
      .ok ((session.closeFile index).toState, 0) :=
    onDescriptor_open isOpen
  have closed := represents.setOpenFile index none (session.numOpenFiles - 1)
    nofun
  rw [← represents.handleCount] at closed
  refine Answers.of_computes (fun _ _ _ => rfl) (Computes.const fun _ => closes) ?_
    ⟨rfl, rfl⟩
  unfold closeFile
  rw [← represents.handleCount]
  exact closed

/-- `fs_stat` does what the store answers. -/
theorem answers_stat (fd : Int) :
    session.Answers host (.stat fd) (store.stat fd) := by
  refine represents.answers_onFile rfl ?_
  rintro index descriptor file chain rfl isOpen - - stores
  refine Answers.of_computes (fun _ _ _ => rfl)
    (Computes.const fun fuel => ?_) represents ⟨rfl, rfl⟩
  refine (fsStat_open isOpen).trans ?_
  rw [stores.size]

/-- `fs_lseek` does what the store answers. -/
theorem answers_lseek (fd : Int) (offset : Nat) :
    session.Answers host (.lseek fd offset) (store.lseek fd offset) := by
  refine represents.answers_onFile rfl ?_
  rintro index descriptor file chain rfl isOpen - - stores
  rw [← stores.size]
  by_cases beyond : offset > (session.root descriptor.file).fileSize.toNat
  · rw [if_pos beyond]
    have rejects : fsLseek session.toState index.val offset =
        .ok (session.toState, -1) := by
      unfold fsLseek
      rw [onDescriptor_open isOpen, toState_session, outcome_ok_bind,
        if_pos beyond]
    exact represents.answers_refused (fun _ _ _ => rfl) fun _ => rejects
  · rw [if_neg beyond]
    have le := Nat.not_lt.mp beyond
    exact Answers.of_computes (fun _ _ _ => rfl)
      (Computes.const fun fuel => fsLseek_open isOpen le)
      (represents.setOffset isOpen _) ⟨rfl, rfl⟩

end Represents
end Session
end MsFat
