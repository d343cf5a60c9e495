import MsFat.Calls
import MsFat.Directory.Changes
import MsFat.Transfer.Read

/-!
# Ways a call returns

For each call on files, what it has done on a mounted file system when it
returns.  Nothing is assumed of the file system.
-/

namespace MsFat

variable {session : Session} {after : State} {result : Int}

/-- `fs_create` refuses for a reason, or makes a new file. -/
theorem fsCreate_cases
    {filename : Option CString}
    (returns : fsCreate session.toState filename = .ok (after, result)) :
    (after = session.toState ∧ result = -1 ∧
        ∀ name, filename = some name → ValidName name →
          session.findMatchingFilename name = none →
            session.findEmptyRootEntry = none) ∨
      ∃ name slot, filename = some name ∧ ValidName name ∧
        session.findMatchingFilename name = none ∧
        session.findEmptyRootEntry = some slot ∧
        after =
          (session.setFile slot (newFile (session.root slot) name)).toState ∧
        result = 0 := by
  unfold fsCreate at returns
  rcases onFilename_cases returns with
    ⟨rfl, rfl, invalid⟩ | ⟨name, session', rfl, valid, ran, rfl⟩
  · exact .inl ⟨rfl, rfl, fun name isName valid =>
      absurd valid (invalid name isName)⟩
  · rcases session.createFile_eq name with
      ⟨rejected, reason⟩ | ⟨slot, fresh, empty, made⟩
    · rw [rejected] at ran
      cases ran
      refine .inl ⟨rfl, rfl, ?_⟩
      rintro _ ⟨⟩ _
      exact reason
    · rw [made] at ran
      cases ran
      exact .inr ⟨name, slot, rfl, valid, fresh, empty, rfl, rfl⟩

/-- `fs_delete` refuses for a reason, or clears the entry of a file, whose chain
`free_chain` has freed if the file has blocks. -/
theorem fsDelete_cases
    {fuel : Nat}
    {filename : Option CString}
    (returns : fsDelete fuel session.toState filename = .ok (after, result)) :
    (after = session.toState ∧ result = -1 ∧
        ∀ name slot, filename = some name → ValidName name →
          session.findMatchingFilename name = some slot →
            session.isOpen name = true) ∨
      ∃ name slot fat', filename = some name ∧ ValidName name ∧
        session.findMatchingFilename name = some slot ∧
        session.isOpen name = false ∧
        (((session.root slot).firstIndex = fatEoc ∧ fat' = session.fat) ∨
          ((session.root slot).firstIndex ≠ fatEoc ∧
            freeChain fuel session.fat (session.root slot).firstIndex =
              .ok fat')) ∧
        after = (session.cleared slot fat').toState ∧ result = 0 := by
  unfold fsDelete at returns
  rcases onFilename_cases returns with
    ⟨rfl, rfl, invalid⟩ | ⟨name, session', rfl, valid, ran, rfl⟩
  · exact .inl ⟨rfl, rfl, fun name _ isName valid =>
      absurd valid (invalid name isName)⟩
  · rcases Session.deleteFile_eq ran with
      ⟨rfl, rfl, reason⟩ | ⟨slot, fat', found, closed, freed, rfl, rfl⟩
    · refine .inl ⟨rfl, rfl, ?_⟩
      rintro _ slot ⟨⟩ _
      exact reason slot
    · exact .inr ⟨name, slot, fat', rfl, valid, found, closed, freed, rfl, rfl⟩

/-- `fs_open` refuses for a reason, or gives a descriptor on a file. -/
theorem fsOpen_cases
    {host : Host}
    {filename : Option CString}
    (returns : fsOpen host session.toState filename = .ok (after, result)) :
    (after = session.toState ∧ result = -1 ∧
        ∀ name slot, filename = some name → ValidName name →
          session.findMatchingFilename name = some slot →
            session.NoDescriptor host) ∨
      ∃ (name : CString) (slot : Slot) (index : Descriptor),
        filename = some name ∧ ValidName name ∧
        session.findMatchingFilename name = some slot ∧
        ¬session.NoDescriptor host ∧
        session.openFiles index = none ∧
        after =
          Session.toState
            { session.setOpenFile index (some { file := slot, offset := 0 }) with
              numOpenFiles := session.numOpenFiles + 1 } ∧
        result = index.val := by
  unfold fsOpen at returns
  rcases onFilename_cases returns with
    ⟨rfl, rfl, invalid⟩ | ⟨name, session', rfl, valid, ran, rfl⟩
  · exact .inl ⟨rfl, rfl, fun name _ isName valid =>
      absurd valid (invalid name isName)⟩
  · rcases session.openFile_eq host name with
      ⟨rejected, reason⟩ | ⟨slot, index, found, available, empty, added⟩
    · rw [rejected] at ran
      cases ran
      refine .inl ⟨rfl, rfl, ?_⟩
      rintro _ slot ⟨⟩ _
      exact reason slot
    · rw [added] at ran
      cases ran
      exact .inr ⟨name, slot, index, rfl, valid, found, available, empty, rfl,
        rfl⟩

/-- `fs_close` finds nothing open, or closes a descriptor. -/
theorem fsClose_cases
    {fd : Int}
    (returns : fsClose session.toState fd = .ok (after, result)) :
    (after = session.toState ∧ result = -1 ∧
        ∀ index : Descriptor, fd = index.val →
          session.openFiles index = none) ∨
      ∃ (index : Descriptor) (descriptor : FileDescriptor),
        fd = index.val ∧ session.openFiles index = some descriptor ∧
        after = (session.closeFile index).toState ∧ result = 0 := by
  unfold fsClose at returns
  rcases onDescriptor_cases returns with
    ⟨rejected, notOpen⟩ | ⟨index, descriptor, rfl, isOpen, ran⟩
  · cases rejected
    exact .inl ⟨rfl, rfl, notOpen⟩
  · cases ran
    exact .inr ⟨index, descriptor, rfl, isOpen, rfl, rfl⟩

/-- `fs_stat` leaves the state as it is. -/
theorem eq_of_fsStat
    {fd : Int}
    (returns : fsStat session.toState fd = .ok (after, result)) :
    after = session.toState := by
  unfold fsStat at returns
  rcases onDescriptor_cases returns with
    ⟨rejected, _⟩ | ⟨index, descriptor, rfl, isOpen, ran⟩
  · cases rejected
    rfl
  · cases ran
    rfl

/-- `fs_lseek` refuses, or moves an offset within the file. -/
theorem fsLseek_cases
    {fd : Int}
    {offset : Nat}
    (returns : fsLseek session.toState fd offset = .ok (after, result)) :
    after = session.toState ∨
      ∃ (index : Descriptor) (descriptor : FileDescriptor),
        fd = index.val ∧ session.openFiles index = some descriptor ∧
        offset ≤ (session.root descriptor.file).fileSize.toNat ∧
        after =
          (session.setOpenFile index
            (some { descriptor with offset := UInt16.ofNat offset })).toState ∧
        result = 0 := by
  unfold fsLseek at returns
  rcases onDescriptor_cases returns with
    ⟨rejected, _⟩ | ⟨index, descriptor, rfl, isOpen, ran⟩
  · cases rejected
    exact .inl rfl
  · rw [Session.toState_session, outcome_ok_bind] at ran
    by_cases beyond : offset > (session.root descriptor.file).fileSize.toNat
    · rw [if_pos beyond] at ran
      cases ran
      exact .inl rfl
    · rw [if_neg beyond] at ran
      cases ran
      exact .inr ⟨index, descriptor, rfl, isOpen, Nat.not_lt.mp beyond, rfl, rfl⟩

/-- `fs_write` has nothing to write to, from or of, or writes through an open
descriptor. -/
theorem fsWrite_cases
    {fuel : Nat}
    {host : Host}
    {fd : Int}
    {buf : Option Buffer}
    {count : Nat}
    (returns : fsWrite fuel host session.toState fd buf count =
      .ok (after, result)) :
    (after = session.toState ∧
        ∀ (index : Descriptor) descriptor source, fd = index.val →
          session.openFiles index = some descriptor → buf = some source →
            count = 0 ∧ result = 0) ∨
      ∃ (index : Descriptor) (descriptor : FileDescriptor) (source : Buffer)
          (session' : Session),
        fd = index.val ∧ session.openFiles index = some descriptor ∧
        buf = some source ∧ 0 < count ∧
        session.write fuel host index descriptor source count =
          .ok (session', result) ∧
        after = session'.toState := by
  unfold fsWrite at returns
  rcases onDescriptor_cases returns with
    ⟨rejected, notOpen⟩ | ⟨index, descriptor, rfl, isOpen, ran⟩
  · cases rejected
    refine .inl ⟨rfl, ?_⟩
    intro index descriptor source isFd isOpen _
    rw [notOpen index isFd] at isOpen
    cases isOpen
  · cases buf with
    | none =>
        cases ran
        exact .inl ⟨rfl, nofun⟩
    | some source =>
        dsimp only at ran
        by_cases empty : count = 0
        · rw [if_pos empty] at ran
          cases ran
          exact .inl ⟨rfl, fun _ _ _ _ _ _ => ⟨empty, rfl⟩⟩
        · rw [if_neg empty, Session.toState_session, outcome_ok_bind] at ran
          obtain ⟨⟨session', _⟩, writes, rest⟩ := outcome_bind_eq_ok ran
          cases rest
          exact .inr ⟨index, descriptor, source, session', rfl, isOpen, rfl,
            Nat.pos_of_ne_zero empty, writes, rfl⟩

/-- `fs_read` reads nothing, or moves the offset behind the bytes that it has
read. -/
theorem fsRead_cases
    {host : Host}
    {fd : Int}
    {buf buf' : Option Buffer}
    {count : Nat}
    (returns : fsRead host session.toState fd buf count =
      .ok (after, buf', result)) :
    after = session.toState ∨
      ∃ (index : Descriptor) (descriptor : FileDescriptor) (target : Buffer)
          (bytesRead : Nat),
        fd = index.val ∧ session.openFiles index = some descriptor ∧
        buf = some target ∧
        after = (session.finishRead index descriptor bytesRead).toState ∧
        result = bytesRead := by
  unfold fsRead at returns
  rcases onDescriptor_cases returns with
    ⟨rejected, _⟩ | ⟨index, descriptor, rfl, isOpen, ran⟩
  · cases rejected
    exact .inl rfl
  · cases buf with
    | none =>
        cases ran
        exact .inl rfl
    | some target =>
        simp only [Session.toState_session, outcome_ok_bind] at ran
        obtain ⟨⟨session', _, _⟩, reads, rest⟩ := outcome_bind_eq_ok ran
        cases rest
        rcases Session.read_cases reads with rfl | ⟨bytesRead, rfl, rfl⟩
        · exact .inl rfl
        · exact .inr ⟨index, descriptor, target, bytesRead, rfl, isOpen, rfl,
            rfl, rfl⟩

end MsFat
