import MsFat.Directory.Names

/-!
# Checks of the calls on a mounted state

On a mounted state the checks in front of a call let through exactly the valid
names and the open descriptors.  A call that they reject returns at once, with
the state as it was.
-/

namespace MsFat

/-- The names that a call with a file name accepts: not empty, and short enough
for a root entry. -/
def ValidName (name : CString) : Prop :=
  0 < name.length ∧ name.length < fsFilenameLen

section Filename

variable {session : Session} {body : Session → CString → Outcome (Session × Int)}

/-- With a valid name the body of the call runs. -/
theorem onFilename_valid
    {name : CString}
    (valid : ValidName name) :
    onFilename session.toState (some name) body =
      (do
        let (after, result) ← body session name
        .ok (after.toState, result)) := by
  have accepted := isFilenameInvalid_eq_false_iff.mpr valid
  simp [onFilename, accepted]

/-- Without a valid name the call returns -1. -/
theorem onFilename_invalid
    {filename : Option CString}
    (invalid : ∀ name, filename = some name → ¬ValidName name) :
    onFilename session.toState filename body = .ok (session.toState, -1) := by
  cases filename with
  | none => simp [onFilename]
  | some name =>
      have rejected : isFilenameInvalid (some name) = true := by
        rw [← Bool.not_eq_false]
        exact fun accepted =>
          invalid name rfl (isFilenameInvalid_eq_false_iff.mp accepted)
      simp [onFilename, rejected]

/-- A call with a file name that returns has been rejected, or its body has
returned. -/
theorem onFilename_cases
    {filename : Option CString}
    {after : State}
    {result : Int}
    (returns : onFilename session.toState filename body = .ok (after, result)) :
    (after = session.toState ∧ result = -1 ∧
        ∀ name, filename = some name → ¬ValidName name) ∨
      ∃ name session', filename = some name ∧ ValidName name ∧
        body session name = .ok (session', result) ∧
          after = session'.toState := by
  by_cases rejected : ∀ name, filename = some name → ¬ValidName name
  · left
    rw [onFilename_invalid rejected] at returns
    cases returns
    exact ⟨rfl, rfl, rejected⟩
  · right
    simp only [not_forall, not_not] at rejected
    obtain ⟨name, rfl, valid⟩ := rejected
    rw [onFilename_valid valid] at returns
    obtain ⟨⟨session', _⟩, ran, rest⟩ := outcome_bind_eq_ok returns
    cases rest
    exact ⟨name, session', rfl, valid, ran, rfl⟩

end Filename

section Descriptor

variable {α : Type} {session : Session} {failed : α}
  {body : Descriptor → FileDescriptor → Outcome α}

/-- The index of an entry passes the bounds that the source checks, and the entry
decides. -/
theorem onDescriptor_index
    (session : Session)
    (index : Descriptor)
    (failed : α)
    (body : Descriptor → FileDescriptor → Outcome α) :
    onDescriptor session.toState (index.val : Int) failed body =
      (session.openFiles index).elim (.ok failed) (body index) := by
  have inFiles : ¬((index.val : Int) < 0 ∨ (index.val : Int) ≥
      fsFileMaxCount) := by
    have := index.isLt
    simp only [fsOpenMaxCount, fsFileMaxCount] at *
    omega
  have inTable : (index.val : Int).toNat < fsOpenMaxCount := index.isLt
  unfold onDescriptor
  rw [if_neg (by simp), if_neg inFiles, dif_pos inTable]
  cases entry : session.openFiles index with
  | none => simp [entry]
  | some descriptor => simp [entry]

/-- With an open descriptor the body of the call runs. -/
theorem onDescriptor_open
    {index : Descriptor}
    {descriptor : FileDescriptor}
    (isOpen : session.openFiles index = some descriptor) :
    onDescriptor session.toState (index.val : Int) failed body =
      body index descriptor := by
  rw [onDescriptor_index, isOpen, Option.elim_some]

/-- A call with a descriptor that returns has been rejected, or its body has
returned. -/
theorem onDescriptor_cases
    {fd : Int}
    {value : α}
    (returns : onDescriptor session.toState fd failed body = .ok value) :
    (value = failed ∧ ∀ index : Descriptor, fd = index.val →
        session.openFiles index = none) ∨
      ∃ (index : Descriptor) (descriptor : FileDescriptor),
        fd = index.val ∧ session.openFiles index = some descriptor ∧
          body index descriptor = .ok value := by
  unfold onDescriptor at returns
  rw [if_neg (by simp)] at returns
  by_cases outside : fd < 0 ∨ fd ≥ fsFileMaxCount
  · rw [if_pos outside] at returns
    refine .inl ⟨(Except.ok.inj returns).symm, ?_⟩
    rintro index rfl
    have := index.isLt
    simp only [fsOpenMaxCount, fsFileMaxCount] at *
    omega
  · rw [if_neg outside] at returns
    by_cases inTable : fd.toNat < fsOpenMaxCount
    · rw [dif_pos inTable] at returns
      simp only [Session.toState_openFiles] at returns
      cases isOpen : session.openFiles ⟨fd.toNat, inTable⟩ with
      | none =>
          rw [isOpen] at returns
          refine .inl ⟨(Except.ok.inj returns).symm, ?_⟩
          rintro index rfl
          exact isOpen
      | some descriptor =>
          rw [isOpen] at returns
          refine .inr ⟨⟨fd.toNat, inTable⟩, descriptor, ?_, isOpen, returns⟩
          change fd = ((fd.toNat : Nat) : Int)
          omega
    · rw [dif_neg inTable] at returns
      exact nomatch returns

end Descriptor

section Calls

variable {session : Session} {index : Descriptor} {descriptor : FileDescriptor}
  (isOpen : session.openFiles index = some descriptor)

include isOpen

/-- `fs_stat` through an open descriptor. -/
theorem fsStat_open :
    fsStat session.toState index.val =
      .ok (session.toState,
        int32 (session.root descriptor.file).fileSize.toNat) := by
  unfold fsStat
  rw [onDescriptor_open isOpen]
  rfl

/-- `fs_lseek` through an open descriptor to a position in the file. -/
theorem fsLseek_open
    {offset : Nat}
    (le : offset ≤ (session.root descriptor.file).fileSize.toNat) :
    fsLseek session.toState index.val offset =
      .ok ((session.setOpenFile index
        (some { descriptor with offset := UInt16.ofNat offset })).toState,
          0) := by
  unfold fsLseek
  rw [onDescriptor_open isOpen, Session.toState_session, outcome_ok_bind,
    if_neg (Nat.not_lt.mpr le)]

end Calls
end MsFat
