import MsFat.Store.Represents

/-!
# Answers of the store

What it means that a call does what the store answers, and what the checks of
the calls find out about the files and the handles of the store.
-/

namespace MsFat

/-- The call does what the store answers: it returns, with an allowed reply and
in a session that represents the store behind the call, or it does not
return. -/
def Session.Answers
    (session : Session)
    (host : Host)
    (call : Call) : Option (Store × Answer) → Prop
  | none => ¬Terminates fun fuel => call.answer fuel host session.toState
  | some (store, answer) =>
      ∃ after reply bound,
        Computes (fun fuel => call.answer fuel host session.toState) bound
          (Session.toState after, reply) ∧
        after.Represents store ∧ answer.Allows reply

/-- A reply with the result of the answer, if that is about no buffer. -/
theorem Answer.allows_of_result
    {answer : Answer}
    (noBuffer : answer.buffer = none ∧ answer.stored = 0) :
    answer.Allows { result := answer.result } where
  result := rfl
  buffer := by
    intro known isKnown
    rw [noBuffer.1] at isKnown
    exact nomatch isKnown
  stores := by
    intro position
    rw [noBuffer.2]
    exact (decide_eq_false (Nat.not_lt_zero position)).symm

namespace Store

variable {store : Store} {file : StoredFile}

/-- A call with a handle that is there. -/
theorem onHandle_of_handle
    {fd : Int}
    {index : Descriptor}
    {handle : Handle}
    (isFd : fd = index.val)
    (isHandle : store.handles index = some handle)
    (body : Descriptor → Handle → Option (Store × Answer)) :
    store.onHandle fd body = body index handle := by
  subst isFd
  have bound : index.val < 32 := index.isLt
  have inTable : (index.val : Int).toNat < fsOpenMaxCount := index.isLt
  unfold onHandle
  rw [if_neg (by simp only [fsFileMaxCount]; omega), dif_pos inTable]
  simp only [Int.toNat_natCast, Fin.eta, isHandle]

theorem onFile_of_handle
    {fd : Int}
    {index : Descriptor}
    {handle : Handle}
    (isFd : fd = index.val)
    (isHandle : store.handles index = some handle)
    (isFile : store.files handle.name = some file)
    (body : Descriptor → Handle → StoredFile → Store × Answer) :
    store.onFile fd body = some (body index handle file) := by
  unfold onFile
  rw [onHandle_of_handle isFd isHandle, isFile, Option.map_some]

end Store

/-- The call has a file name, and this is the argument. -/
def Call.TakesName (call : Call) (filename : Option CString) : Prop :=
  match call with
  | .create filename' => filename' = filename
  | .delete filename' => filename' = filename
  | .open filename' => filename' = filename
  | _ => False

/-- The reply to a call whose descriptor the checks reject. -/
def Call.refusal : Call → Reply
  | .read _ buf _ => { result := -1, buffer := buf }
  | _ => { result := -1 }

theorem Call.refusal_result (call : Call) : call.refusal.result = -1 := by
  cases call <;> rfl

theorem Call.refusal_stores (call : Call) :
    call.refusal.stores = fun _ => false := by
  cases call <;> rfl

section Rejected

variable {state : State} {fd : Int} {call : Call}

theorem Call.answer_of_rejected
    (takes : call.TakesFd fd)
    (rejected : ∀ {α : Type} (failed : α)
      (body : Descriptor → FileDescriptor → Outcome α),
      onDescriptor state fd failed body = .ok failed)
    (fuel : Nat)
    (host : Host) :
    call.answer fuel host state = .ok (state, call.refusal) := by
  have executes := exec_of_rejected takes rejected fuel host
  cases call with
  | create _ => exact takes.elim
  | delete _ => exact takes.elim
  | «open» _ => exact takes.elim
  | read fd' buf count =>
      cases takes
      have reads : ∀ buf, fsRead host state fd buf count =
          .ok (state, buf, -1) := fun _ => rejected _ _
      have nothing : fsReadStores host state fd count = fun _ => false := by
        funext position
        unfold fsReadStores
        rw [reads, reads]
        rfl
      simp only [Call.answer, Call.refusal, reads, nothing, Bool.and_false,
        outcome_ok_bind]
  | _ => simp only [Call.answer, Call.refusal, executes, outcome_ok_bind]

/-- A call whose descriptor lies outside the table does not return. -/
theorem Call.answer_of_outOfBounds
    (takes : call.TakesFd fd)
    (outside : ∀ {α : Type} (failed : α)
      (body : Descriptor → FileDescriptor → Outcome α),
      onDescriptor state fd failed body = .error .outOfBounds)
    (fuel : Nat)
    (host : Host) :
    call.answer fuel host state = .error .outOfBounds := by
  cases call with
  | create _ => exact takes.elim
  | delete _ => exact takes.elim
  | «open» _ => exact takes.elim
  | close _ =>
      cases takes
      have closes : fsClose state fd = .error .outOfBounds := outside _ _
      simp only [Call.answer, Call.exec, closes, outcome_error_bind]
  | stat _ =>
      cases takes
      have stats : fsStat state fd = .error .outOfBounds := outside _ _
      simp only [Call.answer, Call.exec, stats, outcome_error_bind]
  | lseek _ offset =>
      cases takes
      have seeks : fsLseek state fd offset = .error .outOfBounds :=
        outside _ _
      simp only [Call.answer, Call.exec, seeks, outcome_error_bind]
  | write _ buf count =>
      cases takes
      have writes : fsWrite fuel host state fd buf count =
          .error .outOfBounds := outside _ _
      simp only [Call.answer, Call.exec, writes, outcome_error_bind]
  | read _ buf count =>
      cases takes
      have reads : fsRead host state fd buf count = .error .outOfBounds :=
        outside _ _
      simp only [Call.answer, reads, outcome_error_bind]

end Rejected

namespace Session

variable {session : Session} {store : Store} {host : Host}

/-- The reply to the call is its result alone. -/
def RepliesResult (call : Call) : Prop :=
  ∀ fuel host state, call.answer fuel host state =
    call.exec fuel host state >>= fun ran => .ok (ran.1, { result := ran.2 })

/-- A call that computes what the store answers, and stores in no buffer. -/
theorem Answers.of_computes
    {call : Call}
    {bound : Nat}
    {after : Session}
    {answer : Answer}
    (replies : RepliesResult call)
    (computes : Computes (fun fuel => call.exec fuel host session.toState)
      bound (after.toState, answer.result))
    (represents : after.Represents store)
    (noBuffer : answer.buffer = none ∧ answer.stored = 0) :
    session.Answers host call (some (store, answer)) := by
  have follows : Computes
      (fun fuel => call.exec fuel host session.toState >>= fun ran =>
        (.ok (ran.1, { result := ran.2 }) : Outcome (State × Reply)))
      bound (after.toState, { result := answer.result }) :=
    computes.bind rfl
  exact ⟨after, { result := answer.result }, bound,
    follows.congr fun fuel => replies fuel host session.toState,
    represents, Answer.allows_of_result noBuffer⟩

/-- A call that does not return has no reply. -/
theorem Answers.of_not_terminates
    {call : Call}
    (diverges : ¬Terminates fun fuel => call.exec fuel host session.toState) :
    session.Answers host call none := by
  rintro ⟨fuel, result, answers⟩
  exact diverges ⟨fuel, _, Call.exec_of_answer answers⟩

namespace Represents

variable (represents : session.Represents store)

include represents

/-! ## Looking up -/

section Names

variable {name : CString}

theorem not_found_iff (valid : ValidName name) :
    session.findMatchingFilename name = none ↔ store.files name = none := by
  rw [represents.files.eq_none_iff, Option.eq_none_iff_forall_ne_some]
  apply forall_congr'
  intro slot
  rw [ne_eq, represents.wellFormed.names.findMatchingFilename_iff valid,
    not_and]

/-- The file of a name that is looked up. -/
theorem file_of_found
    {slot : Slot}
    (valid : ValidName name)
    (found : session.findMatchingFilename name = some slot) :
    session.InUse slot ∧ session.nameAt slot = name ∧
      ∃ file chain, store.files name = some file ∧
        session.StoresFile slot file chain := by
  obtain ⟨used, named⟩ :=
    (represents.wellFormed.names.findMatchingFilename_iff valid).mp found
  exact ⟨used, named, represents.files.of_named used named⟩

/-- The names of the store are valid. -/
theorem validName (present : store.files name ≠ none) : ValidName name := by
  obtain ⟨slot, used, rfl⟩ := represents.files.named name present
  exact represents.wellFormed.names.validName used

/-- The slot of a file of the store. -/
theorem slot_of_file
    {file : StoredFile}
    (isFile : store.files name = some file) :
    ∃ slot chain, session.InUse slot ∧ session.nameAt slot = name ∧
      session.findMatchingFilename name = some slot ∧
      session.StoresFile slot file chain := by
  have present : store.files name ≠ none := by
    rw [isFile]
    exact nofun
  have valid := represents.validName present
  obtain ⟨slot, used, named⟩ := represents.files.named name present
  obtain ⟨other, chain, isOther, stores⟩ :=
    represents.files.of_named used named
  cases isFile.symm.trans isOther
  exact ⟨slot, chain, used, named,
    (represents.wellFormed.names.findMatchingFilename_iff valid).mpr
      ⟨used, named⟩, stores⟩

theorem isOpen_eq (short : name.length < fsFilenameLen) :
    store.isOpen name = session.isOpen name := by
  rw [Bool.eq_iff_iff, isOpen_iff short]
  unfold Store.isOpen
  rw [List.any_eq_true]
  constructor
  · rintro ⟨index, _, isHandle⟩
    rw [represents.handles index] at isHandle
    cases isOpen : session.openFiles index with
    | none =>
        rw [isOpen] at isHandle
        exact nomatch isHandle
    | some descriptor =>
        rw [isOpen] at isHandle
        exact ⟨index, descriptor, isOpen, beq_iff_eq.mp isHandle⟩
  · rintro ⟨index, descriptor, isOpen, named⟩
    refine ⟨index, List.mem_finRange index, ?_⟩
    rw [represents.handles index, isOpen]
    exact beq_iff_eq.mpr named

end Names

/-! ## Handles -/

/-- The file of an open descriptor. -/
theorem file_of_open
    {index : Descriptor}
    {descriptor : FileDescriptor}
    (isOpen : session.openFiles index = some descriptor) :
    ∃ file chain,
      store.files (session.nameAt descriptor.file) = some file ∧
      session.StoresFile descriptor.file file chain :=
  represents.files.present _
    (represents.wellFormed.descriptors index descriptor isOpen)

/-- The checks of a call with a descriptor, and what the store makes of its
handle. -/
theorem handle_cases (fd : Int) :
    ((∀ {α : Type} (failed : α)
        (body : Descriptor → FileDescriptor → Outcome α),
        onDescriptor session.toState fd failed body = .ok failed) ∧
      ∀ body, store.onHandle fd body = some store.refused) ∨
    ((∀ {α : Type} (failed : α)
        (body : Descriptor → FileDescriptor → Outcome α),
        onDescriptor session.toState fd failed body = .error .outOfBounds) ∧
      ∀ body, store.onHandle fd body = none) ∨
    ∃ (index : Descriptor) (descriptor : FileDescriptor),
      fd = index.val ∧ session.openFiles index = some descriptor ∧
      store.handles index = some (session.handleOf descriptor) ∧
      ∀ body, store.onHandle fd body =
        body index (session.handleOf descriptor) := by
  unfold onDescriptor Store.onHandle
  by_cases outside : fd < 0 ∨ fd ≥ fsFileMaxCount
  · left
    simp only [if_pos outside]
    exact ⟨fun failed body => by simp, fun body => trivial⟩
  · by_cases inTable : fd.toNat < fsOpenMaxCount
    · have isHandle := represents.handles ⟨fd.toNat, inTable⟩
      cases isOpen : session.openFiles ⟨fd.toNat, inTable⟩ with
      | none =>
          left
          rw [isOpen, Option.map_none] at isHandle
          simp only [if_neg outside, dif_pos inTable, isHandle]
          exact ⟨fun failed body => by simp [isOpen], fun body => trivial⟩
      | some descriptor =>
          rw [isOpen, Option.map_some] at isHandle
          refine .inr (.inr ⟨⟨fd.toNat, inTable⟩, descriptor, ?_, isOpen,
            isHandle, ?_⟩)
          · change fd = ((fd.toNat : Nat) : Int)
            omega
          · intro body
            simp only [if_neg outside, dif_pos inTable, isHandle]
    · right
      left
      simp only [if_neg outside, dif_neg inTable]
      exact ⟨fun failed body => by simp, fun body => trivial⟩

/-- A call with a handle does what the store answers, if it does so on the
handles that are there. -/
theorem answers_onHandle
    {fd : Int}
    {call : Call}
    {body : Descriptor → Handle → Option (Store × Answer)}
    (takes : call.TakesFd fd)
    (runs : ∀ (index : Descriptor) descriptor, fd = index.val →
      session.openFiles index = some descriptor →
      store.handles index = some (session.handleOf descriptor) →
        session.Answers host call
          (body index (session.handleOf descriptor))) :
    session.Answers host call (store.onHandle fd body) := by
  rcases represents.handle_cases fd with
    ⟨rejected, refuses⟩ | ⟨outside, silent⟩ |
      ⟨index, descriptor, isFd, isOpen, isHandle, onHandle⟩
  · rw [refuses body]
    refine ⟨session, call.refusal, 0,
      .const fun fuel => Call.answer_of_rejected takes rejected fuel host,
      represents, call.refusal_result, nofun, fun position => ?_⟩
    rw [call.refusal_stores]
    exact (decide_eq_false (Nat.not_lt_zero position)).symm
  · rw [silent body]
    rintro ⟨fuel, result, answers⟩
    exact nomatch
      (Call.answer_of_outOfBounds takes outside fuel host).symm.trans answers
  · rw [onHandle body]
    exact runs index descriptor isFd isOpen isHandle

/-- A call with a handle, on the file of the handle. -/
theorem answers_onFile
    {fd : Int}
    {call : Call}
    {body : Descriptor → Handle → StoredFile → Store × Answer}
    (takes : call.TakesFd fd)
    (runs : ∀ (index : Descriptor) descriptor file chain, fd = index.val →
      session.openFiles index = some descriptor →
      store.handles index = some (session.handleOf descriptor) →
      store.files (session.nameAt descriptor.file) = some file →
      session.StoresFile descriptor.file file chain →
        session.Answers host call
          (some (body index (session.handleOf descriptor) file))) :
    session.Answers host call (store.onFile fd body) := by
  apply represents.answers_onHandle takes
  intro index descriptor isFd isOpen isHandle
  obtain ⟨file, chain, isFile, stores⟩ := represents.file_of_open isOpen
  have named : store.files (session.handleOf descriptor).name = some file :=
    isFile
  rw [named, Option.map_some]
  exact runs index descriptor file chain isFd isOpen isHandle isFile stores

/-- Another entry of the table of open files, that refers to a file or is
empty. -/
theorem setOpenFile
    (index : Descriptor)
    (entry : Option FileDescriptor)
    (numOpenFiles : UInt8)
    (refers : ∀ descriptor, entry = some descriptor →
      session.InUse descriptor.file) :
    Represents
      { session.setOpenFile index entry with numOpenFiles := numOpenFiles }
      { store.setHandle index (entry.map session.handleOf) with
        handleCount := numOpenFiles } where
  wellFormed := represents.wellFormed.setOpenFile index refers
  files := represents.files.of_same rfl fun _ _ =>
    ⟨rfl, rfl, fun _ isChain => isChain, fun _ _ _ _ => rfl⟩
  handles := by
    intro other
    change Function.update store.handles index (entry.map session.handleOf)
      other = Option.map session.handleOf
        (Function.update session.openFiles index entry other)
    by_cases same : other = index
    · subst same
      rw [Function.update_self, Function.update_self]
    · rw [Function.update_of_ne same, Function.update_of_ne same]
      exact represents.handles other
  handleCount := rfl
  freeEntries := represents.freeEntries
  freeBlocks := represents.freeBlocks
  firstEntry := represents.firstEntry

/-- Another offset of an open descriptor. -/
theorem setOffset
    {index : Descriptor}
    {descriptor : FileDescriptor}
    (isOpen : session.openFiles index = some descriptor)
    (offset : UInt16) :
    Represents
      (session.setOpenFile index (some { descriptor with offset := offset }))
      (store.setHandle index
        (some { session.handleOf descriptor with offset := offset })) := by
  have used := represents.wellFormed.descriptors index descriptor isOpen
  have moved := represents.setOpenFile index
    (some { descriptor with offset := offset }) session.numOpenFiles (by
      rintro _ ⟨⟩
      exact used)
  exact ⟨moved.wellFormed, moved.files, moved.handles, represents.handleCount,
    represents.freeEntries, represents.freeBlocks, represents.firstEntry⟩

/-- Handles keep their names if the files that are open keep theirs. -/
theorem handles_kept
    (after : Session)
    (openFiles : after.openFiles = session.openFiles)
    (kept : ∀ slot, session.InUse slot →
      (∃ index descriptor, session.openFiles index = some descriptor ∧
        descriptor.file = slot) → after.nameAt slot = session.nameAt slot)
    (index : Descriptor) :
    store.handles index = (after.openFiles index).map after.handleOf := by
  rw [represents.handles index, openFiles]
  cases isOpen : session.openFiles index with
  | none => rfl
  | some descriptor =>
      have used := represents.wellFormed.descriptors index descriptor isOpen
      rw [Option.map_some, Option.map_some]
      unfold handleOf
      rw [kept descriptor.file used ⟨index, descriptor, isOpen, rfl⟩]

/-! ## Refusals -/

/-- A call that returns -1 and leaves the state is one that is refused. -/
theorem answers_refused
    {call : Call}
    (replies : RepliesResult call)
    (refuses : ∀ fuel, call.exec fuel host session.toState =
      .ok (session.toState, -1)) :
    session.Answers host call (some store.refused) :=
  Answers.of_computes replies (Computes.const refuses) represents
    ⟨rfl, rfl⟩

/-- A call with a name that is not valid is refused. -/
theorem answers_invalid
    {call : Call}
    {filename : Option CString}
    (takes : call.TakesName filename)
    (invalid : ∀ name, filename = some name → ¬ValidName name) :
    session.Answers host call (some store.refused) := by
  cases call with
  | create _ =>
      cases takes
      exact represents.answers_refused (fun _ _ _ => rfl) fun _ =>
        (onFilename_invalid invalid : fsCreate _ _ = _)
  | delete _ =>
      cases takes
      exact represents.answers_refused (fun _ _ _ => rfl) fun fuel =>
        (onFilename_invalid invalid : fsDelete fuel _ _ = _)
  | «open» _ =>
      cases takes
      exact represents.answers_refused (fun _ _ _ => rfl) fun _ =>
        (onFilename_invalid invalid : fsOpen host _ _ = _)
  | _ => exact takes.elim

theorem answers_notValid
    {call : Call}
    {name : CString}
    (takes : call.TakesName (some name))
    (notValid : ¬ValidName name) :
    session.Answers host call (some store.refused) := by
  apply represents.answers_invalid takes
  rintro _ ⟨⟩
  exact notValid

/-- A call without a name is refused. -/
theorem answers_noName
    {call : Call}
    (takes : call.TakesName none) :
    session.Answers host call (some store.refused) :=
  represents.answers_invalid takes fun _ isName => nomatch isName

end Represents
end Session
end MsFat
