import MsFat.Store.Directory
import MsFat.Store.Transfers

/-!
# A mount session is a file store

Every sequence of calls on a session is answered as the store that the session
represents answers it: it returns exactly if the store does, with the results
and the bytes of the store.  Where the blocks of the files lie, which slots of
the root directory they have and what else the FAT holds cannot be seen.
-/

namespace MsFat

/-- A host that serves the calls on files: reading and writing blocks succeeds,
and so does the allocation of a descriptor. -/
structure Host.Serves (host : Host) : Prop extends host.IoSucceeds where
  mallocs : host.mallocSucceeds 0 = true

theorem Host.Reliable.serves
    {host : Host}
    (reliable : host.Reliable) :
    host.Serves where
  toIoSucceeds := reliable.toIoSucceeds
  mallocs := reliable.mallocs 0

/-! ## One call -/

/-- Every call does what the store answers. -/
theorem Session.Represents.answers_exec
    {session : Session}
    {store : Store}
    (represents : session.Represents store)
    {host : Host}
    (serves : host.Serves)
    {call : Call}
    (countFits : call.CountFits) :
    session.Answers host call (store.exec call) := by
  cases call with
  | create filename => exact represents.answers_create filename
  | delete filename => exact represents.answers_delete filename
  | «open» filename => exact represents.answers_open serves.mallocs filename
  | close fd => exact represents.answers_close fd
  | stat fd => exact represents.answers_stat fd
  | lseek fd offset => exact represents.answers_lseek fd offset
  | write fd buf count =>
      exact represents.answers_write serves.toIoSucceeds fd buf countFits
  | read fd buf count =>
      exact represents.answers_read serves.toIoSucceeds fd buf countFits

/-! ## Sequences of calls -/

/-- A sequence of calls, each with the host it meets, and the replies to them. -/
def answerAll
    (fuel : Nat) :
    List (Host × Call) → State → Outcome (State × List Reply)
  | [], state => .ok (state, [])
  | (host, call) :: rest, state => do
      let (state, reply) ← call.answer fuel host state
      let (state, replies) ← answerAll fuel rest state
      .ok (state, reply :: replies)

namespace Store

/-- The answers of the store to a sequence of calls, if it answers them all. -/
def execAll : List Call → Store → Option (Store × List Answer)
  | [], store => some (store, [])
  | call :: rest, store => do
      let (store, answer) ← store.exec call
      let (store, answers) ← execAll rest store
      some (store, answer :: answers)

end Store

namespace Session

/-- The sequence of calls does what the store answers. -/
def AnswersAll
    (session : Session)
    (calls : List (Host × Call)) : Option (Store × List Answer) → Prop
  | none => ¬Terminates fun fuel => answerAll fuel calls session.toState
  | some (store, answers) =>
      ∃ after replies bound,
        Computes (fun fuel => answerAll fuel calls session.toState) bound
          (Session.toState after, replies) ∧
        after.Represents store ∧ List.Forall₂ Answer.Allows answers replies

/-- Every sequence of calls does what the store answers. -/
theorem Represents.answersAll
    {session : Session}
    {store : Store}
    (represents : session.Represents store)
    {calls : List (Host × Call)}
    (serves : ∀ made ∈ calls, made.1.Serves ∧ made.2.CountFits) :
    session.AnswersAll calls (store.execAll (calls.map Prod.snd)) := by
  induction calls generalizing session store with
  | nil =>
      exact ⟨session, [], 0, .const fun _ => rfl, represents, .nil⟩
  | cons made rest inductionHypothesis =>
      obtain ⟨host, call⟩ := made
      obtain ⟨hostServes, countFits⟩ := serves _ List.mem_cons_self
      have restServes : ∀ made ∈ rest, made.1.Serves ∧ made.2.CountFits :=
        fun made member => serves made (List.mem_cons_of_mem _ member)
      have first := represents.answers_exec hostServes countFits
      change session.AnswersAll ((host, call) :: rest)
        (store.exec call >>= fun done =>
          done.1.execAll (rest.map Prod.snd) >>= fun others =>
            some (others.1, done.2 :: others.2))
      cases firstEq : store.exec call with
      | none =>
          rw [firstEq] at first
          exact fun terminates => first terminates.of_bind
      | some done =>
          rw [firstEq] at first
          obtain ⟨middle, reply, bound, computes, middleRepresents, allows⟩ :=
            first
          have others := inductionHypothesis middleRepresents restServes
          change session.AnswersAll ((host, call) :: rest)
            (done.1.execAll (rest.map Prod.snd) >>= fun others =>
              some (others.1, done.2 :: others.2))
          cases othersEq : done.1.execAll (rest.map Prod.snd) with
          | none =>
              rw [othersEq] at others
              exact computes.not_terminates_andThen
                fun terminates => others terminates.of_bind
          | some last =>
              rw [othersEq] at others
              obtain ⟨after, replies, bound', computes', lastRepresents,
                allowsAll⟩ := others
              exact ⟨after, reply :: replies, max bound bound',
                computes.andThen (computes'.bind rfl), lastRepresents,
                .cons allows allowsAll⟩

/-- A sequence of calls does one thing only, whatever the amount of fuel. -/
theorem AnswersAll.of_returns
    {session : Session}
    {calls : List (Host × Call)}
    {answered : Option (Store × List Answer)}
    (answersAll : session.AnswersAll calls answered)
    {fuel : Nat}
    {after : State}
    {replies : List Reply}
    (returns : answerAll fuel calls session.toState = .ok (after, replies)) :
    ∃ store answers, answered = some (store, answers) ∧
      List.Forall₂ Answer.Allows answers replies := by
  cases answered with
  | none => exact absurd ⟨fuel, _, returns⟩ answersAll
  | some done =>
      obtain ⟨last, others, bound, computes, _, allowsAll⟩ := answersAll
      cases computes.only fuel _ returns
      exact ⟨_, _, rfl, allowsAll⟩

/-- A sequence of calls returns exactly if the store answers it. -/
theorem AnswersAll.terminates_iff
    {session : Session}
    {calls : List (Host × Call)}
    {answered : Option (Store × List Answer)}
    (answersAll : session.AnswersAll calls answered) :
    Terminates (fun fuel => answerAll fuel calls session.toState) ↔
      answered ≠ none := by
  cases answered with
  | none => exact iff_of_false answersAll (absurd rfl)
  | some done =>
      obtain ⟨_, _, _, computes, _, _⟩ := answersAll
      exact iff_of_true computes.terminates nofun

end Session

/-- The results that are allowed are those of the answers. -/
theorem results_eq_of_allows
    {answers : List Answer}
    {replies : List Reply}
    (allowsAll : List.Forall₂ Answer.Allows answers replies) :
    replies.map Reply.result = answers.map Answer.result := by
  induction allowsAll with
  | nil => rfl
  | cons allows _ inductionHypothesis =>
      rw [List.map_cons, List.map_cons, allows.result, inductionHypothesis]

/-- A session whose entry 0 of the FAT is one that a mounted FAT can have
represents the store of its files, with all their bytes, and every sequence of
calls that an `int` can count does what this store answers. -/
theorem answerAll_refines
    {session : Session}
    (wellFormed : session.WellFormed)
    (firstEntry : session.FirstEntryOk)
    {calls : List (Host × Call)}
    (serves : ∀ made ∈ calls, made.1.Serves ∧ made.2.CountFits) :
    session.AnswersAll calls (session.store.execAll (calls.map Prod.snd)) :=
  (Session.represents_store wellFormed firstEntry).answersAll serves

/-- A file is opened and read. -/
theorem answerAll_refines_sample :
    Session.sample.AnswersAll
      [(.reliable, .open (some nameA)), (.reliable, .read 1 (some fun _ => 0) 9)]
      (Session.sample.store.execAll
        [.open (some nameA), .read 1 (some fun _ => 0) 9]) := by
  refine answerAll_refines Session.sample_wellFormed (.inl rfl) ?_
  have serves := Host.reliable_reliable.serves
  simp [serves, Call.CountFits, intMax]

/-! ## What cannot be seen -/

/-- Two sessions that represent one store cannot be told apart: the same calls
return on both or on neither, and with the same results. -/
theorem answerAll_results_eq
    {session other : Session}
    {store : Store}
    (represents : session.Represents store)
    (represents' : other.Represents store)
    {calls calls' : List (Host × Call)}
    (sameCalls : calls'.map Prod.snd = calls.map Prod.snd)
    (serves : ∀ made ∈ calls, made.1.Serves ∧ made.2.CountFits)
    (serves' : ∀ made ∈ calls', made.1.Serves ∧ made.2.CountFits) :
    (Terminates (fun fuel => answerAll fuel calls session.toState) ↔
      Terminates fun fuel => answerAll fuel calls' other.toState) ∧
    ∀ fuel fuel' after after' replies replies',
      answerAll fuel calls session.toState = .ok (after, replies) →
      answerAll fuel' calls' other.toState = .ok (after', replies') →
        replies.map Reply.result = replies'.map Reply.result := by
  have answersAll := represents.answersAll serves
  have answersAll' := represents'.answersAll serves'
  rw [sameCalls] at answersAll'
  constructor
  · rw [answersAll.terminates_iff, answersAll'.terminates_iff]
  · intro fuel fuel' after after' replies replies' returns returns'
    obtain ⟨_, answers, isAnswer, allowsAll⟩ := answersAll.of_returns returns
    obtain ⟨_, answers', isAnswer', allowsAll'⟩ :=
      answersAll'.of_returns returns'
    cases isAnswer.symm.trans isAnswer'
    rw [results_eq_of_allows allowsAll, results_eq_of_allows allowsAll']

/-- The store with one file, called `a`, of whose bytes nothing is known. -/
def oneFileStore (fileSize : UInt32) (blocks freeBlocks : Nat) : Store where
  files := fun name =>
    if name = nameA then
      some { size := fileSize, blocks := blocks, bytes := fun _ => none }
    else none
  handles := fun index =>
    if index = 0 then some { name := nameA, offset := 0 } else none
  handleCount := 0
  freeEntries := 127
  freeBlocks := freeBlocks
  guarded := true

theorem oneFileStore_files
    (fileSize : UInt32)
    (blocks freeBlocks : Nat) :
    (oneFileStore fileSize blocks freeBlocks).files nameA =
      some { size := fileSize, blocks := blocks, bytes := fun _ => none } := by
  unfold oneFileStore
  dsimp only
  rw [if_pos rfl]

theorem oneFile_represents
    {numDataBlocks : UInt16}
    {fat : Fat numDataBlocks.toNat}
    {firstIndex : UInt16}
    {chain : List UInt16}
    (fits : numDataBlocks.toNat + 3 < 2 ^ 16)
    (isChain : FatChain fat firstIndex chain)
    (firstEntry : fatNext fat 0 = some fatEoc)
    (fileSize : UInt32) :
    (Session.oneFile numDataBlocks fat firstIndex fileSize).Represents
      (oneFileStore fileSize chain.length (freeBlocks fat).length) where
  wellFormed := Session.oneFile_wellFormed fits isChain fileSize
  files := by
    have named : (Session.oneFile numDataBlocks fat firstIndex
        fileSize).nameAt 0 = nameA :=
      CString.ext (show arrayString (Session.letterName 0) = [97] by decide)
    refine ⟨?_, ?_⟩
    · intro slot used
      have isFirst : slot = 0 := by
        by_contra other
        have present := Session.lettered_inUse_iff.mp used
        rw [if_neg other] at present
        exact nomatch present
      subst isFirst
      rw [named]
      exact ⟨_, chain, oneFileStore_files fileSize chain.length _, isChain, rfl,
        rfl, nofun⟩
    · intro name present
      refine ⟨0, Session.lettered_inUse_iff.mpr rfl, ?_⟩
      by_contra other
      exact present (if_neg fun isName => other (named.trans isName.symm))
  handles := by
    intro index
    by_cases first : index = 0
    · subst first
      refine congrArg (fun name => some (Handle.mk name 0)) (CString.ext ?_)
      exact (show [97] = arrayString (Session.letterName 0) by decide)
    · simp [oneFileStore, Session.oneFile, Session.lettered, first]
  handleCount := rfl
  freeEntries := by
    have inUse : ∀ slot : Slot, ((Session.oneFile numDataBlocks fat firstIndex
        fileSize).root slot).filename 0 == 0 ↔ slot ≠ 0 := by
      intro slot
      rw [beq_iff_eq, ← not_iff_not, not_not]
      refine Session.lettered_inUse_iff.trans ?_
      by_cases first : slot = 0 <;> simp [first]
    have others : (List.finRange fsFileMaxCount).countP
        (fun slot : Slot => slot ≠ 0) = 127 := by decide +kernel
    refine others.symm.trans (List.countP_congr fun slot _ => ?_)
    rw [inUse slot, decide_eq_true_iff]
  freeBlocks := rfl
  firstEntry := firstEntry

/-- A file is written, read from its start and joined by another one. -/
def writeReadCreate : List (Host × Call) :=
  [(.reliable, .write 0 (some fun _ => 7) 5000), (.reliable, .lseek 0 0),
    (.reliable, .read 0 (some fun _ => 0) 5000), (.reliable, .stat 0),
    (.reliable, .create (some nameB))]

/-- The file has block 1 in one session and block 3 in the other, and gets another
block in both. -/
theorem answerAll_results_eq_sample :
    (Terminates (fun fuel => answerAll fuel writeReadCreate
        (Session.oneFile 4 #v[fatEoc, fatEoc, 0, 0] 1 5).toState) ↔
      Terminates fun fuel => answerAll fuel writeReadCreate
        (Session.oneFile 4 #v[fatEoc, 0, 0, fatEoc] 3 5).toState) ∧
    ∀ fuel fuel' after after' replies replies',
      answerAll fuel writeReadCreate
        (Session.oneFile 4 #v[fatEoc, fatEoc, 0, 0] 1 5).toState =
          .ok (after, replies) →
      answerAll fuel' writeReadCreate
        (Session.oneFile 4 #v[fatEoc, 0, 0, fatEoc] 3 5).toState =
          .ok (after', replies') →
        replies.map Reply.result = replies'.map Reply.result := by
  have left := @oneFile_represents 4 _ _ _ (by decide)
    (show FatChain #v[fatEoc, fatEoc, 0, 0] 1 [1] by decide) rfl 5
  have right := @oneFile_represents 4 _ _ _ (by decide)
    (show FatChain #v[fatEoc, 0, 0, fatEoc] 3 [3] by decide) rfl 5
  have serves : ∀ made ∈ writeReadCreate, made.1.Serves ∧ made.2.CountFits := by
    simp [writeReadCreate, Host.reliable_reliable.serves, Call.CountFits, intMax]
  exact answerAll_results_eq left right rfl serves serves

end MsFat
