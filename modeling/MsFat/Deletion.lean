import MsFat.Invariant

/-!
# Termination of deletions

The deletion of a file of two or more blocks clears entry 0 of the FAT.  From
then on the deletion of a file of two or more blocks does not come to an end.
So a deletion terminates exactly if no earlier one has cleared entry 0 or it
has no such file to delete.
-/

namespace MsFat

namespace Session

/-- A file of this name is there, no descriptor on it is open, and it has two or
more blocks. -/
structure LongDeletion
    (session : Session)
    (name : CString) : Prop where
  valid : ValidName name
  closed : session.isOpen name = false
  long : ∃ slot chain, session.findMatchingFilename name = some slot ∧
    session.FileChain slot chain ∧ 2 ≤ chain.length

/-- Entry 0 of the FAT holds `FAT_EOC`. -/
def ZeroEnds (session : Session) : Prop :=
  fatNext session.fat 0 = some fatEoc

/-- Behind its checks a deletion terminates while entry 0 holds `FAT_EOC`, and
otherwise exactly if the file does not have two or more blocks. -/
theorem deleteFile_terminates_iff
    {session : Session}
    (wellFormed : session.WellFormed)
    {name : CString}
    (valid : ValidName name) :
    Terminates (fun fuel => session.deleteFile fuel name) ↔
      session.ZeroEnds ∨ ¬session.LongDeletion name := by
  constructor
  · rintro ⟨fuel, ⟨after, result⟩, returns⟩
    rcases deleteFile_cases wellFormed valid returns with
      ⟨_, _, refused⟩ | ⟨slot, chain, found, _, isChain, ends, _, _⟩
    · right
      rintro ⟨_, closed, slot, _, found, _, _⟩
      rw [refused slot found] at closed
      exact Bool.noConfusion closed
    · rcases ends with short | zeroEnds
      · right
        rintro ⟨_, _, other, otherChain, otherFound, isOther, long⟩
        rw [found] at otherFound
        cases otherFound
        rw [isOther.unique isChain] at long
        omega
      · exact .inl zeroEnds
  · intro condition
    cases found : session.findMatchingFilename name with
    | none => exact ⟨0, (session, -1), by simp [deleteFile, found]⟩
    | some slot =>
        cases closed : session.isOpen name with
        | true => exact ⟨0, (session, -1), by simp [deleteFile, found, closed]⟩
        | false =>
            obtain ⟨chain, isChain⟩ :=
              wellFormed.chains.chain slot (inUse_of_found valid found)
            by_cases noBlocks : (session.root slot).firstIndex = fatEoc
            · exact ⟨0, _, by simp [deleteFile, found, closed, noBlocks]; rfl⟩
            · have nonempty : chain ≠ [] := by
                rintro rfl
                exact noBlocks (FatChain.nil_iff.mp isChain)
              have ends : chain.length ≤ 1 ∨
                  fatNext session.fat 0 = some fatEoc := by
                rcases condition with zeroEnds | short
                · exact .inr zeroEnds
                · left
                  by_contra long
                  exact short ⟨valid, closed, slot, chain, found, isChain,
                    by omega⟩
              have freed :=
                (freeChain_computes isChain nonempty ends).enough 2 (le_refl 2)
              exact ⟨2, _, by
                simp [deleteFile, found, closed, noBlocks, freed]; rfl⟩

/-- With a valid name a deletion terminates exactly if its body does. -/
theorem fsDelete_valid_terminates_iff
    {session : Session}
    {name : CString}
    (valid : ValidName name) :
    Terminates (fun fuel => fsDelete fuel session.toState (some name)) ↔
      Terminates fun fuel => session.deleteFile fuel name := by
  have runs : ∀ fuel, fsDelete fuel session.toState (some name) =
      session.deleteFile fuel name >>= fun ran => .ok (ran.1.toState, ran.2) :=
    fun fuel => onFilename_valid valid
  constructor
  · rintro ⟨fuel, result, returns⟩
    obtain ⟨middle, ran, _⟩ :=
      outcome_bind_eq_ok ((runs fuel).symm.trans returns)
    exact ⟨fuel, middle, ran⟩
  · rintro ⟨fuel, result, ran⟩
    refine ⟨fuel, (result.1.toState, result.2), (runs fuel).trans ?_⟩
    rw [show session.deleteFile fuel name = .ok result from ran]
    rfl

end Session

/-- The call deletes no file of two or more blocks. -/
def SparesLong (state : State) (event : Event) : Prop :=
  ∀ (session : Session) name, state = session.toState →
    event.call = .delete (some name) → ¬session.LongDeletion name

/-- A call that is no deletion spares every file. -/
theorem SparesLong.of_call
    {state : State}
    {event : Event}
    (other : ∀ name, event.call ≠ .delete (some name)) :
    SparesLong state event :=
  fun _ name _ call => absurd call (other name)

/-- A call keeps `FAT_EOC` in entry 0 exactly if it deletes no file of two or
more blocks, and no call brings `FAT_EOC` back. -/
theorem Effect.zeroEnds_iff
    {session after : Session}
    {event : Event}
    (effect : Effect session event after) :
    after.ZeroEnds ↔
      session.ZeroEnds ∧ SparesLong session.toState event := by
  have ofCall : (∀ name, event.call ≠ .delete (some name)) →
      (session.ZeroEnds ↔
        session.ZeroEnds ∧ SparesLong session.toState event) :=
    fun other => (and_iff_left (SparesLong.of_call other)).symm
  cases effect with
  | unchanged idle =>
      refine (and_iff_left ?_).symm
      intro current name same call long
      have sessions := Session.toState_injective same
      subst sessions
      obtain ⟨valid, closed, slot, _, found, _, _⟩ := long
      rw [idle.delete name slot call valid found] at closed
      exact Bool.noConfusion closed
  | created call _ _ _ _ => exact ofCall (by rw [call]; nofun)
  | opened call _ _ _ _ => exact ofCall (by rw [call]; nofun)
  | closed call _ _ => exact ofCall (by rw [call]; nofun)
  | sought call _ _ _ => exact ofCall (by rw [call]; nofun)
  | read call _ _ => exact ofCall (by rw [call]; nofun)
  | @wrote _ _ _ _ chain fat' _ _ _ call _ _ isChain grown written =>
      have zeroKept : fatNext fat' 0 = fatNext session.fat 0 := by
        apply grown.frame 0
        · intro last
          exact isChain.ne_zero 0 (List.mem_of_getLast? last) rfl
        · intro taken
          exact ((mem_freeBlocks session.numDataBlocks_lt).mp
            (List.mem_of_mem_take taken)).1 rfl
      have same : after.ZeroEnds ↔ session.ZeroEnds := by
        unfold Session.ZeroEnds
        rw [← zeroKept]
        generalize event.result = result at written
        cases written with
        | complete _ => exact Iff.rfl
        | short _ => exact Iff.rfl
        | hostFailed _ _ _ _ => exact Iff.rfl
      exact same.trans (ofCall (by rw [call]; nofun))
  | @deleted name slot chain call valid found closed isChain ends _ =>
      have long_iff : SparesLong session.toState event ↔ chain.length ≤ 1 := by
        constructor
        · intro spares
          by_contra long
          exact spares session name rfl call
            ⟨valid, closed, slot, chain, found, isChain, by omega⟩
        · intro short current other same otherCall long
          have sessions := Session.toState_injective same
          subst sessions
          rw [call] at otherCall
          cases otherCall
          obtain ⟨_, _, _, otherChain, otherFound, isOther, otherLong⟩ := long
          rw [found] at otherFound
          cases otherFound
          rw [isOther.unique isChain] at otherLong
          omega
      rw [long_iff]
      unfold Session.ZeroEnds
      change fatNext (freedFat session.fat chain) 0 = some fatEoc ↔ _
      by_cases short : chain.length ≤ 1
      · rw [fatNext_freedFat_zero_of_short isChain short]
        exact (and_iff_left short).symm
      · rw [fatNext_freedFat_zero_of_long isChain (by omega)]
        simp [short, fatEoc_ne_zero.symm]

/-- If entry 0 holds `FAT_EOC` behind a run, it held it all the time, and no call
of the run has deleted a file of two or more blocks. -/
theorem spared_of_zeroEnds
    {session session' : Session}
    {before after : State}
    {events : List Event}
    (run : Run Step before events after)
    (beforeEq : before = session.toState)
    (afterEq : after = session'.toState)
    (wellFormed : session.WellFormed)
    (zeroEnds : session'.ZeroEnds) :
    session.ZeroEnds ∧ Run (Guarded Step SparesLong) before events after := by
  induction run generalizing session with
  | nil =>
      subst beforeEq
      have same := Session.toState_injective afterEq
      subst same
      exact ⟨zeroEnds, .nil⟩
  | cons first _ inductionHypothesis =>
      subst beforeEq
      obtain ⟨middle, middleEq, effect⟩ := step_effect wellFormed first
      obtain ⟨zeroMiddle, rest⟩ := inductionHypothesis middleEq afterEq
        (effect.wellFormed wellFormed)
      obtain ⟨zeroBefore, spares⟩ := effect.zeroEnds_iff.mp zeroMiddle
      exact ⟨zeroBefore, .cons ⟨first, spares⟩ rest⟩

/-- A run whose calls delete no file of two or more blocks keeps `FAT_EOC` in
entry 0. -/
theorem zeroEnds_of_spared
    {session session' : Session}
    {events : List Event}
    (run : Run (Guarded Step SparesLong) session.toState events
      session'.toState)
    (wellFormed : session.WellFormed)
    (zeroEnds : session.ZeroEnds) :
    session'.ZeroEnds := by
  obtain ⟨last, lastEq, _, effects⟩ := run_effects run rfl wellFormed
  have same := Session.toState_injective lastEq
  subst same
  refine effects.invariant Session.ZeroEnds ?_ zeroEnds
  intro before event after holds step
  exact step.effect.zeroEnds_iff.mpr ⟨holds, step.guarded⟩

/-- Behind every run from a session whose entry 0 holds `FAT_EOC`, a deletion
terminates exactly if no call of the run has deleted a file of two or more
blocks, or it has no such file to delete. -/
theorem fsDelete_terminates_iff
    {session : Session}
    {events : List Event}
    {state : State}
    (wellFormed : session.WellFormed)
    (zeroEnds : fatNext session.fat 0 = some fatEoc)
    (run : Run Step session.toState events state)
    (filename : Option CString) :
    Terminates (fun fuel => fsDelete fuel state filename) ↔
      Run (Guarded Step SparesLong) session.toState events state ∨
        ∀ (session' : Session) name, state = session'.toState →
          filename = some name → ¬session'.LongDeletion name := by
  have reached : WellFormedState state :=
    run.invariant WellFormedState
      (fun _ _ _ holds step => holds.step step) ⟨session, rfl, wellFormed⟩
  obtain ⟨last, rfl, wellFormedLast⟩ := reached
  have spared_iff : Run (Guarded Step SparesLong) session.toState events
      last.toState ↔ last.ZeroEnds := by
    constructor
    · exact fun guarded => zeroEnds_of_spared guarded wellFormed zeroEnds
    · exact fun holds => (spared_of_zeroEnds run rfl rfl wellFormed holds).2
  rw [spared_iff]
  by_cases rejected : ∀ name, filename = some name → ¬ValidName name
  · refine iff_of_true ⟨0, _, onFilename_invalid rejected⟩ (.inr ?_)
    rintro current name same nameEq ⟨valid, _, _⟩
    exact rejected name nameEq valid
  · simp only [not_forall, not_not] at rejected
    obtain ⟨name, rfl, valid⟩ := rejected
    rw [Session.fsDelete_valid_terminates_iff valid,
      Session.deleteFile_terminates_iff wellFormedLast valid]
    apply or_congr_right
    constructor
    · rintro short current other same ⟨⟩ long
      have sessions := Session.toState_injective same
      subst sessions
      exact short long
    · exact fun short => short last name rfl rfl

/-! ## Two files of two blocks -/

/-- Two closed files, `a` in the blocks 1 and 2 and `b` in the blocks 3
and 4. -/
def twoLongFiles : Session :=
  Session.lettered 5 #v[fatEoc, 2, fatEoc, 4, fatEoc]
    (fun slot =>
      if slot = 0 then some (1, 8192)
      else if slot = 1 then some (3, 8192) else none)
    fun _ => none

theorem twoLongFiles_wellFormed : twoLongFiles.WellFormed :=
  Session.twoFiles_wellFormed (by decide)
    (show FatChain #v[fatEoc, 2, fatEoc, 4, fatEoc] 1 [1, 2] by decide)
    (show FatChain #v[fatEoc, 2, fatEoc, 4, fatEoc] 3 [3, 4] by decide)
    (by simp) nofun

/-- The deletion of `a` returns 0. -/
theorem twoLongFiles_delete :
    Run Step twoLongFiles.toState [⟨.reliable, .delete (some nameA), 0⟩]
      (twoLongFiles.removed 0 [1, 2]).toState :=
  .cons ⟨trivial, 2, rfl⟩ .nil

/-- Behind the deletion of `a`, the deletion of `b` does not terminate. -/
theorem not_terminates_twoLongFiles :
    twoLongFiles.WellFormed ∧
      fatNext twoLongFiles.fat 0 = some fatEoc ∧
      ∃ state,
        Run Step twoLongFiles.toState [⟨.reliable, .delete (some nameA), 0⟩]
          state ∧
        ¬Terminates fun fuel => fsDelete fuel state (some nameB) := by
  refine ⟨twoLongFiles_wellFormed, rfl, _, twoLongFiles_delete, ?_⟩
  have reached : WellFormedState (twoLongFiles.removed 0 [1, 2]).toState :=
    twoLongFiles_delete.invariant WellFormedState
      (fun _ _ _ holds step => holds.step step)
      ⟨twoLongFiles, rfl, twoLongFiles_wellFormed⟩
  obtain ⟨last, lastEq, wellFormed⟩ := reached
  have same := Session.toState_injective lastEq
  subst same
  have valid : ValidName nameB := ⟨by decide, by decide⟩
  have isChain : (twoLongFiles.removed 0 [1, 2]).FileChain 1 [3, 4] :=
    show FatChain (freedFat #v[fatEoc, 2, fatEoc, 4, fatEoc] [1, 2]) 3 [3, 4]
      by decide
  rw [Session.fsDelete_valid_terminates_iff valid,
    Session.deleteFile_terminates_iff wellFormed valid, not_or, not_not]
  refine ⟨?_, valid, rfl, 1, [3, 4], rfl, isChain, by decide⟩
  change fatNext (freedFat #v[fatEoc, 2, fatEoc, 4, fatEoc] [1, 2]) 0 ≠
    some fatEoc
  decide

theorem fsDelete_terminates_iff_twoLongFiles :
    Terminates (fun fuel => fsDelete fuel
        (twoLongFiles.removed 0 [1, 2]).toState (some nameB)) ↔
      Run (Guarded Step SparesLong) twoLongFiles.toState
          [⟨.reliable, .delete (some nameA), 0⟩]
          (twoLongFiles.removed 0 [1, 2]).toState ∨
        ∀ (session' : Session) name,
          (twoLongFiles.removed 0 [1, 2]).toState = session'.toState →
          some nameB = some name → ¬session'.LongDeletion name :=
  fsDelete_terminates_iff twoLongFiles_wellFormed rfl twoLongFiles_delete
    (some nameB)

end MsFat
