import MsFat.Drive.Exit
import MsFat.Mount.FailedMount
import MsFat.Store.Refinement

/-!
# The interface is a drive

From program start on, every call of the interface does what the drive says.  A
program that uses the interface can therefore be verified over the drive, where
there are no blocks, no FAT and no bytes of a disk, and what it ensures there
holds of it over the code.
-/

namespace MsFat

/-- What a state of the program is as a drive with this superblock and this
name, now and once the process has ended. -/
inductive State.Represents (sb : SuperBlock) (diskname : String) :
    State → Drive → Prop
  | unmounted
      {state : State}
      {session : Session}
      {store : Store}
      (keeps : state.Keeps session)
      (isSb : session.sb = sb)
      (isDisk : session.disk.diskname = diskname)
      (represents : session.Represents store.closed) :
      Represents sb diskname state (.unmounted store)
  | mounted
      {session : Session}
      {volume : Volume}
      {store kept : Store}
      (formatted : session.Formatted)
      (isSb : session.sb = sb)
      (isDisk : session.disk.diskname = diskname)
      (represents : session.Represents store)
      (leaves : session.Leaves volume kept) :
      Represents sb diskname session.toState (.mounted store kept)
  | broken
      {state : State}
      {session : Session}
      {kept : Store}
      (failed : state.isDiskMounted = true)
      (keeps : (State.initial state.atExit).Keeps session)
      (isSb : session.sb = sb)
      (isDisk : session.disk.diskname = diskname)
      (represents : session.Represents kept.closed) :
      Represents sb diskname state (.broken kept)

namespace Session

variable {session : Session}

/-- The line of `fs_ls` about a file. -/
theorem StoresFile.lsLine_eq
    {slot : Slot}
    {file : StoredFile}
    {chain : List UInt16}
    (stores : session.StoresFile slot file chain)
    (used : session.InUse slot) :
    lsLine (session.root slot) = some
      { file := (session.nameAt slot).bytes
        size := int32 file.size.toNat
        dataBlk := (session.root slot).firstIndex.toNat } := by
  unfold lsLine
  rw [if_pos (show (session.root slot).filename 0 ≠ 0 from used), stores.size]
  rfl

/-- A file without blocks has `FAT_EOC` as its first index. -/
theorem StoresFile.firstIndex_eq_iff
    {slot : Slot}
    {file : StoredFile}
    {chain : List UInt16}
    (stores : session.StoresFile slot file chain) :
    (session.root slot).firstIndex.toNat = fatEoc.toNat ↔ file.blocks = 0 := by
  rw [UInt16.toNat_inj, ← stores.blocks, List.length_eq_zero_iff]
  constructor
  · intro noBlocks
    exact FatChain.unique stores.isChain (FatChain.nil_iff.mpr noBlocks)
  · rintro rfl
    exact FatChain.nil_iff.mp stores.isChain

end Session

namespace Session.Represents

variable {session : Session} {store : Store}
  (represents : session.Represents store)

include represents

/-- Behind `fs_umount` and `fs_mount` the store is the same, with all files
closed. -/
theorem remounted
    (formatted : session.Formatted)
    (host : Host) :
    (session.remounted host).Represents store.closed where
  wellFormed := represents.wellFormed.of_closed rfl rfl fun _ => rfl
  files := represents.files.of_same rfl fun slot _ =>
    sameFile_remounted formatted host slot
  handles := fun _ => rfl
  handleCount := represents.handleCount
  freeEntries := represents.freeEntries
  freeBlocks := represents.freeBlocks
  firstEntry := represents.firstEntry

/-- Entry 0 of the FAT tells whether the store is guarded. -/
theorem guarded_iff :
    store.guarded = true ↔ fatNext session.fat 0 = some fatEoc := by
  rw [represents.firstEntry]
  cases store.guarded with
  | true => exact iff_of_true rfl rfl
  | false => exact iff_of_false nofun (by simp [fatEoc])

/-- The entries of the FAT that are 0. -/
theorem freeFatEntries_eq :
    freeFatEntries session.fat =
      (if store.guarded then 0 else 1) + store.freeBlocks := by
  rw [MsFat.freeFatEntries_eq session.numDataBlocks_lt, represents.firstEntry,
    represents.freeBlocks]
  cases store.guarded with
  | true => simp [fatEoc]
  | false => simp

/-- `fs_ls` lists the files of the store. -/
theorem lists :
    store.Lists ((List.finRange fsFileMaxCount).filterMap fun slot =>
      lsLine (session.root slot)) where
  distinct := by
    rw [List.map_filterMap]
    refine (List.nodup_finRange _).filterMap ?_
    intro slot other bytes ofSlot ofOther
    have named : ∀ {slot : Slot},
        bytes ∈ (lsLine (session.root slot)).map LsLine.file →
          session.InUse slot ∧
            arrayString (session.root slot).filename = bytes := by
      intro slot isLine
      unfold lsLine at isLine
      split at isLine
      · rename_i used
        exact ⟨used, Option.some.inj isLine⟩
      · exact nomatch isLine
    obtain ⟨used, isBytes⟩ := named ofSlot
    obtain ⟨usedOther, isBytes'⟩ := named ofOther
    exact represents.wellFormed.names.distinct slot other used usedOther
      (isBytes.trans isBytes'.symm)
  listed := by
    intro name file isFile
    obtain ⟨slot, chain, used, rfl, _, stores⟩ := represents.slot_of_file isFile
    have isLine := stores.lsLine_eq used
    refine ⟨_, List.mem_filterMap.mpr ⟨slot, List.mem_finRange slot, isLine⟩,
      rfl, ?_⟩
    dsimp only
  only := by
    intro line isLine
    obtain ⟨slot, _, isSlot⟩ := List.mem_filterMap.mp isLine
    have used : session.InUse slot := by
      unfold lsLine at isSlot
      split at isSlot
      · assumption
      · exact nomatch isSlot
    obtain ⟨file, chain, isFile, stores⟩ := represents.files.present slot used
    rw [stores.lsLine_eq used] at isSlot
    cases isSlot
    refine ⟨session.nameAt slot, file, isFile, rfl, ?_, stores.firstIndex_eq_iff⟩
    dsimp only

end Session.Represents

/-- With nothing mounted, every call on files is refused. -/
theorem Call.answer_of_unmounted
    {state : State}
    (unmounted : state.Unmounted)
    (call : Call)
    (fuel : Nat)
    (host : Host) :
    call.answer fuel host state = .ok (state, call.refusal) := by
  have executes := exec_file_of_unmounted unmounted call fuel host
  cases call with
  | read fd buf count =>
      have takes : (Call.read fd buf count).TakesFd fd := rfl
      apply Call.answer_of_rejected takes
      intro α failed body
      simp [onDescriptor, unmounted.notMounted]
  | _ => simp only [Call.answer, Call.refusal, executes, outcome_ok_bind]

namespace Session.WellFormed

/-- A call that answers has one of the effects of its result. -/
theorem effect_of_answer
    {session after : Session}
    (wellFormed : session.WellFormed)
    {host : Host}
    {call : Call}
    (countFits : call.CountFits)
    {bound : Nat}
    {reply : Reply}
    (computes : Computes (fun fuel => call.answer fuel host session.toState)
      bound (after.toState, reply)) :
    Effect session ⟨host, call, reply.result⟩ after := by
  have executes := Call.exec_of_answer (computes.enough bound (Nat.le_refl _))
  obtain ⟨next, isNext, effect⟩ := @step_effect _ ⟨host, call, reply.result⟩ _
    wellFormed ⟨countFits, bound, executes⟩
  cases toState_injective isNext
  exact effect

end Session.WellFormed

/-- Once the process has ended, the next one finds what the drive says. -/
theorem State.Represents.atExit
    {sb : SuperBlock}
    {diskname : String}
    {state : State}
    {drive : Drive}
    (represents : state.Represents sb diskname drive) :
    (State.initial state.atExit).Represents sb diskname
      (.unmounted drive.atExit) := by
  cases represents with
  | unmounted keeps isSb isDisk represents =>
      have leaves := Session.leaves_of_keeps keeps represents
      have kept := leaves.keeps keeps.formatted
      rw [keeps.atExit_toState] at kept
      exact .unmounted kept isSb isDisk leaves.represents
  | mounted formatted isSb isDisk represents leaves =>
      have noHandles := leaves.represents.closed_eq fun _ => rfl
      refine .unmounted (leaves.keeps formatted) (leaves.sb.trans isSb) isDisk ?_
      unfold Drive.atExit
      rw [noHandles]
      exact leaves.represents
  | broken failed keeps isSb isDisk represents =>
      exact .unmounted keeps isSb isDisk represents

namespace Drive

/-- The functions of the interface. -/
def interface
    (host : Host)
    (call : ApiCall)
    (fuel : Nat)
    (state : State) : Outcome (State × Reply) :=
  call.answer fuel host state

variable {sb : SuperBlock} {diskname : String} {state : State} {host : Host}

/-- The call does what the drive says. -/
def Follows
    (sb : SuperBlock)
    (diskname : String)
    (state : State)
    (host : Host)
    (call : ApiCall)
    (after : Drive)
    (allowed : Reply → Prop) : Prop :=
  ∃ state' reply bound,
    Computes (fun fuel => interface host call fuel state) bound
      (state', reply) ∧
    state'.Represents sb diskname after ∧ allowed reply

/-- A call that is refused. -/
theorem Follows.of_refused
    {call : ApiCall}
    {drive after : Drive}
    {allowed : Reply → Prop}
    {reply : Reply}
    (refuses : ∀ fuel, call.answer fuel host state = .ok (state, reply))
    (refused : reply.Refused)
    (represents : state.Represents sb diskname drive)
    (covered : drive.refused = some (after, allowed)) :
    Follows sb diskname state host call after allowed := by
  cases covered
  exact ⟨state, reply, 0, .const refuses, represents, refused⟩

/-- A call that does nothing but return -1. -/
theorem Follows.of_failed
    {call : ApiCall}
    {drive after : Drive}
    {allowed : Reply → Prop}
    (fails : ∀ fuel, call.answer fuel host state =
      .ok (state, { result := -1 }))
    (represents : state.Represents sb diskname drive)
    (covered : drive.refused = some (after, allowed)) :
    Follows sb diskname state host call after allowed :=
  .of_refused fails ⟨rfl, fun _ => rfl⟩ represents covered

/-- Calls on a drive that is not mounted. -/
theorem follows_unmounted
    {session : Session}
    {store : Store}
    (reliable : host.Reliable)
    (keeps : state.Keeps session)
    (isSb : session.sb = sb)
    (isDisk : session.disk.diskname = diskname)
    (represents : session.Represents store.closed)
    {call : ApiCall}
    {after : Drive}
    {allowed : Reply → Prop}
    (covered : execUnmounted diskname store call = some (after, allowed)) :
    Follows sb diskname state host call after allowed := by
  have unmounted := keeps.unmounted
  have shown : state.Represents sb diskname (.unmounted store) :=
    .unmounted keeps isSb isDisk represents
  cases call with
  | mount name =>
      cases name with
      | none =>
          have fails : fsMount host state none = .ok (state, -1) :=
            fsMount_of_openFails unmounted.notMounted unmounted.noDisk nofun
          refine .of_failed (fun fuel => ?_) shown covered
          simp only [ApiCall.answer, ApiCall.exec, fails, outcome_ok_bind]
      | some name =>
          unfold execUnmounted at covered
          dsimp only at covered
          split at covered
          · rename_i isName
            subst isName isDisk
            split at covered
            · rename_i guarded
              cases covered
              have mounts := keeps.mounts
                (represents.guarded_iff.mp guarded) reliable
              refine ⟨session.toState, { result := 0 }, 0, .const fun fuel => ?_,
                .mounted keeps.formatted isSb rfl represents
                  (Session.leaves_of_keeps keeps represents), rfl⟩
              simp only [interface, ApiCall.answer, ApiCall.exec, mounts,
                outcome_ok_bind]
            · rename_i unguarded
              cases covered
              have fails := keeps.mount_fails
                (fun ends => unguarded (represents.guarded_iff.mpr ends))
                reliable
              have leaves := Session.leaves_of_keeps keeps represents
              have kept := leaves.keeps keeps.formatted
              rw [keeps.atExit_toState, ← keeps.atExit_diskLoaded] at kept
              refine ⟨state.diskLoaded session.disk, { result := -1 }, 0,
                .const fun fuel => ?_,
                .broken rfl kept isSb rfl leaves.represents,
                ⟨rfl, fun _ => rfl⟩⟩
              simp only [interface, ApiCall.answer, ApiCall.exec, fails,
                outcome_ok_bind]
          · cases covered
  | umount =>
      refine .of_failed (fun fuel => ?_) shown covered
      have refuses := @exec_of_unmounted _ unmounted .umount (by simp)
        (by simp) fuel host
      simp only [ApiCall.answer, refuses, outcome_ok_bind]
  | info =>
      refine .of_failed (fun fuel => ?_) shown covered
      simp only [ApiCall.answer, fsInfo, unmounted.notMounted, Bool.not_false,
        if_true, outcome_ok_bind]
  | ls => cases covered
  | file call =>
      refine .of_refused (fun fuel => ?_)
        ⟨call.refusal_result, congrFun call.refusal_stores⟩ shown covered
      exact Call.answer_of_unmounted unmounted call fuel host

/-- Calls on a drive that is mounted. -/
theorem follows_mounted
    {session : Session}
    {store : Store}
    (reliable : host.Reliable)
    (formatted : session.Formatted)
    (isSb : session.sb = sb)
    (isDisk : session.disk.diskname = diskname)
    (represents : session.Represents store)
    {volume : Volume}
    {kept : Store}
    (leaves : session.Leaves volume kept)
    {call : ApiCall}
    {after : Drive}
    {allowed : Reply → Prop}
    (covered : execMounted sb store kept call = some (after, allowed)) :
    Follows sb diskname session.toState host call after allowed := by
  have shown : session.toState.Represents sb diskname (.mounted store kept) :=
    .mounted formatted isSb isDisk represents leaves
  cases call with
  | mount name =>
      refine .of_failed (fun fuel => ?_) shown covered
      simp only [ApiCall.answer, exec_mount_of_mounted, outcome_ok_bind]
  | umount =>
      cases covered
      refine ⟨session.unmounted host, { result := 0 }, 0,
        .const fun fuel => rfl, ?_, rfl⟩
      exact .unmounted
        (session.keeps_unmounted formatted reliable.toIoSucceeds) isSb isDisk
        (represents.remounted formatted host)
  | info =>
      cases covered
      refine ⟨session.toState, _, 0, .const fun fuel => rfl, shown, rfl, ?_⟩
      subst isSb
      refine congrArg some ?_
      unfold Store.info
      rw [represents.freeEntries, ← represents.freeFatEntries_eq,
        formatted.accepted.numBlocks]
      rfl
  | ls =>
      cases covered
      exact ⟨session.toState, _, 0, .const fun fuel => rfl, shown, rfl,
        represents.lists⟩
  | file call =>
      unfold execMounted at covered
      dsimp only at covered
      split at covered
      · rename_i countFits
        have answers := represents.answers_exec reliable.serves countFits
        cases isDone : store.exec call with
        | none =>
            rw [isDone] at covered
            cases covered
        | some done =>
            rw [isDone] at covered answers
            cases covered
            obtain ⟨after, reply, bound, computes, represents', allows⟩ :=
              answers
            have effect := represents.wellFormed.effect_of_answer countFits
              computes
            have front := effect.sameFront
            exact ⟨after.toState, reply, bound, computes,
              .mounted (front.formatted formatted) (front.sb.trans isSb)
                (front.diskname.trans isDisk) represents'
                (leaves.step represents effect formatted), allows⟩
      · cases covered

/-- The interface does what the drive says. -/
theorem interface_meets
    (sb : SuperBlock)
    (diskname : String) :
    Program.Meets interface Host.Reliable (State.Represents sb diskname)
      (Drive.exec sb diskname) := by
  intro host call state drive after allowed reliable represents covered
  cases represents with
  | unmounted keeps isSb isDisk represents =>
      exact follows_unmounted reliable keeps isSb isDisk represents covered
  | mounted formatted isSb isDisk represents leaves =>
      exact follows_mounted reliable formatted isSb isDisk represents leaves
        covered
  | broken failed keeps isSb isDisk represents =>
      cases call with
      | mount name =>
          have fails := fsMount_of_mounted failed host name
          refine Follows.of_failed (fun fuel => ?_)
            (.broken failed keeps isSb isDisk represents) covered
          simp only [ApiCall.answer, ApiCall.exec, fails, outcome_ok_bind]
      | _ => cases covered

/-- The interface does not return from a call that is stuck. -/
theorem interface_stuck
    (sb : SuperBlock)
    (diskname : String)
    (host : Host)
    (call : ApiCall)
    (state : State)
    (drive : Drive)
    (reliable : host.Reliable)
    (represents : state.Represents sb diskname drive)
    (stuck : drive.Stuck call) :
    ¬Terminates fun fuel => interface host call fuel state := by
  cases represents with
  | unmounted keeps isSb isDisk represents => exact stuck.elim
  | broken failed keeps isSb isDisk represents => exact stuck.elim
  | mounted formatted isSb isDisk represents leaves =>
      cases call with
      | file call =>
          obtain ⟨countFits, silent⟩ := stuck
          have answers := represents.answers_exec reliable.serves countFits
          rw [silent] at answers
          exact answers
      | _ => exact stuck.elim

/-- What a program ensures over the drive it ensures over the code. -/
theorem runs_of_ensures
    {drive : Drive}
    (represents : state.Represents sb diskname drive)
    {hosts : Nat → Host}
    (reliable : ∀ number, (hosts number).Reliable)
    {α : Type}
    {program : Program ApiCall Reply α}
    {post : Drive → α → Prop}
    (ensures : program.Ensures (Drive.exec sb diskname) drive post) :
    ∃ after value bound drive',
      Computes (fun fuel => program.run interface fuel hosts state) bound
        (after, value) ∧
      after.Represents sb diskname drive' ∧ post drive' value :=
  (interface_meets sb diskname).run reliable represents ensures

/-- What hangs over the drive does not come to its end over the code. -/
theorem not_terminates_of_hangs
    {drive : Drive}
    (represents : state.Represents sb diskname drive)
    {hosts : Nat → Host}
    (reliable : ∀ number, (hosts number).Reliable)
    {α : Type}
    {program : Program ApiCall Reply α}
    (hangs : program.Hangs (Drive.exec sb diskname) Stuck drive) :
    ¬Terminates fun fuel => program.run interface fuel hosts state :=
  (interface_meets sb diskname).not_terminates (interface_stuck sb diskname)
    reliable represents hangs

end Drive

end MsFat
