import MsFat.ApiEffect
import MsFat.Drive.Exit

/-!
# The files of the host

Whatever a process calls, on whatever disks and however the host fails it: it
makes no file of the host, removes none, changes the length of none, and leaves
every file alone that it has not given to `fs_mount`.
-/

namespace MsFat

/-! ## States behind a failed mount -/

/-- Where the calls of a process can lead to: nothing is mounted, a file system
is mounted, or an `fs_mount` has failed and the structures are missing. -/
inductive Stage (state : State) : Prop
  | unmounted (unmounted : state.Unmounted)
  | mounted (session : Session) (isState : state = session.toState)
  | missing
      (isMounted : state.isDiskMounted = true)
      (noVolume : state.volume = none)

/-- What holds of a refusal and of all that the body returns holds of all that a
call with a descriptor returns. -/
theorem holds_of_onDescriptor
    {α : Type}
    {state : State}
    {fd : Int}
    {failed value : α}
    {body : Descriptor → FileDescriptor → Outcome α}
    (property : α → Prop)
    (refused : property failed)
    (ran : ∀ index descriptor, body index descriptor = .ok value →
      property value)
    (returns : onDescriptor state fd failed body = .ok value) :
    property value := by
  unfold onDescriptor at returns
  split at returns
  · cases returns
    exact refused
  · split at returns
    · cases returns
      exact refused
    · split at returns
      · split at returns
        · cases returns
          exact refused
        · exact ran _ _ returns
      · cases returns

section Missing

variable {state after : State} {fuel : Nat} {host : Host} {result : Int}
  (noVolume : state.volume = none)

include noVolume

theorem session_of_missing : state.session = .error .absent := by
  unfold State.session
  rw [noVolume]
  cases state.disk with
  | none => rfl
  | some disk => rfl

theorem eq_of_onFilename
    {filename : Option CString}
    {body : Session → CString → Outcome (Session × Int)}
    (returns : onFilename state filename body = .ok (after, result)) :
    after = state := by
  unfold onFilename at returns
  simp only [session_of_missing noVolume, outcome_error_bind] at returns
  split at returns
  · cases returns
    rfl
  · split at returns
    · cases returns
      rfl
    · split at returns
      · cases returns
        rfl
      · cases returns

/-- Without the structures of a file system no call on files changes
anything. -/
theorem exec_of_missing
    {call : Call}
    (returns : call.exec fuel host state = .ok (after, result)) :
    after = state := by
  have noSession := session_of_missing noVolume
  cases call with
  | create filename => exact eq_of_onFilename noVolume returns
  | delete filename => exact eq_of_onFilename noVolume returns
  | «open» filename => exact eq_of_onFilename noVolume returns
  | close fd =>
      unfold Call.exec fsClose at returns
      refine holds_of_onDescriptor (fun value => value.1 = state) rfl ?_ returns
      intro _ _ ran
      simp only [noSession, outcome_error_bind] at ran
      cases ran
  | stat fd =>
      unfold Call.exec fsStat at returns
      refine holds_of_onDescriptor (fun value => value.1 = state) rfl ?_ returns
      intro _ _ ran
      simp only [noSession, outcome_error_bind] at ran
      cases ran
  | lseek fd offset =>
      unfold Call.exec fsLseek at returns
      refine holds_of_onDescriptor (fun value => value.1 = state) rfl ?_ returns
      intro _ _ ran
      simp only [noSession, outcome_error_bind] at ran
      cases ran
  | write fd buf count =>
      unfold Call.exec fsWrite at returns
      refine holds_of_onDescriptor (fun value => value.1 = state) rfl ?_ returns
      intro _ _ ran
      simp only [noSession, outcome_error_bind] at ran
      split at ran
      · cases ran
        rfl
      · split at ran
        · cases ran
          rfl
        · cases ran
  | read fd buf count =>
      obtain ⟨value, reads, rest⟩ := outcome_bind_eq_ok returns
      cases rest
      unfold fsRead at reads
      refine holds_of_onDescriptor (fun value => value.1 = state) rfl ?_ reads
      intro _ _ ran
      simp only [noSession, outcome_error_bind] at ran
      split at ran
      · cases ran
        rfl
      · cases ran

/-- Without the structures of a file system no call changes anything. -/
theorem ApiStep.eq_of_missing
    {event : ApiEvent}
    (isMounted : state.isDiskMounted = true)
    (step : ApiStep state event after) :
    after = state := by
  obtain ⟨fuel, returns⟩ := step
  have noSession := session_of_missing noVolume
  obtain ⟨host, call, result⟩ := event
  change call.exec fuel host state = .ok (after, result) at returns
  cases call with
  | mount diskname =>
      have fails := fsMount_of_mounted isMounted host diskname
      cases fails.symm.trans returns
      rfl
  | umount =>
      simp only [ApiCall.exec, fsUmount, isMounted, noSession,
        outcome_error_bind] at returns
      cases returns
  | info =>
      obtain ⟨_, _, rest⟩ := outcome_bind_eq_ok returns
      cases rest
      rfl
  | ls =>
      obtain ⟨_, _, rest⟩ := outcome_bind_eq_ok returns
      cases rest
      rfl
  | file call => exact exec_of_missing noVolume returns

end Missing

/-! ## Names and lengths -/

/-- What a process has kept of the files of the host, if it has mounted no other
ones than those of these names. -/
structure KeepsHostFiles
    (files : String → Option Image)
    (opened : String → Prop)
    (state : State) : Prop where
  sizes : ∀ name,
    (state.files name).map Image.size = (files name).map Image.size
  others : ∀ name, ¬opened name → state.files name = files name
  disk : ∀ disk, state.disk = some disk → opened disk.diskname ∧
    (files disk.diskname).map Image.size = some disk.size

namespace KeepsHostFiles

variable {files : String → Option Image} {opened : String → Prop}
  {state after : State}

/-- The same files, and the same disk open with perhaps other bytes. -/
theorem of_same
    (keeps : KeepsHostFiles files opened state)
    (sameFiles : after.files = state.files)
    (sameDisk : ∀ disk, after.disk = some disk → ∃ before,
      state.disk = some before ∧ disk.diskname = before.diskname ∧
        disk.size = before.size) :
    KeepsHostFiles files opened after where
  sizes := by
    rw [sameFiles]
    exact keeps.sizes
  others := by
    rw [sameFiles]
    exact keeps.others
  disk := by
    intro disk isDisk
    obtain ⟨before, isBefore, diskname, size⟩ := sameDisk disk isDisk
    rw [diskname, size]
    exact keeps.disk before isBefore

/-- The disk is closed, or the process ends with it open. -/
theorem of_closed
    {disk : Disk}
    (keeps : KeepsHostFiles files opened state)
    (isOpen : opened disk.diskname)
    (size : (files disk.diskname).map Image.size = some disk.size)
    (name : String) :
    (blockDiskClose state.files disk name).map Image.size =
        (files name).map Image.size ∧
      (¬opened name → blockDiskClose state.files disk name = files name) := by
  unfold blockDiskClose
  by_cases same : name = disk.diskname
  · subst same
    rw [Function.update_self, size]
    exact ⟨rfl, fun other => absurd isOpen other⟩
  · rw [Function.update_of_ne same]
    exact ⟨keeps.sizes name, keeps.others name⟩

/-- A disk is opened. -/
theorem opens
    (keeps : KeepsHostFiles files opened state)
    {host : Host}
    {diskname : Option String}
    {disk : Disk}
    (allowed : ∀ name, diskname = some name → opened name)
    (opens : (loadDisk host state diskname).1 = some disk) :
    opened disk.diskname ∧
      (files disk.diskname).map Image.size = some disk.size := by
  unfold loadDisk at opens
  split at opens
  · cases opens
  · obtain ⟨_, _, _, name, image, isName, found, multiple, rfl⟩ :=
      blockDiskOpen_eq_some.mp opens
    refine ⟨allowed name isName, ?_⟩
    change (files name).map Image.size = some (image.size / blockSize * blockSize)
    rw [← keeps.sizes, found, Option.map_some,
      Nat.div_mul_cancel (Nat.dvd_of_mod_eq_zero multiple)]

end KeepsHostFiles

/-- Disks with as many blocks have files of the same length. -/
theorem Disk.size_of_bcount
    {left right : Disk}
    (bcount : left.bcount = right.bcount) :
    left.size = right.size := by
  rw [left.whole, right.whole, bcount]

/-- A call on files keeps the name and the length of the disk. -/
theorem CallEffect.hostFile
    {session after : Session}
    {event : Event}
    (effect : CallEffect session event after) :
    after.files = session.files ∧
      after.disk.diskname = session.disk.diskname ∧
      after.disk.size = session.disk.size := by
  cases effect with
  | @wrote _ descriptor _ _ _ _ _ _ moved _ _ _ _ _ confined ends =>
      have files := congrArg Session.files confined.rest
      rcases ends with rfl | ⟨bytes, rfl⟩
      · exact ⟨files, confined.diskname, Disk.size_of_bcount confined.bcount⟩
      · exact ⟨files, confined.diskname, Disk.size_of_bcount confined.bcount⟩
  | _ => exact ⟨rfl, rfl, rfl⟩

/-- The call mounts none but these files of the host. -/
def MountsOnly (opened : String → Prop) (_ : State) (event : ApiEvent) : Prop :=
  ∀ name, event.call = .mount (some name) → opened name

section Runs

variable {files : String → Option Image} {opened : String → Prop}
  {before after : State}

/-- The states of a process that have kept the files of the host. -/
structure HostKept
    (files : String → Option Image)
    (opened : String → Prop)
    (state : State) : Prop extends KeepsHostFiles files opened state where
  stage : Stage state

/-- Every call keeps the files of the host. -/
theorem HostKept.step
    {event : ApiEvent}
    (kept : HostKept files opened before)
    (step : ApiStep before event after)
    (mounts : MountsOnly opened before event) :
    HostKept files opened after := by
  have keeps := kept.toKeepsHostFiles
  cases kept.stage with
  | missing isMounted noVolume =>
      rw [ApiStep.eq_of_missing noVolume isMounted step]
      exact kept
  | unmounted unmounted =>
      have allowed : ∀ {diskname}, event.call = .mount diskname →
          ∀ name, diskname = some name → opened name := by
        rintro diskname call name rfl
        exact mounts name call
      cases step.unmountedEffect unmounted with
      | refused _ => exact kept
      | notOpened _ _ _ =>
          exact ⟨⟨keeps.sizes, keeps.others, keeps.disk⟩,
            .unmounted (unmounted.diskNotLoaded _)⟩
      | failed call opens _ _ =>
          refine ⟨⟨keeps.sizes, keeps.others, ?_⟩, .missing rfl rfl⟩
          rintro _ ⟨⟩
          exact keeps.opens (allowed call) opens
      | mounted call opens _ _ =>
          refine ⟨⟨keeps.sizes, keeps.others, ?_⟩, .mounted _ rfl⟩
          rintro _ ⟨⟩
          exact keeps.opens (allowed call) opens
  | mounted session isState =>
      subst isState
      obtain ⟨isOpened, size⟩ := keeps.disk session.disk rfl
      cases step.mountedEffect with
      | unchanged _ => exact kept
      | unmounted _ _ =>
          have closed := keeps.of_closed
            (show opened (session.save event.host).diskname by
              rw [Session.save_diskname]
              exact isOpened)
            (by rw [Session.save_diskname, size,
              Disk.size_of_bcount (Session.save_bcount _ _)])
          exact ⟨⟨fun name => (closed name).1, fun name => (closed name).2,
            nofun⟩, .unmounted ⟨rfl, rfl, rfl⟩⟩
      | @file _ next call effect =>
          obtain ⟨sameFiles, diskname, size⟩ := effect.hostFile
          refine ⟨keeps.of_same sameFiles ?_, .mounted next rfl⟩
          rintro _ ⟨⟩
          exact ⟨session.disk, rfl, diskname, size⟩

/-- Behind every run of calls from program start, and once the process has
ended, the host has the same files, each with the same length, and those that
were not mounted are unchanged. -/
theorem hostFiles_of_run
    {events : List ApiEvent}
    (run : Run (Guarded ApiStep (MountsOnly opened)) (State.initial files) events
      after)
    (name : String) :
    ((after.files name).map Image.size = (files name).map Image.size ∧
        (after.atExit name).map Image.size = (files name).map Image.size) ∧
      (¬opened name →
        after.files name = files name ∧ after.atExit name = files name) := by
  have kept : HostKept files opened after :=
    run.invariant (HostKept files opened)
      (fun _ _ _ holds step => holds.step step.1 step.2)
      ⟨⟨fun _ => rfl, fun _ _ => rfl, nofun⟩,
        .unmounted (State.initial_unmounted files)⟩
  have keeps := kept.toKeepsHostFiles
  unfold State.atExit
  cases isDisk : after.disk with
  | none =>
      exact ⟨⟨keeps.sizes name, keeps.sizes name⟩, fun other =>
        ⟨keeps.others name other, keeps.others name other⟩⟩
  | some disk =>
      obtain ⟨isOpened, size⟩ := keeps.disk disk isDisk
      obtain ⟨sameSize, same⟩ := keeps.of_closed isOpened size name
      exact ⟨⟨keeps.sizes name, sameSize⟩, fun other =>
        ⟨keeps.others name other, same other⟩⟩

end Runs

/-- A disk is mounted, and the process ends. -/
theorem hostFiles_of_run_mounted :
    ∃ mounted : Session,
      ((mounted.toState.files "test_file").map Image.size =
          some (freshImage 100 50 1).size ∧
        (mounted.toState.atExit "test_file").map Image.size =
          some (freshImage 100 50 1).size) ∧
      ("test_file" ≠ "disk.fs" →
        mounted.toState.files "test_file" = some (freshImage 100 50 1) ∧
        mounted.toState.atExit "test_file" = some (freshImage 100 50 1)) := by
  obtain ⟨mounted, mounts, _, _⟩ :=
    Session.freshImage_mounts (show 1 ≤ (50 : UInt16).toNat by decide) (by decide)
      (show (50 : UInt16).toNat < (100 : UInt16).toNat by decide)
  have step : ApiStep (State.initial fun _ => some (freshImage 100 50 1))
      ⟨.reliable, .mount (some "disk.fs"), 0⟩ mounted.toState := ⟨0, mounts⟩
  refine ⟨mounted, @hostFiles_of_run _ (fun name => name = "disk.fs") _ _
    (.cons ⟨step, ?_⟩ .nil) "test_file"⟩
  rintro name ⟨⟩
  rfl

end MsFat
