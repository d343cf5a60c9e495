import MsFat.ApiEffect
import MsFat.Faults
import MsFat.Mount.FailedMount
import MsFat.Mount.Remount

/-!
# Life of a mount

A state is unmounted or mounted, and every call leads from one of these to one
of these, apart from an `fs_mount` that fails once its disk is open: it leaves
`is_disk_mounted` set with no volume behind it.
-/

namespace MsFat

/-- The state is unmounted, or all structures of a mounted file system are
there. -/
inductive Lifecycle (state : State) : Prop
  | unmounted (unmounted : state.Unmounted)
  | mounted (session : Session) (isState : state = session.toState)

/-- The call is no `fs_ls` with nothing mounted, and no `fs_mount` of a disk that
can be opened but holds no valid file system. -/
structure Orderly
    (state : State)
    (host : Host)
    (call : ApiCall) : Prop where
  ls : call = .ls → state.volume ≠ none
  mount : ∀ diskname disk, call = .mount diskname →
    (loadDisk host state diskname).1 = some disk →
      ∃ volume, LoadsVolume host disk volume

/-- Orderly calls lead from unmounted and mounted states to such states. -/
theorem Lifecycle.step
    {before after : State}
    {event : ApiEvent}
    (lifecycle : Lifecycle before)
    (step : ApiStep before event after)
    (orderly : Orderly before event.host event.call) :
    Lifecycle after := by
  cases lifecycle with
  | unmounted unmounted =>
      cases step.unmountedEffect unmounted with
      | refused _ => exact .unmounted unmounted
      | notOpened _ _ _ => exact .unmounted (unmounted.diskNotLoaded _)
      | failed call opens invalid _ =>
          obtain ⟨volume, loads⟩ := orderly.mount _ _ call opens
          exact absurd loads (invalid volume)
      | mounted _ _ _ _ => exact .mounted _ rfl
  | mounted session isState =>
      subst isState
      cases step.mountedEffect with
      | unchanged _ => exact .mounted session rfl
      | unmounted _ _ => exact .unmounted ⟨rfl, rfl, rfl⟩
      | @file _ next _ _ => exact .mounted next rfl

/-- The call uses only structures of the mounted file system: it follows no
pointer to a structure that is not there; with nothing mounted it is refused,
unless it is an `fs_mount`; and a successful `fs_mount` leaves no descriptor of
an earlier file system behind. -/
structure CallSafe
    (state : State)
    (host : Host)
    (call : ApiCall) : Prop where
  present : ∀ fuel, call.exec fuel host state ≠ .error .absent
  refused : state.volume = none → (∀ diskname, call ≠ .mount diskname) →
    ∀ fuel, call.exec fuel host state = .ok (state, -1)
  fresh : ∀ diskname fuel after, call = .mount diskname →
    call.exec fuel host state = .ok (after, 0) →
      ∀ index, after.openFiles index = none

/-- In unmounted and mounted states orderly calls are safe. -/
theorem Lifecycle.callSafe
    {state : State}
    {host : Host}
    {call : ApiCall}
    (lifecycle : Lifecycle state)
    (orderly : Orderly state host call) :
    CallSafe state host call := by
  refine ⟨?_, ?_, ?_⟩
  · intro fuel absent
    cases lifecycle with
    | unmounted unmounted =>
        by_cases isMount : ∃ diskname, call = .mount diskname
        · obtain ⟨diskname, rfl⟩ := isMount
          exact fsMount_faultsOnly host state diskname _ absent rfl
        · rw [exec_of_unmounted unmounted
            (fun diskname same => isMount ⟨diskname, same⟩)
            (fun isLs => orderly.ls isLs unmounted.noVolume)] at absent
          exact nomatch absent
    | mounted session isState =>
        subst isState
        exact exec_faultsOnly call fuel host session _ absent rfl
  · intro noVolume notMount fuel
    cases lifecycle with
    | unmounted unmounted =>
        refine exec_of_unmounted unmounted notMount ?_ fuel host
        intro isLs
        exact orderly.ls isLs noVolume
    | mounted session isState =>
        subst isState
        exact nomatch noVolume
  · rintro diskname fuel after rfl mounts
    rcases fsMount_cases mounts with
      ⟨_, _, failed⟩ | ⟨disk, _, ⟨_, failed⟩ | ⟨volume, _, rfl, _⟩⟩
    · exact absurd failed (by decide)
    · exact absurd failed (by decide)
    · exact fun _ => rfl

/-- From program start on, behind every run of orderly calls, every orderly call
is safe. -/
theorem callSafe_of_orderly
    {files : String → Option Image}
    {events : List ApiEvent}
    {state : State}
    (run : Run
      (Guarded ApiStep fun state event => Orderly state event.host event.call)
      (State.initial files) events state)
    {host : Host}
    {call : ApiCall}
    (orderly : Orderly state host call) :
    CallSafe state host call := by
  have lifecycle : Lifecycle state :=
    run.invariant Lifecycle (fun _ _ _ holds step => holds.step step.1 step.2)
      (.unmounted (State.initial_unmounted files))
  exact lifecycle.callSafe orderly

/-- A disk of four blocks is mounted and unmounted, a call behind that is refused,
and the disk is mounted again. -/
theorem callSafe_of_orderly_fourBlocks :
    ∃ state : State,
      Run ApiStep (State.initial fun _ => some (freshImage 4 1 1))
        [⟨.reliable, .mount (some "disk.fs"), 0⟩, ⟨.reliable, .umount, 0⟩,
          ⟨.reliable, .file (.create (some nameA)), -1⟩] state ∧
      CallSafe state .reliable (.mount (some "disk.fs")) := by
  obtain ⟨mounted, fourBlocks⟩ := Session.exists_fourBlocks
  obtain ⟨opens, loads, closed⟩ := fsMount_eq_zero fourBlocks.mounts
  have unchanged : mounted.Changed mounted :=
    { sb := rfl
      firstEntry := fourBlocks.firstEntry
      padding := fun _ => rfl
      diskname := rfl
      bcount := rfl
      bytes := fun _ _ => rfl
      closed := closed }
  have remounts := fourBlocks.remounts unchanged
  obtain ⟨reopens, reloads, _⟩ := fsMount_eq_zero remounts
  have mounts : ApiStep (State.initial fun _ => some (freshImage 4 1 1))
      ⟨.reliable, .mount (some "disk.fs"), 0⟩ mounted.toState :=
    ⟨0, fourBlocks.mounts⟩
  have unmounts : ApiStep mounted.toState ⟨.reliable, .umount, 0⟩
      (mounted.unmounted .reliable) := ⟨0, rfl⟩
  have refuses : ApiStep (mounted.unmounted .reliable)
      ⟨.reliable, .file (.create (some nameA)), -1⟩
      (mounted.unmounted .reliable) := ⟨0, rfl⟩
  refine ⟨mounted.unmounted .reliable,
    .cons mounts (.cons unmounts (.cons refuses .nil)),
    callSafe_of_orderly (.cons ⟨mounts, by simp, ?_⟩
      (.cons ⟨unmounts, by simp, by simp⟩
        (.cons ⟨refuses, by simp, by simp⟩ .nil))) ⟨by simp, ?_⟩⟩
  · rintro _ disk ⟨⟩ opensDisk
    cases opens.symm.trans opensDisk
    exact ⟨_, loads⟩
  · rintro _ disk ⟨⟩ opensDisk
    cases reopens.symm.trans opensDisk
    exact ⟨_, reloads⟩

/-- Before the first mount, `fs_ls` follows the pointers of a root directory that
is not there.  So does `fs_create` behind the failed mount of an empty file. -/
theorem not_callSafe_emptyFile :
    ApiCall.ls.exec 0 .reliable (State.initial emptyFile) = .error .absent ∧
      ¬CallSafe (State.initial emptyFile) .reliable .ls ∧
      ∃ state,
        Run ApiStep (State.initial emptyFile)
          [⟨.reliable, .mount (some "empty.txt"), -1⟩] state ∧
        state.volume = none ∧
        (ApiCall.file (.create (some nameA))).exec 0 .reliable state =
          .error .absent ∧
        ¬CallSafe state .reliable (.file (.create (some nameA))) := by
  have lists := exec_ls_of_unmounted (State.initial_unmounted emptyFile) 0
    .reliable
  refine ⟨lists, fun safe => safe.present 0 lists, ?_⟩
  have creates : (ApiCall.file (.create (some nameA))).exec 0 .reliable
      ((State.initial emptyFile).diskLoaded
        { diskname := "empty.txt", bcount := 0, bytes := fun _ => 0 }) =
        .error .absent := rfl
  exact ⟨_, .cons ⟨0, rfl⟩ .nil, rfl, creates,
    fun safe => safe.present 0 creates⟩

end MsFat
