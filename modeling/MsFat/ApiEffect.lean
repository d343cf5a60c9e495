import MsFat.Api
import MsFat.CallEffect
import MsFat.Mount.Loaders
import MsFat.Mount.Unmount

/-!
# What one call of the interface does

With nothing mounted, only `fs_mount` does anything.  With a file system mounted,
`fs_umount` takes it away, and the calls on files do what `CallEffect` lists.
-/

namespace MsFat

/-- `UnmountedEffect before event after`: the call of the event, made with
nothing mounted, leaves `after`. -/
inductive UnmountedEffect (before : State) (event : ApiEvent) : State → Prop
  | refused
      (result : event.result = -1) :
      UnmountedEffect before event before
  | notOpened
      {diskname : Option String}
      (call : event.call = .mount diskname)
      (fails : (loadDisk event.host before diskname).1 = none)
      (result : event.result = -1) :
      UnmountedEffect before event
        (before.diskNotLoaded (loadDisk event.host before diskname).2)
  | failed
      {diskname : Option String}
      {disk : Disk}
      (call : event.call = .mount diskname)
      (opens : (loadDisk event.host before diskname).1 = some disk)
      (invalid : ∀ volume, ¬LoadsVolume event.host disk volume)
      (result : event.result = -1) :
      UnmountedEffect before event (before.diskLoaded disk)
  | mounted
      {diskname : Option String}
      {disk : Disk}
      {volume : Volume}
      (call : event.call = .mount diskname)
      (opens : (loadDisk event.host before diskname).1 = some disk)
      (loads : LoadsVolume event.host disk volume)
      (result : event.result = 0) :
      UnmountedEffect before event (before.mounted disk volume).toState

/-- `MountedEffect session event after`: the call of the event, made with this
file system mounted, leaves `after`. -/
inductive MountedEffect (session : Session) (event : ApiEvent) : State → Prop
  | unchanged
      (call : (∃ diskname, event.call = .mount diskname ∧ event.result = -1) ∨
        event.call = .info ∨ event.call = .ls) :
      MountedEffect session event session.toState
  | unmounted
      (call : event.call = .umount)
      (result : event.result = 0) :
      MountedEffect session event (session.unmounted event.host)
  | file
      {fileCall : Call}
      {after : Session}
      (call : event.call = .file fileCall)
      (effect : CallEffect session ⟨event.host, fileCall, event.result⟩ after) :
      MountedEffect session event after.toState

namespace ApiStep

variable {event : ApiEvent} {before after : State} {session : Session}

/-- Everything that a call that returns can do with nothing mounted. -/
theorem unmountedEffect
    (unmounted : before.Unmounted)
    (step : ApiStep before event after) :
    UnmountedEffect before event after := by
  obtain ⟨fuel, returns⟩ := step
  obtain ⟨host, call, result⟩ := event
  change call.exec fuel host before = .ok (after, result) at returns
  have refused : (∀ diskname, call ≠ .mount diskname) → call ≠ .ls →
      UnmountedEffect before ⟨host, call, result⟩ after := by
    intro notMount notLs
    rw [exec_of_unmounted unmounted notMount notLs] at returns
    cases returns
    exact .refused rfl
  cases call with
  | mount diskname =>
      rcases fsMount_cases returns with
        ⟨fails, rfl, rfl⟩ |
          ⟨disk, opens, ⟨rfl, rfl⟩ | ⟨volume, loads, rfl, rfl⟩⟩
      · exact .notOpened rfl fails rfl
      · apply UnmountedEffect.failed rfl opens _ rfl
        intro volume loads
        have mounts := (fsMount_of_loads opens loads).symm.trans returns
        cases mounts
      · exact .mounted rfl opens loads rfl
  | umount => exact refused nofun nofun
  | info => exact refused nofun nofun
  | ls =>
      rw [exec_ls_of_unmounted unmounted] at returns
      cases returns
  | file call => exact refused nofun nofun

/-- Everything that a call that returns can do with a file system mounted. -/
theorem mountedEffect
    (step : ApiStep session.toState event after) :
    MountedEffect session event after := by
  obtain ⟨fuel, returns⟩ := step
  obtain ⟨host, call, result⟩ := event
  change call.exec fuel host session.toState = .ok (after, result) at returns
  cases call with
  | mount diskname =>
      rw [exec_mount_of_mounted] at returns
      cases returns
      exact .unchanged (.inl ⟨diskname, rfl, rfl⟩)
  | umount =>
      cases returns
      exact .unmounted rfl rfl
  | info =>
      cases returns
      exact .unchanged (.inr (.inl rfl))
  | ls =>
      cases returns
      exact .unchanged (.inr (.inr rfl))
  | file call =>
      obtain ⟨next, rfl, effect⟩ := @exec_effect _ ⟨host, call, result⟩ _ _ returns
      exact .file rfl effect

end ApiStep

end MsFat
