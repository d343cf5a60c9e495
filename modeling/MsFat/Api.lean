import MsFat.Calls
import MsFat.Info
import MsFat.Mount.Defs

/-!
# Calls from program start on

The whole interface: `fs_mount`, `fs_umount`, `fs_info` and `fs_ls` in addition
to the calls on files.
-/

namespace MsFat

/-- A call of the interface with its arguments. -/
inductive ApiCall
  | mount (diskname : Option String)
  | umount
  | info
  | ls
  | file (call : Call)

/-- The function behind a call of the interface. -/
def ApiCall.exec
    (call : ApiCall)
    (fuel : Nat)
    (host : Host)
    (state : State) : Outcome (State × Int) :=
  match call with
  | .mount diskname => fsMount host state diskname
  | .umount => fsUmount host state
  | .info => do
      let (_, result) ← fsInfo state
      .ok (state, result)
  | .ls => do
      let (_, result) ← fsLs state
      .ok (state, result)
  | .file call => call.exec fuel host state

/-- A call of the interface that has returned. -/
structure ApiEvent where
  host : Host
  call : ApiCall
  result : Int

/-- The call returns, with this result and in this state. -/
def ApiStep (before : State) (event : ApiEvent) (after : State) : Prop :=
  ∃ fuel, event.call.exec fuel event.host before = .ok (after, event.result)

/-- No file system is mounted, and no disk is open. -/
structure State.Unmounted (state : State) : Prop where
  notMounted : state.isDiskMounted = false
  noDisk : state.disk = none
  noVolume : state.volume = none

theorem State.initial_unmounted (files : String → Option Image) :
    (State.initial files).Unmounted :=
  ⟨rfl, rfl, rfl⟩

/-- A `load_disk` that fails mounts nothing. -/
theorem State.Unmounted.diskNotLoaded
    {state : State}
    (unmounted : state.Unmounted)
    (leakedFds : Nat) :
    (state.diskNotLoaded leakedFds).Unmounted :=
  ⟨unmounted.notMounted, unmounted.noDisk, unmounted.noVolume⟩

section Unmounted

variable {state : State} (unmounted : state.Unmounted)

include unmounted

/-- With nothing mounted, every call on files is refused. -/
theorem exec_file_of_unmounted
    (call : Call)
    (fuel : Nat)
    (host : Host) :
    call.exec fuel host state = .ok (state, -1) := by
  have notMounted := unmounted.notMounted
  have onName : ∀ filename body,
      onFilename state filename body = .ok (state, -1) := by
    intro filename body
    simp [onFilename, notMounted]
  have onFd : ∀ {α : Type} (fd : Int) (failed : α)
      (body : Descriptor → FileDescriptor → Outcome α),
      onDescriptor state fd failed body = .ok failed := by
    intro α fd failed body
    simp [onDescriptor, notMounted]
  have onTable : ∀ fd, call.TakesFd fd →
      call.exec fuel host state = .ok (state, -1) :=
    fun fd takes => exec_of_rejected takes (onFd fd) fuel host
  cases call with
  | create filename => exact onName _ _
  | delete filename => exact onName _ _
  | «open» filename => exact onName _ _
  | close fd => exact onTable fd rfl
  | stat fd => exact onTable fd rfl
  | lseek fd offset => exact onTable fd rfl
  | write fd buf count => exact onTable fd rfl
  | read fd buf count => exact onTable fd rfl

/-- With nothing mounted, every other call is refused as well, apart from
`fs_mount` and `fs_ls`. -/
theorem exec_of_unmounted
    {call : ApiCall}
    (notMount : ∀ diskname, call ≠ .mount diskname)
    (notLs : call ≠ .ls)
    (fuel : Nat)
    (host : Host) :
    call.exec fuel host state = .ok (state, -1) := by
  have notMounted := unmounted.notMounted
  cases call with
  | mount diskname => exact absurd rfl (notMount diskname)
  | umount => simp [ApiCall.exec, fsUmount, notMounted]
  | info => simp [ApiCall.exec, fsInfo, notMounted]
  | ls => exact absurd rfl notLs
  | file call => exact exec_file_of_unmounted unmounted call fuel host

/-- With nothing mounted, `fs_ls` follows the pointers of a root directory that
is not there. -/
theorem exec_ls_of_unmounted
    (fuel : Nat)
    (host : Host) :
    ApiCall.ls.exec fuel host state = .error .absent := by
  have noSession : state.session = .error .absent := by
    simp [State.session, unmounted.noDisk]
  simp [ApiCall.exec, fsLs, noSession]

end Unmounted

/-- With a file system mounted, `fs_mount` is refused. -/
theorem exec_mount_of_mounted
    (session : Session)
    (diskname : Option String)
    (fuel : Nat)
    (host : Host) :
    (ApiCall.mount diskname).exec fuel host session.toState =
      .ok (session.toState, -1) := rfl

end MsFat
