import MsFat.Transfer.Defs
import MsFat.Library.Runs

/-!
# Calls within one mount session

The calls that a client makes between `fs_mount` and `fs_umount`, and one call
as a step of the program.  A call that faults does not return and is no step.
In particular a descriptor argument from 32 to 127 passes the check of the code
but lies outside `open_files`, so no such call is a step.
-/

namespace MsFat

/-- A call with its arguments. -/
inductive Call
  | create (filename : Option CString)
  | delete (filename : Option CString)
  | open (filename : Option CString)
  | close (fd : Int)
  | stat (fd : Int)
  | lseek (fd : Int) (offset : Nat)
  | write (fd : Int) (buf : Option Buffer) (count : Nat)
  | read (fd : Int) (buf : Option Buffer) (count : Nat)

/-- A count that an `int` can hold. -/
def Call.CountFits : Call → Prop
  | .write _ _ count => count ≤ intMax
  | .read _ _ count => count ≤ intMax
  | _ => True

/-- The function behind a call. -/
def Call.exec
    (call : Call)
    (fuel : Nat)
    (host : Host)
    (state : State) : Outcome (State × Int) :=
  match call with
  | .create filename => fsCreate state filename
  | .delete filename => fsDelete fuel state filename
  | .open filename => fsOpen host state filename
  | .close fd => fsClose state fd
  | .stat fd => fsStat state fd
  | .lseek fd offset => fsLseek state fd offset
  | .write fd buf count => fsWrite fuel host state fd buf count
  | .read fd buf count => do
      let (state, _, result) ← fsRead host state fd buf count
      .ok (state, result)

/-- The call takes a descriptor, and this is the argument. -/
def Call.TakesFd (call : Call) (fd : Int) : Prop :=
  match call with
  | .close fd' => fd' = fd
  | .stat fd' => fd' = fd
  | .lseek fd' _ => fd' = fd
  | .write fd' _ _ => fd' = fd
  | .read fd' _ _ => fd' = fd
  | _ => False

/-- A call whose descriptor the checks reject returns -1. -/
theorem exec_of_rejected
    {state : State}
    {fd : Int}
    {call : Call}
    (takes : call.TakesFd fd)
    (rejected : ∀ {α : Type} (failed : α)
      (body : Descriptor → FileDescriptor → Outcome α),
      onDescriptor state fd failed body = .ok failed)
    (fuel : Nat)
    (host : Host) :
    call.exec fuel host state = .ok (state, -1) := by
  cases call with
  | create filename => exact takes.elim
  | delete filename => exact takes.elim
  | «open» filename => exact takes.elim
  | close fd' =>
      cases takes
      have closes : fsClose state fd = .ok (state, -1) := rejected _ _
      exact closes
  | stat fd' =>
      cases takes
      have stats : fsStat state fd = .ok (state, -1) := rejected _ _
      exact stats
  | lseek fd' offset =>
      cases takes
      have seeks : fsLseek state fd offset = .ok (state, -1) := rejected _ _
      exact seeks
  | write fd' buf count =>
      cases takes
      have writes : fsWrite fuel host state fd buf count =
          .ok (state, -1) := rejected _ _
      exact writes
  | read fd' buf count =>
      cases takes
      have reads : fsRead host state fd buf count =
          .ok (state, buf, -1) := rejected _ _
      simp only [Call.exec, reads, outcome_ok_bind]

/-- A call that has returned. -/
structure Event where
  host : Host
  call : Call
  result : Int

/-- The call returns, with this result and in this state. -/
def Step (before : State) (event : Event) (after : State) : Prop :=
  event.call.CountFits ∧
    ∃ fuel, event.call.exec fuel event.host before = .ok (after, event.result)

end MsFat
