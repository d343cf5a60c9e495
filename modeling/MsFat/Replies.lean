import MsFat.Api

/-!
# What a call tells its caller

A caller sees the result of a call, its own buffer behind an `fs_read`, and what
`fs_info` and `fs_ls` print.  It also has to know how far an `fs_read` has gone
in the buffer, which may be shorter.
-/

namespace MsFat

/-- What a caller sees of a call that has returned. -/
structure Reply where
  result : Int
  /-- The caller's buffer behind an `fs_read`. -/
  buffer : Option Buffer := none
  /-- The indices of the buffer that an `fs_read` has stored a byte to. -/
  stores : Nat → Bool := fun _ => false
  /-- The numbers that `fs_info` has printed. -/
  info : Option FsInfo := none
  /-- The lines that `fs_ls` has printed. -/
  lines : List LsLine := []

/-- `fs_read` stores a byte at this index of the buffer.  The bytes that it stores
are those of the disk: whatever the buffer holds at the index before the call, it
holds the same behind it. -/
def fsReadStores
    (host : Host)
    (state : State)
    (fd : Int)
    (count position : Nat) : Bool :=
  match fsRead host state fd (some fun _ => 0) count,
      fsRead host state fd (some fun _ => 1) count with
  | .ok (_, some zeros, _), .ok (_, some ones, _) =>
      zeros position == ones position
  | _, _ => false

/-- The function behind a call, with all that its caller sees. -/
def Call.answer
    (call : Call)
    (fuel : Nat)
    (host : Host)
    (state : State) : Outcome (State × Reply) :=
  match call with
  | .read fd buf count => do
      let (after, buffer, result) ← fsRead host state fd buf count
      .ok (after,
        { result := result
          buffer := buffer
          stores := fun position =>
            buf.isSome && fsReadStores host state fd count position })
  | call => do
      let (state, result) ← call.exec fuel host state
      .ok (state, { result := result })

/-- The function behind a call of the interface, with all that its caller
sees. -/
def ApiCall.answer
    (call : ApiCall)
    (fuel : Nat)
    (host : Host)
    (state : State) : Outcome (State × Reply) :=
  match call with
  | .info => do
      let (printed, result) ← fsInfo state
      .ok (state, { result := result, info := printed })
  | .ls => do
      let (printed, result) ← fsLs state
      .ok (state, { result := result, lines := printed })
  | .file call => call.answer fuel host state
  | call => do
      let (state, result) ← call.exec fuel host state
      .ok (state, { result := result })

section

variable {fuel : Nat} {host : Host} {before after : State} {reply : Reply}

/-- A call that answers executes with the result of its reply. -/
theorem Call.exec_of_answer
    {call : Call}
    (answers : call.answer fuel host before = .ok (after, reply)) :
    call.exec fuel host before = .ok (after, reply.result) := by
  cases call with
  | read fd buf count =>
      obtain ⟨⟨_, _, _⟩, reads, rest⟩ := outcome_bind_eq_ok answers
      cases rest
      simp only [Call.exec, reads, outcome_ok_bind]
  | _ =>
      obtain ⟨⟨_, _⟩, executes, rest⟩ := outcome_bind_eq_ok answers
      cases rest
      exact executes

/-- A call of the interface that answers executes with the result of its
reply. -/
theorem ApiCall.exec_of_answer
    {call : ApiCall}
    (answers : call.answer fuel host before = .ok (after, reply)) :
    call.exec fuel host before = .ok (after, reply.result) := by
  cases call with
  | file call => exact Call.exec_of_answer answers
  | info =>
      obtain ⟨⟨_, _⟩, prints, rest⟩ := outcome_bind_eq_ok answers
      cases rest
      simp only [ApiCall.exec, prints, outcome_ok_bind]
  | ls =>
      obtain ⟨⟨_, _⟩, prints, rest⟩ := outcome_bind_eq_ok answers
      cases rest
      simp only [ApiCall.exec, prints, outcome_ok_bind]
  | _ =>
      obtain ⟨⟨_, _⟩, executes, rest⟩ := outcome_bind_eq_ok answers
      cases rest
      exact executes

end

end MsFat
