import MsFat.Transfer.Defs

/-!
# Where a write stores

Whatever the FAT and the superblock hold, the parts of `fs_write` behind the
allocation store only into the blocks that `find_data_block` finds for the file,
and they change nothing but the disk.
-/

namespace MsFat

open Memory

/-- A part of a transfer and the next one, when both return. -/
theorem andThen_cases
    {α : Type}
    {part : Outcome (α × Progress)}
    {next : α → Nat → Outcome (α × Progress)}
    {memory : α}
    {progress : Progress}
    (returns : andThen part next = .ok (memory, progress)) :
    (∃ result, progress = .stopped result ∧ part = .ok (memory, progress)) ∨
      ∃ middle bytes, part = .ok (middle, .going bytes) ∧
        next middle bytes = .ok (memory, progress) := by
  unfold andThen at returns
  obtain ⟨⟨middle, reached⟩, first, rest⟩ := outcome_bind_eq_ok returns
  cases reached with
  | stopped result =>
      cases rest
      exact .inl ⟨result, rfl, first⟩
  | going bytes => exact .inr ⟨middle, bytes, first, rest⟩

namespace Session

/-- A block of the disk that `find_data_block` finds for the file. -/
def Reaches
    (session : Session)
    (file : Slot)
    (block : Nat) : Prop :=
  ∃ blockNum index, session.findDataBlock file blockNum = .ok index ∧
    index ≠ fatEoc ∧ block = session.dataBlock index

/-- The session `after` differs from `session` only in bytes of the blocks that
`find_data_block` finds for the file. -/
structure Confined
    (session : Session)
    (file : Slot)
    (after : Session) : Prop where
  rest : after = { session with disk := after.disk }
  diskname : after.disk.diskname = session.disk.diskname
  bcount : after.disk.bcount = session.disk.bcount
  bytes : ∀ byte, ¬session.Reaches file (byte / blockSize) →
    after.disk.bytes byte = session.disk.bytes byte

variable {session after : Session} {file : Slot}

theorem Confined.refl
    (session : Session)
    (file : Slot) :
    session.Confined file session where
  rest := rfl
  diskname := rfl
  bcount := rfl
  bytes := fun _ _ => rfl

/-- The blocks that are found do not depend on the disk. -/
theorem Confined.reaches_iff
    (confined : session.Confined file after)
    (block : Nat) :
    after.Reaches file block ↔ session.Reaches file block := by
  rw [confined.rest]
  rfl

theorem Confined.trans
    {last : Session}
    (first : session.Confined file after)
    (second : after.Confined file last) :
    session.Confined file last where
  rest := by
    rw [second.rest, first.rest]
  diskname := second.diskname.trans first.diskname
  bcount := second.bcount.trans first.bcount
  bytes := by
    intro byte apart
    rw [second.bytes byte (by rwa [first.reaches_iff]), first.bytes byte apart]

/-- A write to a block that is found. -/
theorem confined_of_blockWrite
    {host : Host}
    {blockNum : Int}
    {index : UInt16}
    {buf : Buffer}
    {disk : Disk}
    (found : session.findDataBlock file blockNum = .ok index)
    (notEnd : index ≠ fatEoc)
    (written : blockWrite host (some session.disk) (session.dataBlock index)
      buf = some disk) :
    session.Confined file { session with disk := disk } := by
  obtain ⟨diskname, bcount, bytes⟩ :=
    blockWrite_getD host session.disk (session.dataBlock index) buf
  rw [written, Option.getD_some] at diskname bcount bytes
  refine ⟨rfl, diskname, bcount, fun byte apart => bytes byte ?_⟩
  by_contra inBlock
  refine apart ⟨blockNum, index, found, notEnd, ?_⟩
  simp only [blockSize] at *
  omega

theorem writePartialBlock_confined
    {host : Host}
    {buf : Buffer}
    {blockNum : Int}
    {start amount bytesWritten : Nat}
    {progress : Progress}
    (returns : session.writePartialBlock host file buf blockNum start amount
      bytesWritten = .ok (after, progress)) :
    session.Confined file after := by
  unfold writePartialBlock at returns
  obtain ⟨index, found, returns⟩ := outcome_bind_eq_ok returns
  by_cases atEnd : index = fatEoc
  · rw [if_pos atEnd] at returns
    cases returns
    exact .refl _ file
  · rw [if_neg atEnd] at returns
    dsimp only at returns
    cases reads : blockRead host (some session.disk) (session.dataBlock index) with
    | none =>
        rw [reads] at returns
        cases returns
        exact .refl _ file
    | some bounceBuffer =>
        rw [reads] at returns
        dsimp only at returns
        cases written : blockWrite host (some session.disk)
            (session.dataBlock index)
            (memcpy bounceBuffer start buf bytesWritten amount) with
        | none =>
            rw [written] at returns
            cases returns
            exact .refl _ file
        | some disk =>
            rw [written] at returns
            cases returns
            exact confined_of_blockWrite found atEnd written

theorem writeFullBlocks_confined
    {host : Host}
    {buf : Buffer}
    {blocks blockNum bytesWritten : Nat}
    {progress : Progress}
    (returns : writeFullBlocks host file buf blocks blockNum session
      bytesWritten = .ok (after, progress)) :
    session.Confined file after := by
  induction blocks generalizing blockNum session bytesWritten with
  | zero =>
      cases returns
      exact .refl _ file
  | succ blocks inductionHypothesis =>
      rw [writeFullBlocks] at returns
      obtain ⟨index, found, returns⟩ := outcome_bind_eq_ok returns
      by_cases atEnd : index = fatEoc
      · rw [if_pos atEnd] at returns
        cases returns
        exact .refl _ file
      · rw [if_neg atEnd] at returns
        dsimp only at returns
        cases written : blockWrite host (some session.disk)
            (session.dataBlock index)
            (fun position => buf (bytesWritten + position)) with
        | none =>
            rw [written] at returns
            cases returns
            exact .refl _ file
        | some disk =>
            rw [written] at returns
            exact (confined_of_blockWrite found atEnd written).trans
              (inductionHypothesis returns)

theorem writeLastBlock_confined
    {host : Host}
    {buf : Buffer}
    {offset count bytesWritten : Nat}
    {progress : Progress}
    (returns : session.writeLastBlock host file buf offset count bytesWritten =
      .ok (after, progress)) :
    session.Confined file after := by
  unfold writeLastBlock at returns
  dsimp only at returns
  split at returns
  · cases returns
    exact .refl _ file
  · split at returns
    · exact nomatch returns
    · exact writePartialBlock_confined returns

/-! ## The parts of a write -/

/-- The partial first block of a write, if there is one. -/
def writeFirstBlock
    (host : Host)
    (file : Slot)
    (buf : Buffer)
    (offset count : Nat)
    (session : Session) : Outcome (Session × Progress) :=
  if offset % blockSize ≠ 0 then
    session.writePartialBlock host file buf (offset / blockSize : Nat)
      (offset % blockSize) (firstAmount offset count) 0
  else .ok (session, .going 0)

/-- The blocks of a write in front of its partial last block. -/
def writeFrontBlocks
    (host : Host)
    (file : Slot)
    (buf : Buffer)
    (offset count : Nat)
    (session : Session) : Outcome (Session × Progress) :=
  andThen (session.writeFirstBlock host file buf offset count)
    fun session bytesWritten =>
      writeFullBlocks host file buf
        (numFullBlocks offset count bytesWritten).toNat
        (fullBlockStartIndex offset) session bytesWritten

theorem writeBlocks_eq
    (host : Host)
    (file : Slot)
    (buf : Buffer)
    (offset count : Nat)
    (session : Session) :
    session.writeBlocks host file buf offset count =
      andThen (session.writeFrontBlocks host file buf offset count)
        fun session bytesWritten =>
          session.writeLastBlock host file buf offset count bytesWritten := rfl

section Parts

variable {host : Host} {buf : Buffer} {offset count : Nat}
  {progress : Progress}

theorem writeFirstBlock_confined
    (returns : session.writeFirstBlock host file buf offset count =
      .ok (after, progress)) :
    session.Confined file after := by
  unfold writeFirstBlock at returns
  split at returns
  · exact writePartialBlock_confined returns
  · cases returns
    exact .refl _ file

theorem writeFrontBlocks_confined
    (returns : session.writeFrontBlocks host file buf offset count =
      .ok (after, progress)) :
    session.Confined file after := by
  rcases andThen_cases returns with
    ⟨_, _, first⟩ | ⟨middle, bytes, first, rest⟩
  · exact writeFirstBlock_confined first
  · exact (writeFirstBlock_confined first).trans (writeFullBlocks_confined rest)

/-- The three parts of a write. -/
theorem writeBlocks_confined
    (returns : session.writeBlocks host file buf offset count =
      .ok (after, progress)) :
    session.Confined file after := by
  rw [writeBlocks_eq] at returns
  rcases andThen_cases returns with
    ⟨_, _, front⟩ | ⟨middle, bytes, front, rest⟩
  · exact writeFrontBlocks_confined front
  · exact (writeFrontBlocks_confined front).trans (writeLastBlock_confined rest)

end Parts

end Session
end MsFat
