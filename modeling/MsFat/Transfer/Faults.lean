import MsFat.Library.Faults
import MsFat.Transfer.Confined
import MsFat.Transfer.Cut

/-!
# Faults of a transfer

Reads and writes fault only where `find_data_block` does, apart from writes whose
count an `int` cannot hold, which may overflow the bounce buffer.
-/

namespace MsFat

open Memory

/-- A part of a transfer and the next one. -/
theorem andThen_faultsOnly
    {allowed : Fault → Prop}
    {α : Type}
    {part : Outcome (α × Progress)}
    {next : α → Nat → Outcome (α × Progress)}
    (first : FaultsOnly allowed part)
    (rest : ∀ memory bytes, part = .ok (memory, .going bytes) →
      FaultsOnly allowed (next memory bytes)) :
    FaultsOnly allowed (andThen part next) := by
  apply first.bind
  rintro ⟨memory, progress⟩ returns
  cases progress with
  | stopped result => exact .ok _
  | going bytes => exact rest memory bytes returns

namespace Session

variable {allowed : Fault → Prop} {session : Session} {file : Slot}
  {host : Host}

/-! ## Reading -/

theorem readPartialBlock_faultsOnly
    {blockNum : Int}
    {start amount bytesRead : Nat}
    {buf : Buffer}
    (finds : FaultsOnly allowed (session.findDataBlock file blockNum)) :
    FaultsOnly allowed
      (session.readPartialBlock host file blockNum start amount buf
        bytesRead) := by
  refine finds.bind fun index _ => .ite (fun _ => .ok _) fun _ => ?_
  split
  · exact .ok _
  · exact .ok _

theorem readFullBlocks_faultsOnly
    (finds : ∀ blockNum : Int,
      FaultsOnly allowed (session.findDataBlock file blockNum))
    (blocks blockNum : Nat)
    (buf : Buffer)
    (bytesRead : Nat) :
    FaultsOnly allowed
      (readFullBlocks host session file blocks blockNum buf bytesRead) := by
  induction blocks generalizing blockNum buf bytesRead with
  | zero => exact .ok _
  | succ blocks inductionHypothesis =>
      rw [readFullBlocks]
      refine (finds blockNum).bind fun index _ =>
        .ite (fun _ => .ok _) fun _ => ?_
      split
      · exact .ok _
      · exact inductionHypothesis _ _ _

/-- A read faults only where `find_data_block` does. -/
theorem read_faultsOnly
    (finds : ∀ blockNum : Int,
      FaultsOnly allowed (session.findDataBlock file blockNum))
    {index : Descriptor}
    {descriptor : FileDescriptor}
    (fileEq : descriptor.file = file)
    (buf : Buffer)
    (count : Nat) :
    FaultsOnly allowed (session.read host index descriptor buf count) := by
  subst fileEq
  have blocks : FaultsOnly allowed (session.readBlocks host descriptor.file
      descriptor.offset.toNat count buf) := by
    unfold readBlocks
    refine andThen_faultsOnly (andThen_faultsOnly ?_ ?_) ?_
    · exact .ite (fun _ => readPartialBlock_faultsOnly (finds _))
        fun _ => .ok _
    · intro memory bytes _
      exact readFullBlocks_faultsOnly finds _ _ _ _
    · intro memory bytes _
      exact .ite (fun _ => .ok _) fun _ => .ite (fun _ => .ok _) fun _ =>
        readPartialBlock_faultsOnly (finds _)
  apply blocks.bind
  rintro ⟨memory, progress⟩ _
  cases progress with
  | stopped result => exact .ok _
  | going bytes => exact .ok _

/-! ## Writing -/

theorem writePartialBlock_faultsOnly
    {blockNum : Int}
    {start amount bytesWritten : Nat}
    {buf : Buffer}
    (finds : FaultsOnly allowed (session.findDataBlock file blockNum)) :
    FaultsOnly allowed
      (session.writePartialBlock host file buf blockNum start amount
        bytesWritten) := by
  refine finds.bind fun index _ => .ite (fun _ => .ok _) fun _ => ?_
  dsimp only
  split
  · exact .ok _
  · split
    · exact .ok _
    · exact .ok _

theorem writeFullBlocks_faultsOnly
    (finds : ∀ blockNum : Int,
      FaultsOnly allowed (session.findDataBlock file blockNum))
    (buf : Buffer)
    (blocks blockNum bytesWritten : Nat) :
    FaultsOnly allowed
      (writeFullBlocks host file buf blocks blockNum session bytesWritten) := by
  induction blocks generalizing session blockNum bytesWritten with
  | zero => exact .ok _
  | succ blocks inductionHypothesis =>
      rw [writeFullBlocks]
      refine (finds blockNum).bind fun index _ =>
        .ite (fun _ => .ok _) fun _ => ?_
      dsimp only
      split
      · exact .ok _
      · refine inductionHypothesis ?_ _ _
        exact finds

/-- How far a partial block that does not end the call has come. -/
theorem writePartialBlock_going
    {blockNum : Int}
    {start amount bytesWritten bytes : Nat}
    {buf : Buffer}
    {after : Session}
    (returns : session.writePartialBlock host file buf blockNum start amount
      bytesWritten = .ok (after, .going bytes)) :
    bytes = bytesWritten + amount := by
  unfold writePartialBlock at returns
  obtain ⟨index, _, returns⟩ := outcome_bind_eq_ok returns
  split at returns
  · cases returns
  · dsimp only at returns
    split at returns
    · cases returns
    · split at returns
      · cases returns
      · cases returns
        rfl

/-- How far whole blocks that do not end the call have come. -/
theorem writeFullBlocks_going
    {buf : Buffer}
    {blocks blockNum bytesWritten bytes : Nat}
    {after : Session}
    (returns : writeFullBlocks host file buf blocks blockNum session
      bytesWritten = .ok (after, .going bytes)) :
    bytes = bytesWritten + blockSize * blocks := by
  induction blocks generalizing session blockNum bytesWritten with
  | zero =>
      cases returns
      rfl
  | succ blocks inductionHypothesis =>
      rw [writeFullBlocks] at returns
      obtain ⟨index, _, returns⟩ := outcome_bind_eq_ok returns
      split at returns
      · cases returns
      · dsimp only at returns
        split at returns
        · cases returns
        · rw [inductionHypothesis returns, Nat.mul_succ]
          omega

/-- The last block does not overflow its buffer when the parts in front of it
have come as far as they should. -/
theorem writeLastBlock_faultsOnly
    (finds : ∀ blockNum : Int,
      FaultsOnly allowed (session.findDataBlock file blockNum))
    {offset count bytesWritten : Nat}
    {buf : Buffer}
    (fits : allowed .outOfBounds ∨
      (count ≤ intMax ∧ bytesWritten = wholeBytes offset count)) :
    FaultsOnly allowed
      (session.writeLastBlock host file buf offset count bytesWritten) := by
  unfold writeLastBlock
  refine .ite (fun _ => .ok _) fun _ => .ite (fun overflows => ?_) fun _ =>
    writePartialBlock_faultsOnly (finds _)
  rcases fits with allowed | ⟨countFits, isWhole⟩
  · exact .error allowed
  · subst isWhole
    have le := wholeBytes_le offset countFits
    have lt := wholeBytes_lt offset countFits
    rw [remainderBlockSize_eq countFits le] at overflows
    omega

theorem writeFirstBlock_going
    {buf : Buffer}
    {offset count bytes : Nat}
    {after : Session}
    (returns : session.writeFirstBlock host file buf offset count =
      .ok (after, .going bytes)) :
    bytes = firstBytes offset count := by
  unfold writeFirstBlock at returns
  unfold firstBytes
  split at returns
  · rename_i unaligned
    rw [if_pos unaligned, writePartialBlock_going returns, Nat.zero_add]
  · rename_i aligned
    rw [if_neg aligned]
    cases returns
    rfl

/-- The parts in front of the last block come as far as they should. -/
theorem writeFrontBlocks_going
    {buf : Buffer}
    {offset count bytes : Nat}
    {after : Session}
    (offsetFits : offset < 2 ^ 16)
    (positive : 0 < count)
    (countFits : count ≤ intMax)
    (returns : session.writeFrontBlocks host file buf offset count =
      .ok (after, .going bytes)) :
    bytes = wholeBytes offset count := by
  rcases andThen_cases returns with
    ⟨_, stopped, _⟩ | ⟨middle, firstWritten, first, rest⟩
  · exact nomatch stopped
  · have isFirst := writeFirstBlock_going first
    subst isFirst
    rw [writeFullBlocks_going rest,
      numFullBlocks_eq offset countFits offsetFits positive, Int.toNat_natCast]
    rfl

/-- Behind the allocation a write faults only where `find_data_block` does. -/
theorem writeBlocks_faultsOnly
    (finds : ∀ blockNum : Int,
      FaultsOnly allowed (session.findDataBlock file blockNum))
    {offset count : Nat}
    (buf : Buffer)
    (offsetFits : offset < 2 ^ 16)
    (positive : 0 < count)
    (fits : allowed .outOfBounds ∨ count ≤ intMax) :
    FaultsOnly allowed (session.writeBlocks host file buf offset count) := by
  have findsMoved : ∀ {memory : Session}, session.Confined file memory →
      ∀ blockNum : Int,
        FaultsOnly allowed (memory.findDataBlock file blockNum) := by
    intro memory confined blockNum
    rw [confined.rest]
    exact finds blockNum
  rw [writeBlocks_eq]
  refine andThen_faultsOnly (andThen_faultsOnly ?_ ?_) ?_
  · exact .ite (fun _ => writePartialBlock_faultsOnly (finds _)) fun _ => .ok _
  · intro memory bytes first
    exact writeFullBlocks_faultsOnly
      (findsMoved (writeFirstBlock_confined first)) _ _ _ _
  · intro memory bytes front
    exact writeLastBlock_faultsOnly
      (findsMoved (writeFrontBlocks_confined front))
      (fits.imp_right fun countFits =>
        ⟨countFits, writeFrontBlocks_going offsetFits positive countFits front⟩)

/-- A write faults only where `allocate_blocks_in_fat` does, or
`find_data_block` behind it. -/
theorem write_faultsOnly
    {fuel count : Nat}
    {index : Descriptor}
    {descriptor : FileDescriptor}
    {buf : Buffer}
    (allocates : FaultsOnly allowed
      (session.allocateBlocksInFat fuel descriptor.file
        (findNumTargetBlocks descriptor.offset.toNat count)))
    (finds : ∀ grown result,
      session.allocateBlocksInFat fuel descriptor.file
        (findNumTargetBlocks descriptor.offset.toNat count) =
          .ok (grown, result) →
        ∀ blockNum : Int,
          FaultsOnly allowed (grown.findDataBlock descriptor.file blockNum))
    (positive : 0 < count)
    (fits : allowed .outOfBounds ∨ count ≤ intMax) :
    FaultsOnly allowed
      (session.write fuel host index descriptor buf count) := by
  apply allocates.bind
  rintro ⟨grown, result⟩ returns
  refine (writeBlocks_faultsOnly (finds grown result returns) buf
    descriptor.offset.toNat_lt positive fits).bind ?_
  rintro ⟨moved, progress⟩ _
  cases progress with
  | stopped result => exact .ok _
  | going bytes => exact .ok _

end Session
end MsFat
