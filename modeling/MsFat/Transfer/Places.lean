import MsFat.WellFormed
import MsFat.Transfer.Cut

/-!
# Places of the bytes of a file

Byte `position` of a file lies in block `position / BLOCK_SIZE` of its chain.
`place` is its address on the disk.  Distinct positions have distinct places,
and the positions of one block lie side by side.

`Moved` says how far a part of a transfer has come: it has moved all the bytes
it had to, or it has moved the bytes up to the end of the chain and stopped, or
the host has failed.
-/

namespace MsFat

open Memory

namespace Session

/-- The address on the disk of a byte of a file with the given chain. -/
def place
    (session : Session)
    (chain : List UInt16)
    (position : Nat) : Nat :=
  (session.sb.dataStartIndex.toNat +
      (chain.getD (position / blockSize) 0).toNat) * blockSize +
    position % blockSize

theorem place_div
    (session : Session)
    (chain : List UInt16)
    (position : Nat) :
    session.place chain position / blockSize =
      session.sb.dataStartIndex.toNat +
        (chain.getD (position / blockSize) 0).toNat := by
  unfold place
  simp only [blockSize]
  omega

theorem place_mod
    (session : Session)
    (chain : List UInt16)
    (position : Nat) :
    session.place chain position % blockSize = position % blockSize := by
  unfold place
  simp only [blockSize]
  omega

/-- The positions behind a position in the same block lie side by side. -/
theorem place_add
    (session : Session)
    (chain : List UInt16)
    (position offset : Nat)
    (sameBlock : position % blockSize + offset < blockSize) :
    session.place chain (position + offset) =
      session.place chain position + offset := by
  have quotient : (position + offset) / blockSize = position / blockSize := by
    simp only [blockSize] at *
    omega
  unfold place
  rw [quotient]
  simp only [blockSize] at *
  omega

/-- Distinct positions of a chain have distinct places. -/
theorem place_injOn
    (session : Session)
    {chain : List UInt16}
    (distinct : chain.Nodup) :
    Set.InjOn (session.place chain)
      {position | position < blockSize * chain.length} := by
  intro left leftInside right rightInside equal
  have quotients := congrArg (· / blockSize) equal
  have remainders := congrArg (· % blockSize) equal
  simp only [place_div, place_mod] at quotients remainders
  have leftBlock : left / blockSize < chain.length :=
    Nat.div_lt_of_lt_mul leftInside
  have rightBlock : right / blockSize < chain.length :=
    Nat.div_lt_of_lt_mul rightInside
  have sameEntry : chain[left / blockSize] = chain[right / blockSize] := by
    apply UInt16.toNat_inj.mp
    simpa [List.getD_eq_getElem?_getD, leftBlock, rightBlock] using quotients
  have sameBlock : left / blockSize = right / blockSize :=
    (List.Nodup.getElem_inj_iff distinct).mp sameEntry
  rw [← Nat.div_add_mod left blockSize, ← Nat.div_add_mod right blockSize,
    sameBlock, remainders]

/-- The disk blocks that a chain stands for. -/
def DiskBlocks
    (session : Session)
    (chain : List UInt16)
    (block : Nat) : Prop :=
  ∃ index ∈ chain, block = session.sb.dataStartIndex.toNat + index.toNat

/-- A byte of a file lies in a block of its chain. -/
theorem place_diskBlocks
    (session : Session)
    {chain : List UInt16}
    {position : Nat}
    (inside : position < blockSize * chain.length) :
    session.DiskBlocks chain (session.place chain position / blockSize) := by
  have below : position / blockSize < chain.length :=
    Nat.div_lt_of_lt_mul inside
  refine ⟨chain[position / blockSize], List.getElem_mem below, ?_⟩
  rw [place_div, List.getD_eq_getElem?_getD]
  simp [below]

variable {session : Session} {file : Slot} {chain : List UInt16}

/-- A block of a chain stands for a block of the disk. -/
theorem dataBlock_lt_bcount
    (inside : session.DataInside)
    (isChain : session.FileChain file chain)
    {blockNum : Nat}
    (below : blockNum < chain.length) :
    session.dataBlock chain[blockNum] < session.disk.bcount := by
  have inFat := FatChain.lt_count isChain (List.getElem_mem below)
  unfold dataBlock
  rw [inside.dataBlock_eq inFat]
  exact inside.dataBlock_lt inFat

/-- The place of a position, in terms of the block index that the code looks
up. -/
theorem place_eq_dataBlock
    (inside : session.DataInside)
    (isChain : session.FileChain file chain)
    {position : Nat}
    (below : position / blockSize < chain.length) :
    session.place chain position =
        session.dataBlock (chain[position / blockSize]) * blockSize +
          position % blockSize ∧
      session.dataBlock (chain[position / blockSize]) < session.disk.bcount := by
  have inFat := FatChain.lt_count isChain (List.getElem_mem below)
  refine ⟨?_, dataBlock_lt_bcount inside isChain below⟩
  unfold place dataBlock
  rw [inside.dataBlock_eq inFat, List.getD_eq_getElem?_getD,
    List.getElem?_eq_getElem below, Option.getD_some]

/-- A block number behind the chain is looked up as `FAT_EOC`, one in the chain
as a block index. -/
theorem findDataBlock_cases
    (isChain : session.FileChain file chain)
    (blockNum : Nat) :
    (chain.length ≤ blockNum ∧
        session.findDataBlock file blockNum = .ok fatEoc) ∨
      ∃ below : blockNum < chain.length,
        session.findDataBlock file blockNum = .ok chain[blockNum] ∧
          chain[blockNum] ≠ fatEoc := by
  rw [findDataBlock_chain isChain]
  rcases Nat.lt_or_ge blockNum chain.length with below | behind
  · refine .inr ⟨below, ?_, isChain.ne_eoc (List.getElem_mem below)⟩
    simp [List.getD_eq_getElem?_getD, below]
  · refine .inl ⟨behind, ?_⟩
    simp [List.getD_eq_getElem?_getD, behind]

end Session

/-! ## Progress of a part of a transfer -/

/-- `Moved memory host start limit target outcome`: a transfer from position
`start`, of whose file the chain ends at position `limit`, has to come to
`target` bytes.  `memory bytes` is the memory when `bytes` bytes have been
moved. -/
inductive Moved
    {α : Type}
    (memory : Nat → α)
    (host : Host)
    (start limit target : Nat) : Outcome (α × Progress) → Prop
  | all
      (inside : target = 0 ∨ start + target ≤ limit) :
      Moved memory host start limit target
        (.ok (memory target, .going target))
  | exhausted
      (short : limit - start < target) :
      Moved memory host start limit target
        (.ok (memory (limit - start), .stopped (limit - start : Nat)))
  | hostFailed
      (bytes : Nat)
      (le : bytes ≤ target)
      (inside : bytes = 0 ∨ start + bytes ≤ limit)
      (unreliable : ¬host.IoSucceeds) :
      Moved memory host start limit target
        (.ok (memory bytes, .stopped (-1)))

/-- The next part follows one that has moved its bytes. -/
@[simp] theorem andThen_going
    {α : Type}
    (memory : α)
    (bytes : Nat)
    (next : α → Nat → Outcome (α × Progress)) :
    andThen (.ok (memory, .going bytes)) next = next memory bytes := rfl

/-- The parts of a transfer follow each other. -/
theorem Moved.andThen
    {α : Type}
    {memory : Nat → α}
    {host : Host}
    {start limit target : Nat}
    (middle : Nat)
    {part : Outcome (α × Progress)}
    {next : α → Nat → Outcome (α × Progress)}
    (first : Moved memory host start limit middle part)
    (le : middle ≤ target)
    (rest : middle = 0 ∨ start + middle ≤ limit →
      Moved memory host start limit target (next (memory middle) middle)) :
    Moved memory host start limit target (andThen part next) := by
  cases first with
  | all inside => exact rest inside
  | exhausted short => exact .exhausted (Nat.lt_of_lt_of_le short le)
  | hostFailed bytes bytesLe inside unreliable =>
      exact .hostFailed bytes (Nat.le_trans bytesLe le) inside unreliable

/-- A block of the file lies behind the end of its chain: the transfer has come
exactly there. -/
theorem Moved.of_end
    {α : Type}
    {memory : Nat → α}
    {host : Host}
    {start limit bytes target : Nat}
    (inside : bytes = 0 ∨ start + bytes ≤ limit)
    (behind : limit ≤ start + bytes)
    (more : bytes < target) :
    Moved memory host start limit target
      (.ok (memory bytes, .stopped bytes)) := by
  have atEnd : bytes = limit - start := by omega
  subst atEnd
  exact .exhausted more

end MsFat
