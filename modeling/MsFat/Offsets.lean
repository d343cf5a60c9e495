import MsFat.WriteEffect

/-!
# File offsets

A descriptor keeps its offset in 16 bits, so `fs_lseek` and the updates at the
end of a transfer store a position modulo 65536.  The next transfer is at the
position itself exactly if the position is at most 65535.
-/

namespace MsFat

open Memory

/-- The next transfer through the descriptor is at the position: a write stores
its bytes there, and a read delivers the bytes from there on, as long as it lies
inside the file and its blocks. -/
structure TransfersAt
    (session : Session)
    (index : Descriptor)
    (file : Slot)
    (position : Nat) : Prop where
  write : ∀ (host : Host) (buf : Buffer) (n : Nat),
    host.IoSucceeds → 1 ≤ n → n ≤ intMax →
      ∃ (after : Session) (chain' : List UInt16) (bytes bound : Nat),
        Computes
          (fun fuel => fsWrite fuel host session.toState index.val (some buf) n)
          bound (after.toState, (bytes : Int)) ∧
        after.FileChain file chain' ∧
        ∀ i < bytes, (position + i) / blockSize < chain'.length ∧
          after.contents chain' (position + i) = buf i
  read : ∀ (host : Host) (buf : Buffer) (m : Nat) (chain : List UInt16),
    host.IoSucceeds → session.FileChain file chain → 1 ≤ m →
      position + m ≤ (session.root file).fileSize.toNat →
      position + m ≤ blockSize * chain.length →
        ∃ after buf',
          fsRead host session.toState index.val (some buf) m =
            .ok (after, some buf', (m : Int)) ∧
          ∀ i < m, buf' i = session.contents chain (position + i)

section

variable {session : Session} {index : Descriptor} {descriptor : FileDescriptor}
  {chain : List UInt16}

/-- A transfer is at the offset that is stored. -/
theorem transfersAt_offset
    (wellFormed : session.WellFormed)
    (isOpen : session.openFiles index = some descriptor)
    (isChain : session.FileChain descriptor.file chain) :
    TransfersAt session index descriptor.file descriptor.offset.toNat where
  write := by
    intro host buf n succeeds positive countFits
    obtain ⟨after, bytes, computes, outcome⟩ := fsWrite_outcome index
      wellFormed isOpen isChain succeeds buf positive countFits
    refine ⟨after, _, bytes, _, computes, outcome.fileChain, ?_⟩
    intro i before
    refine ⟨outcome.stores.inside i before, ?_⟩
    unfold Session.contents Session.place
    rw [outcome.sb]
    exact outcome.stores.stored i before
  read := by
    intro host buf m other succeeds isOther positive _ inBlocks
    have bound := isOther.length_le
    have fits := session.numDataBlocks_lt
    have countFits : m ≤ intMax := by
      simp only [blockSize, intMax] at *
      omega
    have returns := fsRead_complete wellFormed.layout.toDataInside isOpen
      isOther succeeds buf positive countFits inBlocks
    refine ⟨_, _, returns, ?_⟩
    intro i before
    unfold Session.loaded
    rw [memcpy_apply_inside (Nat.zero_le _) (by omega), Nat.sub_zero]

/-- A write of one byte to another position of the chain than the one meant
leaves the byte there as it was. -/
theorem not_transfersAt_of_ne
    (wellFormed : session.WellFormed)
    (isOpen : session.openFiles index = some descriptor)
    (isChain : session.FileChain descriptor.file chain)
    {position : Nat}
    (before : descriptor.offset.toNat < position)
    (inChain : position ≤ blockSize * chain.length) :
    ¬TransfersAt session index descriptor.file position := by
  intro transfers
  -- a byte that differs from the one at the position
  let byte := session.contents chain position + 1
  obtain ⟨after, bytes, computes, outcome⟩ := fsWrite_outcome index wellFormed
    isOpen isChain Host.reliable_reliable.toIoSucceeds (fun _ => byte)
    (le_refl 1) (by decide)
  obtain ⟨other, chain', otherBytes, bound, otherComputes, isChain', at_⟩ :=
    transfers.write .reliable (fun _ => byte) 1
      Host.reliable_reliable.toIoSucceeds (le_refl 1) (by decide)
  have same := computes.only bound _ (otherComputes.enough bound (le_refl _))
  have sessions := Session.toState_injective (Prod.mk.inj same).1
  have counts := Int.natCast_inj.mp (Prod.mk.inj same).2
  subst sessions counts
  have room := session.chain_le_room chain
  have one : otherBytes = 1 := by
    rw [outcome.bytes_eq]
    omega
  have noneTaken :
      session.extendedChain chain descriptor.offset.toNat 1 = chain := by
    have missing :
        targetBlocks descriptor.offset.toNat 1 - chain.length = 0 := by
      unfold targetBlocks
      simp only [blockSize] at *
      omega
    unfold Session.extendedChain Session.takenBlocks
    rw [missing]
    simp
  have fileChain := outcome.fileChain
  have stores := outcome.stores
  rw [noneTaken] at fileChain stores
  have sameChain := isChain'.unique fileChain
  subst sameChain
  obtain ⟨inside, stored⟩ := at_ 0 (by omega)
  rw [Nat.add_zero] at inside stored
  have kept : other.contents chain' position =
      session.contents chain' position := by
    unfold Session.contents Session.place
    rw [outcome.sb]
    apply stores.kept _
    intro offset early equal
    have sameOffset : offset = 0 := by omega
    have below : position < blockSize * chain'.length := by
      rw [Nat.mul_comm]
      exact (Nat.div_lt_iff_lt_mul (by simp)).mp inside
    have positions := session.place_injOn isChain.nodup
      (show descriptor.offset.toNat + offset < blockSize * chain'.length by
        omega) below equal
    omega
  rw [kept] at stored
  exact (by simp [byte] : byte ≠ session.contents chain' position) stored.symm

/-- With the position stored modulo 65536, the next transfer is at the position
exactly if it fits in 16 bits. -/
theorem transfersAt_iff_of_mod
    (wellFormed : session.WellFormed)
    (isOpen : session.openFiles index = some descriptor)
    (isChain : session.FileChain descriptor.file chain)
    {position : Nat}
    (stored : descriptor.offset.toNat = position % 2 ^ 16)
    (inChain : position ≤ blockSize * chain.length) :
    TransfersAt session index descriptor.file position ↔ position ≤ 65535 := by
  constructor
  · intro transfers
    by_contra tooLarge
    exact not_transfersAt_of_ne wellFormed isOpen isChain (by omega) inChain
      transfers
  · intro fits
    have offsetEq : position = descriptor.offset.toNat := by omega
    rw [offsetEq]
    exact transfersAt_offset wellFormed isOpen isChain

/-- For a file whose size lies in its blocks: the transfer behind an `fs_lseek` to a
position in the file is at that position exactly if the position is at most
65535, and the transfer behind a complete transfer goes on at its end exactly if
the end is. -/
theorem transfersAt_iff
    (wellFormed : session.WellFormed)
    (isOpen : session.openFiles index = some descriptor)
    (isChain : session.FileChain descriptor.file chain)
    (inChain : (session.root descriptor.file).fileSize.toNat ≤
      4096 * chain.length) :
    (∀ p ≤ (session.root descriptor.file).fileSize.toNat,
      ∃ sought : Session,
        fsLseek session.toState index.val p = .ok (sought.toState, 0) ∧
        (TransfersAt sought index descriptor.file p ↔ p ≤ 65535)) ∧
    (∀ (host : Host) (buf : Buffer) (k : Nat),
      host.IoSucceeds → 1 ≤ k →
      descriptor.offset.toNat + k ≤
        (session.root descriptor.file).fileSize.toNat →
      (∃ (after : Session) (buf' : Buffer),
        fsRead host session.toState index.val (some buf) k =
          .ok (after.toState, some buf', (k : Int)) ∧
        (TransfersAt after index descriptor.file
            (descriptor.offset.toNat + k) ↔
          descriptor.offset.toNat + k ≤ 65535)) ∧
      ∃ (after : Session) (bound : Nat),
        Computes
          (fun fuel => fsWrite fuel host session.toState index.val (some buf) k)
          bound (after.toState, (k : Int)) ∧
        (TransfersAt after index descriptor.file
            (descriptor.offset.toNat + k) ↔
          descriptor.offset.toNat + k ≤ 65535)) := by
  constructor
  · intro p le
    refine ⟨_, fsLseek_open isOpen le, ?_⟩
    refine transfersAt_iff_of_mod
      (wellFormed.setOffset isOpen (UInt16.ofNat p))
      (Session.setOpenFile_self _ _) isChain ?_ (Nat.le_trans le inChain)
    exact UInt16.toNat_ofNat'
  · intro host buf k succeeds positive le
    have bound := Session.chain_bytes_le isChain
    have countFits : k ≤ intMax := by
      simp only [blockSize, intMax] at *
      omega
    have within := Nat.le_trans le inChain
    have moved : (descriptor.offset + UInt16.ofNat k).toNat =
        (descriptor.offset.toNat + k) % 2 ^ 16 := by
      simp only [UInt16.toNat_add, UInt16.toNat_ofNat']
      omega
    constructor
    · refine ⟨_, _, fsRead_complete wellFormed.layout.toDataInside isOpen
        isChain succeeds buf positive countFits within, ?_⟩
      exact transfersAt_iff_of_mod
        (wellFormed.setOffset isOpen (descriptor.offset + UInt16.ofNat k))
        (Session.setOpenFile_self _ _) isChain moved within
    · obtain ⟨after, bytes, computes, outcome⟩ := fsWrite_outcome index
        wellFormed isOpen isChain succeeds buf positive countFits
      have room := session.chain_le_room chain
      have complete : bytes = k := by
        rw [outcome.bytes_eq]
        simp only [blockSize] at room
        omega
      subst complete
      have step : Step session.toState
          ⟨host, .write index.val (some buf) bytes, bytes⟩ after.toState :=
        ⟨countFits, _, computes.enough _ (le_refl _)⟩
      obtain ⟨after', sameState, wellFormedAfter⟩ :=
        WellFormedState.step ⟨session, rfl, wellFormed⟩ step
      have same := Session.toState_injective sameState
      subst same
      refine ⟨after, _, computes, ?_⟩
      refine transfersAt_iff_of_mod wellFormedAfter (outcome.openFiles rfl)
        outcome.fileChain moved (Nat.le_trans within ?_)
      apply Nat.mul_le_mul_left _
      rw [Session.extendedChain_length]
      exact Nat.le_add_right _ _

end

/-- A file that fills 16 blocks. -/
def longFile : Session :=
  Session.oneFile 17
    #v[fatEoc, 2, 3, 4, 5, 6, 7, 8, 9, 10, 11, 12, 13, 14, 15, 16, fatEoc]
    1 65536

theorem longFile_fileChain : longFile.FileChain 0
    [1, 2, 3, 4, 5, 6, 7, 8, 9, 10, 11, 12, 13, 14, 15, 16] :=
  show FatChain #v[fatEoc, 2, 3, 4, 5, 6, 7, 8, 9, 10, 11, 12, 13, 14, 15, 16,
    fatEoc] 1 [1, 2, 3, 4, 5, 6, 7, 8, 9, 10, 11, 12, 13, 14, 15, 16] by decide

theorem longFile_wellFormed : longFile.WellFormed :=
  Session.oneFile_wellFormed (by decide) longFile_fileChain 65536

/-- `fs_lseek` to the end of this file returns 0, but the next transfer is at
its start. -/
theorem not_transfersAt_longFile :
    longFile.WellFormed ∧
      longFile.openFiles 0 = some { file := 0, offset := 0 } ∧
      (longFile.root 0).fileSize.toNat = 65536 ∧
      ∃ sought : Session,
        fsLseek longFile.toState 0 65536 = .ok (sought.toState, 0) ∧
        sought.openFiles 0 = some { file := 0, offset := 0 } ∧
        ¬TransfersAt sought 0 0 65536 := by
  have isOpen : longFile.openFiles 0 = some { file := 0, offset := 0 } := rfl
  refine ⟨longFile_wellFormed, isOpen, rfl, _, fsLseek_open isOpen (le_refl _),
    Session.setOpenFile_self _ _, ?_⟩
  exact not_transfersAt_of_ne (longFile_wellFormed.setOffset isOpen _)
    (Session.setOpenFile_self _ _) longFile_fileChain (by decide) (by decide)

/-- The file of five bytes. -/
theorem transfersAt_iff_sample :
    ∃ sought : Session,
      fsLseek Session.sample.toState 0 5 = .ok (sought.toState, 0) ∧
        (TransfersAt sought 0 0 5 ↔ 5 ≤ 65535) := by
  have isOpen : Session.sample.openFiles 0 =
    some { file := 0, offset := 0 } := rfl
  exact (transfersAt_iff Session.sample_wellFormed isOpen
    Session.sample_fileChain (by decide)).1 5 (by decide)

end MsFat
