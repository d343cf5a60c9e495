import MsFat.EndOfFile
import MsFat.Transfer.EmptyRead
import MsFat.WriteEffect

/-!
# The distance a transfer moves

A transfer that comes to its end moves the offset of its descriptor by the bytes
it returns.  One that is short returns the bytes it has moved as well, but leaves
the offset, so the next transfer moves the same bytes again.
-/

namespace MsFat

/-- The offset of a descriptor, if it is open. -/
def State.offset (state : State) (index : Descriptor) : Option Nat :=
  (state.openFiles index).map fun descriptor => descriptor.offset.toNat

/-- The offset of the descriptor has moved by this many bytes, modulo 2^16, and
no other offset has. -/
structure OffsetMoved
    (before after : State)
    (index : Descriptor)
    (bytes : Nat) : Prop where
  self : after.offset index =
    (before.offset index).map fun offset => (offset + bytes) % 2 ^ 16
  others : ∀ other, other ≠ index → after.offset other = before.offset other

/-- Whenever `fs_write` returns a count, the offset has moved by it. -/
def WriteMovesByCount
    (session : Session)
    (index : Descriptor)
    (buf : Option Buffer)
    (count : Nat) : Prop :=
  ∀ (fuel : Nat) (host : Host) (after : State) (bytes : Nat),
    fsWrite fuel host session.toState index.val buf count =
        .ok (after, (bytes : Int)) →
      OffsetMoved session.toState after index bytes

/-- Whenever `fs_read` returns a count, the offset has moved by it. -/
def ReadMovesByCount
    (session : Session)
    (index : Descriptor)
    (buf : Option Buffer)
    (count : Nat) : Prop :=
  ∀ (host : Host) (after : State) (buf' : Option Buffer) (bytes : Nat),
    fsRead host session.toState index.val buf count =
        .ok (after, buf', (bytes : Int)) →
      OffsetMoved session.toState after index bytes

/-- The table of open files behind a transfer of `count` bytes that returns
`result`, when the file can take or give the bytes in front of position
`limit`. -/
inductive TransferEnd
    (session : Session)
    (index : Descriptor)
    (descriptor : FileDescriptor)
    (limit count : Nat)
    (after : State) : Int → Prop
  | complete
      (inside : descriptor.offset.toNat + count ≤ limit)
      (moved : after.openFiles = Function.update session.openFiles index
        (some { descriptor with
          offset := descriptor.offset + UInt16.ofNat count })) :
      TransferEnd session index descriptor limit count after count
  | short
      (short : limit < descriptor.offset.toNat + count)
      (kept : after.openFiles = session.openFiles) :
      TransferEnd session index descriptor limit count after
        (limit - descriptor.offset.toNat : Nat)
  | failed :
      TransferEnd session index descriptor limit count after (-1)

section

variable {session : Session} {index : Descriptor} {descriptor : FileDescriptor}
  (isOpen : session.openFiles index = some descriptor)

include isOpen

/-- A transfer that moves the offset by its bytes. -/
theorem offsetMoved_of_update
    {after : State}
    {bytes : Nat}
    (moved : after.openFiles = Function.update session.openFiles index
      (some { descriptor with
        offset := descriptor.offset + UInt16.ofNat bytes })) :
    OffsetMoved session.toState after index bytes where
  self := by
    unfold State.offset
    rw [moved, Function.update_self, Session.toState_openFiles, isOpen]
    simp only [Option.map_some, UInt16.toNat_add, UInt16.toNat_ofNat',
      Nat.add_mod_mod]
  others := by
    intro other different
    unfold State.offset
    rw [moved, Function.update_of_ne different]
    rfl

/-- A transfer that leaves the offset moves it by a multiple of 2^16. -/
theorem offsetMoved_iff_of_kept
    {after : State}
    {bytes : Nat}
    (kept : after.openFiles = session.openFiles) :
    OffsetMoved session.toState after index bytes ↔ bytes % 2 ^ 16 = 0 := by
  have fits := descriptor.offset.toNat_lt
  have same : ∀ other, after.offset other = session.toState.offset other := by
    intro other
    unfold State.offset
    rw [kept]
    rfl
  have here : session.toState.offset index = some descriptor.offset.toNat := by
    unfold State.offset
    rw [Session.toState_openFiles, isOpen]
    rfl
  constructor
  · intro moved
    have self := moved.self
    rw [same, here] at self
    have offsets : descriptor.offset.toNat =
        (descriptor.offset.toNat + bytes) % 2 ^ 16 := Option.some.inj self
    omega
  · intro multiple
    refine ⟨?_, fun other _ => same other⟩
    rw [same, here, Option.map_some]
    congr 1
    omega

/-- Whether the returned count is the distance moved depends on the position the
transfer is stopped at only. -/
theorem TransferEnd.offsetMoved_iff
    {limit count : Nat}
    {after : State}
    {bytes : Nat}
    (ends : TransferEnd session index descriptor limit count after bytes) :
    OffsetMoved session.toState after index bytes ↔
      descriptor.offset.toNat + count ≤ limit ∨
        (limit - descriptor.offset.toNat) % 2 ^ 16 = 0 := by
  generalize resultEq : (bytes : Int) = result at ends
  cases ends with
  | complete inside moved =>
      have same := Int.natCast_inj.mp resultEq
      subst same
      exact iff_of_true (offsetMoved_of_update isOpen moved) (.inl inside)
  | short short kept =>
      have same := Int.natCast_inj.mp resultEq
      rw [offsetMoved_iff_of_kept isOpen kept, same]
      omega
  | failed => omega

/-- So it does for a kind of calls, some of which returns a count. -/
theorem TransferEnd.moves_iff
    {limit count : Nat}
    {Returns : State → Nat → Prop}
    (ends : ∀ after bytes, Returns after bytes →
      TransferEnd session index descriptor limit count after bytes)
    (returns : ∃ after bytes, Returns after bytes) :
    (∀ after bytes, Returns after bytes →
        OffsetMoved session.toState after index bytes) ↔
      descriptor.offset.toNat + count ≤ limit ∨
        (limit - descriptor.offset.toNat) % 2 ^ 16 = 0 := by
  constructor
  · intro moves
    obtain ⟨after, bytes, isReturn⟩ := returns
    exact ((ends after bytes isReturn).offsetMoved_iff isOpen).mp
      (moves after bytes isReturn)
  · intro condition after bytes isReturn
    exact ((ends after bytes isReturn).offsetMoved_iff isOpen).mpr condition

variable {chain : List UInt16}
  (inside : session.DataInside)
  (isChain : session.FileChain descriptor.file chain)
  {count : Nat}
  (countFits : count ≤ intMax)

include inside isChain countFits

/-- How an `fs_write` of at least one byte ends. -/
theorem fsWrite_transferEnd
    (positive : 0 < count)
    {fuel : Nat}
    {host : Host}
    {buf : Buffer}
    {after : State}
    {result : Int}
    (returns : fsWrite fuel host session.toState index.val (some buf) count =
      .ok (after, result)) :
    TransferEnd session index descriptor (session.room chain) count after
      result := by
  obtain ⟨fat', firstIndex', allocated, after', result', grown, written,
    computes⟩ := Session.write_computes index inside isChain host buf positive
      countFits
  have same := (fsWrite_computes isOpen positive computes).only fuel _ returns
  cases same
  cases written with
  | complete within =>
      refine .complete ?_ rfl
      by_contra outside
      rw [Session.extendedChain_full (Nat.lt_of_not_le outside)] at within
      exact outside within
  | short short =>
      have tooLarge : session.room chain < descriptor.offset.toNat + count := by
        by_contra fits
        have holds := Session.extendedChain_holds (Nat.le_of_not_lt fits)
        omega
      rw [Session.extendedChain_full tooLarge]
      exact .short tooLarge rfl
  | hostFailed => exact .failed

/-- How an `fs_read` of at least one byte ends. -/
theorem fsRead_transferEnd
    (positive : 0 < count)
    {host : Host}
    {buf : Buffer}
    {after : State}
    {buf' : Option Buffer}
    {result : Int}
    (returns : fsRead host session.toState index.val (some buf) count =
      .ok (after, buf', result)) :
    TransferEnd session index descriptor (4096 * chain.length) count after
      result := by
  rcases fsRead_moved inside isOpen isChain host buf positive countFits with
    ⟨readEq, within⟩ | ⟨readEq, short⟩ | ⟨_, _, readEq, _⟩
  · cases readEq.symm.trans returns
    exact .complete within rfl
  · cases readEq.symm.trans returns
    refine .short ?_ rfl
    simp only [blockSize] at short
    omega
  · cases readEq.symm.trans returns
    exact .failed

omit countFits in
/-- An `fs_read` of no bytes that returns a count moves nothing. -/
theorem fsRead_zero_offsetMoved
    {host : Host}
    {buf : Buffer}
    {after : State}
    {buf' : Option Buffer}
    {bytes : Nat}
    (returns : fsRead host session.toState index.val (some buf) 0 =
      .ok (after, buf', (bytes : Int))) :
    OffsetMoved session.toState after index bytes := by
  rcases fsRead_zero_cases inside isOpen isChain host buf with
    ⟨readEq, _⟩ | ⟨readEq, _⟩ | ⟨readEq, _, _⟩ | ⟨readEq, _⟩
  all_goals
    have same := Except.ok.inj (readEq.symm.trans returns)
    simp only [Prod.mk.injEq] at same
    obtain ⟨rfl, _, result⟩ := same
  · have none : bytes = 0 := by omega
    subst none
    exact offsetMoved_of_update isOpen rfl
  · rw [offsetMoved_iff_of_kept isOpen rfl]
    omega
  · omega
  · omega

omit isOpen inside isChain countFits

/-- The writes whose returned count is the distance moved. -/
theorem writeMovesByCount_iff
    (wellFormed : session.WellFormed)
    (isOpen : session.openFiles index = some descriptor)
    (isChain : session.FileChain descriptor.file chain)
    (buf : Option Buffer)
    (countFits : count ≤ intMax) :
    WriteMovesByCount session index buf count ↔
      buf = none ∨ count = 0 ∨
        descriptor.offset.toNat + count ≤ session.room chain ∨
        (session.room chain - descriptor.offset.toNat) % 2 ^ 16 = 0 := by
  have inside := wellFormed.layout.toDataInside
  cases buf with
  | none =>
      refine iff_of_true ?_ (.inl rfl)
      intro fuel host after bytes returns
      unfold fsWrite at returns
      rw [onDescriptor_open isOpen] at returns
      have same := Except.ok.inj returns
      simp only [Prod.mk.injEq] at same
      omega
  | some buf =>
      rcases Nat.eq_zero_or_pos count with rfl | positive
      · refine iff_of_true ?_ (.inr (.inl rfl))
        intro fuel host after bytes returns
        rw [fsWrite_zero isOpen] at returns
        have same := Except.ok.inj returns
        simp only [Prod.mk.injEq] at same
        obtain ⟨rfl, zero⟩ := same
        rw [offsetMoved_iff_of_kept isOpen rfl]
        omega
      · have ends : ∀ after (bytes : Nat),
            (∃ fuel host, fsWrite fuel host session.toState index.val (some buf)
              count = .ok (after, (bytes : Int))) →
            TransferEnd session index descriptor (session.room chain) count
              after bytes := by
          rintro after bytes ⟨fuel, host, returns⟩
          exact fsWrite_transferEnd isOpen inside isChain countFits positive
            returns
        obtain ⟨final, moved, computes, _⟩ := fsWrite_outcome index wellFormed
          isOpen isChain Host.reliable_reliable.toIoSucceeds buf positive
          countFits
        have moves := TransferEnd.moves_iff isOpen ends
          ⟨_, moved, _, _, computes.enough _ (le_refl _)⟩
        rw [or_iff_right (by simp), or_iff_right (Nat.ne_of_gt positive),
          ← moves]
        constructor
        · rintro moves after bytes ⟨fuel, host, returns⟩
          exact moves fuel host after bytes returns
        · intro moves fuel host after bytes returns
          exact moves after bytes ⟨fuel, host, returns⟩

/-- The reads whose returned count is the distance moved. -/
theorem readMovesByCount_iff
    (inside : session.DataInside)
    (isOpen : session.openFiles index = some descriptor)
    (isChain : session.FileChain descriptor.file chain)
    (buf : Option Buffer)
    (countFits : count ≤ intMax) :
    ReadMovesByCount session index buf count ↔
      buf = none ∨ count = 0 ∨
        descriptor.offset.toNat + count ≤ 4096 * chain.length ∨
        (4096 * chain.length - descriptor.offset.toNat) % 2 ^ 16 = 0 := by
  cases buf with
  | none =>
      refine iff_of_true ?_ (.inl rfl)
      intro host after buf' bytes returns
      unfold fsRead at returns
      rw [onDescriptor_open isOpen] at returns
      have same := Except.ok.inj returns
      simp only [Prod.mk.injEq] at same
      omega
  | some buf =>
      rcases Nat.eq_zero_or_pos count with rfl | positive
      · refine iff_of_true ?_ (.inr (.inl rfl))
        intro host after buf' bytes returns
        exact fsRead_zero_offsetMoved isOpen inside isChain returns
      · have ends : ∀ after (bytes : Nat),
            (∃ host buf', fsRead host session.toState index.val (some buf) count
              = .ok (after, buf', (bytes : Int))) →
            TransferEnd session index descriptor (4096 * chain.length) count
              after bytes := by
          rintro after bytes ⟨host, buf', returns⟩
          exact fsRead_transferEnd isOpen inside isChain countFits positive
            returns
        obtain ⟨final, moved, _, readEq, _⟩ := fsRead_upToChain index inside
          isOpen isChain Host.reliable_reliable.toIoSucceeds buf positive
          countFits
        have moves := TransferEnd.moves_iff isOpen ends
          ⟨_, moved, _, _, readEq⟩
        rw [or_iff_right (by simp), or_iff_right (Nat.ne_of_gt positive),
          ← moves]
        constructor
        · rintro moves after bytes ⟨host, buf', returns⟩
          exact moves host after buf' bytes returns
        · intro moves host after buf' bytes returns
          exact moves after bytes ⟨host, buf', returns⟩

/-- The count that `fs_write` or `fs_read` returns is the distance it moves the
offset of its descriptor exactly if the transfer is not short, or short by
having moved a multiple of 2^16 bytes. -/
theorem movesByCount_iff
    (wellFormed : session.WellFormed)
    (isOpen : session.openFiles index = some descriptor)
    (isChain : session.FileChain descriptor.file chain)
    (buf : Option Buffer)
    (countFits : count ≤ intMax) :
    (WriteMovesByCount session index buf count ↔
      buf = none ∨ count = 0 ∨
        descriptor.offset.toNat + count ≤
          4096 * (chain.length + (freeBlocks session.fat).length) ∨
        (4096 * (chain.length + (freeBlocks session.fat).length) -
          descriptor.offset.toNat) % 2 ^ 16 = 0) ∧
    (ReadMovesByCount session index buf count ↔
      buf = none ∨ count = 0 ∨
        descriptor.offset.toNat + count ≤ 4096 * chain.length ∨
        (4096 * chain.length - descriptor.offset.toNat) % 2 ^ 16 = 0) :=
  ⟨writeMovesByCount_iff wellFormed isOpen isChain buf countFits,
    readMovesByCount_iff wellFormed.layout.toDataInside isOpen isChain buf
      countFits⟩

end

/-- A read of five bytes from the file of five bytes. -/
theorem movesByCount_iff_sample :
    ReadMovesByCount Session.sample 0 (some fun _ => 0) 5 ↔
      (some fun _ => 0 : Option Buffer) = none ∨ 5 = 0 ∨ 0 + 5 ≤ 4096 * 1 ∨
        (4096 * 1 - 0) % 2 ^ 16 = 0 :=
  (@movesByCount_iff Session.sample 0 ⟨0, 0⟩ [1] 5 Session.sample_wellFormed rfl
    Session.sample_fileChain (some fun _ => 0) (by decide)).2

/-- A read and a write that ask for more than the file and the disk have return
what they have moved, but leave the offset. -/
theorem not_movesByCount_sample :
    Session.sample.WellFormed ∧
      Session.sample.openFiles 0 = some { file := 0, offset := 0 } ∧
      ¬ReadMovesByCount Session.sample 0 (some fun _ => 0) 4097 ∧
      ¬WriteMovesByCount Session.sample 0 (some fun _ => 0) 12289 := by
  have isOpen : Session.sample.openFiles 0 =
    some { file := 0, offset := 0 } := rfl
  refine ⟨Session.sample_wellFormed, isOpen, ?_, ?_⟩
  · rw [readMovesByCount_iff Session.sample_wellFormed.layout.toDataInside
      isOpen Session.sample_fileChain _ (by decide)]
    simp
  · rw [writeMovesByCount_iff Session.sample_wellFormed isOpen
      Session.sample_fileChain _ (by decide)]
    have room : Session.sample.room [1] = 12288 := by decide
    rw [room]
    simp

end MsFat
