import MsFat.Transfer.Read

/-!
# The end of a read

`fs_read` compares the positions it reads with the chain of the file and never
with the size.  So it delivers the bytes of the last block behind the end of the
file as well, if it is asked for them.
-/

namespace MsFat

open Memory

section

variable {session : Session} (index : Descriptor) {descriptor : FileDescriptor}
  {chain : List UInt16} {host : Host}

/-- On a reliable host `fs_read` delivers the bytes up to the end of the chain,
and changes nothing but the offset of the descriptor. -/
theorem fsRead_upToChain
    (inside : session.DataInside)
    (isOpen : session.openFiles index = some descriptor)
    (isChain : session.FileChain descriptor.file chain)
    (succeeds : host.IoSucceeds)
    (buf : Buffer)
    {count : Nat}
    (positive : 1 ≤ count)
    (countFits : count ≤ intMax) :
    ∃ (final : Session) (bytes : Nat),
      bytes = min count (blockSize * chain.length - descriptor.offset.toNat) ∧
      fsRead host session.toState index.val (some buf) count =
        .ok (final.toState,
          some (session.loaded chain descriptor.offset.toNat buf bytes),
          (bytes : Int)) ∧
      final.toVolume = session.toVolume ∧ final.disk = session.disk := by
  rcases fsRead_moved inside isOpen isChain host buf positive countFits with
    ⟨readEq, within⟩ | ⟨readEq, short⟩ | ⟨_, _, _, unreliable⟩
  · exact ⟨session.finishRead index descriptor count, count, by omega, readEq,
      rfl, rfl⟩
  · exact ⟨session, blockSize * chain.length - descriptor.offset.toNat,
      by omega, readEq, rfl, rfl⟩
  · exact absurd succeeds unreliable

/-- `fs_read` of `count` bytes stops at the end of the file: it returns as many
bytes as the file has behind the offset, delivers exactly them, and changes
neither the rest of the buffer nor the disk, the FAT and the root directory. -/
def StopsAtEnd
    (session : Session)
    (index : Descriptor)
    (descriptor : FileDescriptor)
    (chain : List UInt16)
    (host : Host)
    (buf : Buffer)
    (count : Nat) : Prop :=
  ∃ (final : Session) (buf' : Buffer) (bytes : Nat),
    bytes = min count ((session.root descriptor.file).fileSize.toNat -
      descriptor.offset.toNat) ∧
    fsRead host session.toState index.val (some buf) count =
      .ok (final.toState, some buf', (bytes : Int)) ∧
    (∀ position < bytes, buf' position =
      session.contents chain (descriptor.offset.toNat + position)) ∧
    (∀ position, bytes ≤ position → buf' position = buf position) ∧
    final.toVolume = session.toVolume ∧ final.disk = session.disk

/-- A read through a descriptor that does not stand behind the end of the file
stops at the end of the file exactly if it does not ask for more, or the file
ends with its last block. -/
theorem stopsAtEnd_iff
    (wellFormed : session.WellFormed)
    (isOpen : session.openFiles index = some descriptor)
    (isChain : session.FileChain descriptor.file chain)
    (within : descriptor.offset.toNat ≤
      (session.root descriptor.file).fileSize.toNat)
    (inChain : (session.root descriptor.file).fileSize.toNat ≤
      4096 * chain.length)
    (succeeds : host.IoSucceeds)
    (buf : Buffer)
    {count : Nat}
    (positive : 1 ≤ count)
    (countFits : count ≤ intMax) :
    StopsAtEnd session index descriptor chain host buf count ↔
      descriptor.offset.toNat + count ≤
          (session.root descriptor.file).fileSize.toNat ∨
        (session.root descriptor.file).fileSize.toNat =
          4096 * chain.length := by
  obtain ⟨final, bytes, bytesEq, reads, volume, disk⟩ :=
    fsRead_upToChain index wellFormed.layout.toDataInside isOpen isChain
      succeeds buf positive countFits
  simp only [blockSize] at bytesEq
  constructor
  · rintro ⟨other, buf', fewer, fewerEq, readsFewer, _⟩
    have same := Except.ok.inj (reads.symm.trans readsFewer)
    simp only [Prod.mk.injEq, Int.natCast_inj] at same
    omega
  · intro condition
    have atEnd : bytes = min count
        ((session.root descriptor.file).fileSize.toNat -
          descriptor.offset.toNat) := by
      omega
    refine ⟨final, _, bytes, atEnd, reads, ?_, ?_, volume, disk⟩
    · intro position early
      unfold Session.loaded
      rw [memcpy_apply_inside (Nat.zero_le _) (by omega), Nat.sub_zero]
    · intro position late
      exact memcpy_apply_outside (by omega)

end

/-- A read of the five bytes of the file. -/
theorem stopsAtEnd_iff_sample :
    StopsAtEnd Session.sample 0 ⟨0, 0⟩ [1] .reliable (fun _ => 0) 5 ↔
      0 + 5 ≤ 5 ∨ 5 = 4096 * 1 :=
  stopsAtEnd_iff 0 Session.sample_wellFormed rfl Session.sample_fileChain
    (by decide) (by decide) Host.reliable_reliable.toIoSucceeds (fun _ => 0)
    (by decide) (by decide)

/-- A read of six bytes delivers six of them, one from behind the end of the
file. -/
theorem not_stopsAtEnd_sample :
    Session.sample.WellFormed ∧
      Session.sample.FileChain 0 [1] ∧
      (Session.sample.root 0).fileSize = 5 ∧
      ¬StopsAtEnd Session.sample 0 ⟨0, 0⟩ [1] .reliable (fun _ => 0) 6 := by
  refine ⟨Session.sample_wellFormed, Session.sample_fileChain, rfl, ?_⟩
  obtain ⟨final, bytes, bytesEq, reads, _, _⟩ :=
    @fsRead_upToChain Session.sample 0 ⟨0, 0⟩ [1] .reliable
      Session.sample_wellFormed.layout.toDataInside rfl
      Session.sample_fileChain Host.reliable_reliable.toIoSucceeds (fun _ => 0)
      6 (by decide) (by decide)
  rintro ⟨other, buf', fewer, fewerEq, readsFewer, _⟩
  have same := Except.ok.inj (reads.symm.trans readsFewer)
  simp only [Prod.mk.injEq, Int.natCast_inj] at same
  have six : bytes = 6 := bytesEq
  have five : fewer = 5 := fewerEq
  omega

end MsFat
