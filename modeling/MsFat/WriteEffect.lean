import MsFat.Invariant

/-!
# The effect of `fs_write` on the disk

On a reliable host `fs_write` stores as many bytes as the blocks of the file and
the free blocks can take, at the places of their positions, and changes no other
byte of the disk.
-/

namespace MsFat

open Memory

/-- A session whose disk is `before` with the first `bytes` bytes of the buffer
stored at the places of the positions from `start` on. -/
structure StoresAt
    (before after : Session)
    (chain : List UInt16)
    (start : Nat)
    (buf : Buffer)
    (bytes : Nat) : Prop where
  /-- The positions lie in the blocks of the chain. -/
  inside : ∀ offset < bytes, (start + offset) / blockSize < chain.length
  /-- Every byte of the buffer is at the place of its position. -/
  stored : ∀ offset < bytes,
    after.disk.bytes (before.place chain (start + offset)) = buf offset
  /-- Every other byte of the disk is as it was. -/
  kept : ∀ address,
    (∀ offset < bytes, before.place chain (start + offset) ≠ address) →
      after.disk.bytes address = before.disk.bytes address
  bcount : after.disk.bcount = before.disk.bcount

namespace Session

/-- Storing bytes within a chain stores them at their places. -/
theorem storesAt_stored
    (session : Session)
    {chain : List UInt16}
    (distinct : chain.Nodup)
    (start bytes : Nat)
    (buf : Buffer)
    (inside : bytes = 0 ∨ start + bytes ≤ blockSize * chain.length) :
    StoresAt session (session.stored chain start buf bytes) chain start buf
      bytes where
  inside := by
    intro offset before
    have below : start + offset < blockSize * chain.length := by
      rcases inside with none | holds <;> omega
    exact Nat.div_lt_of_lt_mul below
  stored := by
    intro offset before
    refine scatter_apply_place ?_ before
    apply (session.place_injOn distinct).mono
    intro position below
    rcases inside with none | holds
    · omega
    · exact Nat.lt_of_lt_of_le below holds
  kept := fun _ apart => scatter_apply_of_ne apart
  bcount := rfl

end Session

section

variable {session : Session} (index : Descriptor) {descriptor : FileDescriptor}
  {chain : List UInt16} {host : Host} {count : Nat}

/-- What a write through the descriptor leaves behind on a host whose reads and
writes succeed. -/
structure WriteOutcome
    (session after : Session)
    (index : Descriptor)
    (descriptor : FileDescriptor)
    (chain : List UInt16)
    (buf : Buffer)
    (count bytes : Nat) : Prop where
  bytes_eq : bytes = min count (session.room chain - descriptor.offset.toNat)
  sb : after.sb = session.sb
  fileChain : after.FileChain descriptor.file
    (session.extendedChain chain descriptor.offset.toNat count)
  stores : StoresAt session after
    (session.extendedChain chain descriptor.offset.toNat count)
    descriptor.offset.toNat buf bytes
  /-- A complete write moves the offset. -/
  openFiles : bytes = count → after.openFiles index = some
    { descriptor with offset := descriptor.offset + UInt16.ofNat count }

theorem fsWrite_outcome
    (wellFormed : session.WellFormed)
    (isOpen : session.openFiles index = some descriptor)
    (isChain : session.FileChain descriptor.file chain)
    (succeeds : host.IoSucceeds)
    (buf : Buffer)
    (positive : 1 ≤ count)
    (countFits : count ≤ intMax) :
    ∃ after bytes,
      Computes
        (fun fuel =>
          fsWrite fuel host session.toState index.val (some buf) count)
        (chain.length + 1) (after.toState, ((bytes : Nat) : Int)) ∧
      WriteOutcome session after index descriptor chain buf count bytes := by
  have inside := wellFormed.layout.toDataInside
  by_cases fits : descriptor.offset.toNat + count ≤ session.room chain
  · obtain ⟨fat', firstIndex', allocated, grown, computes⟩ :=
      Session.write_fits index inside isChain succeeds buf positive countFits
        fits
    have extended := Session.fileChain_extended descriptor.file grown
    have stores := Session.storesAt_stored
      (session.setChain descriptor.file fat' firstIndex') extended.nodup
      descriptor.offset.toNat count buf
      (.inr (Session.extendedChain_holds fits))
    refine ⟨_, count, fsWrite_computes isOpen positive computes, ?_, rfl,
      Session.finishWrite_fileChain _ _ _ extended,
      ⟨stores.inside, stores.stored, stores.kept, stores.bcount⟩, ?_⟩
    · omega
    · exact fun _ => Session.setOpenFile_self _ _
  · have short := Nat.lt_of_not_le fits
    obtain ⟨fat', firstIndex', allocated, grown, computes⟩ :=
      Session.write_short index inside isChain succeeds buf positive countFits
        short
    have extended := Session.fileChain_extended descriptor.file grown
    have full := Session.extendedChain_full short
    have stores := Session.storesAt_stored
      (session.setChain descriptor.file fat' firstIndex') extended.nodup
      descriptor.offset.toNat (session.room chain - descriptor.offset.toNat)
      buf (by omega)
    refine ⟨_, session.room chain - descriptor.offset.toNat,
      fsWrite_computes isOpen positive computes, ?_, rfl, extended,
      ⟨stores.inside, stores.stored, stores.kept, stores.bcount⟩, ?_⟩
    · omega
    · omega

/-- `fs_write` returns the number of bytes that fit in the blocks of the file
and the free blocks, stores exactly these bytes at the places of their positions
in the chain behind the call, and changes nothing else on the disk. -/
theorem fsWrite_storesAt
    (wellFormed : session.WellFormed)
    (isOpen : session.openFiles index = some descriptor)
    (isChain : session.FileChain descriptor.file chain)
    (succeeds : host.IoSucceeds)
    (buf : Buffer)
    (positive : 1 ≤ count)
    (countFits : count ≤ intMax) :
    ∃ (after : Session) (chain' : List UInt16) (bytes : Nat),
      bytes = min count
        (4096 * (chain.length + (freeBlocks session.fat).length) -
          descriptor.offset.toNat) ∧
      Computes
        (fun fuel =>
          fsWrite fuel host session.toState index.val (some buf) count)
        (chain.length + 1) (after.toState, (bytes : Int)) ∧
      after.FileChain descriptor.file chain' ∧
      StoresAt session after chain' descriptor.offset.toNat buf bytes := by
  obtain ⟨after, bytes, computes, outcome⟩ :=
    fsWrite_outcome index wellFormed isOpen isChain succeeds buf positive
      countFits
  exact ⟨after, _, bytes, outcome.bytes_eq, computes, outcome.fileChain,
    outcome.stores⟩

end

/-- A write of 9000 bytes to the file of five bytes, for which the blocks 2 and
3 are allocated. -/
theorem fsWrite_storesAt_sample :
    ∃ (after : Session) (chain' : List UInt16) (bytes : Nat),
      bytes = min 9000 (4096 * (1 + 2) - 0) ∧
      Computes
        (fun fuel => fsWrite fuel .reliable Session.sample.toState 0
          (some fun _ => 7) 9000)
        2 (after.toState, (bytes : Int)) ∧
      after.FileChain 0 chain' ∧
      StoresAt Session.sample after chain' 0 (fun _ => 7) bytes :=
  fsWrite_storesAt 0 Session.sample_wellFormed rfl
    Session.sample_fileChain Host.reliable_reliable.toIoSucceeds (fun _ => 7)
    (by decide) (by decide)

end MsFat
