import MsFat.Frame

/-!
# Reading back what was written

What a write has stored can be read back through any descriptor on the file, as
long as the file is neither written nor deleted in between.
-/

namespace MsFat

open Memory

/-- The file holds the first `bytes` bytes of `data` from position `start`
on. -/
structure HoldsAt
    (session : Session)
    (file : Slot)
    (start : Nat)
    (data : Buffer)
    (bytes : Nat)
    (chain : List UInt16) : Prop where
  inUse : session.InUse file
  isChain : session.FileChain file chain
  inside : start + bytes ≤ blockSize * chain.length
  contents : ∀ offset < bytes,
    session.contents chain (start + offset) = data offset
  size : start + bytes ≤ (session.root file).fileSize.toNat

/-- What a file holds stays with it as long as the file stays the same. -/
theorem HoldsAt.of_sameFile
    {before after : Session}
    {file : Slot}
    {start bytes : Nat}
    {data : Buffer}
    {chain : List UInt16}
    (holds : HoldsAt before file start data bytes chain)
    (same : before.SameFile file after) :
    HoldsAt after file start data bytes chain where
  inUse := by
    unfold Session.InUse
    rw [same.entry]
    exact holds.inUse
  isChain := same.chain chain holds.isChain
  inside := holds.inside
  contents := by
    intro offset early
    have inside := holds.inside
    rw [same.contents chain holds.isChain (start + offset) (by omega)]
    exact holds.contents offset early
  size := by
    rw [same.entry]
    exact holds.size

/-- The file holds what a complete write has stored. -/
theorem HoldsAt.of_write
    {session after : Session}
    {event : Event}
    {index : Descriptor}
    {descriptor : FileDescriptor}
    {data : Buffer}
    {count : Nat}
    (used : session.InUse descriptor.file)
    (isOpen : session.openFiles index = some descriptor)
    (within : descriptor.offset.toNat ≤
      (session.root descriptor.file).fileSize.toNat)
    (positive : 1 ≤ count)
    (sizeFits :
      (session.root descriptor.file).fileSize.toNat + count < 2 ^ 32)
    (call : event.call = .write index.val (some data) count)
    (complete : event.result = count)
    (effect : Effect session event after) :
    ∃ chain, HoldsAt after descriptor.file descriptor.offset.toNat data count
      chain := by
  rcases effect.of_write call isOpen with
    ⟨_, _, idle⟩ | ⟨chain, fat', firstIndex', _, _, _, grown, written⟩
  · omega
  · have extended := Session.fileChain_extended descriptor.file grown
    have usedAfter := written.inUse
      ((session.setChain_inUse descriptor.file fat' firstIndex' _).mpr used)
    generalize event.result = result at written complete
    cases written with
    | complete inside =>
        refine ⟨_, usedAfter, Session.finishWrite_fileChain _ _ _ extended,
          inside, ?_, ?_⟩
        · intro offset early
          refine scatter_apply_place (Set.InjOn.mono ?_
            ((session.setChain descriptor.file fat' firstIndex').place_injOn
              extended.nodup)) early
          intro position below
          exact Nat.lt_of_lt_of_le below inside
        · have sizeEq : ((session.setChain descriptor.file fat'
              firstIndex').root descriptor.file).fileSize =
                (session.root descriptor.file).fileSize := by
            simp [Session.setChain]
          have grew := Session.finishWrite_fileSize
            ((session.setChain descriptor.file fat' firstIndex').stored
              (session.extendedChain chain descriptor.offset.toNat count)
              descriptor.offset.toNat data count) index descriptor
            (by
              change ((session.setChain descriptor.file fat' firstIndex').root
                descriptor.file).fileSize.toNat + count < 2 ^ 32
              rw [sizeEq]
              exact sizeFits)
          rw [grew]
          change descriptor.offset.toNat + count ≤
            ((session.setChain descriptor.file fat' firstIndex').root
              descriptor.file).fileSize.toNat + count
          rw [sizeEq]
          omega
    | short short => omega
    | hostFailed _ _ _ _ => omega

/-- What a file holds is found by `fs_lseek` and `fs_read`. -/
theorem HoldsAt.fsRead
    {session : Session}
    {file : Slot}
    {start bytes : Nat}
    {data : Buffer}
    {chain : List UInt16}
    (holds : HoldsAt session file start data bytes chain)
    (inside : session.DataInside)
    {index : Descriptor}
    {descriptor : FileDescriptor}
    (isOpen : session.openFiles index = some descriptor)
    (fileEq : descriptor.file = file)
    {host : Host}
    (succeeds : host.IoSucceeds)
    (buf : Buffer)
    {skipped count : Nat}
    (positive : 1 ≤ count)
    (le : skipped + count ≤ bytes)
    (countFits : count ≤ intMax)
    (offsetFits : start + skipped ≤ 65535) :
    ∃ sought final buf',
      fsLseek session.toState index.val (start + skipped) = .ok (sought, 0) ∧
      MsFat.fsRead host sought index.val (some buf) count =
        .ok (final, some buf', (count : Int)) ∧
      ∀ offset < count, buf' offset = data (skipped + offset) := by
  subst fileEq
  have size := holds.size
  have inChain := holds.inside
  have offsetEq : (UInt16.ofNat (start + skipped)).toNat = start + skipped := by
    rw [UInt16.toNat_ofNat']
    exact Nat.mod_eq_of_lt (by omega)
  have soughtOpen : (session.setOpenFile index (some
      { descriptor with
        offset := UInt16.ofNat (start + skipped) })).openFiles index = _ :=
    Session.setOpenFile_self index _
  have insideSought : (session.setOpenFile index (some
      { descriptor with
        offset := UInt16.ofNat (start + skipped) })).DataInside :=
    ⟨inside.data_le, inside.bcount_eq⟩
  have returns := fsRead_complete insideSought soughtOpen holds.isChain
    succeeds buf positive countFits (by
      change (UInt16.ofNat (start + skipped)).toNat + count ≤ _
      omega)
  refine ⟨_, _, _, fsLseek_open isOpen (by omega), returns, ?_⟩
  intro offset early
  unfold Session.loaded
  rw [memcpy_apply_inside (Nat.zero_le _) (by omega), offsetEq, Nat.sub_zero,
    Nat.add_assoc]
  exact holds.contents (skipped + offset) (by omega)

/-- After a complete write to a file and any run of calls that neither write nor
delete the file, `fs_lseek` to a written position succeeds and the following
`fs_read` returns the bytes of the write from there on. -/
theorem fsRead_fsWrite
    {session : Session}
    (wellFormed : session.WellFormed)
    (index : Descriptor)
    {descriptor : FileDescriptor}
    (isOpen : session.openFiles index = some descriptor)
    (within : descriptor.offset.toNat ≤
      (session.root descriptor.file).fileSize.toNat)
    {n : Nat}
    (positive : 1 ≤ n)
    (sizeFits : (session.root descriptor.file).fileSize.toNat + n < 2 ^ 32)
    {host : Host}
    {data : Buffer}
    {written : State}
    (write : Step session.toState
      ⟨host, .write index.val (some data) n, n⟩ written)
    {events : List Event}
    {after : State}
    (run : Run (Guarded Step (SparesFile descriptor.file)) written events after)
    (j : Nat)
    {m : Nat}
    (nonempty : 1 ≤ m)
    (inWrite : j + m ≤ n)
    (offsetFits : descriptor.offset.toNat + j ≤ 65535)
    (index' : Descriptor)
    {descriptor' : FileDescriptor}
    (isOpen' : after.openFiles index' = some descriptor')
    (sameFile : descriptor'.file = descriptor.file)
    {host' : Host}
    (succeeds : host'.IoSucceeds)
    (buf : Buffer) :
    ∃ sought final buf',
      fsLseek after index'.val (descriptor.offset.toNat + j) =
        .ok (sought, 0) ∧
      fsRead host' sought index'.val (some buf) m =
        .ok (final, some buf', (m : Int)) ∧
      ∀ i < m, buf' i = data (j + i) := by
  have countFits : n ≤ intMax := write.1
  obtain ⟨middle, rfl, effect⟩ := step_effect wellFormed write
  obtain ⟨chain, holds⟩ :=
    HoldsAt.of_write (wellFormed.descriptors index descriptor isOpen) isOpen
      within positive sizeFits rfl rfl effect
  obtain ⟨last, rfl, wellFormedLast, effects⟩ :=
    run_effects run rfl (effect.wellFormed wellFormed)
  have same := sameFile_of_run effects holds.inUse
  exact (holds.of_sameFile same).fsRead wellFormedLast.layout.toDataInside
    isOpen' sameFile succeeds buf nonempty inWrite (by omega) offsetFits

/-- The last two of three bytes are read back after another file was
created. -/
theorem fsRead_fsWrite_sample :
    ∃ written after,
      Step Session.sample.toState
        ⟨.reliable, .write 0 (some fun i => UInt8.ofNat (i + 1)) 3, 3⟩ written ∧
      Run (Guarded Step (SparesFile 0)) written
        [⟨.reliable, .create (some nameB), 0⟩] after ∧
      ∃ sought final buf',
        fsLseek after 0 1 = .ok (sought, 0) ∧
        fsRead .reliable sought 0 (some fun _ => 0) 2 =
          .ok (final, some buf', 2) ∧
        ∀ i < 2, buf' i = UInt8.ofNat (1 + i + 1) := by
  have steps : ∃ written after,
      Step Session.sample.toState
        ⟨.reliable, .write 0 (some fun i => UInt8.ofNat (i + 1)) 3, 3⟩ written ∧
      Run (Guarded Step (SparesFile 0)) written
        [⟨.reliable, .create (some nameB), 0⟩] after ∧
      after.openFiles 0 = some { file := 0, offset := 3 } :=
    ⟨_, _, ⟨show 3 ≤ intMax by decide, 5, rfl⟩,
      .cons ⟨⟨trivial, 0, rfl⟩, ⟨nofun, nofun⟩⟩ .nil, rfl⟩
  obtain ⟨written, after, write, run, isOpen⟩ := steps
  exact ⟨written, after, write, run,
    fsRead_fsWrite Session.sample_wellFormed 0 rfl (by decide) (by decide)
      (by decide) write run 1 (by decide) (by decide) (by decide) 0 isOpen rfl
      Host.reliable_reliable.toIoSucceeds fun _ => 0⟩

end MsFat
