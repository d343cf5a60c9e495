import MsFat.Frame

/-!
# File sizes

`fs_write` adds the bytes it has written to the size of the file, wherever they
lie, and leaves the size alone when it returns early.  So the size is the end of
the highest write exactly as long as every write is an append that fits, or
fails to fit in a file that fills the disk.
-/

namespace MsFat

namespace Session

/-- The size of a file. -/
def size (session : Session) (file : Slot) : Nat :=
  (session.root file).fileSize.toNat

/-- The write is of no bytes, or an append that fits, or one that does not fit
while the file fills its blocks and no block is free. -/
def SizeExact
    (session : Session)
    (descriptor : FileDescriptor)
    (count : Nat) : Prop :=
  ∀ chain, session.FileChain descriptor.file chain →
    count = 0 ∨
      (descriptor.offset.toNat + count ≤ session.room chain ∧
        descriptor.offset.toNat = session.size descriptor.file) ∨
      (session.room chain < descriptor.offset.toNat + count ∧
        session.size descriptor.file = session.room chain)

/-- The condition speaks about the one chain of the file. -/
theorem sizeExact_iff
    {session : Session}
    {descriptor : FileDescriptor}
    {chain : List UInt16}
    (isChain : session.FileChain descriptor.file chain)
    (count : Nat) :
    session.SizeExact descriptor count ↔
      (count = 0 ∨
        (descriptor.offset.toNat + count ≤ session.room chain ∧
          descriptor.offset.toNat = session.size descriptor.file) ∨
        (session.room chain < descriptor.offset.toNat + count ∧
          session.size descriptor.file = session.room chain)) := by
  constructor
  · intro holds
    exact holds chain isChain
  · intro holds other isOther
    rw [isOther.unique isChain]
    exact holds

theorem setChain_size
    (session : Session)
    (file : Slot)
    (fat' : Fat session.sb.numDataBlocks.toNat)
    (firstIndex' : UInt16) :
    (session.setChain file fat' firstIndex').size file = session.size file :=
  congrArg UInt32.toNat (setChain_fileSize file)

end Session

section

variable {session after : Session} {index : Descriptor}
  {descriptor : FileDescriptor} {chain : List UInt16} {host : Host}
  {buf : Buffer} {count : Nat}
  {fat' : Fat session.sb.numDataBlocks.toNat} {firstIndex' : UInt16}

/-- The file keeps the extended chain behind a write. -/
theorem Written.fileChain
    {result : Int}
    (extended : (session.setChain descriptor.file fat' firstIndex').FileChain
      descriptor.file
      (session.extendedChain chain descriptor.offset.toNat count))
    (written : Written (session.setChain descriptor.file fat' firstIndex')
      (session.extendedChain chain descriptor.offset.toNat count) host index
      descriptor buf count after result) :
    after.FileChain descriptor.file
      (session.extendedChain chain descriptor.offset.toNat count) := by
  cases written with
  | complete _ => exact Session.finishWrite_fileChain _ _ _ extended
  | short _ => exact extended
  | hostFailed _ _ _ _ => exact extended

/-- A write that does not fail has stored all its bytes and grown the size by
their number, or it has stored those that fit and left the size alone. -/
theorem Written.size_cases
    {result : Nat}
    (sizeFits : session.size descriptor.file + count < 2 ^ 32)
    (written : Written (session.setChain descriptor.file fat' firstIndex')
      (session.extendedChain chain descriptor.offset.toNat count) host index
      descriptor buf count after result) :
    (descriptor.offset.toNat + count ≤ session.room chain ∧ result = count ∧
        after.size descriptor.file = session.size descriptor.file + count) ∨
      (session.room chain < descriptor.offset.toNat + count ∧
        result = session.room chain - descriptor.offset.toNat ∧
        after.size descriptor.file = session.size descriptor.file) := by
  generalize resultEq : (result : Int) = value at written
  cases written with
  | complete inside =>
      left
      refine ⟨?_, Int.natCast_inj.mp resultEq, ?_⟩
      · by_contra tooLong
        have full := Session.extendedChain_full (Nat.lt_of_not_le tooLong)
        omega
      · have sizeEq := session.setChain_size descriptor.file fat' firstIndex'
        have grew := Session.finishWrite_fileSize
          ((session.setChain descriptor.file fat' firstIndex').stored
            (session.extendedChain chain descriptor.offset.toNat count)
            descriptor.offset.toNat buf count) index descriptor
          (sizeEq.symm ▸ sizeFits)
        exact grew.trans (congrArg (· + count) sizeEq)
  | short short =>
      right
      have tooLong : session.room chain < descriptor.offset.toNat + count := by
        by_contra fits
        have holds := Session.extendedChain_holds (Nat.le_of_not_lt fits)
        omega
      refine ⟨tooLong, ?_, session.setChain_size descriptor.file fat' firstIndex'⟩
      rw [← Session.extendedChain_full tooLong]
      exact Int.natCast_inj.mp resultEq
  | hostFailed _ _ _ _ => omega

/-- The two outcomes of a write that returns a number of bytes: it has changed
nothing, for it was of no bytes, or it has extended the chain and the size. -/
theorem Effect.size_cases
    {event : Event}
    (isChain : session.FileChain descriptor.file chain)
    (inChain : session.size descriptor.file ≤ blockSize * chain.length)
    (countFits : count ≤ intMax)
    (call : event.call = .write index.val (some buf) count)
    (isOpen : session.openFiles index = some descriptor)
    {bytes : Nat}
    (resultEq : event.result = bytes)
    (effect : Effect session event after) :
    (after = session ∧ count = 0 ∧ bytes = 0) ∨
      (after.FileChain descriptor.file
          (session.extendedChain chain descriptor.offset.toNat count) ∧
        (session.InUse descriptor.file → after.InUse descriptor.file) ∧
        0 < count ∧
        ((descriptor.offset.toNat + count ≤ session.room chain ∧
            bytes = count ∧ after.size descriptor.file =
              session.size descriptor.file + count) ∨
          (session.room chain < descriptor.offset.toNat + count ∧
            bytes = session.room chain - descriptor.offset.toNat ∧
            after.size descriptor.file = session.size descriptor.file))) := by
  rcases effect.of_write call isOpen with
    ⟨same, empty, zero⟩ | ⟨own, fat', firstIndex', _, positive, isOwn, grown,
      written⟩
  · exact .inl ⟨same, empty, by omega⟩
  · rw [isOwn.unique isChain] at grown written
    rw [resultEq] at written
    have bound := Session.chain_bytes_le isChain
    refine .inr ⟨written.fileChain
      (Session.fileChain_extended descriptor.file grown), ?_, positive,
      written.size_cases (by simp only [intMax] at countFits; omega)⟩
    intro used
    exact written.inUse ((session.setChain_inUse _ _ _ _).mpr used)

/-- A write through a descriptor that stands inside the file leaves the size at
the larger of the old size and its end exactly if it meets `SizeExact`. -/
theorem Effect.size_max_iff
    {event : Event}
    (isChain : session.FileChain descriptor.file chain)
    (inChain : session.size descriptor.file ≤ blockSize * chain.length)
    (within : descriptor.offset.toNat ≤ session.size descriptor.file)
    (countFits : count ≤ intMax)
    (call : event.call = .write index.val (some buf) count)
    (isOpen : session.openFiles index = some descriptor)
    {bytes : Nat}
    (resultEq : event.result = bytes)
    (effect : Effect session event after) :
    after.size descriptor.file =
        max (session.size descriptor.file)
          (descriptor.offset.toNat + bytes) ↔
      session.SizeExact descriptor count := by
  have bound := session.chain_le_room chain
  simp only [blockSize] at bound inChain
  rw [Session.sizeExact_iff isChain]
  rcases effect.size_cases isChain inChain countFits call isOpen resultEq with
    ⟨rfl, empty, zero⟩ | ⟨_, _, positive, ⟨fits, rfl, grew⟩ | ⟨short, rfl,
      kept⟩⟩
  · omega
  · omega
  · omega

end

/-! ## Runs -/

/-- `Reaches file state event high high'`: if every byte of the file lies below
`high` before the event, then below `high'` behind it. -/
inductive Reaches
    (file : Slot)
    (state : State)
    (event : Event)
    (high : Nat) : Nat → Prop
  | written
      {index : Descriptor}
      {descriptor : FileDescriptor}
      {buf : Buffer}
      {count bytes : Nat}
      (call : event.call = .write index.val (some buf) count)
      (isOpen : state.openFiles index = some descriptor)
      (same : descriptor.file = file)
      (result : event.result = bytes)
      (positive : 0 < bytes) :
      Reaches file state event high
        (max high (descriptor.offset.toNat + bytes))
  | other
      (none : ∀ (index : Descriptor) descriptor buf count,
        event.call = .write index.val (some buf) count →
          state.openFiles index = some descriptor →
            descriptor.file = file → event.result ≤ 0) :
      Reaches file state event high high

/-- What a write of some bytes to the file reaches. -/
theorem Reaches.of_write
    {file : Slot}
    {state : State}
    {event : Event}
    {high high' : Nat}
    {index : Descriptor}
    {descriptor : FileDescriptor}
    {buf : Buffer}
    {count bytes : Nat}
    (call : event.call = .write index.val (some buf) count)
    (isOpen : state.openFiles index = some descriptor)
    (same : descriptor.file = file)
    (result : event.result = bytes)
    (reaches : Reaches file state event high high') :
    high' = if bytes = 0 then high
      else max high (descriptor.offset.toNat + bytes) := by
  cases reaches with
  | written otherCall otherOpen _ otherResult positive =>
      have sameCall := call.symm.trans otherCall
      simp only [Call.write.injEq, Int.natCast_inj, Fin.val_inj] at sameCall
      obtain ⟨rfl, _, _⟩ := sameCall
      have sameDescriptor := isOpen.symm.trans otherOpen
      cases sameDescriptor
      rw [result] at otherResult
      rw [Int.natCast_inj.mp otherResult, if_neg (by omega)]
  | other none =>
      have := none index descriptor buf count call isOpen same
      rw [if_pos (by omega)]

/-- The call does not delete the file, and if it writes to the file, it does not
fail and meets `SizeExact`. -/
structure KeepsSizeExact
    (file : Slot)
    (state : State)
    (event : Event) : Prop where
  noDelete : ∀ name volume, event.call = .delete (some name) →
    event.result = 0 → state.volume = some volume →
      arrayString (volume.root file).filename ≠ name.bytes
  writes : ∀ (index : Descriptor) descriptor buf count (session : Session),
    event.call = .write index.val (some buf) count →
      state = session.toState → session.openFiles index = some descriptor →
        descriptor.file = file →
          0 ≤ event.result ∧ session.SizeExact descriptor count

/-- A call that meets `KeepsSizeExact`, with the end of the highest write to the
file so far. -/
def SizeStep
    (file : Slot)
    (before : State × Nat)
    (event : Event)
    (after : State × Nat) : Prop :=
  Guarded Step (KeepsSizeExact file) before.1 event after.1 ∧
    Reaches file before.1 event before.2 after.2

/-- The size of the file is the end of its highest write and lies in its
chain. -/
structure SizeTracked
    (session : Session)
    (file : Slot)
    (high : Nat)
    (chain : List UInt16) : Prop where
  wellFormed : session.WellFormed
  inUse : session.InUse file
  isChain : session.FileChain file chain
  size_eq : session.size file = high
  inChain : high ≤ blockSize * chain.length

namespace SizeTracked

variable {session : Session} {file : Slot} {high high' : Nat}
  {chain : List UInt16} {event : Event} {after : Session}

/-- A write to the file that meets `SizeExact`. -/
theorem of_write
    {index : Descriptor}
    {descriptor : FileDescriptor}
    {buf : Buffer}
    {count bytes : Nat}
    (tracked : SizeTracked session descriptor.file high chain)
    (call : event.call = .write index.val (some buf) count)
    (isOpen : session.openFiles index = some descriptor)
    (countFits : count ≤ intMax)
    (result : event.result = bytes)
    (exactSize : session.SizeExact descriptor count)
    (reaches : Reaches descriptor.file session.toState event high high')
    (effect : Effect session event after) :
    ∃ chain', SizeTracked after descriptor.file high' chain' := by
  obtain ⟨wellFormed, used, isChain, sizeEq, inChain⟩ := tracked
  have highEq := Reaches.of_write call isOpen rfl result reaches
  rcases effect.size_cases isChain (sizeEq.symm ▸ inChain) countFits call
      isOpen result with
    ⟨rfl, _, zero⟩ | ⟨extended, usedAfter, positive, sizes⟩
  · rw [if_pos zero] at highEq
    subst highEq
    exact ⟨chain, wellFormed, used, isChain, sizeEq, inChain⟩
  · suffices both : after.size descriptor.file = high' ∧
        high' ≤ blockSize * (session.extendedChain chain
          descriptor.offset.toNat count).length by
      exact ⟨_, effect.wellFormed wellFormed, usedAfter used, extended, both.1,
        both.2⟩
    rcases exactSize chain isChain with empty | ⟨fits, atEnd⟩ | ⟨short, full⟩
    · omega
    · have holds := Session.extendedChain_holds fits
      rcases sizes with ⟨_, rfl, grew⟩ | ⟨short, _, _⟩
      · rw [if_neg (by omega)] at highEq
        omega
      · omega
    · have filled := Session.extendedChain_full short
      rcases sizes with ⟨fits, _, _⟩ | ⟨_, rfl, kept⟩
      · omega
      · rw [highEq, kept]
        split <;> omega

/-- A call that spares the file. -/
theorem of_spares
    (tracked : SizeTracked session file high chain)
    (spares : SparesFile file session.toState event)
    (effect : Effect session event after) :
    SizeTracked after file high chain := by
  obtain ⟨wellFormed, used, isChain, sizeEq, inChain⟩ := tracked
  have same := effect.sameFile wellFormed used spares
  refine ⟨effect.wellFormed wellFormed, ?_, same.chain chain isChain, ?_,
    inChain⟩
  · unfold Session.InUse
    rw [same.entry]
    exact used
  · unfold Session.size
    rw [same.entry]
    exact sizeEq

/-- The size of the file follows the end of its highest write. -/
theorem step
    {last : State}
    (tracked : SizeTracked session file high chain)
    (step : SizeStep file (session.toState, high) event (last, high')) :
    ∃ after chain', last = after.toState ∧
      SizeTracked after file high' chain' := by
  obtain ⟨⟨callStep, keeps⟩, reaches⟩ := step
  change Step session.toState event last at callStep
  change KeepsSizeExact file session.toState event at keeps
  change Reaches file session.toState event high high' at reaches
  obtain ⟨after, rfl, effect⟩ := step_effect tracked.wellFormed callStep
  by_cases writes : ∃ (index : Descriptor) (descriptor : FileDescriptor)
      (buf : Buffer) (count : Nat),
      event.call = .write index.val (some buf) count ∧
        session.openFiles index = some descriptor ∧ descriptor.file = file
  · obtain ⟨index, descriptor, buf, count, call, isOpen, rfl⟩ := writes
    obtain ⟨nonneg, exactSize⟩ :=
      keeps.writes index descriptor buf count session call rfl isOpen rfl
    obtain ⟨bytes, result⟩ := Int.eq_ofNat_of_zero_le nonneg
    have countFits : count ≤ intMax := by
      have fits := callStep.1
      rw [call] at fits
      exact fits
    obtain ⟨chain', trackedAfter⟩ := tracked.of_write call isOpen countFits
      result exactSize reaches effect
    exact ⟨after, chain', rfl, trackedAfter⟩
  · have spares : SparesFile file session.toState event := by
      refine ⟨?_, keeps.noDelete⟩
      intro index descriptor buf count call isOpen same
      exact writes ⟨index, descriptor, buf, count, call, isOpen, same⟩
    have highEq : high' = high := by
      cases reaches with
      | written call isOpen same _ _ =>
          exact absurd ⟨_, _, _, _, call, isOpen, same⟩ writes
      | other _ => rfl
    subst highEq
    exact ⟨after, chain, rfl, tracked.of_spares spares effect⟩

/-- The size of the file follows the end of its highest write along a run. -/
theorem run
    {events : List Event}
    {last : State}
    (tracked : SizeTracked session file high chain)
    (run : Run (SizeStep file) (session.toState, high) events (last, high')) :
    ∃ after chain', last = after.toState ∧
      SizeTracked after file high' chain' := by
  refine run.invariant
    (fun state => ∃ after chain', state.1 = after.toState ∧
      SizeTracked after file state.2 chain') ?_ ⟨session, chain, rfl, tracked⟩
  rintro ⟨_, _⟩ event ⟨_, _⟩ ⟨current, own, rfl, tracked⟩ step
  exact tracked.step step

/-- The size is what `fs_stat` returns. -/
theorem fsStat_eq
    {index : Descriptor}
    {descriptor : FileDescriptor}
    (tracked : SizeTracked session descriptor.file high chain)
    (isOpen : session.openFiles index = some descriptor) :
    fsStat session.toState index.val = .ok (session.toState, (high : Int)) := by
  have bound := Session.chain_bytes_le tracked.isChain
  have inBound := tracked.inChain
  have sizeEq : (session.root descriptor.file).fileSize.toNat = high :=
    tracked.size_eq
  rw [fsStat_open isOpen, sizeEq, int32_of_range (by omega) (by omega)]

end SizeTracked

/-- A write through a descriptor that stands inside the file and returns a
number of bytes leaves the size at the larger of the old size and the end of the
write exactly if it meets `SizeExact`.  In a run whose writes to the file all
do, the size is at every time what `fs_stat` returns, the end of the highest
write, and at most the bytes of the chain. -/
theorem fileSize_max_iff
    {session : Session}
    {file : Slot}
    {chain : List UInt16}
    (wellFormed : session.WellFormed)
    (used : session.InUse file)
    (isChain : session.FileChain file chain)
    (inChain : session.size file ≤ 4096 * chain.length) :
    (∀ (index : Descriptor) descriptor host buf count (bytes : Nat) after,
      session.openFiles index = some descriptor → descriptor.file = file →
      descriptor.offset.toNat ≤ session.size file →
      Step session.toState
        ⟨host, .write index.val (some buf) count, bytes⟩ after →
      ∃ session' : Session, after = session'.toState ∧
        (session'.size file =
            max (session.size file) (descriptor.offset.toNat + bytes) ↔
          session.SizeExact descriptor count)) ∧
    (∀ events after high,
      Run (SizeStep file) (session.toState, session.size file) events
        (after, high) →
      ∃ (session' : Session) (chain' : List UInt16), after = session'.toState ∧
        session'.FileChain file chain' ∧ session'.size file = high ∧
        high ≤ 4096 * chain'.length ∧
        ∀ (index : Descriptor) descriptor,
          session'.openFiles index = some descriptor →
          descriptor.file = file →
            fsStat after index.val = .ok (after, (high : Int))) := by
  constructor
  · rintro index descriptor host buf count bytes after isOpen rfl within step
    obtain ⟨session', rfl, effect⟩ := step_effect wellFormed step
    exact ⟨session', rfl,
      effect.size_max_iff isChain inChain within step.1 rfl isOpen rfl⟩
  · intro events after high run
    have tracked : SizeTracked session file (session.size file) chain :=
      ⟨wellFormed, used, isChain, rfl, inChain⟩
    obtain ⟨session', chain', rfl, reached⟩ := tracked.run run
    refine ⟨session', chain', rfl, reached.isChain, reached.size_eq,
      reached.inChain, ?_⟩
    rintro index descriptor isOpen rfl
    exact reached.fsStat_eq isOpen

/-- Overwriting one of the five bytes of a file makes its size 6. -/
theorem fileSize_overwrite :
    Session.sample.WellFormed ∧ Session.sample.FileChain 0 [1] ∧
      Session.sample.openFiles 0 = some { file := 0, offset := 0 } ∧
      Session.sample.size 0 ≤ 4096 * 1 ∧
      ∃ session' : Session,
        Step Session.sample.toState
          ⟨.reliable, .write 0 (some fun _ => 7) 1, 1⟩ session'.toState ∧
        session'.size 0 ≠ max (Session.sample.size 0) (0 + 1) := by
  have step : ∃ session' : Session,
      Step Session.sample.toState
        ⟨.reliable, .write 0 (some fun _ => 7) 1, 1⟩ session'.toState ∧
      session'.size 0 = 6 :=
    ⟨_, ⟨show 1 ≤ intMax by decide, 5, rfl⟩, rfl⟩
  obtain ⟨session', step, size⟩ := step
  refine ⟨Session.sample_wellFormed, Session.sample_fileChain, rfl, by decide,
    session', step, ?_⟩
  rw [size]
  decide

/-- The file of five bytes. -/
theorem fileSize_max_iff_sample :
    ∃ session' : Session,
      Step Session.sample.toState
        ⟨.reliable, .write 0 (some fun _ => 7) 1, 1⟩ session'.toState ∧
      (session'.size 0 = max (Session.sample.size 0) (0 + 1) ↔
        Session.sample.SizeExact { file := 0, offset := 0 } 1) := by
  have step : ∃ after,
      Step Session.sample.toState
        ⟨.reliable, .write 0 (some fun _ => 7) 1, 1⟩ after :=
    ⟨_, show 1 ≤ intMax by decide, 5, rfl⟩
  obtain ⟨after, step⟩ := step
  obtain ⟨session', rfl, holds⟩ :=
    (fileSize_max_iff Session.sample_wellFormed
      Session.sample_inUse Session.sample_fileChain
      (by decide)).1 0 { file := 0, offset := 0 } .reliable (fun _ => 7) 1 1
        after rfl rfl (by decide) step
  exact ⟨session', step, holds⟩

end MsFat
