import MsFat.Commute
import MsFat.ReadBounds
import MsFat.Store.Answers
import MsFat.Transfer.EmptyRead
import MsFat.WriteEffect

/-!
# Transfers of the store

What `fs_write` and `fs_read` do on a session, the store that the session
represents answers.  A write changes one file, whose new bytes are known behind
it; the bytes of the blocks that it takes are not.
-/

namespace MsFat

open Memory

/-! ## Numbers of a transfer -/

namespace StoredFile

variable {file : StoredFile}

/-- The chain that a write leaves has the blocks of the file behind it. -/
theorem extendedChain_length_eq
    {session : Session}
    {store : Store}
    {chain : List UInt16}
    (blocks : chain.length = file.blocks)
    (room : store.freeBlocks = (freeBlocks session.fat).length)
    (offset count : Nat) :
    (session.extendedChain chain offset count).length =
      file.blocks + file.taken store.freeBlocks offset count := by
  rw [Session.extendedChain_length, blocks, ← room]
  rfl

/-- What a write adds to the bytes that are known. -/
theorem write_bytes_cases
    {room offset count position : Nat}
    {buf : Buffer}
    {byte : UInt8}
    (known : (file.write room offset buf count).bytes position = some byte) :
    (offset ≤ position ∧ position < offset + file.written room offset count ∧
        buf (position - offset) = byte) ∨
      ((position < offset ∨ offset + file.written room offset count ≤ position) ∧
        file.bytes position = some byte) := by
  unfold write at known
  dsimp only at known
  by_cases moved : offset ≤ position ∧
      position < offset + file.written room offset count
  · rw [if_pos moved] at known
    exact .inl ⟨moved.1, moved.2, Option.some.inj known⟩
  · rw [if_neg moved] at known
    exact .inr ⟨by omega, known⟩

end StoredFile

namespace Session

variable {session : Session} {store : Store} {host : Host}

/-! ## Writes -/

/-- The file behind a write to it, which has left these bytes. -/
theorem StoresFile.of_write
    {slot : Slot}
    {file : StoredFile}
    {chain extended : List UInt16}
    (stores : session.StoresFile slot file chain)
    (longer : chain <+: extended)
    {after : Session}
    (isChain : after.FileChain slot extended)
    {room offset count bytes : Nat}
    {buf : Buffer}
    (isBytes : bytes = file.written room offset count)
    (inside : bytes = 0 ∨ offset + bytes ≤ blockSize * extended.length)
    (blocks : extended.length = file.blocks + file.taken room offset count)
    (size : (after.root slot).fileSize = (file.write room offset buf count).size)
    (contents : after.contents extended =
      (session.stored extended offset buf bytes).contents extended) :
    after.StoresFile slot (file.write room offset buf count) extended where
  isChain := isChain
  size := size
  blocks := blocks
  bytes := by
    intro position byte known
    have storesAt :=
      session.storesAt_stored isChain.nodup offset bytes buf inside
    rw [contents]
    subst isBytes
    rcases StoredFile.write_bytes_cases known with
      ⟨behind, before, isByte⟩ | ⟨outside, isByte⟩
    · have early : position - offset < file.written room offset count := by
        omega
      have isPosition : offset + (position - offset) = position := by omega
      refine ⟨by omega, ?_⟩
      have stored := storesAt.stored (position - offset) early
      rw [isPosition] at stored
      exact stored.trans isByte
    · obtain ⟨inChain, held⟩ := stores.bytes position byte isByte
      obtain ⟨taken, rfl⟩ := longer
      have inExtended : position < blockSize * (chain ++ taken).length := by
        rw [List.length_append]
        exact Nat.lt_of_lt_of_le inChain
          (Nat.mul_le_mul_left _ (Nat.le_add_right _ _))
      refine ⟨inExtended, ?_⟩
      -- No byte is stored at the place of a position outside of the write.
      have kept := storesAt.kept (session.place (chain ++ taken) position) <| by
        intro moved early same
        have atPosition := session.place_injOn isChain.nodup
          (show offset + moved < _ by omega) inExtended same
        omega
      refine kept.trans ?_
      rw [session.place_append chain taken inChain]
      exact held

/-- The file at one slot has changed, and one handle with it. -/
theorem Represents.of_changedFile
    (represents : session.Represents store)
    {after : Session}
    {slot : Slot}
    {file : StoredFile}
    {chain : List UInt16}
    {handles : Descriptor → Option Handle}
    {freeBlocks : Nat}
    (wellFormed : after.WellFormed)
    (used : session.InUse slot)
    (kept : ∀ other, other ≠ slot → after.root other = session.root other)
    (filename : (after.root slot).filename = (session.root slot).filename)
    (same : ∀ other, other ≠ slot → session.InUse other →
      session.SameFile other after)
    (stores : after.StoresFile slot file chain)
    (isHandles : ∀ index,
      handles index = (after.openFiles index).map session.handleOf)
    (count : after.numOpenFiles = session.numOpenFiles)
    (free : freeBlocks = (MsFat.freeBlocks after.fat).length)
    (firstEntry : fatNext after.fat 0 = fatNext session.fat 0) :
    after.Represents
      { store.setFile (session.nameAt slot) (some file) with
        handles := handles
        freeBlocks := freeBlocks } := by
  have filenames : ∀ other,
      (after.root other).filename = (session.root other).filename := by
    intro other
    by_cases isSlot : other = slot
    · rw [isSlot]
      exact filename
    · rw [kept other isSlot]
  have nameAt : after.nameAt = session.nameAt := by
    funext other
    unfold Session.nameAt
    rw [filenames]
  refine ⟨wellFormed, ?_, ?_, ?_, ?_, free, ?_⟩
  · apply represents.files.update kept same
    · exact fun _ => rfl
    · intro other different usedOther isName
      exact different
        (represents.wellFormed.names.slot_unique usedOther used isName)
    · intro _
      rw [nameAt]
      exact ⟨rfl, file, chain, rfl, stores⟩
    · intro _
      unfold InUse
      rw [filename]
      exact used
  · have handleOf : after.handleOf = session.handleOf := by
      funext descriptor
      unfold Session.handleOf
      rw [nameAt]
    rw [handleOf]
    exact isHandles
  · exact represents.handleCount.trans count.symm
  · refine represents.freeEntries.trans ?_
    unfold freeRootEntries
    simp only [filenames]
  · exact firstEntry.trans represents.firstEntry

/-- Entry 0 of the FAT is no entry that an allocation changes. -/
theorem fatNext_zero_of_grown
    {slot : Slot}
    {chain : List UInt16}
    {missing : Nat}
    {fat' : Fat session.sb.numDataBlocks.toNat}
    {firstIndex' : UInt16}
    {allocated : Int}
    (isChain : session.FileChain slot chain)
    (grown : Grown session.fat chain missing fat' firstIndex' allocated) :
    fatNext fat' 0 = fatNext session.fat 0 := by
  refine grown.frame 0 (fun last => ?_) fun taken => ?_
  · exact isChain.ne_zero 0 (List.mem_of_getLast? last) rfl
  · exact ((mem_freeBlocks session.numDataBlocks_lt).mp
      (List.mem_of_mem_take taken)).1 rfl

/-! ## Reads -/

/-- What is known of the bytes of a file, a read delivers. -/
theorem StoresFile.loaded_of_read
    {slot : Slot}
    {file : StoredFile}
    {chain : List UInt16}
    (stores : session.StoresFile slot file chain)
    {start count position : Nat}
    {buf : Buffer}
    {byte : UInt8}
    (known : file.read start buf count position = some byte) :
    session.loaded chain start buf count position = byte := by
  unfold StoredFile.read at known
  unfold loaded
  by_cases early : position < count
  · rw [if_pos early] at known
    rw [memcpy_apply_inside (Nat.zero_le _) (by omega), Nat.sub_zero]
    exact (stores.bytes _ byte known).2
  · rw [if_neg early] at known
    rw [memcpy_apply_outside (by omega)]
    exact Option.some.inj known

/-- When the first bytes of the file are delivered to every buffer, `fs_read`
stores in front of their end. -/
theorem fsReadStores_eq
    {chain : List UInt16}
    {fd : Int}
    {count start bytes : Nat}
    (delivers : ∀ buf, ∃ after result,
      fsRead host session.toState fd (some buf) count =
        .ok (after, some (session.loaded chain start buf bytes), result))
    (position : Nat) :
    fsReadStores host session.toState fd count position =
      decide (position < bytes) := by
  obtain ⟨_, _, zeros⟩ := delivers fun _ => 0
  obtain ⟨_, _, ones⟩ := delivers fun _ => 1
  unfold fsReadStores
  rw [zeros, ones]
  dsimp only
  by_cases early : position < bytes
  · rw [loaded_apply_of_lt _ _ _ _ early, loaded_apply_of_lt _ _ _ _ early,
      beq_self_eq_true, decide_eq_true early]
  · have behind := Nat.le_of_not_lt early
    rw [loaded_apply_of_le _ _ _ _ behind, loaded_apply_of_le _ _ _ _ behind,
      decide_eq_false early]
    rfl

/-- A read through an open descriptor that delivers the bytes of the file from a
position on. -/
theorem StoresFile.answers_of_read
    {index : Descriptor}
    {slot : Slot}
    {file : StoredFile}
    {chain : List UInt16}
    (stores : session.StoresFile slot file chain)
    {buf : Buffer}
    {count start bytes : Nat}
    {result : Int}
    {after : Session}
    {store' : Store}
    (reads : fsRead host session.toState index.val (some buf) count =
      .ok (after.toState, some (session.loaded chain start buf bytes), result))
    (delivers : ∀ buf, ∃ after result,
      fsRead host session.toState index.val (some buf) count =
        .ok (after, some (session.loaded chain start buf bytes), result))
    (representsAfter : after.Represents store') :
    session.Answers host (.read index.val (some buf) count)
      (some (store',
        { result := result
          buffer := some (file.read start buf bytes)
          stored := bytes })) := by
  refine ⟨after,
    { result := result
      buffer := some (session.loaded chain start buf bytes)
      stores := fsReadStores host session.toState index.val count },
    0, .const fun fuel => ?_, representsAfter,
    { result := rfl, buffer := ?_, stores := fsReadStores_eq delivers }⟩
  · simp only [Call.answer, reads, outcome_ok_bind, Option.isSome_some,
      Bool.true_and]
  · rintro _ ⟨⟩
    exact ⟨_, rfl, fun position byte known => stores.loaded_of_read known⟩

/-- A transfer that moves no bytes leaves the handle. -/
theorem Represents.moved_zero
    {index : Descriptor}
    {handle : Handle}
    (isHandle : store.handles index = some handle) :
    store.moved index handle 0 0 = store := by
  have same : { handle with offset := handle.offset + UInt16.ofNat 0 } =
      handle :=
    congrArg (Handle.mk handle.name) (UInt16.add_zero _)
  rw [Store.moved, if_pos rfl, same]
  unfold Store.setHandle
  rw [← isHandle, Function.update_eq_self]

namespace Represents

variable (represents : session.Represents store)

include represents

/-- A write through an open descriptor on a host that does not fail. -/
theorem wrote
    {index : Descriptor}
    {descriptor : FileDescriptor}
    {file : StoredFile}
    {chain : List UInt16}
    (isOpen : session.openFiles index = some descriptor)
    (stores : session.StoresFile descriptor.file file chain)
    {buf : Buffer}
    {count : Nat}
    (positive : 0 < count)
    {fat' : Fat session.sb.numDataBlocks.toNat}
    {firstIndex' : UInt16}
    {allocated : Int}
    (grown : Grown session.fat chain
      (targetBlocks descriptor.offset.toNat count - chain.length)
      fat' firstIndex' allocated)
    (succeeds : host.IoSucceeds)
    {after : Session}
    {result : Int}
    (written : Written (session.setChain descriptor.file fat' firstIndex')
      (session.extendedChain chain descriptor.offset.toNat count)
      host index descriptor buf count after result) :
    result = file.written store.freeBlocks descriptor.offset.toNat count ∧
      after.Represents
        (({ store.setFile (session.nameAt descriptor.file)
              (some (file.write store.freeBlocks descriptor.offset.toNat buf
                count)) with
            freeBlocks := store.freeBlocks -
              file.taken store.freeBlocks descriptor.offset.toNat
                count }).moved index (session.handleOf descriptor)
          (file.written store.freeBlocks descriptor.offset.toNat count)
          count) := by
  have used := represents.wellFormed.descriptors index descriptor isOpen
  have isExtended := fileChain_extended descriptor.file grown
  have length := StoredFile.extendedChain_length_eq stores.blocks
    represents.freeBlocks descriptor.offset.toNat count
  have longer : chain <+:
      session.extendedChain chain descriptor.offset.toNat count :=
    List.prefix_append _ _
  have effect : Effect session
      ⟨host, .write index.val (some buf) count, result⟩ after :=
    .wrote rfl isOpen positive stores.isChain grown written
  have wellFormed := effect.wellFormed represents.wellFormed
  have same : ∀ other, other ≠ descriptor.file → session.InUse other →
      session.SameFile other after := by
    intro other different usedOther
    have spares : SparesFile other session.toState
        ⟨host, .write index.val (some buf) count, result⟩ := by
      refine ⟨?_, nofun⟩
      intro index' descriptor' buf' count' isCall isOpen'
      simp only [Call.write.injEq, Int.natCast_inj, Fin.val_inj] at isCall
      rw [← isCall.1, Session.toState_openFiles, isOpen] at isOpen'
      cases isOpen'
      exact different.symm
    exact effect.sameFile represents.wellFormed usedOther spares
  have free : store.freeBlocks -
      file.taken store.freeBlocks descriptor.offset.toNat count =
        (MsFat.freeBlocks fat').length := by
    rw [grown.free, List.length_drop, ← represents.freeBlocks]
    unfold StoredFile.taken
    rw [← stores.blocks]
    unfold targetBlocks
    omega
  have firstEntry := fatNext_zero_of_grown stores.isChain grown
  have size : ((session.setChain descriptor.file fat' firstIndex').root
      descriptor.file).fileSize = file.size :=
    (setChain_fileSize _).trans stores.size
  clear effect
  generalize session.extendedChain chain descriptor.offset.toNat count =
    extended at *
  cases written with
  | complete inside =>
      have isBytes : count =
          file.written store.freeBlocks descriptor.offset.toNat count := by
        unfold StoredFile.written
        rw [← length]
        omega
      have isChain : ((((session.setChain descriptor.file fat'
          firstIndex').stored extended descriptor.offset.toNat buf
            count).finishWrite index descriptor count)).FileChain
              descriptor.file extended :=
        finishWrite_fileChain _ _ _ isExtended
      have sizeAfter : ((((session.setChain descriptor.file fat'
          firstIndex').stored extended descriptor.offset.toNat buf
            count).finishWrite index descriptor count).root
              descriptor.file).fileSize =
          (file.write store.freeBlocks descriptor.offset.toNat buf
            count).size := by
        rw [finishWrite_root_fileSize, if_pos rfl]
        exact (congrArg (· + UInt32.ofNat count) size).trans
          (if_pos isBytes.symm).symm
      have storesAfter := stores.of_write longer isChain isBytes (.inr inside)
        length sizeAfter rfl
      refine ⟨congrArg Int.ofNat isBytes, ?_⟩
      rw [← isBytes, Store.moved, if_pos rfl]
      refine represents.of_changedFile wellFormed used ?_ ?_ same storesAfter ?_
        rfl free firstEntry
      · intro other different
        exact (setFile_root_of_ne different _).trans
          (setChain_root_of_ne different)
      · rw [finishWrite_filename]
        exact setChain_filename _
      · exact (represents.setOffset isOpen _).handles
  | short short =>
      have isBytes : blockSize * extended.length - descriptor.offset.toNat =
          file.written store.freeBlocks descriptor.offset.toNat count := by
        unfold StoredFile.written
        rw [← length]
        omega
      have isChain : ((session.setChain descriptor.file fat'
          firstIndex').stored extended descriptor.offset.toNat buf
            (blockSize * extended.length -
              descriptor.offset.toNat)).FileChain descriptor.file extended :=
        isExtended
      have storesAfter := stores.of_write longer isChain isBytes (by omega)
        length (size.trans (if_neg (by omega)).symm) rfl
      refine ⟨congrArg Int.ofNat isBytes, ?_⟩
      rw [← isBytes, Store.moved, if_neg (by omega)]
      exact represents.of_changedFile wellFormed used
        (fun other different => setChain_root_of_ne different)
        (setChain_filename _) same storesAfter represents.handles rfl free
        firstEntry
  | hostFailed _ _ _ unreliable => exact absurd succeeds unreliable

/-- `fs_write` does what the store answers. -/
theorem answers_write
    (succeeds : host.IoSucceeds)
    (fd : Int)
    (buf : Option Buffer)
    {count : Nat}
    (countFits : count ≤ intMax) :
    session.Answers host (.write fd buf count) (store.write fd buf count) := by
  refine represents.answers_onFile rfl ?_
  rintro index descriptor file chain rfl isOpen - - stores
  cases buf with
  | none =>
      have rejects : ∀ fuel, fsWrite fuel host session.toState index.val none
          count = .ok (session.toState, -1) :=
        fun _ => onDescriptor_open isOpen
      exact represents.answers_refused (fun _ _ _ => rfl) rejects
  | some buf =>
      by_cases empty : count = 0
      · subst empty
        exact Answers.of_computes (fun _ _ _ => rfl)
          (Computes.const fun fuel => fsWrite_zero isOpen fuel host buf)
          represents ⟨rfl, rfl⟩
      · have positive := Nat.pos_of_ne_zero empty
        obtain ⟨fat', firstIndex', allocated, after, result, grown, written,
          computes⟩ := write_computes index
            represents.wellFormed.layout.toDataInside stores.isChain host buf
            positive countFits
        obtain ⟨rfl, representsAfter⟩ :=
          represents.wrote isOpen stores positive grown succeeds written
        simp only [if_neg empty]
        exact Answers.of_computes (fun _ _ _ => rfl)
          (fsWrite_computes isOpen positive computes) representsAfter ⟨rfl, rfl⟩

/-- `fs_read` does what the store answers. -/
theorem answers_read
    (succeeds : host.IoSucceeds)
    (fd : Int)
    (buf : Option Buffer)
    {count : Nat}
    (countFits : count ≤ intMax) :
    session.Answers host (.read fd buf count) (store.read fd buf count) := by
  refine represents.answers_onFile rfl ?_
  rintro index descriptor file chain rfl isOpen isHandle - stores
  cases buf with
  | none =>
      have rejects : fsRead host session.toState index.val none count =
          .ok (session.toState, none, -1) :=
        onDescriptor_open isOpen
      refine ⟨session, { result := -1 }, 0, .const fun fuel => ?_, represents,
        Answer.allows_of_result ⟨rfl, rfl⟩⟩
      simp only [Call.answer, rejects, outcome_ok_bind, Option.isSome_none,
        Bool.false_and]
  | some buf =>
      have inside := represents.wellFormed.layout.toDataInside
      have behind : file.behind descriptor.offset.toNat =
          blockSize * chain.length - descriptor.offset.toNat := by
        unfold StoredFile.behind
        rw [stores.blocks]
      simp only [handleOf_offset, behind, ← stores.blocks]
      by_cases empty : count = 0
      · subst empty
        have nothing : session.loaded chain descriptor.offset.toNat buf 0 =
            buf := memcpy_zero _ _ _ _
        have keeps : descriptor.offset.toNat % blockSize = 0 ∨
            chain.length ≤ descriptor.offset.toNat / blockSize + 1 →
            ∀ buf, ∃ after result,
              fsRead host session.toState index.val (some buf) 0 =
                .ok (after, some (session.loaded chain
                  descriptor.offset.toNat buf 0), result) := by
          intro noBlock buf
          obtain ⟨after, result, _, reads⟩ :=
            fsRead_zero inside isOpen stores.isChain noBlock host buf
          exact ⟨after, result, reads.trans (by
            rw [show session.loaded chain _ buf 0 = buf from
              memcpy_zero _ _ _ _])⟩
        rcases fsRead_zero_cases inside isOpen stores.isChain host buf with
          ⟨reads, aligned⟩ | ⟨reads, short⟩ | ⟨reads, overruns⟩ |
            ⟨_, unreliable⟩
        · rw [if_neg fun overruns => overruns.2.1 aligned, Nat.zero_min]
          rw [← nothing] at reads
          rw [Store.moved, if_pos rfl]
          exact stores.answers_of_read reads (keeps (.inl aligned))
            (represents.setOffset isOpen _)
        · rw [if_neg fun overruns => by omega, Nat.zero_min]
          rw [← nothing] at reads
          rw [Represents.moved_zero isHandle]
          exact stores.answers_of_read reads (keeps (.inr short)) represents
        · rw [if_pos ⟨rfl, overruns⟩]
          exact stores.answers_of_read reads
            (fun buf => ⟨_, _, fsRead_overrun inside isOpen stores.isChain
              overruns.1 overruns.2 succeeds buf⟩) represents
        · exact absurd succeeds unreliable
      · rw [if_neg fun overruns => empty overruns.1]
        have positive := Nat.pos_of_ne_zero empty
        have delivers : ∀ buf, ∃ after result,
            fsRead host session.toState index.val (some buf) count =
              .ok (after, some (session.loaded chain descriptor.offset.toNat
                buf (min count (blockSize * chain.length -
                  descriptor.offset.toNat))), result) := by
          intro buf
          obtain ⟨after, bytes, result, _, delivered, reads⟩ := fsRead_positive
            inside isOpen stores.isChain positive countFits host buf
          rw [(delivered succeeds).1] at reads
          exact ⟨after, result, reads⟩
        rcases fsRead_moved inside isOpen stores.isChain host buf positive
            countFits with
          ⟨reads, within⟩ | ⟨reads, short⟩ | ⟨_, _, _, unreliable⟩
        · rw [Nat.min_eq_left (by omega)] at delivers ⊢
          rw [Store.moved, if_pos rfl]
          exact stores.answers_of_read reads delivers
            (represents.setOffset isOpen _)
        · rw [Nat.min_eq_right (by omega)] at delivers ⊢
          rw [Store.moved, if_neg (by omega)]
          exact stores.answers_of_read reads delivers represents
        · exact absurd succeeds unreliable

end Represents

end Session
end MsFat
