import MsFat.Invariant

/-!
# What a run leaves as it was

As long as a file is neither written nor deleted, its root entry, its chain and
the bytes in its blocks stay the same, whatever happens to the other files.
-/

namespace MsFat

open Memory

namespace Session

/-- The file has the same root entry, chain and bytes in both sessions. -/
structure SameFile
    (file : Slot)
    (before after : Session) : Prop where
  sb : after.sb = before.sb
  entry : after.root file = before.root file
  chain : ∀ chain, before.FileChain file chain → after.FileChain file chain
  contents : ∀ chain, before.FileChain file chain →
    ∀ position < blockSize * chain.length,
      after.contents chain position = before.contents chain position

namespace SameFile

variable {file : Slot}

theorem refl (session : Session) : SameFile file session session where
  sb := rfl
  entry := rfl
  chain := fun _ isChain => isChain
  contents := fun _ _ _ _ => rfl

theorem trans
    {first second third : Session}
    (left : SameFile file first second)
    (right : SameFile file second third) :
    SameFile file first third where
  sb := right.sb.trans left.sb
  entry := right.entry.trans left.entry
  chain := fun chain isChain => right.chain chain (left.chain chain isChain)
  contents := by
    intro chain isChain position inside
    exact (right.contents chain (left.chain chain isChain) position inside).trans
      (left.contents chain isChain position inside)

end SameFile

/-- Bytes of two chains that share no block have distinct places. -/
theorem place_ne_of_disjoint
    (session : Session)
    {left right : List UInt16}
    (disjoint : left.Disjoint right)
    {position other : Nat}
    (inLeft : position < blockSize * left.length)
    (inRight : other < blockSize * right.length) :
    session.place left position ≠ session.place right other := by
  intro equal
  obtain ⟨leftIndex, leftMember, leftEq⟩ := session.place_diskBlocks inLeft
  obtain ⟨rightIndex, rightMember, rightEq⟩ := session.place_diskBlocks inRight
  have same : leftIndex = rightIndex := by
    apply UInt16.toNat_inj.mp
    rw [equal, rightEq] at leftEq
    omega
  exact disjoint leftMember (same ▸ rightMember)

/-- Storing bytes in one chain keeps the bytes of a chain that shares no block
with it. -/
theorem contents_stored_of_disjoint
    (session : Session)
    {chain other : List UInt16}
    (disjoint : chain.Disjoint other)
    {start bytes position : Nat}
    (buf : Buffer)
    (inside : bytes = 0 ∨ start + bytes ≤ blockSize * chain.length)
    (inOther : position < blockSize * other.length) :
    (session.stored chain start buf bytes).contents other position =
      session.contents other position := by
  apply scatter_apply_of_ne
  intro offset before
  refine session.place_ne_of_disjoint disjoint ?_ inOther
  rcases inside with none | holds <;> omega

/-- A write to another file, behind its allocation and in front of its last
updates. -/
theorem sameFile_stored
    {session : Session}
    (chains : session.ChainsOk)
    {file other : Slot}
    (usedOther : session.InUse other)
    (used : session.InUse file)
    (different : other ≠ file)
    {chain : List UInt16}
    (isChain : session.FileChain other chain)
    {start bytes : Nat}
    (buf : Buffer)
    (inside : bytes = 0 ∨ start + bytes ≤ blockSize * chain.length) :
    SameFile file session (session.stored chain start buf bytes) where
  sb := rfl
  entry := rfl
  chain := fun _ isFile => isFile
  contents := by
    intro own isOwn position inOwn
    have disjoint := chains.disjoint other file chain own different usedOther
      used isChain isOwn
    exact session.contents_stored_of_disjoint disjoint buf inside inOwn

/-- The updates at the end of a write to another file. -/
theorem sameFile_finishWrite
    {session : Session}
    {file : Slot}
    {descriptor : FileDescriptor}
    (different : descriptor.file ≠ file)
    (index : Descriptor)
    (bytesWritten : Nat) :
    SameFile file session
      (session.finishWrite index descriptor bytesWritten) where
  sb := rfl
  entry := setFile_root_of_ne different.symm _
  chain := fun _ isChain => finishWrite_fileChain _ _ _ isChain
  contents := fun _ _ _ _ => rfl

/-- The allocation of blocks for another file. -/
theorem sameFile_setChain
    {session : Session}
    (chains : session.ChainsOk)
    {file other : Slot}
    (usedOther : session.InUse other)
    (used : session.InUse file)
    (different : other ≠ file)
    {chain : List UInt16}
    {missing : Nat}
    {fat' : Fat session.sb.numDataBlocks.toNat}
    {firstIndex' : UInt16}
    {allocated : Int}
    (isChain : session.FileChain other chain)
    (grown : Grown session.fat chain missing fat' firstIndex' allocated) :
    SameFile file session (session.setChain other fat' firstIndex') where
  sb := rfl
  entry := setChain_root_of_ne different.symm
  chain := fun _ isFile =>
    fileChain_setChain_of_ne chains usedOther used different.symm isChain isFile
      grown
  contents := fun _ _ _ _ => rfl

end Session

/-- The call is no write from a buffer through a descriptor on the file, and does
not delete it. -/
structure SparesFile
    (file : Slot)
    (state : State)
    (event : Event) : Prop where
  noWrite : ∀ (index : Descriptor) descriptor buf count,
    event.call = .write index.val (some buf) count →
      state.openFiles index = some descriptor → descriptor.file ≠ file
  noDelete : ∀ name volume, event.call = .delete (some name) →
    event.result = 0 → state.volume = some volume →
      arrayString (volume.root file).filename ≠ name.bytes

/-- A call that spares a file leaves it as it was. -/
theorem Effect.sameFile
    {session after : Session}
    {event : Event}
    {file : Slot}
    (wellFormed : session.WellFormed)
    (used : session.InUse file)
    (spares : SparesFile file session.toState event)
    (effect : Effect session event after) :
    session.SameFile file after := by
  cases effect with
  | unchanged _ => exact .refl session
  | @created name slot _ _ _ empty _ =>
      have different : file ≠ slot := by
        rintro rfl
        exact Session.findEmptyRootEntry_eq_some empty used
      have entry : (session.setFile slot (newFile (session.root slot)
          name)).root file = session.root file :=
        Session.setFile_root_of_ne different _
      refine ⟨rfl, entry, fun chain isChain => ?_, fun _ _ _ _ => rfl⟩
      unfold Session.FileChain
      rw [entry]
      exact isChain
  | @deleted name slot chain call valid found _ isChain _ result =>
      have different : file ≠ slot := by
        rintro rfl
        exact spares.noDelete name session.toVolume call result rfl
          (Session.findMatchingFilename_eq_some found)
      refine ⟨rfl, Session.removed_root_of_ne different chain,
        fun other isOther => ?_, fun _ _ _ _ => rfl⟩
      exact Session.fileChain_removed wellFormed.chains
        (Session.inUse_of_found valid found) used different isChain isOther
  | opened _ _ _ _ _ => exact ⟨rfl, rfl, fun _ h => h, fun _ _ _ _ => rfl⟩
  | closed _ _ _ => exact ⟨rfl, rfl, fun _ h => h, fun _ _ _ _ => rfl⟩
  | sought _ _ _ _ => exact ⟨rfl, rfl, fun _ h => h, fun _ _ _ _ => rfl⟩
  | read _ _ _ => exact ⟨rfl, rfl, fun _ h => h, fun _ _ _ _ => rfl⟩
  | @wrote index descriptor buf count chain fat' firstIndex' _ _ call isOpen
      _ isChain grown written =>
      have different := spares.noWrite index descriptor buf count call isOpen
      have usedOther := wellFormed.descriptors index descriptor isOpen
      have allocated := wellFormed.chains.setChain usedOther isChain grown
      have extended := Session.fileChain_extended descriptor.file grown
      have first := Session.sameFile_setChain wellFormed.chains usedOther used
        different isChain grown
      have second : ∀ bytes, bytes = 0 ∨ descriptor.offset.toNat + bytes ≤
          blockSize * (session.extendedChain chain descriptor.offset.toNat
            count).length →
          (session.setChain descriptor.file fat' firstIndex').SameFile file
            ((session.setChain descriptor.file fat' firstIndex').stored
              (session.extendedChain chain descriptor.offset.toNat count)
              descriptor.offset.toNat buf bytes) := by
        intro bytes inside
        refine Session.sameFile_stored allocated ?_ ?_ different extended buf
          inside
        · exact (session.setChain_inUse _ _ _ _).mpr usedOther
        · exact (session.setChain_inUse _ _ _ _).mpr used
      generalize event.result = result at written
      cases written with
      | complete inside =>
          exact (first.trans (second count (.inr inside))).trans
            (Session.sameFile_finishWrite different index count)
      | short short => exact first.trans (second _ (by omega))
      | hostFailed bytes _ inside _ => exact first.trans (second bytes inside)

/-- A run of calls that spare a file leaves it as it was. -/
theorem sameFile_of_run
    {session session' : Session}
    {events : List Event}
    {file : Slot}
    (run : Run (EffectStep (SparesFile file)) session events session')
    (used : session.InUse file) :
    session.SameFile file session' := by
  refine run.relation (fun state => state.InUse file)
    Session.SameFile.refl (fun _ _ _ => .trans) ?_ used
  intro before event after usedBefore step
  have same := step.effect.sameFile step.wellFormed usedBefore step.guarded
  refine ⟨?_, same⟩
  unfold Session.InUse
  rw [same.entry]
  exact usedBefore

end MsFat
