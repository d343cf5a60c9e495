import MsFat.Drive.Defs
import MsFat.Drive.Mounts
import MsFat.Store.Represents

/-!
# What a process leaves

A process may end with a file system mounted.  What it has written to the disk
stays in the file of the disk, but its FAT and its root directory are lost: the
next process finds those of the last mount.
-/

namespace MsFat

/-- The files of the host when the process has ended.  The file of an open disk
holds what was written to it. -/
def State.atExit (state : State) : String → Option Image :=
  match state.disk with
  | none => state.files
  | some disk => blockDiskClose state.files disk

namespace Store

variable {kept store : Store} {call : Call} {name : CString} {file : StoredFile}

/-- Bytes that are known behind a call were known before, and the call does not
touch the file. -/
theorem keptBehind_known
    {position : Nat}
    {byte : UInt8}
    (isFile : (kept.keptBehind store call).files name = some file)
    (known : file.bytes position = some byte) :
    kept.files name = some file ∧ store.touched call ≠ some name := by
  unfold keptBehind at isFile
  cases touches : store.touched call with
  | none =>
      rw [touches] at isFile
      exact ⟨isFile, nofun⟩
  | some other =>
      simp only [touches, forget, setFile] at isFile
      by_cases same : name = other
      · subst same
        rw [Function.update_self, Option.map_eq_some_iff] at isFile
        obtain ⟨_, _, rfl⟩ := isFile
        exact nomatch known
      · rw [Function.update_of_ne same] at isFile
        refine ⟨isFile, fun isOther => same ?_⟩
        exact (Option.some.inj isOther).symm

/-- The sizes of the files and their blocks are kept. -/
theorem keptBehind_file
    (kept store : Store)
    (call : Call)
    (name : CString) :
    (kept.keptBehind store call).files name = kept.files name ∨
      (kept.keptBehind store call).files name =
        (kept.files name).map fun file =>
          { file with bytes := fun _ => none } := by
  unfold keptBehind
  cases store.touched call with
  | none => exact .inl rfl
  | some other =>
      by_cases same : name = other
      · subst same
        exact .inr (Function.update_self ..)
      · exact .inl (Function.update_of_ne same ..)

/-- Only files are changed. -/
theorem keptBehind_eq (kept store : Store) (call : Call) :
    ∃ files, kept.keptBehind store call = { kept with files := files } := by
  unfold keptBehind
  cases store.touched call with
  | none => exact ⟨_, rfl⟩
  | some _ => exact ⟨_, rfl⟩

end Store

namespace Session

variable {session after : Session} {volume : Volume} {kept store : Store}

/-- A session without open files is well-formed if one with the same volume, on
a disk of the same length, is. -/
theorem WellFormed.of_closed
    (wellFormed : session.WellFormed)
    (sameVolume : after.toVolume = session.toVolume)
    (sameCount : after.disk.bcount = session.disk.bcount)
    (closed : ∀ index, after.openFiles index = none) :
    after.WellFormed := by
  obtain ⟨volume, _, _, _, _⟩ := after
  cases sameVolume
  obtain ⟨⟨⟨dataLe, bcount⟩, fatLt, rootLt⟩, ⟨terminated, distinct⟩,
    ⟨chain, disjoint⟩, _⟩ := wellFormed
  rw [← sameCount] at dataLe bcount
  refine ⟨⟨⟨dataLe, bcount⟩, fatLt, rootLt⟩, ⟨terminated, distinct⟩,
    ⟨chain, disjoint⟩, ?_⟩
  intro index descriptor isOpen
  exact nomatch (closed index).symm.trans isOpen

/-- A store of a session without open files has no handles. -/
theorem Represents.closed_eq
    (represents : session.Represents store)
    (closed : ∀ index, session.openFiles index = none) :
    store.closed = store := by
  refine Store.ext rfl (funext fun index => ?_) rfl rfl rfl rfl
  rw [represents.handles index, closed index]
  rfl

/-- What the next process mounts, if the process ends now and the disk holds
this volume. -/
def leaving (session : Session) (volume : Volume) : Session :=
  (State.initial session.toState.atExit).mounted session.disk volume

/-- The disk holds a volume with these files.  As long as bytes of a file are
known, it is a file of the session as well. -/
structure Leaves
    (session : Session)
    (volume : Volume)
    (kept : Store) : Prop where
  sb : volume.sb = session.sb
  padding : ∀ slot index, (volume.root slot).padding index = 0
  holds : session.disk.Holds volume
  represents : (session.leaving volume).Represents kept
  same : ∀ slot file position byte, (session.leaving volume).InUse slot →
    kept.files ((session.leaving volume).nameAt slot) = some file →
    file.bytes position = some byte →
      session.root slot = volume.root slot ∧
        ∀ chain, (session.leaving volume).FileChain slot chain →
          session.FileChain slot chain

/-- A file that a call does not touch is spared by it. -/
theorem Represents.spares
    (represents : session.Represents store)
    {event : Event}
    {slot : Slot}
    (untouched : store.touched event.call ≠ some (session.nameAt slot)) :
    SparesFile slot session.toState event where
  noWrite := by
    rintro index descriptor buf count isCall isOpen rfl
    apply untouched
    have inside : 0 ≤ (index.val : Int) ∧
        (index.val : Int).toNat < fsOpenMaxCount :=
      ⟨Int.natCast_nonneg _, index.isLt⟩
    rw [isCall, Store.touched, dif_pos inside]
    change Option.map Handle.name (store.handles index) = _
    rw [represents.handles index, show session.openFiles index = _ from isOpen]
    rfl
  noDelete := by
    intro name volume isCall _ isVolume named
    cases isVolume
    apply untouched
    rw [isCall]
    exact congrArg some (nameAt_eq_iff.mpr named).symm

/-- Only the superblock tells where the bytes of a chain lie. -/
theorem place_of_sb
    (sb : after.sb = session.sb)
    (chain : List UInt16)
    (position : Nat) :
    after.place chain position = session.place chain position := by
  unfold place
  rw [sb]

/-- A volume that the disk holds is mounted by the next process. -/
theorem keeps_leaving
    (formatted : session.Formatted)
    (sb : volume.sb = session.sb)
    (padding : ∀ slot index, (volume.root slot).padding index = 0)
    (holds : session.disk.Holds volume) :
    (State.initial session.toState.atExit).Keeps (session.leaving volume) where
  unmounted := State.initial_unmounted _
  isSession := rfl
  image := by
    rw [← Disk.whole]
    exact Function.update_self ..
  holds := holds
  formatted :=
    { layout := by
        have layout := formatted.layout
        rw [← sb] at layout
        exact layout
      superblock := holds.superblock
      accepted := by
        have accepted := formatted.accepted
        rw [← sb] at accepted
        exact accepted
      padding := padding }

namespace Leaves

variable (leaves : session.Leaves volume kept)

include leaves

/-- What the process leaves is mounted by the next one. -/
theorem keeps (formatted : session.Formatted) :
    (State.initial session.toState.atExit).Keeps (session.leaving volume) :=
  keeps_leaving formatted leaves.sb leaves.padding leaves.holds

section Step

variable {event : Event} (represents : session.Represents store)
  (effect : Effect session event after)

include represents effect

/-- A file of which bytes are known behind a call is a file of the session that
the call spares. -/
theorem spared
    {slot : Slot}
    {file : StoredFile}
    {position : Nat}
    {byte : UInt8}
    (used : (session.leaving volume).InUse slot)
    (isFile : (kept.keptBehind store event.call).files
      ((session.leaving volume).nameAt slot) = some file)
    (known : file.bytes position = some byte) :
    kept.files ((session.leaving volume).nameAt slot) = some file ∧
      session.root slot = volume.root slot ∧
      (∀ chain, (session.leaving volume).FileChain slot chain →
        session.FileChain slot chain) ∧
      session.SameFile slot after := by
  obtain ⟨wasFile, untouched⟩ := Store.keptBehind_known isFile known
  obtain ⟨sameRoot, sameChain⟩ :=
    leaves.same slot file position byte used wasFile known
  have named : session.nameAt slot = (session.leaving volume).nameAt slot := by
    unfold nameAt
    rw [sameRoot]
    rfl
  have usedHere : session.InUse slot := by
    unfold InUse
    rw [sameRoot]
    exact used
  rw [← named] at untouched
  exact ⟨wasFile, sameRoot, sameChain, effect.sameFile represents.wellFormed
    usedHere (represents.spares untouched)⟩

/-- The files that the process leaves behind a call. -/
theorem holdsFiles :
    (after.leaving volume).HoldsFiles
      (kept.keptBehind store event.call).files where
  present := by
    intro slot used
    obtain ⟨file, chain, isFile, stores⟩ :=
      leaves.represents.files.present slot used
    rcases Store.keptBehind_file kept store event.call
      ((session.leaving volume).nameAt slot) with same | forgot
    · refine ⟨file, chain, same.trans isFile, stores.isChain, stores.size,
        stores.blocks, ?_⟩
      intro position byte known
      obtain ⟨inside, held⟩ := stores.bytes position byte known
      obtain ⟨_, _, sameChain, sameFile⟩ :=
        leaves.spared represents effect used (same.trans isFile) known
      have unchanged := sameFile.contents chain
        (sameChain chain stores.isChain) position inside
      unfold contents at unchanged held ⊢
      rw [place_of_sb sameFile.sb] at unchanged
      rw [place_of_sb leaves.sb] at held
      rw [place_of_sb leaves.sb]
      exact ⟨inside, unchanged.trans held⟩
    · rw [isFile] at forgot
      exact ⟨_, chain, forgot, stores.isChain, stores.size, stores.blocks,
        nofun⟩
  named := by
    intro name present
    apply leaves.represents.files.named name
    intro absent
    apply present
    rcases Store.keptBehind_file kept store event.call name with same | forgot
    · exact same.trans absent
    · rw [forgot, absent]
      rfl

/-- A call keeps what the process leaves, apart from the bytes of the file that
it touches. -/
theorem step (formatted : session.Formatted) :
    after.Leaves volume (kept.keptBehind store event.call) := by
  have front := effect.sameFront
  have holdsFiles := leaves.holdsFiles represents effect
  have spared := fun slot file position byte =>
    @spared _ _ _ _ _ leaves _ represents effect slot file position byte
  obtain ⟨files, isKept⟩ := Store.keptBehind_eq kept store event.call
  rw [isKept] at holdsFiles spared ⊢
  obtain ⟨wellFormed, _, handles, handleCount, freeEntries, freeBlocks,
    firstEntry⟩ := leaves.represents
  refine ⟨leaves.sb.trans front.sb.symm, leaves.padding,
    front.holds formatted.layout leaves.sb leaves.holds, ?_, ?_⟩
  · exact ⟨wellFormed.of_closed rfl front.bcount fun _ => rfl, holdsFiles,
      handles, handleCount, freeEntries, freeBlocks, firstEntry⟩
  · intro slot file position byte used isFile known
    obtain ⟨_, sameRoot, sameChain, sameFile⟩ :=
      spared slot file position byte used isFile known
    exact ⟨sameFile.entry.trans sameRoot, fun chain isChain =>
      sameFile.chain chain (sameChain chain isChain)⟩

end Step

end Leaves

/-- A mount leaves what it has mounted. -/
theorem leaves_of_keeps
    {state : State}
    (keeps : state.Keeps session)
    (represents : session.Represents store.closed) :
    session.Leaves session.toVolume store.restarted where
  sb := rfl
  padding := keeps.formatted.padding
  holds := keeps.holds
  represents :=
    { wellFormed := represents.wellFormed.of_closed rfl rfl fun _ => rfl
      files := represents.files.of_same rfl fun _ _ =>
        ⟨rfl, rfl, fun _ isChain => isChain, fun _ _ _ _ => rfl⟩
      handles := fun _ => rfl
      handleCount := rfl
      freeEntries := represents.freeEntries
      freeBlocks := represents.freeBlocks
      firstEntry := represents.firstEntry }
  same := fun _ _ _ _ _ _ _ => ⟨rfl, fun _ isChain => isChain⟩

end Session

namespace State.Keeps

variable {state : State} {session : Session} (keeps : state.Keeps session)

include keeps

theorem files_eq : session.files = state.files := by
  rw [keeps.isSession]
  rfl

/-- Opening the disk leaves its file. -/
theorem atExit_toState : session.toState.atExit = state.atExit := by
  have kept : state.atExit = state.files := by
    unfold State.atExit
    rw [keeps.unmounted.noDisk]
  change blockDiskClose session.files session.disk = _
  unfold blockDiskClose
  rw [kept, keeps.files_eq, Disk.whole, ← keeps.image, Function.update_eq_self]

/-- So does a mount that fails. -/
theorem atExit_diskLoaded :
    (state.diskLoaded session.disk).atExit = state.atExit := by
  rw [← keeps.atExit_toState]
  change blockDiskClose state.files session.disk =
    blockDiskClose session.files session.disk
  rw [keeps.files_eq]

end State.Keeps

end MsFat
