import MsFat.Directory.Invariant
import MsFat.Library.Occupancy
import MsFat.Lifecycle

/-!
# The counter of open files

`fs_open` tests `num_open_files`, and looks for its descriptor in the table of
open files.  Every call on files keeps the two in step.  `fs_umount` does not
look at either, and `fs_mount` clears the table only, so descriptors that are
open at an `fs_umount` stay counted.
-/

namespace MsFat

namespace Session

/-- Number of open descriptors. -/
def openCount (session : Session) : Nat :=
  (occupied session.openFiles).card

/-- The counter agrees with the table. -/
def Counted (session : Session) : Prop :=
  session.numOpenFiles.toNat = session.openCount

theorem openCount_le (session : Session) :
    session.openCount ≤ fsOpenMaxCount :=
  (Finset.card_le_univ _).trans_eq (Fintype.card_fin _)

variable {session after : Session} {index : Descriptor}

/-- Another offset for an open descriptor. -/
theorem Counted.setOpenFile
    {descriptor : FileDescriptor}
    (counted : session.Counted)
    (isOpen : session.openFiles index ≠ none) :
    (session.setOpenFile index (some descriptor)).Counted :=
  Eq.trans counted (card_occupied_replace isOpen).symm

/-- One more descriptor.  The counter has room, as the table has. -/
theorem Counted.opened
    {descriptor : FileDescriptor}
    (counted : session.Counted)
    (empty : session.openFiles index = none) :
    Counted { session.setOpenFile index (some descriptor) with
      numOpenFiles := session.numOpenFiles + 1 } := by
  change (session.numOpenFiles + 1).toNat =
    (occupied (Function.update session.openFiles index (some descriptor))).card
  have value : session.numOpenFiles.toNat = session.openCount := counted
  have bound : session.openCount ≤ 32 := session.openCount_le
  rw [card_occupied_store empty, UInt8.toNat_add, value]
  exact Nat.mod_eq_of_lt (show session.openCount + 1 < 2 ^ 8 by omega)

/-- One descriptor less. -/
theorem Counted.closed
    (counted : session.Counted)
    (isOpen : session.openFiles index ≠ none) :
    (session.closeFile index).Counted := by
  change (session.numOpenFiles - 1).toNat =
    (occupied (Function.update session.openFiles index none)).card
  have value : session.numOpenFiles.toNat = session.openCount := counted
  have bound : session.openCount ≤ 32 := session.openCount_le
  have count : (occupied (Function.update session.openFiles index none)).card +
      1 = session.openCount := card_occupied_remove isOpen
  rw [UInt8.toNat_sub, value]
  change (2 ^ 8 - 1 + session.openCount) % 2 ^ 8 = _
  omega

/-- A write keeps the open descriptors open. -/
theorem Counted.wrote
    {descriptor : FileDescriptor}
    {fat' : Fat session.sb.numDataBlocks.toNat}
    {firstIndex' : UInt16}
    {moved : Session}
    (counted : session.Counted)
    (isOpen : session.openFiles index = some descriptor)
    (confined : (session.setChain descriptor.file fat' firstIndex').Confined
      descriptor.file moved)
    (ends : after = moved ∨
      ∃ bytes, after = moved.finishWrite index descriptor bytes) :
    after.Counted := by
  obtain ⟨_, count, _, others, offset, own⟩ :=
    CallEffect.of_wrote isOpen confined ends
  have same : after.openFiles = Function.update session.openFiles index
      (some { descriptor with offset := offset }) := by
    funext other
    by_cases written : other = index
    · rw [written, own, Function.update_self]
    · rw [others other written, Function.update_of_ne written]
  have taken : session.openFiles index ≠ none := by
    rw [isOpen]
    exact Option.some_ne_none descriptor
  unfold Counted openCount
  rw [count, same, card_occupied_replace taken]
  exact counted

end Session

/-- Whatever a call on files does, it keeps the counter in step with the
table. -/
theorem CallEffect.counted
    {session after : Session}
    {event : Event}
    (effect : CallEffect session event after)
    (counted : session.Counted) :
    after.Counted := by
  cases effect with
  | unchanged => exact counted
  | created => exact counted
  | deleted => exact counted
  | opened _ _ _ _ empty => exact counted.opened empty
  | closed _ isOpen =>
      exact counted.closed (isOpen ▸ Option.some_ne_none _)
  | positioned offset _ isOpen =>
      exact counted.setOpenFile (isOpen ▸ Option.some_ne_none _)
  | wrote _ _ isOpen _ confined ends =>
      exact counted.wrote isOpen confined ends

/-! ## Runs -/

/-- While a file system is mounted, the counter agrees with the table, and
`fs_open` of an existing file has a descriptor to give while fewer than 32 are
open. -/
def OpenCountOk (state : State) : Prop :=
  ∀ session : Session, state = session.toState →
    session.numOpenFiles.toNat = session.openCount ∧
      ∀ (host : Host) (name : CString) (slot : Slot),
        ValidName name → session.findMatchingFilename name = some slot →
        session.openCount < fsOpenMaxCount → host.mallocSucceeds 0 = true →
          ∃ (after : State) (index : Descriptor),
            fsOpen host session.toState (some name) = .ok (after, index.val) ∧
            after.openFiles index = some { file := slot, offset := 0 }

/-- A counter that agrees with the table leaves a descriptor to give. -/
theorem Session.Counted.fsOpen
    {session : Session}
    (counted : session.Counted)
    {host : Host}
    {name : CString}
    {slot : Slot}
    (valid : ValidName name)
    (found : session.findMatchingFilename name = some slot)
    (room : session.openCount < fsOpenMaxCount)
    (malloc : host.mallocSucceeds 0 = true) :
    ∃ (after : State) (index : Descriptor),
      fsOpen host session.toState (some name) = .ok (after, index.val) ∧
      after.openFiles index = some { file := slot, offset := 0 } := by
  have available : ¬session.NoDescriptor host := by
    rintro (tooMany | failed | full)
    · rw [show session.numOpenFiles.toNat = session.openCount from counted]
        at tooMany
      exact Nat.lt_asymm room tooMany
    · exact absurd (malloc.symm.trans failed) (by decide)
    · obtain ⟨index, vacant⟩ :=
        exists_vacant (room.trans_eq (Fintype.card_fin fsOpenMaxCount).symm)
      exact full index vacant
  obtain ⟨index, opens⟩ := Session.fsOpen_of_available valid found available
  exact ⟨_, index, opens, Function.update_self _ _ _⟩

/-- The calls of a run in which every `fs_mount` succeeds, and no `fs_umount`
leaves a descriptor open. -/
structure Tidy (state : State) (event : ApiEvent) : Prop where
  mount : ∀ diskname, event.call = .mount diskname → event.result = 0
  umount : event.call = .umount → ∀ index, state.openFiles index = none

/-- Nothing is mounted and nothing open, or the counter of the mounted file
system agrees with its table. -/
inductive CountedState (state : State) : Prop
  | unmounted
      (unmounted : state.Unmounted)
      (closed : ∀ index, state.openFiles index = none)
      (zero : state.numOpenFiles = 0)
  | mounted
      (session : Session)
      (isState : state = session.toState)
      (counted : session.Counted)

theorem CountedState.openCountOk
    {state : State}
    (holds : CountedState state) :
    OpenCountOk state := by
  rintro session rfl
  cases holds with
  | unmounted unmounted => exact nomatch unmounted.noDisk
  | mounted other isState counted =>
      cases Session.toState_injective isState
      refine ⟨counted, ?_⟩
      intro host name slot valid found room malloc
      exact counted.fsOpen valid found room malloc

/-- A tidy call keeps the counter in step. -/
theorem CountedState.step
    {before after : State}
    {event : ApiEvent}
    (holds : CountedState before)
    (step : ApiStep before event after)
    (tidy : Tidy before event) :
    CountedState after := by
  cases holds with
  | unmounted unmounted closed zero =>
      cases step.unmountedEffect unmounted with
      | refused _ => exact .unmounted unmounted closed zero
      | notOpened call _ failed =>
          have succeeded := tidy.mount _ call
          exact absurd (failed.symm.trans succeeded) (by decide)
      | failed call _ _ failed =>
          have succeeded := tidy.mount _ call
          exact absurd (failed.symm.trans succeeded) (by decide)
      | mounted _ _ _ _ =>
          refine .mounted _ rfl ?_
          change before.numOpenFiles.toNat = _
          rw [zero]
          exact (card_occupied_eq_zero_iff.mpr fun _ => rfl).symm
  | mounted session isState counted =>
      subst isState
      cases step.mountedEffect with
      | unchanged _ => exact .mounted session rfl counted
      | unmounted call _ =>
          have closed := tidy.umount call
          refine .unmounted ⟨rfl, rfl, rfl⟩ closed (UInt8.toNat_inj.mp ?_)
          exact Eq.trans counted (card_occupied_eq_zero_iff.mpr closed)
      | file _ effect => exact .mounted _ rfl (effect.counted counted)

/-- With no file, `a` can be created. -/
theorem fsCreate_blank
    {session : Session}
    (blank : session.root = fun _ => decodeFile fun _ => 0) :
    fsCreate session.toState (some nameA) =
      .ok ((session.setFile 0 (newFile (session.root 0) nameA)).toState, 0) := by
  obtain ⟨⟨sb, fat, root⟩, files, disk, leakedFds, openFiles, numOpenFiles⟩ :=
    session
  cases blank
  rfl

namespace Session.FourBlocks

/-- The root directory with the first file on a fresh disk. -/
theorem root_created
    {mounted : Session}
    (fourBlocks : mounted.FourBlocks) :
    (mounted.setFile 0 (newFile (mounted.root 0) nameA)).root =
      Function.update (fun _ => decodeFile fun _ => 0) 0
        (newFile (decodeFile fun _ => 0) nameA) := by
  change Function.update mounted.root 0 _ = _
  rw [fourBlocks.root]

/-- The rest of the disk is as it was. -/
theorem changed_created
    {mounted : Session}
    (fourBlocks : mounted.FourBlocks) :
    mounted.Changed (mounted.setFile 0 (newFile (mounted.root 0) nameA)) where
  sb := rfl
  firstEntry := fourBlocks.firstEntry
  padding := Session.setFile_padding rfl
  diskname := rfl
  bcount := rfl
  bytes := fun _ _ => rfl
  closed := congrFun fourBlocks.openFiles

end Session.FourBlocks

/-- With no file but `a` and with nothing open, `a` can be opened and closed
again. -/
theorem exists_opened
    {session : Session}
    (root : session.root = Function.update (fun _ => decodeFile fun _ => 0) 0
      (newFile (decodeFile fun _ => 0) nameA))
    (closed : session.openFiles = fun _ => none)
    (zero : session.numOpenFiles = 0) :
    ∃ opened : Session,
      fsOpen .reliable session.toState (some nameA) = .ok (opened.toState, 0) ∧
      fsClose opened.toState 0 = .ok (session.toState, 0) ∧
      { opened with openFiles := fun _ => none } =
        { session with numOpenFiles := 1 } := by
  let opened : Session :=
    { session.setOpenFile 0 (some { file := 0, offset := 0 }) with
      numOpenFiles := 1 }
  have shut : opened.closeFile 0 = session := by
    have table : Function.update (Function.update session.openFiles 0
        (some { file := 0, offset := 0 })) 0 none = session.openFiles := by
      rw [Function.update_idem, Function.update_eq_self_iff, closed]
    change { session with
      openFiles := Function.update (Function.update session.openFiles 0
        (some { file := 0, offset := 0 })) 0 none
      numOpenFiles := 1 - 1 } = session
    rw [table, show (1 - 1 : UInt8) = session.numOpenFiles by rw [zero]; rfl]
  refine ⟨opened, ?_, ?_, ?_⟩
  · obtain ⟨⟨sb, fat, _⟩, files, disk, leakedFds, _, _⟩ := session
    cases root
    cases closed
    cases zero
    rfl
  · refine Eq.trans ?_ (congrArg (fun session =>
      (Except.ok (Session.toState session, 0) : Outcome (State × Int))) shut)
    rfl
  · rw [← closed]
    rfl

/-- From program start on, the counter agrees with the table behind every run of
tidy calls. -/
theorem openCountOk_of_tidy
    {files : String → Option Image}
    {events : List ApiEvent}
    {state : State}
    (run : Run (Guarded ApiStep Tidy) (State.initial files) events state) :
    OpenCountOk state := by
  have counted : CountedState state :=
    run.invariant CountedState (fun _ _ _ holds step => holds.step step.1 step.2)
      (.unmounted (State.initial_unmounted files) (fun _ => rfl) rfl)
  exact counted.openCountOk

/-- A file is created, opened and closed, and opened again behind the next
mount. -/
def reopenEvents : List ApiEvent :=
  [⟨.reliable, .mount (some "disk.fs"), 0⟩,
    ⟨.reliable, .file (.create (some nameA)), 0⟩,
    ⟨.reliable, .file (.open (some nameA)), 0⟩,
    ⟨.reliable, .file (.close 0), 0⟩,
    ⟨.reliable, .umount, 0⟩,
    ⟨.reliable, .mount (some "disk.fs"), 0⟩,
    ⟨.reliable, .file (.open (some nameA)), 0⟩]

/-- On a disk of four blocks a file is opened before and behind a remount. -/
theorem openCountOk_of_tidy_fourBlocks :
    ∃ last : Session,
      Run (Guarded ApiStep Tidy) (State.initial fun _ => some (freshImage 4 1 1))
        reopenEvents last.toState ∧
      OpenCountOk last.toState := by
  obtain ⟨mounted, fourBlocks⟩ := Session.exists_fourBlocks
  have creates := fsCreate_blank fourBlocks.root
  let created := mounted.setFile 0 (newFile (mounted.root 0) nameA)
  obtain ⟨opened, opens, closes, _⟩ :=
    exists_opened fourBlocks.root_created fourBlocks.openFiles
      fourBlocks.numOpenFiles
  have remounts := fourBlocks.remounts fourBlocks.changed_created
  obtain ⟨last, reopens, _, _⟩ := @exists_opened
    ((created.unmounted .reliable).mounted (created.savedDisk .reliable)
      created.toVolume) fourBlocks.root_created rfl fourBlocks.numOpenFiles
  have closed : ∀ index, created.openFiles index = none :=
    congrFun fourBlocks.openFiles
  have run : Run (Guarded ApiStep Tidy)
      (State.initial fun _ => some (freshImage 4 1 1)) reopenEvents
      last.toState := by
    refine .cons ⟨⟨0, fourBlocks.mounts⟩, ⟨fun _ _ => rfl, by simp⟩⟩ ?_
    refine .cons ⟨⟨0, creates⟩, ⟨by simp, by simp⟩⟩ ?_
    refine .cons ⟨⟨0, opens⟩, ⟨by simp, by simp⟩⟩ ?_
    refine .cons ⟨⟨0, closes⟩, ⟨by simp, by simp⟩⟩ ?_
    refine .cons ⟨⟨0, rfl⟩, ⟨by simp, fun _ => closed⟩⟩ ?_
    refine .cons ⟨⟨0, remounts⟩, ⟨fun _ _ => rfl, by simp⟩⟩ ?_
    exact .cons ⟨⟨0, reopens⟩, ⟨by simp, by simp⟩⟩ .nil
  exact ⟨last, run, openCountOk_of_tidy run⟩

/-- A file is open when its disk of four blocks is unmounted.  Behind the next
mount the counter is 1, and no descriptor is open. -/
theorem not_openCountOk_openAtUmount :
    ∃ session : Session,
      Run ApiStep (State.initial fun _ => some (freshImage 4 1 1))
        [⟨.reliable, .mount (some "disk.fs"), 0⟩,
          ⟨.reliable, .file (.create (some nameA)), 0⟩,
          ⟨.reliable, .file (.open (some nameA)), 0⟩,
          ⟨.reliable, .umount, 0⟩,
          ⟨.reliable, .mount (some "disk.fs"), 0⟩] session.toState ∧
      session.numOpenFiles = 1 ∧ session.openCount = 0 ∧
      ¬OpenCountOk session.toState := by
  obtain ⟨mounted, fourBlocks⟩ := Session.exists_fourBlocks
  have creates := fsCreate_blank fourBlocks.root
  obtain ⟨opened, opens, _, same⟩ := exists_opened fourBlocks.root_created
    fourBlocks.openFiles fourBlocks.numOpenFiles
  have count : opened.numOpenFiles = 1 := congrArg Session.numOpenFiles same
  have changed : mounted.Changed { opened with openFiles := fun _ => none } := by
    rw [same]
    exact { fourBlocks.changed_created with }
  -- The disk that is saved does not depend on the table of open files.
  have reloads := Session.loadsVolume_savedDisk fourBlocks.oneFatBlock
    fourBlocks.loads fourBlocks.rootInside changed
    Host.reliable_reliable.toIoSucceeds Host.reliable_reliable
  have isName : opened.disk.diskname = "disk.fs" := by
    rw [show opened.disk.diskname = mounted.disk.diskname from changed.diskname,
      fourBlocks.disk]
    rfl
  have reopens := opened.loadDisk_unmounted .reliable Host.reliable_reliable
  rw [isName] at reopens
  let session := (opened.unmounted .reliable).mounted
    (opened.savedDisk .reliable) opened.toVolume
  have remounts : fsMount .reliable (opened.unmounted .reliable)
      (some "disk.fs") = .ok (session.toState, 0) :=
    fsMount_of_loads reopens reloads
  have none : session.openCount = 0 :=
    card_occupied_eq_zero_iff.mpr fun _ => rfl
  refine ⟨session, ?_, count, none, ?_⟩
  · exact .cons ⟨0, fourBlocks.mounts⟩ (.cons ⟨0, creates⟩ (.cons ⟨0, opens⟩
      (.cons ⟨0, rfl⟩ (.cons ⟨0, remounts⟩ .nil))))
  · intro holds
    have counted := (holds session rfl).1
    rw [none, show session.numOpenFiles = 1 from count] at counted
    exact absurd counted (by decide)

end MsFat
