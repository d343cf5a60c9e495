import MsFat.Api
import MsFat.Directory.Checks
import MsFat.Transfer.Faults

/-!
# Faults of the calls

While a file system is mounted, no call follows a pointer to a structure that is
not there: a call that faults leaves the bounds of an array or loops for ever.
-/

namespace MsFat

variable {count : Nat}

/-- What faults in an array only follows no pointer to a missing structure. -/
theorem FaultsOnly.ne_absent
    {α : Type}
    {outcome : Outcome α}
    (faults : FaultsOnly (· = Fault.outOfBounds) outcome) :
    FaultsOnly (· ≠ Fault.absent) outcome := by
  refine faults.mono ?_
  rintro _ rfl
  nofun

/-! ## The FAT -/

theorem fatGet_faultsOnly
    (fat : Fat count)
    (index : UInt16) :
    FaultsOnly (· = Fault.outOfBounds) (fatGet fat index) := by
  unfold fatGet
  split
  · exact .error rfl
  · exact .ok _

theorem findDataBlockFrom_faultsOnly
    (steps : Nat)
    (fat : Fat count)
    (blockIndex : UInt16) :
    FaultsOnly (· = Fault.outOfBounds)
      (findDataBlockFrom steps fat blockIndex) := by
  induction steps generalizing blockIndex with
  | zero => exact .ok _
  | succ steps inductionHypothesis =>
      exact .ite (fun _ => .ok _) fun _ =>
        (fatGet_faultsOnly fat blockIndex).bind fun entry _ =>
          inductionHypothesis entry

theorem Session.findDataBlock_faultsOnly
    (session : Session)
    (file : Slot)
    (blockNum : Int) :
    FaultsOnly (· = Fault.outOfBounds) (session.findDataBlock file blockNum) :=
  .ite (fun _ => .ok _) fun _ => findDataBlockFrom_faultsOnly _ _ _

/-- The walk of `allocate_blocks_in_fat` leaves the FAT or does not end. -/
theorem walkToEnd_faultsOnly
    (fuel : Nat)
    (fat : Fat count)
    (blockIndex : UInt16)
    (numDataBlocks : Nat) :
    FaultsOnly (· ≠ Fault.absent)
      (walkToEnd fuel fat blockIndex numDataBlocks) := by
  induction fuel generalizing blockIndex numDataBlocks with
  | zero => exact .error nofun
  | succ fuel inductionHypothesis =>
      exact (fatGet_faultsOnly fat blockIndex).ne_absent.bind fun entry _ =>
        .ite (fun _ => .ok _) fun _ => inductionHypothesis _ _

theorem allocateInFat_faultsOnly
    (fuel : Nat)
    (fat : Fat count)
    (firstIndex : UInt16)
    (numTargetBlocks : Int) :
    FaultsOnly (· ≠ Fault.absent)
      (allocateInFat fuel fat firstIndex numTargetBlocks) := by
  refine .ite (fun _ => .ok _) fun _ => ?_
  split
  · exact .ok _
  · exact (walkToEnd_faultsOnly _ _ _ _).bind fun reached _ => .ok _

/-- The loop of `fs_delete` leaves the FAT or does not end. -/
theorem freeChain_faultsOnly
    (fuel : Nat)
    (fat : Fat count)
    (blockIndex : UInt16) :
    FaultsOnly (· ≠ Fault.absent) (freeChain fuel fat blockIndex) := by
  have reads : ∀ (fat : Fat count) index,
      FaultsOnly (· ≠ Fault.absent) (fatGet fat index) :=
    fun fat index => (fatGet_faultsOnly fat index).ne_absent
  induction fuel generalizing fat blockIndex with
  | zero => exact .error nofun
  | succ fuel inductionHypothesis =>
      exact (reads fat blockIndex).bind fun entry _ =>
        .ite (fun _ => (reads _ _).bind fun next _ => inductionHypothesis _ _)
          fun _ => .ok _

/-! ## Calls on files -/

section Checks

variable {session : Session} {allowed : Fault → Prop}

theorem onFilename_faultsOnly
    {filename : Option CString}
    {body : Session → CString → Outcome (Session × Int)}
    (bodyFaults : ∀ name, FaultsOnly allowed (body session name)) :
    FaultsOnly allowed (onFilename session.toState filename body) := by
  refine .ite (fun _ => .ok _) fun _ => ?_
  cases filename with
  | none => exact .ok _
  | some name =>
      exact .ite (fun _ => .ok _) fun _ =>
        (bodyFaults name).bind fun after _ => .ok _

theorem onDescriptor_faultsOnly
    {α : Type}
    {fd : Int}
    {failed : α}
    {body : Descriptor → FileDescriptor → Outcome α}
    (outside : allowed .outOfBounds ∨
      fd < fsOpenMaxCount ∨ (fsFileMaxCount : Int) ≤ fd)
    (bodyFaults : ∀ index descriptor,
      session.openFiles index = some descriptor →
        FaultsOnly allowed (body index descriptor)) :
    FaultsOnly allowed (onDescriptor session.toState fd failed body) := by
  refine .ite (fun _ => .ok _) fun _ => .ite (fun _ => .ok _) fun passed => ?_
  split
  · split
    · exact .ok _
    · exact bodyFaults _ _ ‹_›
  · rename_i beyond
    rcases outside with outOfBounds | fdFits
    · exact .error outOfBounds
    · omega

theorem fsWrite_faultsOnly
    {fuel count : Nat}
    {host : Host}
    {fd : Int}
    {buf : Option Buffer}
    (outside : allowed .outOfBounds ∨
      fd < fsOpenMaxCount ∨ (fsFileMaxCount : Int) ≤ fd)
    (writes : ∀ index descriptor buf,
      session.openFiles index = some descriptor → 0 < count →
        FaultsOnly allowed
          (session.write fuel host index descriptor buf count)) :
    FaultsOnly allowed (fsWrite fuel host session.toState fd buf count) := by
  apply onDescriptor_faultsOnly outside
  intro index descriptor isOpen
  cases buf with
  | none => exact .ok _
  | some buf =>
      refine .ite (fun _ => .ok _) fun some => ?_
      rw [Session.toState_session, outcome_ok_bind]
      exact (writes index descriptor buf isOpen (Nat.pos_of_ne_zero some)).bind
        fun after _ => .ok _

theorem exec_read_faultsOnly
    {fuel count : Nat}
    {host : Host}
    {fd : Int}
    {buf : Option Buffer}
    (outside : allowed .outOfBounds ∨
      fd < fsOpenMaxCount ∨ (fsFileMaxCount : Int) ≤ fd)
    (reads : ∀ index descriptor buf,
      session.openFiles index = some descriptor →
        FaultsOnly allowed (session.read host index descriptor buf count)) :
    FaultsOnly allowed
      ((Call.read fd buf count).exec fuel host session.toState) := by
  refine FaultsOnly.bind ?_ fun after _ => .ok _
  apply onDescriptor_faultsOnly outside
  intro index descriptor isOpen
  cases buf with
  | none => exact .ok _
  | some buf =>
      exact (reads index descriptor buf isOpen).bind fun after _ => .ok _

end Checks

/-- A call on a mounted file system faults in the FAT, in the table of open files
or in its buffer, or does not end. -/
theorem exec_file_faultsOnly
    (call : Call)
    (fuel : Nat)
    (host : Host)
    (session : Session) :
    FaultsOnly (· ≠ Fault.absent) (call.exec fuel host session.toState) := by
  have finds : ∀ (session : Session) (file : Slot) (blockNum : Int),
      FaultsOnly (· ≠ Fault.absent) (session.findDataBlock file blockNum) :=
    fun session file blockNum =>
      (session.findDataBlock_faultsOnly file blockNum).ne_absent
  have bounds : Fault.outOfBounds ≠ Fault.absent := nofun
  cases call with
  | create filename => exact onFilename_faultsOnly fun name => .ok _
  | delete filename =>
      apply onFilename_faultsOnly
      intro name
      unfold Session.deleteFile
      split
      · exact .ok _
      · refine .ite (fun _ => .ok _) fun _ => ?_
        dsimp only
        split
        · exact (freeChain_faultsOnly _ _ _).bind fun fat _ => .ok _
        · exact .ok _
  | «open» filename => exact onFilename_faultsOnly fun name => .ok _
  | close fd =>
      change FaultsOnly _ (fsClose session.toState fd)
      exact onDescriptor_faultsOnly (.inl bounds) fun index descriptor _ => .ok _
  | stat fd =>
      change FaultsOnly _ (fsStat session.toState fd)
      exact onDescriptor_faultsOnly (.inl bounds) fun index descriptor _ => .ok _
  | lseek fd offset =>
      change FaultsOnly _ (fsLseek session.toState fd offset)
      exact onDescriptor_faultsOnly (.inl bounds) fun index descriptor _ =>
        .ite (fun _ => .ok _) fun _ => .ok _
  | write fd buf count =>
      refine fsWrite_faultsOnly (.inl bounds)
        fun index descriptor buf isOpen positive => ?_
      refine Session.write_faultsOnly ?_ (fun grown _ _ => finds grown _)
        positive (.inl bounds)
      exact (allocateInFat_faultsOnly _ _ _ _).bind fun _ _ => .ok _
  | read fd buf count =>
      exact exec_read_faultsOnly (.inl bounds) fun index descriptor buf _ =>
        Session.read_faultsOnly (finds session _) rfl buf count

/-! ## Mounting -/

theorem readFatBlocks_faultsOnly
    {host : Host}
    {disk : Disk}
    {bufSize : Nat}
    (blocks index : Nat)
    (buffer : Nat → UInt16) :
    FaultsOnly (· ≠ Fault.absent)
      (readFatBlocks host disk bufSize blocks index buffer) := by
  induction blocks generalizing index buffer with
  | zero => exact .ok _
  | succ blocks inductionHypothesis =>
      rw [readFatBlocks]
      split
      · exact .ok _
      · exact .ite (fun _ => inductionHypothesis _ _) fun _ => .error nofun

theorem loadFat_faultsOnly
    (host : Host)
    (disk : Disk)
    (sb : SuperBlock) :
    FaultsOnly (· ≠ Fault.absent) (loadFat host disk sb) := by
  refine .ite (fun _ => .ok _) fun _ =>
    (readFatBlocks_faultsOnly _ _ _).bind fun buffer _ => ?_
  cases buffer with
  | none => exact .ok _
  | some buffer => exact .ite (fun _ => .ok _) fun _ => .ok _

/-- `fs_mount` itself follows no pointer that it has not set. -/
theorem fsMount_faultsOnly
    (host : Host)
    (state : State)
    (diskname : Option String) :
    FaultsOnly (· ≠ Fault.absent) (fsMount host state diskname) := by
  unfold fsMount
  split
  · exact .ok _
  · dsimp only
    split
    · exact .ok _
    · split
      · exact .ok _
      · apply (loadFat_faultsOnly _ _ _).bind
        intro fat _
        split
        · exact .ok _
        · split
          · exact .ok _
          · exact .ok _

/-- While a file system is mounted, no call of the interface follows a pointer to
a structure that is not there. -/
theorem exec_faultsOnly
    (call : ApiCall)
    (fuel : Nat)
    (host : Host)
    (session : Session) :
    FaultsOnly (· ≠ Fault.absent) (call.exec fuel host session.toState) := by
  cases call with
  | mount diskname => exact fsMount_faultsOnly host session.toState diskname
  | umount => exact .ok _
  | info => exact .ok _
  | ls => exact .ok _
  | file call => exact exec_file_faultsOnly call fuel host session

end MsFat
