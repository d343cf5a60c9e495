import Mathlib.Data.UInt

/-!
# Data model of the file system

The global variables of `fs.c` and `disk.c`, the data types they hold, and what
a call takes from the host it runs on.

A call can end in three ways that are no return: it can use a structure that
is not there, leave the bounds of an array, or loop for ever.  These are the
faults of an `Outcome`.
-/

namespace MsFat

/-- `BLOCK_SIZE`: size of a disk block in bytes. -/
abbrev blockSize : Nat := 4096

/-- `FS_FILENAME_LEN`: length of a file name, its NUL included. -/
abbrev fsFilenameLen : Nat := 16

/-- `FS_FILE_MAX_COUNT`: entries of the root directory. -/
abbrev fsFileMaxCount : Nat := 128

/-- `FS_OPEN_MAX_COUNT`: entries of the table of open files. -/
abbrev fsOpenMaxCount : Nat := 32

instance neZero_fsFilenameLen : NeZero fsFilenameLen := ⟨by decide⟩

instance neZero_fsFileMaxCount : NeZero fsFileMaxCount := ⟨by decide⟩

instance neZero_fsOpenMaxCount : NeZero fsOpenMaxCount := ⟨by decide⟩

/-- `SUPERBLOCK_SIG_LEN` -/
abbrev superblockSigLen : Nat := 8

/-- `SUPERBLOCK_PAD_LEN` -/
abbrev superblockPadLen : Nat := 4079

/-- `ROOT_PAD_LEN` -/
abbrev rootPadLen : Nat := 10

/-- `ROOT_ENTRY_LEN` -/
abbrev rootEntryLen : Nat := 32

/-- `FAT_EOC`: the mark behind the last block of a file. -/
def fatEoc : UInt16 := 0xFFFF

/-- The largest value of an `int`. -/
abbrev intMax : Nat := 2147483647

/-- Conversion of an integer to `int`. -/
def int32 (value : Int) : Int :=
  value.bmod (2 ^ 32)

/-- A value that fits is converted to itself. -/
theorem int32_of_range
    {value : Int}
    (lower : -(2 ^ 31) ≤ value)
    (upper : value < 2 ^ 31) :
    int32 value = value := by
  unfold int32 Int.bmod
  simp only
  omega

/-- A `size_t` computation wraps at 64 bits. -/
def sizeT (value : Nat) : Nat :=
  value % 2 ^ 64

theorem sizeT_of_lt
    {value : Nat}
    (fits : value < 2 ^ 64) :
    sizeT value = value :=
  Nat.mod_eq_of_lt fits

/-- The ways in which a call does not return. -/
inductive Fault
  /-- A pointer to a structure that is not there is followed. -/
  | absent
  /-- An array is used outside its bounds. -/
  | outOfBounds
  /-- The fuel of a loop runs out; with every amount of fuel, the loop does not
  end. -/
  | outOfFuel
  deriving DecidableEq

/-- The value a piece of code computes, unless it faults. -/
abbrev Outcome := Except Fault

@[simp] theorem outcome_ok_bind
    {α β : Type}
    (value : α)
    (next : α → Outcome β) :
    ((Except.ok value : Outcome α) >>= next) = next value := rfl

@[simp] theorem outcome_error_bind
    {α β : Type}
    (fault : Fault)
    (next : α → Outcome β) :
    ((Except.error fault : Outcome α) >>= next) = .error fault := rfl

/-- The two parts of a computation that returns. -/
theorem outcome_bind_eq_ok
    {α β : Type}
    {first : Outcome α}
    {next : α → Outcome β}
    {result : β}
    (returns : first >>= next = .ok result) :
    ∃ middle, first = .ok middle ∧ next middle = .ok result := by
  cases first with
  | error fault => exact nomatch returns
  | ok middle => exact ⟨middle, rfl, returns⟩

/-- The bytes of a piece of memory, by their distance from its start. -/
abbrev Buffer := Nat → UInt8

/-- The bytes of a C string, without the NUL that ends it. -/
structure CString where
  /-- The bytes in front of the NUL. -/
  bytes : List UInt8
  /-- None of them is the NUL. -/
  nonzero : ∀ byte ∈ bytes, byte ≠ 0

namespace CString

/-- `strlen` -/
def length (string : CString) : Nat :=
  string.bytes.length

/-- The byte at an index of the string; the NUL ends it. -/
def byte (string : CString) (index : Nat) : UInt8 :=
  string.bytes.getD index 0

@[ext] theorem ext
    {left right : CString}
    (bytes : left.bytes = right.bytes) :
    left = right := by
  cases left
  cases right
  cases bytes
  rfl

end CString

/-! ## On-disk structures -/

/-- `struct SuperBlock` -/
@[ext] structure SuperBlock where
  signature : Fin superblockSigLen → UInt8
  numBlocks : UInt16
  rootIndex : UInt16
  dataStartIndex : UInt16
  numDataBlocks : UInt16
  numFatBlocks : UInt8
  padding : Fin superblockPadLen → UInt8

/-- `struct File`: one entry of the root directory. -/
@[ext] structure File where
  filename : Fin fsFilenameLen → UInt8
  fileSize : UInt32
  firstIndex : UInt16
  padding : Fin rootPadLen → UInt8

/-- Index of an entry of the root directory. -/
abbrev Slot := Fin fsFileMaxCount

/-- `struct FileDescriptor`: the entry of the root directory its `file` points
to, and the offset. -/
@[ext] structure FileDescriptor where
  file : Slot
  offset : UInt16

/-- Index of an entry of the table of open files. -/
abbrev Descriptor := Fin fsOpenMaxCount

/-! ## Global state -/

/-- A file of the host: its length and its bytes. -/
structure Image where
  size : Nat
  bytes : Buffer

/-- `struct disk` while a disk is open, with the length of its file and the
bytes. -/
structure Disk where
  diskname : String
  bcount : Nat
  size : Nat := bcount * blockSize
  bytes : Buffer
  /-- The file ends behind the last block. -/
  whole : size = bcount * blockSize := by rfl

@[ext] theorem Disk.ext
    {left right : Disk}
    (diskname : left.diskname = right.diskname)
    (bcount : left.bcount = right.bcount)
    (bytes : left.bytes = right.bytes) :
    left = right := by
  obtain ⟨_, _, _, _, leftWhole⟩ := left
  obtain ⟨_, _, _, _, rightWhole⟩ := right
  cases diskname
  cases bcount
  cases bytes
  cases leftWhole
  cases rightWhole
  rfl

/-- A file allocation table of `count` entries. -/
abbrev Fat (count : Nat) := Vector UInt16 count

/-- The structures that `fs_mount` allocates.  The FAT is allocated with one
entry for each data block. -/
structure Volume where
  sb : SuperBlock
  fat : Fat sb.numDataBlocks.toNat
  root : Slot → File

/-- The global variables of the program.  No `disk` stands for the invalid file
descriptor; `leakedFds` counts the descriptors of disks that nothing in the
program refers to any more.  The structures of a volume are present from a
successful `fs_mount` to the following `fs_umount`. -/
structure State where
  files : String → Option Image
  disk : Option Disk
  leakedFds : Nat
  isDiskMounted : Bool
  volume : Option Volume
  openFiles : Descriptor → Option FileDescriptor
  numOpenFiles : UInt8

/-- The state at program start, on a host with the given files. -/
def State.initial (files : String → Option Image) : State where
  files := files
  disk := none
  leakedFds := 0
  isDiskMounted := false
  volume := none
  openFiles := fun _ => none
  numOpenFiles := 0

/-- A mounted state: a disk is open and the structures of its volume are
present. -/
structure Session extends Volume where
  files : String → Option Image
  disk : Disk
  leakedFds : Nat
  openFiles : Descriptor → Option FileDescriptor
  numOpenFiles : UInt8

/-- The mounted state as a state of the program. -/
def Session.toState (session : Session) : State where
  files := session.files
  disk := some session.disk
  leakedFds := session.leakedFds
  isDiskMounted := true
  volume := some session.toVolume
  openFiles := session.openFiles
  numOpenFiles := session.numOpenFiles

/-- Following the pointers to the structures of the volume. -/
def State.session (state : State) : Outcome Session :=
  match state.disk, state.volume with
  | some disk, some volume =>
      .ok { volume with
        files := state.files
        disk := disk
        leakedFds := state.leakedFds
        openFiles := state.openFiles
        numOpenFiles := state.numOpenFiles }
  | _, _ => .error .absent

namespace Session

@[simp] theorem toState_session (session : Session) :
    session.toState.session = .ok session := rfl

@[simp] theorem toState_isDiskMounted (session : Session) :
    session.toState.isDiskMounted = true := rfl

@[simp] theorem toState_openFiles (session : Session) :
    session.toState.openFiles = session.openFiles := rfl

/-- A mounted state is determined by its state of the program. -/
theorem toState_injective {left right : Session}
    (equal : left.toState = right.toState) :
    left = right := by
  have sessions := congrArg State.session equal
  rw [toState_session, toState_session] at sessions
  exact Except.ok.inj sessions

/-- The root entry is in use. -/
def InUse (session : Session) (slot : Slot) : Prop :=
  (session.root slot).filename 0 ≠ 0

end Session

/-! ## The host -/

/-- What one call takes from the host: which host calls succeed, and the words
the call finds in memory it has not written. -/
structure Host where
  /-- `open` gives a process a descriptor that has leaked this many. -/
  openSucceeds : Nat → Bool
  /-- `fstat` succeeds. -/
  fstatSucceeds : Bool
  /-- `lseek` and `read` of this block succeed. -/
  readSucceeds : Nat → Bool
  /-- `lseek` and `write` of this block succeed. -/
  writeSucceeds : Nat → Bool
  /-- The `malloc` of this number in the call succeeds. -/
  mallocSucceeds : Nat → Bool
  /-- Words from the start of the FAT's allocation on, before it is filled and
  behind its end. -/
  heap : Nat → UInt16
  /-- Words of an array on the stack before it is filled. -/
  stack : Nat → UInt16

/-- Reading and writing the file of an open disk succeeds. -/
structure Host.IoSucceeds (host : Host) : Prop where
  reads : ∀ block, host.readSucceeds block = true
  writes : ∀ block, host.writeSucceeds block = true

/-- Every host call succeeds. -/
structure Host.Reliable (host : Host) : Prop extends host.IoSucceeds where
  opens : ∀ leakedFds, host.openSucceeds leakedFds = true
  fstat : host.fstatSucceeds = true
  mallocs : ∀ number, host.mallocSucceeds number = true

/-- A host on which every host call succeeds. -/
def Host.reliable : Host where
  openSucceeds := fun _ => true
  fstatSucceeds := true
  readSucceeds := fun _ => true
  writeSucceeds := fun _ => true
  mallocSucceeds := fun _ => true
  heap := fun _ => 0
  stack := fun _ => 0

theorem Host.reliable_reliable : Host.reliable.Reliable where
  opens := fun _ => rfl
  fstat := rfl
  reads := fun _ => rfl
  writes := fun _ => rfl
  mallocs := fun _ => rfl

end MsFat
