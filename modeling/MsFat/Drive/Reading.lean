import MsFat.Drive.HostFiles
import MsFat.Drive.Start

/-!
# Sessions that only read

A process that mounts a disk, creates, deletes and writes nothing, and unmounts
the disk again, leaves every byte of it as it was, apart from those behind the
entries of the FAT in the FAT block.
-/

namespace MsFat

open Memory

/-- The call stores nothing. -/
def Call.Reads : Call → Prop
  | .create _ => False
  | .delete _ => False
  | .write _ _ _ => False
  | _ => True

/-- The call stores nothing and leaves the disk mounted. -/
def ApiCall.Reads : ApiCall → Prop
  | .umount => False
  | .file call => call.Reads
  | _ => True

namespace Session

variable {session after : Session}

/-- Nothing of this is changed by calls that only read. -/
structure SameDisk (before after : Session) : Prop where
  volume : after.toVolume = before.toVolume
  files : after.files = before.files
  disk : after.disk = before.disk

/-- A call that reads changes nothing on the disk. -/
theorem sameDisk_of_reads
    {event : Event}
    (effect : CallEffect session event after)
    (reads : event.call.Reads) :
    session.SameDisk after := by
  cases effect with
  | unchanged _ => exact ⟨rfl, rfl, rfl⟩
  | created call _ _ _ _ =>
      rw [call] at reads
      exact reads.elim
  | deleted _ call _ _ _ _ =>
      rw [call] at reads
      exact reads.elim
  | opened _ _ _ _ _ _ => exact ⟨rfl, rfl, rfl⟩
  | closed _ _ _ => exact ⟨rfl, rfl, rfl⟩
  | positioned _ _ _ => exact ⟨rfl, rfl, rfl⟩
  | wrote call _ _ _ _ _ =>
      rw [call] at reads
      exact reads.elim

/-- A run of calls that read changes nothing on the disk. -/
theorem sameDisk_of_run
    {events : List ApiEvent}
    {state : State}
    (run : Run (Guarded ApiStep fun _ event => event.call.Reads)
      session.toState events state) :
    ∃ after : Session, state = after.toState ∧ session.SameDisk after := by
  refine run.invariant (fun state => ∃ after : Session,
    state = after.toState ∧ session.SameDisk after) ?_
    ⟨session, rfl, rfl, rfl, rfl⟩
  rintro _ event _ ⟨middle, rfl, volume, files, disk⟩ ⟨step, reads⟩
  cases step.mountedEffect with
  | unchanged _ => exact ⟨middle, rfl, volume, files, disk⟩
  | unmounted call _ =>
      rw [call] at reads
      exact reads.elim
  | @file _ next call effect =>
      rw [call] at reads
      have same := sameDisk_of_reads effect reads
      exact ⟨next, rfl, same.volume.trans volume, same.files.trans files,
        same.disk.trans disk⟩

/-! ## Saving what is on the disk -/

/-- A block that is written with the bytes it has holds them afterwards, whether
the host writes it or not. -/
theorem blockWrite_same
    {disk : Disk}
    {block : Nat}
    {buf : Buffer}
    {byte : Nat}
    (same : byte / blockSize = block → buf (byte % blockSize) = disk.bytes byte)
    (host : Host) :
    ((blockWrite host (some disk) block buf).getD disk).bytes byte =
      disk.bytes byte := by
  have cut := Nat.div_add_mod byte blockSize
  have inBlock := Nat.mod_lt byte (show 0 < blockSize by decide)
  by_cases isBlock : byte / blockSize = block
  · by_cases outside : disk.bcount ≤ block
    · rw [blockWrite_of_le host outside]
      rfl
    · rcases blockWrite_cases host disk (Nat.lt_of_not_le outside) buf with
        ⟨_, failed⟩ | written
      · rw [failed]
        rfl
      · rw [written]
        change memcpy disk.bytes (block * blockSize) buf 0 blockSize byte = _
        rw [isBlock, Nat.mul_comm] at cut
        rw [memcpy_apply_inside (by omega) (by omega), ← same isBlock]
        congr 1
        omega
  · refine (blockWrite_getD host disk block buf).2.2 byte ?_
    simp only [blockSize] at *
    omega

/-- The bytes of words in memory are laid out as they were read. -/
theorem byteOfWords_wordAt
    (bytes : Buffer)
    (index : Nat) :
    byteOfWords (wordAt bytes) index = bytes index := by
  have cut := Nat.div_add_mod index 2
  have parts := @concatenateTwoBytes_byte fun place =>
    bytes (2 * (index / 2) + place)
  apply UInt8.toNat_inj.mp
  unfold byteOfWords wordAt
  by_cases even : index % 2 = 0
  · rw [if_pos even, UInt16.toNat_toUInt8]
    have low := parts (show 0 < 2 by decide)
    rw [Nat.mul_zero, Nat.pow_zero, Nat.div_one] at low
    refine low.trans ?_
    rw [show 2 * (index / 2) + 0 = index by omega]
  · rw [if_neg even, UInt16.toNat_toUInt8, UInt16.toNat_shiftRight,
      Nat.shiftRight_eq_div_pow]
    refine (parts (show 1 < 2 by decide)).trans ?_
    rw [show 2 * (index / 2) + 1 = index by omega]

/-- `fs_umount` leaves a disk that holds the volume as it is. -/
theorem save_bytes_of_holds
    (formatted : session.Formatted)
    (holds : session.disk.Holds session.toVolume)
    (host : Host)
    {byte : Nat}
    (notBehind : byte < blockSize + 2 * session.sb.numDataBlocks.toNat ∨
      2 * blockSize ≤ byte) :
    (session.save host).bytes byte = session.disk.bytes byte := by
  have layout := formatted.layout
  have cut := Nat.div_add_mod byte blockSize
  have inBlock := Nat.mod_lt byte (show 0 < blockSize by decide)
  have sameFat : byte / blockSize = 0 + 1 →
      byteOfWords (fun word => fatMemory host session.fat (blockSize * 0 + word))
        (byte % blockSize) = session.disk.bytes byte := by
    intro isBlock
    rw [isBlock] at cut
    have inside : byte % blockSize / 2 < session.sb.numDataBlocks.toNat := by
      simp only [blockSize] at *
      omega
    have isWord : fatMemory host session.fat
        (blockSize * 0 + byte % blockSize / 2) =
          fatWord session.disk.bytes (byte % blockSize / 2) := by
      rw [Nat.mul_zero, Nat.zero_add]
      unfold fatMemory
      rw [Vector.getElem?_eq_getElem inside, Option.getD_some]
      exact holds.fat _ inside
    have isByte := byteOfWords_wordAt
      (fun offset => session.disk.bytes (blockSize + offset)) (byte % blockSize)
    unfold byteOfWords at isByte ⊢
    dsimp only
    rw [isWord]
    refine isByte.trans ?_
    rw [show blockSize + byte % blockSize = byte by omega]
  unfold save
  rw [layout.rootIndex, layout.numFatBlocks]
  dsimp only [saveFat]
  have fatSame := @blockWrite_same session.disk (0 + 1)
    (byteOfWords fun word =>
      fatMemory host session.fat (blockSize * 0 + word)) byte sameFat host
  refine (blockWrite_same ?_ host).trans fatSame
  intro isBlock
  rw [fatSame, holds.root, rootArray_decodeRoot _ inBlock]
  change session.disk.bytes (2 * blockSize + byte % blockSize) = _
  congr 1
  rw [isBlock] at cut
  omega

end Session

/-- A process mounts a disk, makes calls that only read, and unmounts the disk,
whatever the host does to its calls.  All other files of the host are the same
then, and so is every byte of the disk, apart from those of the FAT block that
lie behind the entries of the FAT. -/
theorem image_of_reading
    {host last : Host}
    {files : String → Option Image}
    {diskname : String}
    {mounted : Session}
    {events : List ApiEvent}
    {after : State}
    (mounts : fsMount host (State.initial files) (some diskname) =
      .ok (mounted.toState, 0))
    (layout : OneFatLayout mounted.sb)
    (succeeds : host.IoSucceeds)
    (run : Run (Guarded ApiStep fun _ event => event.call.Reads)
      mounted.toState events after) :
    ∃ unmounted image image',
      fsUmount last after = .ok (unmounted, 0) ∧
      files diskname = some image ∧
      unmounted.files diskname = some image' ∧
      image'.size = image.size ∧
      (∀ byte, byte < blockSize + 2 * mounted.sb.numDataBlocks.toNat ∨
        2 * blockSize ≤ byte → image'.bytes byte = image.bytes byte) ∧
      ∀ name, name ≠ diskname → unmounted.files name = files name := by
  obtain ⟨reader, rfl, sameVolume, sameFiles, sameDisk⟩ :=
    Session.sameDisk_of_run run
  obtain ⟨formatted, holds, _⟩ :=
    Session.holds_of_mount mounts layout succeeds
  obtain ⟨opens, _, _⟩ := fsMount_eq_zero mounts
  change (blockDiskOpen host files none 0 (some diskname)).1 =
    some mounted.disk at opens
  obtain ⟨_, _, _, name, image, isName, found, multiple, isDisk⟩ :=
    blockDiskOpen_eq_some.mp opens
  cases isName
  have isFiles : mounted.files = files :=
    congrArg Session.files (eq_mounted_of_fsMount mounts)
  have sameSave : reader.save last = mounted.save last := by
    cases reader
    cases mounted
    cases sameVolume
    cases sameDisk
    rfl
  have named : mounted.disk.diskname = diskname := by rw [isDisk]
  have isClosed : (reader.unmounted last).files =
      blockDiskClose files (mounted.save last) := by
    rw [← sameSave, ← isFiles, ← sameFiles]
    rfl
  refine ⟨reader.unmounted last, image,
    { size := mounted.disk.bcount * blockSize
      bytes := (mounted.save last).bytes }, rfl, found, ?_, ?_, ?_, ?_⟩
  · rw [isClosed, blockDiskClose, Session.save_diskname, Disk.whole,
      Session.save_bcount, named, Function.update_self]
  · rw [isDisk]
    exact Nat.div_mul_cancel (Nat.dvd_of_mod_eq_zero multiple)
  · intro byte notBehind
    have isByte := Session.save_bytes_of_holds formatted holds last notBehind
    rw [show image.bytes = mounted.disk.bytes by rw [isDisk]]
    exact isByte
  · intro other different
    rw [isClosed, blockDiskClose, Session.save_diskname, named,
      Function.update_of_ne different]

/-- A fresh disk is mounted, listed and unmounted. -/
theorem image_of_reading_listed :
    ∃ mounted : Session, mounted.sb.numDataBlocks.toNat = 50 ∧
      ∃ unmounted image image',
        fsUmount .reliable mounted.toState = .ok (unmounted, 0) ∧
        some (freshImage 100 50 1) = some image ∧
        unmounted.files "disk.fs" = some image' ∧
        image'.size = image.size ∧
        (∀ byte, byte < blockSize + 2 * mounted.sb.numDataBlocks.toNat ∨
          2 * blockSize ≤ byte → image'.bytes byte = image.bytes byte) ∧
        ∀ name, name ≠ "disk.fs" →
          unmounted.files name = some (freshImage 100 50 1) := by
  obtain ⟨mounted, mounts, isSb, _⟩ :=
    Session.freshImage_mounts (show 1 ≤ (50 : UInt16).toNat by decide) (by decide)
      (show (50 : UInt16).toNat < (100 : UInt16).toNat by decide)
  have layout : OneFatLayout mounted.sb := by
    rw [isSb]
    exact freshImage_oneFatLayout (by decide) (by decide) (by decide)
  have count : mounted.sb.numDataBlocks.toNat = 50 := by
    rw [isSb, freshImage_numDataBlocks]
    rfl
  have step : ApiStep mounted.toState ⟨.reliable, .ls, 0⟩ mounted.toState :=
    ⟨0, rfl⟩
  exact ⟨mounted, count, image_of_reading mounts layout
    Host.reliable_reliable.toIoSucceeds (.cons ⟨step, trivial⟩ .nil)⟩

end MsFat
