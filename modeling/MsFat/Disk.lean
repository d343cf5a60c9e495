import MsFat.Basic
import MsFat.Library.Memory

/-!
# The block device

The functions of `disk.c`.  A return value of -1 is `none`.  A block that is
read or written is the run of `BLOCK_SIZE` bytes of the host file that starts at
`block * BLOCK_SIZE`.
-/

namespace MsFat

open Memory

/-- A file of whole blocks. -/
theorem size_of_multiple
    {size : Nat}
    (multiple : ¬size % blockSize ≠ 0) :
    size = size / blockSize * blockSize :=
  (Nat.div_mul_cancel (Nat.dvd_of_mod_eq_zero (not_not.mp multiple))).symm

/-- `block_disk_open`: the open disk, and the descriptors that have been leaked
behind the call.  The exits behind `open` do not close the file. -/
def blockDiskOpen
    (host : Host)
    (files : String → Option Image)
    (disk : Option Disk)
    (leakedFds : Nat)
    (diskname : Option String) : Option Disk × Nat :=
  match diskname, disk with
  | none, _ => (none, leakedFds)
  | some _, some _ => (none, leakedFds)
  | some name, none =>
      match files name with
      | none => (none, leakedFds)
      | some image =>
          if !host.openSucceeds leakedFds then (none, leakedFds)
          else if !host.fstatSucceeds then (none, leakedFds + 1)
          else if odd : image.size % blockSize ≠ 0 then (none, leakedFds + 1)
          else
            (some
              { diskname := name
                bcount := image.size / blockSize
                size := image.size
                bytes := image.bytes
                whole := size_of_multiple odd }, leakedFds)

/-- `block_disk_close`: the host keeps what was written to the file. -/
def blockDiskClose
    (files : String → Option Image)
    (disk : Disk) : String → Option Image :=
  Function.update files disk.diskname
    (some { size := disk.size, bytes := disk.bytes })

/-- `block_disk_count` -/
def blockDiskCount : Option Disk → Int
  | none => -1
  | some disk => int32 disk.bcount

/-- `block_read`: the bytes of the block. -/
def blockRead
    (host : Host)
    (disk : Option Disk)
    (block : Nat) : Option Buffer :=
  match disk with
  | none => none
  | some disk =>
      if disk.bcount ≤ block then none
      else if !host.readSucceeds block then none
      else some fun index => disk.bytes (block * blockSize + index)

/-- A write to a block of the disk ends inside its file. -/
theorem size_of_inside
    {disk : Disk}
    {block : Nat}
    (inside : ¬disk.bcount ≤ block) :
    max disk.size ((block + 1) * blockSize) = disk.bcount * blockSize := by
  have upper : (block + 1) * blockSize ≤ disk.bcount * blockSize :=
    Nat.mul_le_mul_right blockSize (Nat.lt_of_not_le inside)
  rw [disk.whole, Nat.max_eq_left upper]

/-- `block_write`: the disk with the block replaced by the first `BLOCK_SIZE`
bytes of the buffer.  A write behind the end would lengthen the file. -/
def blockWrite
    (host : Host)
    (disk : Option Disk)
    (block : Nat)
    (buf : Buffer) : Option Disk :=
  match disk with
  | none => none
  | some disk =>
      if outside : disk.bcount ≤ block then none
      else if !host.writeSucceeds block then none
      else some { disk with
        size := max disk.size ((block + 1) * blockSize)
        bytes := memcpy disk.bytes (block * blockSize) buf 0 blockSize
        whole := size_of_inside outside }

/-- Opening succeeds exactly on a file of the host whose length is a multiple
of the block size, while no disk is open. -/
theorem blockDiskOpen_eq_some
    {host : Host}
    {files : String → Option Image}
    {disk : Option Disk}
    {leakedFds : Nat}
    {diskname : Option String}
    {opened : Disk} :
    (blockDiskOpen host files disk leakedFds diskname).1 = some opened ↔
      disk = none ∧ host.openSucceeds leakedFds = true ∧
        host.fstatSucceeds = true ∧
        ∃ name image, diskname = some name ∧ files name = some image ∧
          image.size % blockSize = 0 ∧
          opened =
            { diskname := name
              bcount := image.size / blockSize
              bytes := image.bytes } := by
  cases diskname with
  | none => simp [blockDiskOpen]
  | some name =>
      cases disk with
      | some disk => simp [blockDiskOpen]
      | none =>
          cases found : files name with
          | none => simp [blockDiskOpen, found]
          | some image =>
              by_cases opens : host.openSucceeds leakedFds = true
              · by_cases fstat : host.fstatSucceeds = true
                · by_cases multiple : image.size % blockSize = 0
                  · simp [blockDiskOpen, found, opens, fstat, multiple,
                      Disk.ext_iff, eq_comm]
                  · simp [blockDiskOpen, found, opens, fstat, multiple]
                · simp [blockDiskOpen, found, opens, fstat]
              · simp [blockDiskOpen, found, opens]

/-- A block of the disk is read, unless the host fails. -/
theorem blockRead_cases
    (host : Host)
    (disk : Disk)
    {block : Nat}
    (inside : block < disk.bcount) :
    (¬host.IoSucceeds ∧ blockRead host (some disk) block = none) ∨
      blockRead host (some disk) block =
        some fun index => disk.bytes (block * blockSize + index) := by
  cases succeeds : host.readSucceeds block with
  | false =>
      left
      refine ⟨fun reliable => ?_, ?_⟩
      · rw [reliable.reads] at succeeds
        exact Bool.noConfusion succeeds
      · simp [blockRead, succeeds]
  | true => exact .inr (by simp [blockRead, Nat.not_le.mpr inside, succeeds])

/-- A block of the disk is written, unless the host fails. -/
theorem blockWrite_cases
    (host : Host)
    (disk : Disk)
    {block : Nat}
    (inside : block < disk.bcount)
    (buf : Buffer) :
    (¬host.IoSucceeds ∧ blockWrite host (some disk) block buf = none) ∨
      blockWrite host (some disk) block buf =
        some { disk with
          bytes := memcpy disk.bytes (block * blockSize) buf 0 blockSize } := by
  cases succeeds : host.writeSucceeds block with
  | false =>
      left
      refine ⟨fun reliable => ?_, ?_⟩
      · rw [reliable.writes] at succeeds
        exact Bool.noConfusion succeeds
      · simp [blockWrite, succeeds]
  | true =>
      right
      simp [blockWrite, Nat.not_le.mpr inside, succeeds, Disk.ext_iff]

/-- A block outside the disk cannot be read. -/
theorem blockRead_of_le
    (host : Host)
    {disk : Disk}
    {block : Nat}
    (outside : disk.bcount ≤ block) :
    blockRead host (some disk) block = none := by
  simp [blockRead, outside]

/-- A block outside the disk cannot be written. -/
theorem blockWrite_of_le
    (host : Host)
    {disk : Disk}
    {block : Nat}
    (outside : disk.bcount ≤ block)
    (buf : Buffer) :
    blockWrite host (some disk) block buf = none := by
  simp [blockWrite, outside]

/-- The bytes of a block. -/
def Disk.block (disk : Disk) (block : Nat) : Buffer :=
  fun index => disk.bytes (block * blockSize + index)

@[simp] theorem Disk.block_zero (disk : Disk) : disk.block 0 = disk.bytes := by
  funext index
  rw [Disk.block, Nat.zero_mul, Nat.zero_add]

/-- A block that is read is the block of the disk. -/
theorem blockRead_eq_some
    {host : Host}
    {disk : Disk}
    {block : Nat}
    {buffer : Buffer} :
    blockRead host (some disk) block = some buffer ↔
      block < disk.bcount ∧ host.readSucceeds block = true ∧
        buffer = disk.block block := by
  by_cases inside : disk.bcount ≤ block
  · simp [blockRead, inside]
  · cases succeeds : host.readSucceeds block with
    | false => simp [blockRead, succeeds]
    | true =>
        simp only [blockRead, inside, succeeds, Nat.lt_of_not_le inside,
          if_false, Bool.not_true, Bool.false_eq_true, Option.some.injEq,
          true_and]
        exact eq_comm

/-- While reads succeed, every block of the disk is read. -/
theorem blockRead_of_succeeds
    {host : Host}
    (succeeds : host.IoSucceeds)
    {disk : Disk}
    {block : Nat}
    (inside : block < disk.bcount) :
    blockRead host (some disk) block = some (disk.block block) :=
  blockRead_eq_some.mpr ⟨inside, succeeds.reads block, rfl⟩

/-- While writes succeed, a block of the disk holds what is written to it. -/
theorem blockWrite_inside
    {host : Host}
    (succeeds : host.IoSucceeds)
    {disk : Disk}
    {block : Nat}
    (inside : block < disk.bcount)
    (buf : Buffer)
    {offset : Nat}
    (inBlock : offset < blockSize) :
    ((blockWrite host (some disk) block buf).getD disk).bytes
        (blockSize * block + offset) = buf offset := by
  rcases blockWrite_cases host disk inside buf with ⟨fails, _⟩ | written
  · exact absurd succeeds fails
  · rw [written, Nat.mul_comm blockSize]
    apply (memcpy_apply_inside (by omega) (by omega)).trans
    rw [Nat.zero_add, Nat.add_sub_cancel_left]

/-- A write keeps the name and the length of the disk and the bytes outside the
block. -/
theorem blockWrite_getD
    (host : Host)
    (disk : Disk)
    (block : Nat)
    (buf : Buffer) :
    ((blockWrite host (some disk) block buf).getD disk).diskname =
        disk.diskname ∧
      ((blockWrite host (some disk) block buf).getD disk).bcount =
        disk.bcount ∧
      ∀ byte, (byte < blockSize * block ∨ blockSize * (block + 1) ≤ byte) →
        ((blockWrite host (some disk) block buf).getD disk).bytes byte =
          disk.bytes byte := by
  by_cases outside : disk.bcount ≤ block
  · rw [blockWrite_of_le host outside]
    exact ⟨rfl, rfl, fun _ _ => rfl⟩
  · rcases blockWrite_cases host disk (Nat.lt_of_not_le outside) buf with
      ⟨_, failed⟩ | written
    · rw [failed]
      exact ⟨rfl, rfl, fun _ _ => rfl⟩
    · rw [written]
      refine ⟨rfl, rfl, fun byte apart => memcpy_apply_outside ?_⟩
      rwa [Nat.mul_comm block]

end MsFat
