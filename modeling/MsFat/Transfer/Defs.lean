import MsFat.Directory.Defs
import MsFat.Disk

/-!
# Reading and writing

`fs_write` and `fs_read`.  Both cut a transfer into a partial first block, a
loop of whole blocks and a partial last block, and both may return in the
middle of it.  A `Progress` says whether a part of the transfer ended the call
or how many bytes have been moved when the next part begins.

In `fs_write` and `fs_read` an additional `block_read` into a buffer that
nothing reads follows every whole block; it has no effect and is left out.
-/

namespace MsFat

open Memory

/-- `find_num_target_blocks` -/
def findNumTargetBlocks (offset count : Nat) : Int :=
  let data := sizeT (offset + count)
  let numTargetBlocks := int32 (data / blockSize : Nat)
  if data % blockSize ≠ 0 then numTargetBlocks + 1 else numTargetBlocks

/-- How far a transfer is. -/
inductive Progress
  /-- The call returns this value. -/
  | stopped (result : Int)
  /-- This many bytes have been moved. -/
  | going (bytes : Nat)
  deriving DecidableEq

/-- The next part of a transfer, unless the call has returned. -/
def andThen
    {α : Type}
    (part : Outcome (α × Progress))
    (next : α → Nat → Outcome (α × Progress)) : Outcome (α × Progress) := do
  let (memory, progress) ← part
  match progress with
  | .stopped result => .ok (memory, .stopped result)
  | .going bytes => next memory bytes

/-! ## The cut of a transfer -/

/-- `write_amount` and `read_amount`: bytes moved in a partial first block. -/
def firstAmount (offset count : Nat) : Nat :=
  if sizeT (offset % blockSize + count) < blockSize then count
  else blockSize - offset % blockSize

/-- `full_block_start_index` behind the partial first block. -/
def fullBlockStartIndex (offset : Nat) : Nat :=
  if offset % blockSize ≠ 0 then offset / blockSize + 1
  else offset / blockSize

/-- `num_full_blocks`, when `bytes` bytes have been moved in a partial first
block. -/
def numFullBlocks (offset count bytes : Nat) : Int :=
  findNumTargetBlocks offset count - (offset / blockSize : Nat) -
    (if bytes ≠ 0 then 1 else 0) -
    (if ((count : Int) - bytes) % blockSize ≠ 0 then 1 else 0)

/-- `remainder_block_size`, when `bytes` bytes have been moved. -/
def remainderBlockSize (count bytes : Nat) : Int :=
  int32 ((count : Int) - bytes)

namespace Session

/-- The block of the disk that an index of the FAT stands for, a sum of 16-bit
numbers. -/
def dataBlock (session : Session) (index : UInt16) : Nat :=
  (index + session.sb.dataStartIndex).toNat

/-! ## Writing -/

/-- Write `amount` bytes of the buffer into a block of the file from `start`
on, through a bounce buffer. -/
def writePartialBlock
    (host : Host)
    (file : Slot)
    (buf : Buffer)
    (blockNum : Int)
    (start amount : Nat)
    (session : Session)
    (bytesWritten : Nat) : Outcome (Session × Progress) := do
  let index ← session.findDataBlock file blockNum
  if index = fatEoc then .ok (session, .stopped bytesWritten)
  else
    let block := session.dataBlock index
    match blockRead host (some session.disk) block with
    | none => .ok (session, .stopped (-1))
    | some bounceBuffer =>
        let bounceBuffer := memcpy bounceBuffer start buf bytesWritten amount
        match blockWrite host (some session.disk) block bounceBuffer with
        | none => .ok (session, .stopped (-1))
        | some disk =>
            .ok ({ session with disk := disk }, .going (bytesWritten + amount))

/-- The loop of `fs_write` over whole blocks, from block `blockNum` of the file
on. -/
def writeFullBlocks
    (host : Host)
    (file : Slot)
    (buf : Buffer) :
    Nat → Nat → Session → Nat → Outcome (Session × Progress)
  | 0, _, session, bytesWritten => .ok (session, .going bytesWritten)
  | blocks + 1, blockNum, session, bytesWritten => do
      let index ← session.findDataBlock file blockNum
      if index = fatEoc then .ok (session, .stopped bytesWritten)
      else
        let block := session.dataBlock index
        match blockWrite host (some session.disk) block
            fun position => buf (bytesWritten + position) with
        | none => .ok (session, .stopped (-1))
        | some disk =>
            writeFullBlocks host file buf blocks (blockNum + 1)
              { session with disk := disk } (bytesWritten + blockSize)

/-- The partial last block of `fs_write`, if there is a remainder.  The bounce
buffer holds one block. -/
def writeLastBlock
    (host : Host)
    (file : Slot)
    (buf : Buffer)
    (offset count : Nat)
    (session : Session)
    (bytesWritten : Nat) : Outcome (Session × Progress) :=
  let remainder := remainderBlockSize count bytesWritten
  if remainder = 0 then .ok (session, .going bytesWritten)
  else if remainder < 0 ∨ remainder > blockSize then .error .outOfBounds
  else
    session.writePartialBlock host file buf
      (findNumTargetBlocks offset count - 1) 0 remainder.toNat bytesWritten

/-- The three parts of a write. -/
def writeBlocks
    (host : Host)
    (file : Slot)
    (buf : Buffer)
    (offset count : Nat)
    (session : Session) : Outcome (Session × Progress) :=
  let first :=
    if offset % blockSize ≠ 0 then
      session.writePartialBlock host file buf (offset / blockSize : Nat)
        (offset % blockSize) (firstAmount offset count) 0
    else .ok (session, .going 0)
  let full := andThen first fun session bytesWritten =>
    writeFullBlocks host file buf (numFullBlocks offset count bytesWritten).toNat
      (fullBlockStartIndex offset) session bytesWritten
  andThen full fun session bytesWritten =>
    session.writeLastBlock host file buf offset count bytesWritten

/-- The two updates at the end of `fs_write`. -/
def finishWrite
    (session : Session)
    (index : Descriptor)
    (descriptor : FileDescriptor)
    (bytesWritten : Nat) : Session :=
  let file := session.root descriptor.file
  (session.setOpenFile index
      (some { descriptor with
        offset := descriptor.offset + UInt16.ofNat bytesWritten })).setFile
    descriptor.file
    { file with fileSize := file.fileSize + UInt32.ofNat bytesWritten }

/-- `fs_write` behind its checks.  The result of the allocation is not
looked at. -/
def write
    (fuel : Nat)
    (host : Host)
    (session : Session)
    (index : Descriptor)
    (descriptor : FileDescriptor)
    (buf : Buffer)
    (count : Nat) : Outcome (Session × Int) := do
  let offset := descriptor.offset.toNat
  let (session, _) ← session.allocateBlocksInFat fuel descriptor.file
    (findNumTargetBlocks offset count)
  let (session, progress) ←
    session.writeBlocks host descriptor.file buf offset count
  match progress with
  | .stopped result => .ok (session, result)
  | .going bytesWritten =>
      .ok (session.finishWrite index descriptor bytesWritten, bytesWritten)

/-! ## Reading -/

/-- Read `amount` bytes of a block of the file from `start` on into the buffer,
through a bounce buffer. -/
def readPartialBlock
    (host : Host)
    (session : Session)
    (file : Slot)
    (blockNum : Int)
    (start amount : Nat)
    (buf : Buffer)
    (bytesRead : Nat) : Outcome (Buffer × Progress) := do
  let index ← session.findDataBlock file blockNum
  if index = fatEoc then .ok (buf, .stopped bytesRead)
  else
    match blockRead host (some session.disk) (session.dataBlock index) with
    | none => .ok (buf, .stopped (-1))
    | some bounceBuffer =>
        .ok (memcpy buf bytesRead bounceBuffer start amount,
          .going (bytesRead + amount))

/-- The loop of `fs_read` over whole blocks, from block `blockNum` of the file
on. -/
def readFullBlocks
    (host : Host)
    (session : Session)
    (file : Slot) :
    Nat → Nat → Buffer → Nat → Outcome (Buffer × Progress)
  | 0, _, buf, bytesRead => .ok (buf, .going bytesRead)
  | blocks + 1, blockNum, buf, bytesRead => do
      let index ← session.findDataBlock file blockNum
      if index = fatEoc then .ok (buf, .stopped bytesRead)
      else
        match blockRead host (some session.disk) (session.dataBlock index) with
        | none => .ok (buf, .stopped (-1))
        | some block =>
            readFullBlocks host session file blocks (blockNum + 1)
              (memcpy buf bytesRead block 0 blockSize) (bytesRead + blockSize)

/-- The partial last block of `fs_read`, if there is a remainder. -/
def readLastBlock
    (host : Host)
    (session : Session)
    (file : Slot)
    (offset count : Nat)
    (buf : Buffer)
    (bytesRead : Nat) : Outcome (Buffer × Progress) :=
  let remainder := remainderBlockSize count bytesRead
  if remainder < 0 ∨ remainder ≥ blockSize then .ok (buf, .stopped (-1))
  else if remainder = 0 then .ok (buf, .going bytesRead)
  else
    session.readPartialBlock host file
      (findNumTargetBlocks offset count - 1) 0 remainder.toNat buf bytesRead

/-- The three parts of a read. -/
def readBlocks
    (host : Host)
    (session : Session)
    (file : Slot)
    (offset count : Nat)
    (buf : Buffer) : Outcome (Buffer × Progress) :=
  let first :=
    if offset % blockSize ≠ 0 then
      session.readPartialBlock host file (offset / blockSize : Nat)
        (offset % blockSize) (firstAmount offset count) buf 0
    else .ok (buf, .going 0)
  let full := andThen first fun buf bytesRead =>
    readFullBlocks host session file
      (numFullBlocks offset count bytesRead).toNat
      (fullBlockStartIndex offset) buf bytesRead
  andThen full fun buf bytesRead =>
    session.readLastBlock host file offset count buf bytesRead

/-- The update at the end of `fs_read`. -/
def finishRead
    (session : Session)
    (index : Descriptor)
    (descriptor : FileDescriptor)
    (bytesRead : Nat) : Session :=
  session.setOpenFile index
    (some { descriptor with
      offset := descriptor.offset + UInt16.ofNat bytesRead })

/-- `fs_read` behind its checks. -/
def read
    (host : Host)
    (session : Session)
    (index : Descriptor)
    (descriptor : FileDescriptor)
    (buf : Buffer)
    (count : Nat) : Outcome (Session × Buffer × Int) := do
  let (buf, progress) ← session.readBlocks host descriptor.file
    descriptor.offset.toNat count buf
  match progress with
  | .stopped result => .ok (session, buf, result)
  | .going bytesRead =>
      .ok (session.finishRead index descriptor bytesRead, buf, bytesRead)

end Session

/-! ## Calls -/

/-- `fs_write` -/
def fsWrite
    (fuel : Nat)
    (host : Host)
    (state : State)
    (fd : Int)
    (buf : Option Buffer)
    (count : Nat) : Outcome (State × Int) :=
  onDescriptor state fd (state, -1) fun index descriptor =>
    match buf with
    | none => .ok (state, -1)
    | some buf =>
        if count = 0 then .ok (state, 0)
        else do
          let session ← state.session
          let (session, result) ←
            session.write fuel host index descriptor buf count
          .ok (session.toState, result)

/-- `fs_read`, with the buffer of the caller behind the call. -/
def fsRead
    (host : Host)
    (state : State)
    (fd : Int)
    (buf : Option Buffer)
    (count : Nat) : Outcome (State × Option Buffer × Int) :=
  onDescriptor state fd (state, buf, -1) fun index descriptor =>
    match buf with
    | none => .ok (state, none, -1)
    | some buf => do
        let session ← state.session
        let (session, buf, result) ←
          session.read host index descriptor buf count
        .ok (session.toState, some buf, result)

end MsFat
