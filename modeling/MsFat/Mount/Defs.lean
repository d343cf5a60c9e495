import MsFat.Disk

/-!
# Mounting and unmounting

`fs_mount` with its three loaders, and `fs_umount`.  A loader that returns -1 is
`none`.

Words are stored in memory with their low byte first, on the disk as well as in
the FAT, which `fs.c` reads and writes as it lies in memory.
-/

namespace MsFat

open Memory

/-- `concatenate_two_bytes` -/
def concatenateTwoBytes (byte1 byte2 : UInt8) : UInt16 :=
  UInt16.ofNat (256 * byte2.toNat + byte1.toNat)

/-- `concatenate_four_bytes`.  All sums are integers that a `double` holds
exactly. -/
def concatenateFourBytes (byte1 byte2 byte3 byte4 : UInt8) : UInt32 :=
  UInt32.ofNat
    (2 ^ 24 * byte4.toNat + 2 ^ 16 * byte3.toNat + 2 ^ 8 * byte2.toNat +
      byte1.toNat)

/-! ## Loading -/

/-- The superblock that the bytes of a block hold. -/
def decodeSuperblock (bytes : Buffer) : SuperBlock where
  signature := fun index => bytes index
  numBlocks := concatenateTwoBytes (bytes 8) (bytes 9)
  rootIndex := concatenateTwoBytes (bytes 10) (bytes 11)
  dataStartIndex := concatenateTwoBytes (bytes 12) (bytes 13)
  numDataBlocks := concatenateTwoBytes (bytes 14) (bytes 15)
  numFatBlocks := bytes 16
  padding := fun index => bytes (17 + index)

/-- `load_superblock` -/
def loadSuperblock
    (host : Host)
    (disk : Option Disk)
    (superblockPtr : Buffer) : Option SuperBlock :=
  let sb := decodeSuperblock superblockPtr
  if !host.mallocSucceeds 0 then none
  else if (sb.numBlocks.toNat : Int) ≠ blockDiskCount disk then none
  else if sb.rootIndex.toNat ≤ 0 then none
  else if sb.dataStartIndex = 0 then none
  else if sb.dataStartIndex = sb.rootIndex then none
  else if sb.numDataBlocks.toNat ≥ sb.numBlocks.toNat then none
  else if sb.numFatBlocks.toNat ≥ sb.numBlocks.toNat then none
  else if ∃ index, sb.padding index ≠ 0 then none
  else some sb

/-- The 16-bit word at an index of an array that lies in memory. -/
def wordAt (bytes : Buffer) (index : Nat) : UInt16 :=
  concatenateTwoBytes (bytes (2 * index)) (bytes (2 * index + 1))

/-- `buf_size` of `load_fat`, kept in 16 bits. -/
def fatBufSize (numDataBlocks : UInt16) : Nat :=
  if numDataBlocks.toNat * 2 > blockSize then
    numDataBlocks.toNat * 2 % 2 ^ 16
  else blockSize

/-- The loop of `load_fat` over the FAT blocks.  Each block is read to
`&buffer[BLOCK_SIZE*i]` of an array of `bufSize` words; a block that does not
fit there is written past the array. -/
def readFatBlocks
    (host : Host)
    (disk : Disk)
    (bufSize : Nat) :
    Nat → Nat → (Nat → UInt16) → Outcome (Option (Nat → UInt16))
  | 0, _, buffer => .ok (some buffer)
  | blocks + 1, index, buffer =>
      match blockRead host (some disk) (index + 1) with
      | none => .ok none
      | some bytes =>
          if blockSize * index + blockSize / 2 ≤ bufSize then
            readFatBlocks host disk bufSize blocks (index + 1)
              (memcpy buffer (blockSize * index) (wordAt bytes) 0
                (blockSize / 2))
          else .error .outOfBounds

/-- `load_fat`.  The buffer is an array on the stack that nothing fills
beforehand, and a FAT without entries is read past its end by the check of the
first entry. -/
def loadFat
    (host : Host)
    (disk : Disk)
    (sb : SuperBlock) : Outcome (Option (Fat sb.numDataBlocks.toNat)) :=
  if !host.mallocSucceeds 1 then .ok none
  else do
    let buffer ← readFatBlocks host disk (fatBufSize sb.numDataBlocks)
      sb.numFatBlocks.toNat 0 host.stack
    match buffer with
    | none => .ok none
    | some buffer =>
        let fat : Fat sb.numDataBlocks.toNat :=
          Vector.ofFn fun index => buffer index
        if fat[0]?.getD (host.heap 0) ≠ fatEoc then .ok none
        else .ok (some fat)

/-- One entry of the root directory, as `load_root_directory` reads it. -/
def decodeFile (rootPtr : Buffer) : File where
  filename := fun index => rootPtr index
  fileSize := concatenateFourBytes (rootPtr 16) (rootPtr 17) (rootPtr 18)
    (rootPtr 19)
  firstIndex := concatenateTwoBytes (rootPtr 20) (rootPtr 21)
  padding := fun index => rootPtr (22 + index)

/-- The entries that the bytes of the root block hold. -/
def decodeRoot (rootPtr : Buffer) (slot : Slot) : File :=
  decodeFile fun index => rootPtr (rootEntryLen * slot + index)

/-- `load_root_directory` -/
def loadRootDirectory
    (host : Host)
    (rootPtr : Buffer) : Option (Slot → File) :=
  if ∀ slot : Slot, host.mallocSucceeds (2 + slot) = true ∧
      ∀ index, (decodeRoot rootPtr slot).padding index = 0 then
    some (decodeRoot rootPtr)
  else none

/-- `load_disk`: the open disk, and the descriptors that have been leaked behind
the call. -/
def loadDisk
    (host : Host)
    (state : State)
    (diskname : Option String) : Option Disk × Nat :=
  if state.isDiskMounted then (none, state.leakedFds)
  else blockDiskOpen host state.files state.disk state.leakedFds diskname

/-- The state once `load_disk` has failed. -/
def State.diskNotLoaded (state : State) (leakedFds : Nat) : State :=
  { state with leakedFds := leakedFds }

/-- The state once `load_disk` has opened a disk, which is the state that every
later failure of `fs_mount` leaves. -/
def State.diskLoaded (state : State) (disk : Disk) : State :=
  { state with
    disk := some disk
    isDiskMounted := true
    volume := none }

/-- `fs_mount`.  Whether the root block could be read is not looked at; if not,
the buffer still holds the superblock. -/
def fsMount
    (host : Host)
    (state : State)
    (diskname : Option String) : Outcome (State × Int) :=
  match (loadDisk host state diskname).1 with
  | none => .ok (state.diskNotLoaded (loadDisk host state diskname).2, -1)
  | some disk =>
      let loaded := state.diskLoaded disk
      match blockRead host (some disk) 0 with
      | none => .ok (loaded, -1)
      | some buffer =>
          match loadSuperblock host (some disk) buffer with
          | none => .ok (loaded, -1)
          | some sb => do
              match ← loadFat host disk sb with
              | none => .ok (loaded, -1)
              | some fat =>
                  let buffer :=
                    (blockRead host (some disk)
                      (sb.numFatBlocks.toNat + 1)).getD buffer
                  match loadRootDirectory host buffer with
                  | none => .ok (loaded, -1)
                  | some root =>
                      .ok ({ loaded with
                        volume := some { sb := sb, fat := fat, root := root }
                        openFiles := fun _ => none }, 0)

/-! ## Saving -/

/-- The byte of a word array in memory. -/
def byteOfWords (words : Nat → UInt16) (index : Nat) : UInt8 :=
  if index % 2 = 0 then (words (index / 2)).toUInt8
  else (words (index / 2) >>> 8).toUInt8

/-- The words of memory from the FAT on: its entries, and whatever the heap
holds behind them. -/
def fatMemory {count : Nat} (host : Host) (fat : Fat count) (index : Nat) :
    UInt16 :=
  fat[index]?.getD (host.heap index)

/-- The loop of `fs_umount` over the FAT blocks, which writes a block from
`fat+BLOCK_SIZE*i` on.  Failures to write are not looked at. -/
def saveFat {count : Nat} (host : Host) (fat : Fat count) :
    Nat → Nat → Disk → Disk
  | 0, _, disk => disk
  | blocks + 1, index, disk =>
      saveFat host fat blocks (index + 1)
        ((blockWrite host (some disk) (index + 1)
          (byteOfWords fun word =>
            fatMemory host fat (blockSize * index + word))).getD disk)

/-- The bytes of one entry of the root directory, as `fs_umount` lays them
out. -/
def encodeFile (file : File) (index : Nat) : UInt8 :=
  if inName : index < 16 then file.filename ⟨index, inName⟩
  else if index < 20 then
    ((file.fileSize >>> (8 * UInt32.ofNat (index - 16))) &&& 0xFF).toUInt8
  else if index < 22 then
    ((file.firstIndex >>> (8 * UInt16.ofNat (index - 20))) &&& 0xFF).toUInt8
  else if inPadding : index - 22 < rootPadLen then
    file.padding ⟨index - 22, inPadding⟩
  else 0

/-- `root_array` -/
def rootArray (root : Slot → File) (index : Nat) : UInt8 :=
  encodeFile (root (Fin.ofNat fsFileMaxCount (index / rootEntryLen)))
    (index % rootEntryLen)

/-- The disk after `fs_umount` has saved the volume. -/
def Session.save (host : Host) (session : Session) : Disk :=
  let disk := saveFat host session.fat session.sb.numFatBlocks.toNat 0
    session.disk
  (blockWrite host (some disk) session.sb.rootIndex.toNat
    (rootArray session.root)).getD disk

/-- `fs_umount`.  Open files only cause a message that the source has commented
out. -/
def fsUmount
    (host : Host)
    (state : State) : Outcome (State × Int) :=
  if !state.isDiskMounted then .ok (state, -1)
  else do
    let session ← state.session
    .ok ({ state with
      files := blockDiskClose state.files (session.save host)
      disk := none
      isDiskMounted := false
      volume := none }, 0)

end MsFat
