import MsFat.Directory.Map
import MsFat.Replies

/-!
# The file store

What a mounted file system is to its clients: files with a name, a size and
bytes, handles on files, and some room.  Where the blocks of a file lie on the
disk cannot be seen.  Of the bytes of a file only those are known that have been
written; a block that is given to a file keeps whatever it held.

A call that the store does not answer does not return.
-/

namespace MsFat

/-- A file of the store.  `bytes` says which byte is known to be at a position of
its blocks. -/
@[ext] structure StoredFile where
  size : UInt32
  blocks : Nat
  bytes : Nat → Option UInt8

/-- A handle on the file of a name. -/
@[ext] structure Handle where
  name : CString
  offset : UInt16
  deriving DecidableEq

/-- A file store.  `guarded` says that no file of two or more blocks has been
deleted. -/
@[ext] structure Store where
  files : CString → Option StoredFile
  handles : Descriptor → Option Handle
  handleCount : UInt8
  freeEntries : Nat
  freeBlocks : Nat
  guarded : Bool

/-- What the store says about the reply to a call: its result, the bytes that are
known to be in the buffer of the caller, and how many bytes have been stored
there. -/
structure Answer where
  result : Int
  buffer : Option (Nat → Option UInt8) := none
  stored : Nat := 0

/-- The reply is one that the answer describes. -/
structure Answer.Allows (answer : Answer) (reply : Reply) : Prop where
  result : reply.result = answer.result
  buffer : ∀ known, answer.buffer = some known →
    ∃ buf, reply.buffer = some buf ∧
      ∀ position byte, known position = some byte → buf position = byte
  stores : ∀ position,
    reply.stores position = decide (position < answer.stored)

namespace StoredFile

/-- A new file. -/
def empty : StoredFile where
  size := 0
  blocks := 0
  bytes := fun _ => none

/-- The bytes of the blocks of the file from a position on. -/
def behind (file : StoredFile) (offset : Nat) : Nat :=
  blockSize * file.blocks - offset

/-- The blocks that a write takes, when `room` blocks are free. -/
def taken (file : StoredFile) (room offset count : Nat) : Nat :=
  min ((offset + count + (blockSize - 1)) / blockSize - file.blocks) room

/-- The bytes that a write moves, when `room` blocks are free. -/
def written (file : StoredFile) (room offset count : Nat) : Nat :=
  min count (blockSize * (file.blocks + file.taken room offset count) - offset)

/-- The file behind a write.  A write that is short leaves the size. -/
def write
    (file : StoredFile)
    (room offset : Nat)
    (buf : Buffer)
    (count : Nat) : StoredFile where
  size :=
    if file.written room offset count = count then
      file.size + UInt32.ofNat count
    else file.size
  blocks := file.blocks + file.taken room offset count
  bytes := fun position =>
    if offset ≤ position ∧
        position < offset + file.written room offset count then
      some (buf (position - offset))
    else file.bytes position

/-- What is known of a buffer that `count` bytes of the file have been read
to. -/
def read
    (file : StoredFile)
    (offset : Nat)
    (buf : Buffer)
    (count : Nat) : Nat → Option UInt8 :=
  fun position =>
    if position < count then file.bytes (offset + position)
    else some (buf position)

end StoredFile

namespace Store

/-- The store with a file of this name, or without one. -/
def setFile
    (store : Store)
    (name : CString)
    (file : Option StoredFile) : Store :=
  { store with files := Function.update store.files name file }

/-- The store with another handle, or without one. -/
def setHandle
    (store : Store)
    (index : Descriptor)
    (handle : Option Handle) : Store :=
  { store with handles := Function.update store.handles index handle }

/-- There is a handle on the file of this name. -/
def isOpen (store : Store) (name : CString) : Bool :=
  (List.finRange fsOpenMaxCount).any fun index =>
    match store.handles index with
    | none => false
    | some handle => handle.name == name

/-! ## Calls on names -/

/-- A call that is refused. -/
def refused (store : Store) : Store × Answer :=
  (store, { result := -1 })

/-- `fs_create` -/
def create (store : Store) (filename : Option CString) : Store × Answer :=
  match filename with
  | none => store.refused
  | some name =>
      if 0 < name.length ∧ name.length < fsFilenameLen ∧
          (store.files name).isNone ∧ 0 < store.freeEntries then
        ({ store.setFile name (some .empty) with
            freeEntries := store.freeEntries - 1 }, { result := 0 })
      else store.refused

/-- `fs_delete`.  Of a file of two or more blocks only the first one becomes
free, and the next file of that kind cannot be deleted. -/
def delete
    (store : Store)
    (filename : Option CString) : Option (Store × Answer) :=
  match filename with
  | none => some store.refused
  | some name =>
      match store.files name with
      | none => some store.refused
      | some file =>
          if store.isOpen name then some store.refused
          else if file.blocks ≤ 1 then
            some ({ store.setFile name none with
              freeEntries := store.freeEntries + 1
              freeBlocks := store.freeBlocks + file.blocks }, { result := 0 })
          else if store.guarded then
            some ({ store.setFile name none with
              freeEntries := store.freeEntries + 1
              freeBlocks := store.freeBlocks + 1
              guarded := false }, { result := 0 })
          else none

/-- `fs_open` -/
def «open» (store : Store) (filename : Option CString) : Store × Answer :=
  match filename with
  | none => store.refused
  | some name =>
      if (store.files name).isNone ∨
          fsOpenMaxCount < store.handleCount.toNat then
        store.refused
      else
        match (List.finRange fsOpenMaxCount).find? fun index =>
            (store.handles index).isNone with
        | none => store.refused
        | some index =>
            ({ store.setHandle index (some { name := name, offset := 0 }) with
              handleCount := store.handleCount + 1 }, { result := index.val })

/-! ## Calls on handles -/

/-- A call with a handle.  The numbers from 32 to 127 are neither handles nor
refused. -/
def onHandle
    (store : Store)
    (fd : Int)
    (body : Descriptor → Handle → Option (Store × Answer)) :
    Option (Store × Answer) :=
  if fd < 0 ∨ fd ≥ fsFileMaxCount then some store.refused
  else if inside : fd.toNat < fsOpenMaxCount then
    match store.handles ⟨fd.toNat, inside⟩ with
    | none => some store.refused
    | some handle => body ⟨fd.toNat, inside⟩ handle
  else none

/-- `fs_close` -/
def close (store : Store) (fd : Int) : Option (Store × Answer) :=
  store.onHandle fd fun index _ =>
    some ({ store.setHandle index none with
      handleCount := store.handleCount - 1 }, { result := 0 })

/-- A call with a handle, on the file of the handle. -/
def onFile
    (store : Store)
    (fd : Int)
    (body : Descriptor → Handle → StoredFile → Store × Answer) :
    Option (Store × Answer) :=
  store.onHandle fd fun index handle =>
    (store.files handle.name).map (body index handle)

/-- `fs_stat` -/
def stat (store : Store) (fd : Int) : Option (Store × Answer) :=
  store.onFile fd fun _ _ file =>
    (store, { result := int32 file.size.toNat })

/-- `fs_lseek` -/
def lseek (store : Store) (fd : Int) (offset : Nat) : Option (Store × Answer) :=
  store.onFile fd fun index handle file =>
    if offset > file.size.toNat then store.refused
    else
      (store.setHandle index (some { handle with offset := UInt16.ofNat offset }),
        { result := 0 })

/-- The handle behind a transfer of `bytes` of `count` bytes.  A transfer that
is short leaves the offset. -/
def moved
    (store : Store)
    (index : Descriptor)
    (handle : Handle)
    (bytes count : Nat) : Store :=
  if bytes = count then
    store.setHandle index
      (some { handle with offset := handle.offset + UInt16.ofNat count })
  else store

/-- `fs_write` -/
def write
    (store : Store)
    (fd : Int)
    (buf : Option Buffer)
    (count : Nat) : Option (Store × Answer) :=
  store.onFile fd fun index handle file =>
    match buf with
    | none => store.refused
    | some buf =>
        if count = 0 then (store, { result := 0 })
        else
          let offset := handle.offset.toNat
          let bytes := file.written store.freeBlocks offset count
          (({ store.setFile handle.name
                (some (file.write store.freeBlocks offset buf count)) with
              freeBlocks := store.freeBlocks -
                file.taken store.freeBlocks offset count }).moved index handle
            bytes count, { result := bytes })

/-- `fs_read`.  A read of no bytes from the middle of a block stores the block
behind it, if there is one. -/
def read
    (store : Store)
    (fd : Int)
    (buf : Option Buffer)
    (count : Nat) : Option (Store × Answer) :=
  store.onFile fd fun index handle file =>
    match buf with
    | none => store.refused
    | some buf =>
        let offset := handle.offset.toNat
        if count = 0 ∧ offset % blockSize ≠ 0 ∧
            offset / blockSize + 1 < file.blocks then
          (store,
            { result := -1
              buffer := some (file.read
                (blockSize * (offset / blockSize + 1)) buf blockSize)
              stored := blockSize })
        else
          let bytes := min count (file.behind offset)
          (store.moved index handle bytes count,
            { result := bytes
              buffer := some (file.read offset buf bytes)
              stored := bytes })

/-- The answer to a call on files. -/
def exec (store : Store) (call : Call) : Option (Store × Answer) :=
  match call with
  | .create filename => some (store.create filename)
  | .delete filename => store.delete filename
  | .open filename => some (store.open filename)
  | .close fd => store.close fd
  | .stat fd => store.stat fd
  | .lseek fd offset => store.lseek fd offset
  | .write fd buf count => store.write fd buf count
  | .read fd buf count => store.read fd buf count

end Store
end MsFat
