import MsFat.Fat.Defs
import Mathlib.Data.List.FinRange

/-!
# Files and descriptors

The functions of `fs.c` that look files up by name, create and delete them, and
open, close and position descriptors.

A call checks its arguments first.  The checks that the calls with a file name
share, and those that the calls with a descriptor share, are `onFilename` and
`onDescriptor`.
-/

namespace MsFat

/-! ## File names -/

/-- The string that a character array holds: its bytes in front of the first
NUL. -/
def arrayString (array : Fin fsFilenameLen → UInt8) : List UInt8 :=
  (List.ofFn array).takeWhile (· ≠ 0)

/-- `strcmp(string, array) == 0` -/
def strcmpEq
    (string : CString)
    (array : Fin fsFilenameLen → UInt8) : Bool :=
  string.bytes == arrayString array

/-- The loop of `streq` over the indices that are left. -/
def streqFrom
    (str1 : Fin fsFilenameLen → UInt8)
    (str2 : CString) : List (Fin fsFilenameLen) → Int
  | [] => -1
  | index :: rest =>
      if str1 index = 0 ∧ str2.byte index = 0 then 0
      else if str1 index ≠ str2.byte index then -1
      else streqFrom str1 str2 rest

/-- `streq`: 0 if the strings are equal, -1 if they are not. -/
def streq
    (str1 : Fin fsFilenameLen → UInt8)
    (str2 : CString) : Int :=
  streqFrom str1 str2 (List.finRange fsFilenameLen)

/-- `is_filename_invalid` -/
def isFilenameInvalid : Option CString → Bool
  | none => true
  | some filename =>
      filename.byte 0 == 0 || decide (filename.length + 1 > fsFilenameLen)

/-- The name array after `fs_create` has stored a name in it. -/
def storeFilename
    (old : Fin fsFilenameLen → UInt8)
    (filename : CString) : Fin fsFilenameLen → UInt8 :=
  fun index =>
    if index.val < filename.length then filename.byte index
    else if index.val = filename.length then 0
    else old index

/-! ## Checks -/

/-- The checks in front of a call with a file name. -/
def onFilename
    (state : State)
    (filename : Option CString)
    (body : Session → CString → Outcome (Session × Int)) :
    Outcome (State × Int) :=
  if !state.isDiskMounted then .ok (state, -1)
  else
    match filename with
    | none => .ok (state, -1)
    | some name =>
        if isFilenameInvalid (some name) then .ok (state, -1)
        else do
          let session ← state.session
          let (session, result) ← body session name
          .ok (session.toState, result)

/-- The checks in front of a call with a descriptor.  The bound on `fd` is
`FS_FILE_MAX_COUNT`, as in the source. -/
def onDescriptor
    {α : Type}
    (state : State)
    (fd : Int)
    (failed : α)
    (body : Descriptor → FileDescriptor → Outcome α) : Outcome α :=
  if !state.isDiskMounted then .ok failed
  else if fd < 0 ∨ fd ≥ fsFileMaxCount then .ok failed
  else if inside : fd.toNat < fsOpenMaxCount then
    match state.openFiles ⟨fd.toNat, inside⟩ with
    | none => .ok failed
    | some descriptor => body ⟨fd.toNat, inside⟩ descriptor
  else .error .outOfBounds

namespace Session

/-- `find_empty_root_entry` -/
def findEmptyRootEntry (session : Session) : Option Slot :=
  (List.finRange fsFileMaxCount).find? fun slot =>
    (session.root slot).filename 0 == 0

/-- `find_matching_filename` -/
def findMatchingFilename
    (session : Session)
    (filename : CString) : Option Slot :=
  (List.finRange fsFileMaxCount).find? fun slot =>
    strcmpEq filename (session.root slot).filename

/-- The session with another root entry. -/
def setFile
    (session : Session)
    (slot : Slot)
    (file : File) : Session :=
  { session with root := Function.update session.root slot file }

/-- The session with another entry of the table of open files. -/
def setOpenFile
    (session : Session)
    (index : Descriptor)
    (descriptor : Option FileDescriptor) : Session :=
  { session with
    openFiles := Function.update session.openFiles index descriptor }

@[simp] theorem setFile_root_self
    {session : Session}
    (slot : Slot)
    (file : File) :
    (session.setFile slot file).root slot = file :=
  Function.update_self _ _ _

theorem setFile_root_of_ne
    {session : Session}
    {slot other : Slot}
    (different : other ≠ slot)
    (file : File) :
    (session.setFile slot file).root other = session.root other :=
  Function.update_of_ne different _ _

@[simp] theorem setOpenFile_self
    {session : Session}
    (index : Descriptor)
    (descriptor : Option FileDescriptor) :
    (session.setOpenFile index descriptor).openFiles index = descriptor :=
  Function.update_self _ _ _

theorem setOpenFile_of_ne
    {session : Session}
    {index other : Descriptor}
    (descriptor : Option FileDescriptor)
    (different : other ≠ index) :
    (session.setOpenFile index descriptor).openFiles other =
      session.openFiles other :=
  Function.update_of_ne different _ _

/-! ## Creating and deleting files -/

/-- `fs_create` behind its checks. -/
def createFile
    (session : Session)
    (filename : CString) : Session × Int :=
  match session.findMatchingFilename filename with
  | some _ => (session, -1)
  | none =>
      match session.findEmptyRootEntry with
      | none => (session, -1)
      | some emptyIndex =>
          let newFile := session.root emptyIndex
          (session.setFile emptyIndex
            { newFile with
              filename := storeFilename newFile.filename filename
              fileSize := 0
              firstIndex := fatEoc }, 0)

end Session

/-- The loop of `fs_delete` over the blocks of the file, with the store behind
it.  An entry is cleared before it is read as the next block. -/
def freeChain {count : Nat} :
    Nat → Fat count → UInt16 → Outcome (Fat count)
  | 0, _, _ => .error .outOfFuel
  | fuel + 1, fat, blockIndex => do
      let entry ← fatGet fat blockIndex
      if entry ≠ fatEoc then
        let fat := fatSet fat blockIndex 0
        let entry ← fatGet fat blockIndex
        freeChain fuel fat entry
      else .ok (fatSet fat blockIndex 0)

namespace Session

/-- A descriptor on a file of this name is open. -/
def isOpen
    (session : Session)
    (filename : CString) : Bool :=
  (List.finRange fsOpenMaxCount).any fun index =>
    match session.openFiles index with
    | none => false
    | some descriptor =>
        streq (session.root descriptor.file).filename filename == 0

/-- `fs_delete` behind its checks. -/
def deleteFile
    (fuel : Nat)
    (session : Session)
    (filename : CString) : Outcome (Session × Int) :=
  match session.findMatchingFilename filename with
  | none => .ok (session, -1)
  | some matchingFileIndex =>
      if session.isOpen filename then .ok (session, -1)
      else do
        let oldFile := session.root matchingFileIndex
        let fat ←
          if oldFile.firstIndex ≠ fatEoc then
            freeChain fuel session.fat oldFile.firstIndex
          else .ok session.fat
        let oldFile :=
          { oldFile with
            filename := Function.update oldFile.filename 0 0
            fileSize := 0
            firstIndex := fatEoc }
        .ok ({ session with
          fat := fat
          root := Function.update session.root matchingFileIndex oldFile }, 0)

/-! ## Opening and closing files -/

/-- `add_file_to_fd_array`: the session and the descriptor, or no descriptor
for -1. -/
def addFileToFdArray
    (host : Host)
    (session : Session)
    (file : Slot) : Option (Session × Descriptor) :=
  if session.numOpenFiles.toNat > fsOpenMaxCount then none
  else if !host.mallocSucceeds 0 then none
  else
    match (List.finRange fsOpenMaxCount).find? fun index =>
        (session.openFiles index).isNone with
    | none => none
    | some fdIndex =>
        some
          ({ session.setOpenFile fdIndex (some { file := file, offset := 0 })
              with numOpenFiles := session.numOpenFiles + 1 }, fdIndex)

/-- `fs_open` behind its checks. -/
def openFile
    (host : Host)
    (session : Session)
    (filename : CString) : Session × Int :=
  match session.findMatchingFilename filename with
  | none => (session, -1)
  | some fileIndex =>
      match session.addFileToFdArray host fileIndex with
      | none => (session, -1)
      | some (session, fd) => (session, fd.val)

/-- `fs_close` behind its checks. -/
def closeFile
    (session : Session)
    (index : Descriptor) : Session :=
  { session.setOpenFile index none with
    numOpenFiles := session.numOpenFiles - 1 }

end Session

/-! ## Calls -/

/-- `fs_create` -/
def fsCreate
    (state : State)
    (filename : Option CString) : Outcome (State × Int) :=
  onFilename state filename fun session name => .ok (session.createFile name)

/-- `fs_delete` -/
def fsDelete
    (fuel : Nat)
    (state : State)
    (filename : Option CString) : Outcome (State × Int) :=
  onFilename state filename fun session name => session.deleteFile fuel name

/-- `fs_open` -/
def fsOpen
    (host : Host)
    (state : State)
    (filename : Option CString) : Outcome (State × Int) :=
  onFilename state filename fun session name => .ok (session.openFile host name)

/-- `fs_close` -/
def fsClose
    (state : State)
    (fd : Int) : Outcome (State × Int) :=
  onDescriptor state fd (state, -1) fun index _ => do
    let session ← state.session
    .ok ((session.closeFile index).toState, 0)

/-- `fs_stat`: the size is returned as an `int`. -/
def fsStat
    (state : State)
    (fd : Int) : Outcome (State × Int) :=
  onDescriptor state fd (state, -1) fun _ descriptor => do
    let session ← state.session
    .ok (state, int32 (session.root descriptor.file).fileSize.toNat)

/-- `fs_lseek`: the offset is stored in 16 bits. -/
def fsLseek
    (state : State)
    (fd : Int)
    (offset : Nat) : Outcome (State × Int) :=
  onDescriptor state fd (state, -1) fun index descriptor => do
    let session ← state.session
    if offset > (session.root descriptor.file).fileSize.toNat then
      .ok (state, -1)
    else
      .ok ((session.setOpenFile index
        (some { descriptor with offset := UInt16.ofNat offset })).toState, 0)

end MsFat
