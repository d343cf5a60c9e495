import MsFat.Apps.Commands
import MsFat.Drive.Defs

/-!
# What the commands of `test_fs` mean

On a disk that holds a store, a command leaves a store and prints something.
Here it is said without any calls of the interface.
-/

namespace MsFat

/-- The message of `die` if a host file cannot be used. -/
def HostFile.failure (hostFile : HostFile) : Option String :=
  if !hostFile.opens then some "open"
  else if !hostFile.fstatSucceeds then some "fstat"
  else if !hostFile.isRegular then some "Not a regular file: %s\n"
  else none

namespace Store

variable (store : Store)

/-- A new file of this name can be created. -/
def Admits (name : CString) : Prop :=
  0 < name.length ∧ name.length < fsFilenameLen ∧
    (store.files name).isNone ∧ 0 < store.freeEntries

instance (name : CString) : Decidable (store.Admits name) :=
  inferInstanceAs (Decidable (_ ∧ _))

/-- The bytes of a host file that find room. -/
def fitting (hostFile : HostFile) : Nat :=
  min hostFile.size (blockSize * store.freeBlocks)

/-- The file behind a host file that is added.  If it does not fit, all free
blocks are filled with its front, but its size stays 0. -/
def addedFile (hostFile : HostFile) : StoredFile :=
  StoredFile.empty.write store.freeBlocks 0 hostFile.bytes hostFile.size

/-- The store with a host file added. -/
def added (name : CString) (hostFile : HostFile) : Store :=
  { store.setFile name (some (store.addedFile hostFile)) with
    freeEntries := store.freeEntries - 1
    freeBlocks := store.freeBlocks - (store.addedFile hostFile).blocks }

/-- The store without a file.  Of its blocks one becomes free at most, and then
the disk is not mounted any more. -/
def removed (name : CString) (file : StoredFile) : Store :=
  { store.setFile name none with
    freeEntries := store.freeEntries + 1
    freeBlocks := store.freeBlocks + min file.blocks 1
    guarded := file.blocks ≤ 1 }

/-- The store stays, and the process dies with a message. -/
def dies (message : String) : Store × (Printed → Prop) :=
  (store, fun printed => printed = .died message)

/-- The store stays, and something is printed. -/
def prints (line : Printed) : Store × (Printed → Prop) :=
  (store, fun printed => printed = line)

end Store

/-- A file is printed by `cat` with this size: the bytes of its blocks that are
known, and behind its blocks whatever the memory held. -/
def StoredFile.Prints
    (file : StoredFile)
    (filename : CString)
    (stat : Nat)
    (memory : Buffer)
    (printed : Printed) : Prop :=
  ∃ bytes,
    printed =
      .content filename (min stat (file.behind 0) : Nat) stat bytes ∧
    bytes.length = stat ∧
    ∀ position byte, position < stat →
      file.read 0 memory (min stat (file.behind 0)) position = some byte →
        bytes[position]? = some byte

/-- What a command leaves on a disk with this superblock, and prints. -/
def Command.exec
    (command : Command)
    (sb : SuperBlock)
    (store : Store) : Store × (Printed → Prop) :=
  match command with
  | .info =>
      if store.guarded then store.prints (.info (some (store.info sb)))
      else store.dies "Cannot mount diskname"
  | .ls =>
      if store.guarded then
        (store, fun printed => ∃ lines, printed = .lines lines ∧
          store.Lists lines)
      else store.dies "Cannot mount diskname"
  | .add filename hostFile =>
      match hostFile.failure with
      | some message => store.dies message
      | none =>
          if !store.guarded then store.dies "Cannot mount diskname"
          else if store.Admits filename then
            (store.added filename hostFile, fun printed =>
              printed = .wrote filename (store.fitting hostFile) hostFile.size)
          else store.dies "Cannot create file"
  | .rm filename =>
      if !store.guarded then store.dies "Cannot mount diskname"
      else
        match store.files filename with
        | none => store.dies "Cannot delete file"
        | some file =>
            (store.removed filename file, fun printed =>
              printed = .removed filename)
  | .cat filename memory =>
      if !store.guarded then store.dies "Cannot mount diskname"
      else
        match store.files filename with
        | none => store.dies "Cannot open file"
        | some file =>
            if int32 file.size.toNat < 0 then store.dies "Cannot stat file"
            else if file.size = 0 then store.prints .emptyFile
            else
              match memory with
              | none => store.dies "Cannot malloc"
              | some buf =>
                  (store, file.Prints filename file.size.toNat buf)
  | .stat filename =>
      if !store.guarded then store.dies "Cannot mount diskname"
      else
        match store.files filename with
        | none => store.dies "Cannot open file"
        | some file =>
            if int32 file.size.toNat < 0 then store.dies "Cannot stat file"
            else if file.size = 0 then store.prints .emptyFile
            else store.prints (.fileSize filename file.size.toNat)

/-- The sizes of host files that an `int` can count. -/
def Command.Fits (command : Command) : Prop :=
  match command with
  | .add _ hostFile => hostFile.size ≤ intMax
  | _ => True

end MsFat
