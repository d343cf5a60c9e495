import MsFat.Library.Programs
import MsFat.Store.Defs

/-!
# The drive

What the whole interface is to a program that uses one disk: a drive that is
mounted or not, with a file store in it.  `fs_umount` keeps the store for the
next `fs_mount`, which finds all files closed.

A store in which a file of two or more blocks has been deleted is kept as well,
but it cannot be mounted again; the `fs_mount` that fails breaks the drive until
the process ends.

A process that ends with the drive mounted leaves the store that was mounted.
Of a file that it has written to or deleted since then no byte is known.
-/

namespace MsFat

/-- The state of a drive.  While a store is mounted, `kept` is what the process
leaves if it ends now. -/
inductive Drive
  | unmounted (store : Store)
  | mounted (store kept : Store)
  | broken (kept : Store)

/-- The call has returned -1 and has stored nothing in the caller's buffer. -/
structure Reply.Refused (reply : Reply) : Prop where
  result : reply.result = -1
  storesNothing : ∀ position, reply.stores position = false

namespace Store

/-- The lines of `fs_ls` list the files of the store, each of them once. -/
structure Lists (store : Store) (lines : List LsLine) : Prop where
  distinct : (lines.map LsLine.file).Nodup
  listed : ∀ name file, store.files name = some file →
    ∃ line ∈ lines, line.file = name.bytes ∧
      line.size = int32 file.size.toNat
  only : ∀ line ∈ lines, ∃ name file, store.files name = some file ∧
    line.file = name.bytes ∧ line.size = int32 file.size.toNat ∧
    (line.dataBlk = fatEoc.toNat ↔ file.blocks = 0)

/-- The numbers of `fs_info`, on a disk with this superblock.  A cleared entry 0
of the FAT counts as free. -/
def info (store : Store) (sb : SuperBlock) : FsInfo where
  totalBlkCount := sb.numBlocks.toNat
  fatBlkCount := sb.numFatBlocks.toNat
  rdirBlk := sb.rootIndex.toNat
  dataBlk := sb.dataStartIndex.toNat
  dataBlkCount := sb.numDataBlocks.toNat
  freeFatEntries := (if store.guarded then 0 else 1) + store.freeBlocks
  freeRootEntries := store.freeEntries

/-- All files of the store are closed.  The count of open files stays. -/
def closed (store : Store) : Store :=
  { store with handles := fun _ => none }

/-- All files of the store are closed, and none is counted, as at program
start. -/
def restarted (store : Store) : Store :=
  { store.closed with handleCount := 0 }

/-- The store, but no byte of the file of this name is known. -/
def forget (store : Store) (name : CString) : Store :=
  store.setFile name
    ((store.files name).map fun file => { file with bytes := fun _ => none })

/-- The name of the file that a call may store to or delete. -/
def touched (store : Store) (call : Call) : Option CString :=
  match call with
  | .delete filename => filename
  | .write fd _ _ =>
      if inside : 0 ≤ fd ∧ fd.toNat < fsOpenMaxCount then
        (store.handles ⟨fd.toNat, inside.2⟩).map Handle.name
      else none
  | _ => none

/-- What is kept while the call is made with `store` mounted. -/
def keptBehind (kept store : Store) (call : Call) : Store :=
  match store.touched call with
  | none => kept
  | some name => kept.forget name

end Store

instance decidableCountFits (call : Call) : Decidable call.CountFits :=
  match call with
  | .write _ _ count => inferInstanceAs (Decidable (count ≤ intMax))
  | .read _ _ count => inferInstanceAs (Decidable (count ≤ intMax))
  | .create _ => isTrue trivial
  | .delete _ => isTrue trivial
  | .open _ => isTrue trivial
  | .close _ => isTrue trivial
  | .stat _ => isTrue trivial
  | .lseek _ _ => isTrue trivial

namespace Drive

/-- The store that the next process finds. -/
def atExit : Drive → Store
  | .unmounted store => store.restarted
  | .mounted _ kept => kept
  | .broken kept => kept

/-- The drive stays as it is, and the call returns -1. -/
def refused (drive : Drive) : Option (Drive × (Reply → Prop)) :=
  some (drive, Reply.Refused)

/-- What a drive of this name says to a call while it is not mounted. -/
def execUnmounted
    (diskname : String)
    (store : Store)
    (call : ApiCall) : Option (Drive × (Reply → Prop)) :=
  match call with
  | .mount none => (Drive.unmounted store).refused
  | .mount (some name) =>
      if name = diskname then
        if store.guarded then
          some (.mounted store.closed store.restarted,
            fun reply => reply.result = 0)
        else (Drive.broken store.restarted).refused
      else none
  | .umount => (Drive.unmounted store).refused
  | .info => (Drive.unmounted store).refused
  | .ls => none
  | .file _ => (Drive.unmounted store).refused

/-- What a drive with this superblock says to a call while it is mounted. -/
def execMounted
    (sb : SuperBlock)
    (store kept : Store)
    (call : ApiCall) : Option (Drive × (Reply → Prop)) :=
  match call with
  | .mount _ => (Drive.mounted store kept).refused
  | .umount => some (.unmounted store, fun reply => reply.result = 0)
  | .info =>
      some (.mounted store kept, fun reply =>
        reply.result = 0 ∧ reply.info = some (store.info sb))
  | .ls =>
      some (.mounted store kept, fun reply =>
        reply.result = 0 ∧ store.Lists reply.lines)
  | .file call =>
      if call.CountFits then
        (store.exec call).map fun done =>
          (.mounted done.1 (kept.keptBehind store call), done.2.Allows)
      else none

/-- What the drive with this superblock and this name says to a call.  It says
nothing to calls that do not return, to the mount of another disk, and to counts
beyond an `int`. -/
def exec (sb : SuperBlock) (diskname : String) :
    Specification ApiCall Reply Drive
  | .unmounted store, call => execUnmounted diskname store call
  | .mounted store kept, call => execMounted sb store kept call
  | .broken kept, .mount _ => (Drive.broken kept).refused
  | .broken _, _ => none

/-- A call that does not return, although an `int` can hold its count. -/
def Stuck : Drive → ApiCall → Prop
  | .mounted store _, .file call => call.CountFits ∧ store.exec call = none
  | _, _ => False

end Drive
end MsFat
