import MsFat.Mount.Loaders
import MsFat.Directory.Defs

/-!
# Failed mounts

`load_disk` opens the disk and sets `is_disk_mounted`, and no later failure of
`fs_mount` takes either back.  `block_disk_open` itself does not close a file
whose length it cannot get or does not accept.  So a failed mount is undone
exactly if `open` has not given a descriptor.
-/

namespace MsFat

/-- A failed call of `fs_mount` has no effect: no file system is mounted, no
disk is open, no descriptor of one has been left open, and the next
`fs_umount`, `fs_create` or `fs_mount` goes as it would without the failed
attempt. -/
structure MountUndone (before after : State) : Prop where
  notMounted : after.isDiskMounted = false
  noDisk : after.disk = none
  leakedFds : after.leakedFds = before.leakedFds
  umount : ∀ host, fsUmount host after = .ok (after, -1)
  create : ∀ filename, fsCreate after filename = .ok (after, -1)
  mount : ∀ host diskname,
    fsMount host after diskname = fsMount host before diskname

/-- With nothing mounted, a state has nothing to undo. -/
theorem mountUndone_self
    {state : State}
    (notMounted : state.isDiskMounted = false)
    (noDisk : state.disk = none) :
    MountUndone state state where
  notMounted := notMounted
  noDisk := noDisk
  leakedFds := rfl
  umount := by
    intro host
    simp [fsUmount, notMounted]
  create := by
    intro filename
    simp [fsCreate, onFilename, notMounted]
  mount := fun _ _ => rfl

/-- The file of the disk is not opened: there is no name, no such file, or the
host gives no descriptor. -/
def OpenFails
    (host : Host)
    (state : State)
    (diskname : Option String) : Prop :=
  ∀ name image, diskname = some name → state.files name = some image →
    host.openSucceeds state.leakedFds = false

section

variable {host : Host} {state : State} {diskname : Option String}
  (notMounted : state.isDiskMounted = false)
  (noDisk : state.disk = none)

include notMounted noDisk

/-- While nothing is mounted and no disk is open, `load_disk` does nothing
exactly if the file is not opened. -/
theorem loadDisk_eq_none_iff :
    loadDisk host state diskname = (none, state.leakedFds) ↔
      OpenFails host state diskname := by
  have loads : loadDisk host state diskname =
      blockDiskOpen host state.files none state.leakedFds diskname := by
    simp [loadDisk, notMounted, noDisk]
  rw [loads]
  unfold OpenFails
  cases diskname with
  | none => simp [blockDiskOpen]
  | some name =>
      cases found : state.files name with
      | none =>
          refine iff_of_true (by simp [blockDiskOpen, found]) ?_
          rintro _ image ⟨⟩ isImage
          cases found.symm.trans isImage
      | some image =>
          cases opens : host.openSucceeds state.leakedFds with
          | false => simp [blockDiskOpen, found, opens]
          | true =>
              refine iff_of_false (fun same => ?_) fun fails =>
                Bool.noConfusion (fails name image rfl found)
              simp only [blockDiskOpen, found, opens, Bool.not_true,
                Bool.false_eq_true, if_false] at same
              -- every exit behind `open` shows in the result
              split at same
              · have fds := congrArg Prod.snd same
                exact Nat.succ_ne_self _ fds
              · split at same
                · have fds := congrArg Prod.snd same
                  exact Nat.succ_ne_self _ fds
                · cases same

/-- Then `fs_mount` fails and leaves the state as it is. -/
theorem fsMount_of_openFails
    (fails : OpenFails host state diskname) :
    fsMount host state diskname = .ok (state, -1) := by
  unfold fsMount
  rw [(loadDisk_eq_none_iff notMounted noDisk).mpr fails]
  rfl

/-- A file whose length is no multiple of the block size is opened and not
closed.  If that was the last descriptor, no later mount can open a disk. -/
theorem fsMount_of_odd
    {name : String}
    {image : Image}
    (found : state.files name = some image)
    (opens : host.openSucceeds state.leakedFds = true)
    (last : host.openSucceeds (state.leakedFds + 1) = false)
    (odd : image.size % blockSize ≠ 0) :
    fsMount host state (some name) =
        .ok (state.diskNotLoaded (state.leakedFds + 1), -1) ∧
      ∀ again, fsMount host (state.diskNotLoaded (state.leakedFds + 1)) again =
        .ok (state.diskNotLoaded (state.leakedFds + 1), -1) := by
  have leaks : loadDisk host state (some name) =
      (none, state.leakedFds + 1) := by
    simp [loadDisk, notMounted, noDisk, blockDiskOpen, found, opens, odd]
  constructor
  · unfold fsMount
    rw [leaks]
  · intro again
    exact fsMount_of_openFails notMounted noDisk fun _ _ _ _ => last

/-- A failed mount is undone exactly if the file of the disk was not opened. -/
theorem mountUndone_iff
    {after : State}
    (failed : fsMount host state diskname = .ok (after, -1)) :
    MountUndone state after ↔ OpenFails host state diskname := by
  rw [← loadDisk_eq_none_iff notMounted noDisk]
  rcases fsMount_cases failed with
    ⟨noOpen, rfl, _⟩ | ⟨disk, opens, ⟨rfl, _⟩ | ⟨_, _, _, result⟩⟩
  · constructor
    · intro undone
      exact Prod.ext noOpen undone.leakedFds
    · intro notLoaded
      rw [notLoaded]
      exact mountUndone_self notMounted noDisk
  · refine iff_of_false (fun undone => ?_) fun notLoaded => ?_
    · exact Bool.noConfusion undone.notMounted
    · rw [notLoaded] at opens
      cases opens
  · exact absurd result (by decide)

end

/-- A host with an empty file. -/
def emptyFile : String → Option Image
  | "empty.txt" => some { size := 0, bytes := fun _ => 0 }
  | _ => none

/-- The empty file is opened as a disk without blocks, whose superblock cannot
be read.  The failed mount leaves it mounted. -/
theorem not_mountUndone_emptyFile :
    ∃ after, fsMount Host.reliable (State.initial emptyFile)
        (some "empty.txt") = .ok (after, -1) ∧
      after.isDiskMounted = true ∧
      after.disk ≠ none ∧
      ¬MountUndone (State.initial emptyFile) after := by
  refine ⟨_, rfl, rfl, Option.some_ne_none _, ?_⟩
  intro undone
  exact Bool.noConfusion undone.notMounted

/-- A file that is not there. -/
theorem mountUndone_iff_missing :
    MountUndone (State.initial emptyFile) (State.initial emptyFile) ↔
      OpenFails Host.reliable (State.initial emptyFile) (some "missing.fs") :=
  mountUndone_iff rfl rfl
    (show fsMount Host.reliable (State.initial emptyFile)
      (some "missing.fs") = .ok (State.initial emptyFile, -1) from rfl)

end MsFat
