import MsFat.Mount.FatBlocks

/-!
# Unmounting

What `fs_umount` leaves in the file of the disk: the FAT in the blocks from 1
on, the root directory in the root block, and all other bytes as they were.
-/

namespace MsFat

namespace Session

/-- The state after `fs_umount`. -/
def unmounted (session : Session) (host : Host) : State where
  files := blockDiskClose session.files (session.save host)
  disk := none
  leakedFds := session.leakedFds
  isDiskMounted := false
  volume := none
  openFiles := session.openFiles
  numOpenFiles := session.numOpenFiles

theorem fsUmount_toState
    (session : Session)
    (host : Host) :
    fsUmount host session.toState = .ok (session.unmounted host, 0) := rfl

section Save

variable (session : Session) (host : Host)

theorem save_diskname : (session.save host).diskname = session.disk.diskname :=
  (blockWrite_getD host _ _ _).1.trans saveFat_diskname

theorem save_bcount : (session.save host).bcount = session.disk.bcount :=
  (blockWrite_getD host _ _ _).2.1.trans saveFat_bcount

/-- The file of the disk after `fs_umount`. -/
theorem unmounted_files :
    (session.unmounted host).files session.disk.diskname =
      some
        { size := session.disk.bcount * blockSize
          bytes := (session.save host).bytes } := by
  change blockDiskClose session.files (session.save host) _ = _
  unfold blockDiskClose
  rw [save_diskname, Disk.whole, save_bcount, Function.update_self]

/-- The bytes outside the FAT blocks and the root block are kept. -/
theorem save_outside
    {byte : Nat}
    (notFat : byte < blockSize ∨
      blockSize * (session.sb.numFatBlocks.toNat + 1) ≤ byte)
    (notRoot : byte < blockSize * session.sb.rootIndex.toNat ∨
      blockSize * (session.sb.rootIndex.toNat + 1) ≤ byte) :
    (session.save host).bytes byte = session.disk.bytes byte := by
  refine ((blockWrite_getD host _ _ _).2.2 byte notRoot).trans
    (saveFat_outside ?_)
  rwa [Nat.zero_add, Nat.zero_add, Nat.mul_one]

end Save

section Succeeds

variable {session : Session} {host : Host}

/-- While writes succeed, the FAT blocks hold the words from their places in
memory on. -/
theorem save_fatWord
    (succeeds : host.IoSucceeds)
    (fatInside : session.sb.numFatBlocks.toNat < session.disk.bcount)
    (rootBehind : session.sb.numFatBlocks.toNat < session.sb.rootIndex.toNat)
    {block word : Nat}
    (isBlock : block < session.sb.numFatBlocks.toNat)
    (inBlock : word < blockSize / 2) :
    fatWord (session.save host).bytes (blockSize / 2 * block + word) =
      fatMemory host session.fat (blockSize * block + word) := by
  rw [← saveFat_fatWord session.fat succeeds fatInside isBlock inBlock]
  apply wordAt_congr
  · apply (blockWrite_getD host _ _ _).2.2
    left
    simp only [blockSize] at *
    omega
  · apply (blockWrite_getD host _ _ _).2.2
    left
    simp only [blockSize] at *
    omega

/-- While writes succeed, the root block holds the root directory. -/
theorem save_rootBlock
    (succeeds : host.IoSucceeds)
    (rootInside : session.sb.rootIndex.toNat < session.disk.bcount)
    {offset : Nat}
    (inBlock : offset < blockSize) :
    (session.save host).block session.sb.rootIndex.toNat offset =
      rootArray session.root offset := by
  unfold Disk.block
  rw [Nat.mul_comm]
  exact blockWrite_inside succeeds (by rwa [saveFat_bcount]) _ inBlock

/-- The words of a FAT that fits into one block. -/
theorem save_fatWord_one
    (succeeds : host.IoSucceeds)
    (fatInside : session.sb.numFatBlocks.toNat < session.disk.bcount)
    (rootBehind : session.sb.numFatBlocks.toNat < session.sb.rootIndex.toNat)
    (nonempty : 1 ≤ session.sb.numFatBlocks.toNat)
    (fits : session.sb.numDataBlocks.toNat ≤ blockSize / 2)
    {index : Nat}
    (inside : index < session.sb.numDataBlocks.toNat) :
    fatWord (session.save host).bytes index = session.fat[index] := by
  have saved := save_fatWord succeeds fatInside rootBehind
    (show 0 < session.sb.numFatBlocks.toNat by omega)
    (show index < blockSize / 2 by omega)
  rw [Nat.mul_zero, Nat.zero_add, Nat.mul_zero, Nat.zero_add] at saved
  rw [saved]
  unfold fatMemory
  rw [Vector.getElem?_eq_getElem inside, Option.getD_some]

end Succeeds

end Session

end MsFat
