import MsFat.Mount.Defs

/-!
# The byte codecs of mounting and unmounting

What `fs_mount` decodes from the bytes that `fs_umount` lays out: a word of the
FAT from its two bytes, and an entry of the root directory from its 32 bytes.
-/

namespace MsFat

/-- The two bytes of a word give the word. -/
theorem concatenateTwoBytes_bytes (word : UInt16) :
    concatenateTwoBytes word.toUInt8 (word >>> 8).toUInt8 = word := by
  have bound := word.toNat_lt
  apply UInt16.toNat_inj.mp
  unfold concatenateTwoBytes
  rw [UInt16.toNat_ofNat', UInt16.toNat_toUInt8, UInt16.toNat_toUInt8,
    UInt16.toNat_shiftRight, Nat.shiftRight_eq_div_pow]
  change (256 * (word.toNat / 2 ^ 8 % 2 ^ 8) + word.toNat % 2 ^ 8) % 2 ^ 16 =
    word.toNat
  omega

/-- A byte with nothing behind it gives a word of its value. -/
theorem concatenateTwoBytes_zero (byte : UInt8) :
    (concatenateTwoBytes byte 0).toNat = byte.toNat := by
  have bound := byte.toNat_lt
  unfold concatenateTwoBytes
  rw [UInt16.toNat_ofNat']
  change (256 * 0 + byte.toNat) % 2 ^ 16 = byte.toNat
  omega

/-- The word at an index of an array of words in memory. -/
theorem wordAt_byteOfWords
    (words : Nat → UInt16)
    (index : Nat) :
    wordAt (byteOfWords words) index = words index := by
  unfold wordAt byteOfWords
  rw [if_pos (by omega), if_neg (by omega), Nat.mul_div_cancel_left _ (by omega),
    show (2 * index + 1) / 2 = index by omega]
  exact concatenateTwoBytes_bytes (words index)

/-- A word is decoded from its two bytes only. -/
theorem wordAt_congr
    {left right : Buffer}
    {index : Nat}
    (low : left (2 * index) = right (2 * index))
    (high : left (2 * index + 1) = right (2 * index + 1)) :
    wordAt left index = wordAt right index := by
  unfold wordAt
  rw [low, high]

/-! ## The bytes of an integer -/

/-- A byte that is shifted out of a 16-bit integer. -/
theorem shiftedByte16
    (value : UInt16)
    {place : Nat}
    (inside : place < 2) :
    ((value >>> (8 * UInt16.ofNat place)) &&& 0xFF).toUInt8.toNat =
      value.toNat / 2 ^ (8 * place) % 2 ^ 8 := by
  have amount : (8 * UInt16.ofNat place).toNat % 16 = 8 * place := by
    rw [UInt16.toNat_mul, UInt16.toNat_ofNat']
    change 8 * (place % 2 ^ 16) % 2 ^ 16 % 16 = 8 * place
    omega
  rw [UInt16.toNat_toUInt8, UInt16.toNat_and, UInt16.toNat_shiftRight, amount,
    Nat.shiftRight_eq_div_pow]
  change (value.toNat / 2 ^ (8 * place) &&& (2 ^ 8 - 1)) % 2 ^ 8 = _
  rw [Nat.and_two_pow_sub_one_eq_mod, Nat.mod_mod]

/-- A byte that is shifted out of a 32-bit integer. -/
theorem shiftedByte32
    (value : UInt32)
    {place : Nat}
    (inside : place < 4) :
    ((value >>> (8 * UInt32.ofNat place)) &&& 0xFF).toUInt8.toNat =
      value.toNat / 2 ^ (8 * place) % 2 ^ 8 := by
  have amount : (8 * UInt32.ofNat place).toNat % 32 = 8 * place := by
    rw [UInt32.toNat_mul, UInt32.toNat_ofNat']
    change 8 * (place % 2 ^ 32) % 2 ^ 32 % 32 = 8 * place
    omega
  rw [UInt32.toNat_toUInt8, UInt32.toNat_and, UInt32.toNat_shiftRight, amount,
    Nat.shiftRight_eq_div_pow]
  change (value.toNat / 2 ^ (8 * place) &&& (2 ^ 8 - 1)) % 2 ^ 8 = _
  rw [Nat.and_two_pow_sub_one_eq_mod, Nat.mod_mod]

/-! ## Entries of the root directory -/

section EncodeFile

variable (file : File)

theorem encodeFile_filename (index : Fin fsFilenameLen) :
    encodeFile file index.val = file.filename index := by
  have inName : index.val < 16 := index.isLt
  unfold encodeFile
  rw [dif_pos inName]

theorem encodeFile_padding (index : Fin rootPadLen) :
    encodeFile file (22 + index.val) = file.padding index := by
  have inPadding : 22 + index.val - 22 < rootPadLen := by
    rw [Nat.add_sub_cancel_left]
    exact index.isLt
  unfold encodeFile
  rw [dif_neg (by omega), if_neg (by omega), if_neg (by omega),
    dif_pos inPadding]
  congr 1
  exact Fin.ext (Nat.add_sub_cancel_left _ _)

theorem encodeFile_sizeByte
    {place : Nat}
    (inside : place < 4) :
    (encodeFile file (16 + place)).toNat =
      file.fileSize.toNat / 2 ^ (8 * place) % 2 ^ 8 := by
  unfold encodeFile
  rw [dif_neg (by omega), if_pos (by omega), Nat.add_sub_cancel_left]
  exact shiftedByte32 file.fileSize inside

theorem encodeFile_indexByte
    {place : Nat}
    (inside : place < 2) :
    (encodeFile file (20 + place)).toNat =
      file.firstIndex.toNat / 2 ^ (8 * place) % 2 ^ 8 := by
  unfold encodeFile
  rw [dif_neg (by omega), if_neg (by omega), if_pos (by omega),
    Nat.add_sub_cancel_left]
  exact shiftedByte16 file.firstIndex inside

/-- The bytes of the size. -/
theorem encodeFile_fileSize :
    concatenateFourBytes (encodeFile file 16) (encodeFile file 17)
      (encodeFile file 18) (encodeFile file 19) = file.fileSize := by
  have bound := file.fileSize.toNat_lt
  have byte1 := encodeFile_sizeByte file (show 0 < 4 by decide)
  have byte2 := encodeFile_sizeByte file (show 1 < 4 by decide)
  have byte3 := encodeFile_sizeByte file (show 2 < 4 by decide)
  have byte4 := encodeFile_sizeByte file (show 3 < 4 by decide)
  apply UInt32.toNat_inj.mp
  unfold concatenateFourBytes
  rw [UInt32.toNat_ofNat', byte1, byte2, byte3, byte4]
  omega

/-- The bytes of the first index. -/
theorem encodeFile_firstIndex :
    concatenateTwoBytes (encodeFile file 20) (encodeFile file 21) =
      file.firstIndex := by
  have bound := file.firstIndex.toNat_lt
  have byte1 := encodeFile_indexByte file (show 0 < 2 by decide)
  have byte2 := encodeFile_indexByte file (show 1 < 2 by decide)
  apply UInt16.toNat_inj.mp
  unfold concatenateTwoBytes
  rw [UInt16.toNat_ofNat', byte1, byte2]
  omega

/-- An entry of the root directory is decoded from its bytes. -/
theorem decodeFile_encodeFile : decodeFile (encodeFile file) = file := by
  apply File.ext
  · funext index
    exact encodeFile_filename file index
  · exact encodeFile_fileSize file
  · exact encodeFile_firstIndex file
  · funext index
    exact encodeFile_padding file index

end EncodeFile

/-- An entry is decoded from its 32 bytes only. -/
theorem decodeFile_congr
    {left right : Buffer}
    (agree : ∀ index < rootEntryLen, left index = right index) :
    decodeFile left = decodeFile right := by
  unfold decodeFile
  simp only [rootEntryLen] at agree
  congr 1
  · funext index
    have bound : index.val < 16 := index.isLt
    exact agree index (by omega)
  · rw [agree 16 (by omega), agree 17 (by omega), agree 18 (by omega),
      agree 19 (by omega)]
  · rw [agree 20 (by omega), agree 21 (by omega)]
  · funext index
    have bound : index.val < 10 := index.isLt
    exact agree (22 + index) (by omega)

/-- The bytes of an entry in the root block. -/
theorem rootArray_entry
    (root : Slot → File)
    (slot : Slot)
    {index : Nat}
    (inside : index < rootEntryLen) :
    rootArray root (rootEntryLen * slot + index) =
      encodeFile (root slot) index := by
  unfold rootArray
  rw [Nat.mul_add_div (by decide), Nat.div_eq_of_lt inside, Nat.add_zero,
    Nat.mul_add_mod, Nat.mod_eq_of_lt inside]
  congr 2
  exact Fin.ext (Nat.mod_eq_of_lt slot.isLt)

/-- The root directory is decoded from its bytes. -/
theorem decodeRoot_rootArray (root : Slot → File) :
    decodeRoot (rootArray root) = root := by
  funext slot
  calc
    decodeRoot (rootArray root) slot =
        decodeFile (encodeFile (root slot)) :=
      decodeFile_congr fun _ inside => rootArray_entry root slot inside
    _ = root slot := decodeFile_encodeFile (root slot)

/-! ## Bytes that are decoded and laid out again -/

/-- The bytes of an assembled 32-bit integer. -/
theorem concatenateFourBytes_byte
    (bytes : Buffer)
    {place : Nat}
    (inside : place < 4) :
    (concatenateFourBytes (bytes 0) (bytes 1) (bytes 2) (bytes 3)).toNat /
        2 ^ (8 * place) % 2 ^ 8 = (bytes place).toNat := by
  have bound0 := (bytes 0).toNat_lt
  have bound1 := (bytes 1).toNat_lt
  have bound2 := (bytes 2).toNat_lt
  have bound3 := (bytes 3).toNat_lt
  have fits : 2 ^ 24 * (bytes 3).toNat + 2 ^ 16 * (bytes 2).toNat +
      2 ^ 8 * (bytes 1).toNat + (bytes 0).toNat < 2 ^ 32 := by omega
  unfold concatenateFourBytes
  rw [UInt32.toNat_ofNat', Nat.mod_eq_of_lt fits]
  have cases : place = 0 ∨ place = 1 ∨ place = 2 ∨ place = 3 := by omega
  rcases cases with rfl | rfl | rfl | rfl <;> omega

/-- The bytes of an assembled 16-bit integer. -/
theorem concatenateTwoBytes_byte
    (bytes : Buffer)
    {place : Nat}
    (inside : place < 2) :
    (concatenateTwoBytes (bytes 0) (bytes 1)).toNat / 2 ^ (8 * place) % 2 ^ 8 =
      (bytes place).toNat := by
  have bound0 := (bytes 0).toNat_lt
  have bound1 := (bytes 1).toNat_lt
  have fits : 256 * (bytes 1).toNat + (bytes 0).toNat < 2 ^ 16 := by omega
  unfold concatenateTwoBytes
  rw [UInt16.toNat_ofNat', Nat.mod_eq_of_lt fits]
  have cases : place = 0 ∨ place = 1 := by omega
  rcases cases with rfl | rfl <;> omega

/-- Every byte of an entry is laid out as it was read. -/
theorem encodeFile_decodeFile
    (bytes : Buffer)
    {index : Nat}
    (inside : index < rootEntryLen) :
    encodeFile (decodeFile bytes) index = bytes index := by
  change index < 32 at inside
  rcases Nat.lt_or_ge index 16 with inName | afterName
  · exact encodeFile_filename (decodeFile bytes) ⟨index, inName⟩
  · rcases Nat.lt_or_ge index 20 with inSize | afterSize
    · obtain ⟨place, rfl⟩ := Nat.exists_eq_add_of_le afterName
      have inSize : place < 4 := by omega
      apply UInt8.toNat_inj.mp
      rw [encodeFile_sizeByte _ inSize]
      exact concatenateFourBytes_byte (fun offset => bytes (16 + offset)) inSize
    · rcases Nat.lt_or_ge index 22 with inIndex | afterIndex
      · obtain ⟨place, rfl⟩ := Nat.exists_eq_add_of_le afterSize
        have inIndex : place < 2 := by omega
        apply UInt8.toNat_inj.mp
        rw [encodeFile_indexByte _ inIndex]
        exact concatenateTwoBytes_byte (fun offset => bytes (20 + offset))
          inIndex
      · obtain ⟨place, rfl⟩ := Nat.exists_eq_add_of_le afterIndex
        have inPadding : place < rootPadLen := by
          change place < 10
          omega
        exact encodeFile_padding (decodeFile bytes) ⟨place, inPadding⟩

/-- Every byte of the root block is laid out as it was read. -/
theorem rootArray_decodeRoot
    (block : Buffer)
    {position : Nat}
    (inside : position < blockSize) :
    rootArray (decodeRoot block) position = block position := by
  have slotLt : position / rootEntryLen < fsFileMaxCount := by
    apply Nat.div_lt_of_lt_mul
    exact inside
  have inEntry : position % rootEntryLen < rootEntryLen :=
    Nat.mod_lt _ (by decide)
  have cut : rootEntryLen * (position / rootEntryLen) +
      position % rootEntryLen = position := Nat.div_add_mod _ _
  calc
    rootArray (decodeRoot block) position =
        rootArray (decodeRoot block)
          (rootEntryLen * (position / rootEntryLen) +
            position % rootEntryLen) := by rw [cut]
    _ = encodeFile (decodeRoot block ⟨position / rootEntryLen, slotLt⟩)
          (position % rootEntryLen) :=
      rootArray_entry _ ⟨position / rootEntryLen, slotLt⟩ inEntry
    _ = block (rootEntryLen * (position / rootEntryLen) +
          position % rootEntryLen) := encodeFile_decodeFile _ inEntry
    _ = block position := by rw [cut]

end MsFat
