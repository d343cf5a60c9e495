import MsFat.Apps.Refinement

/-!
# Files with a known content

A file that is written from its start to its end, piece by piece, has the pieces
one after the other as its content.  From there on it is read piece by piece,
however it has been cut for the writes.
-/

namespace MsFat

namespace StoredFile

/-- The bytes of the file are known to be these. -/
structure HasContent (file : StoredFile) (content : List UInt8) : Prop where
  size : file.size = UInt32.ofNat content.length
  inside : content.length ≤ blockSize * file.blocks
  bytes : ∀ position byte, content[position]? = some byte →
    file.bytes position = some byte

theorem empty_hasContent : StoredFile.empty.HasContent [] where
  size := rfl
  inside := Nat.zero_le _
  bytes := by simp

variable {file : StoredFile} {content : List UInt8} {data : CString}
  {room : Nat}

/-- All of a piece is written if there is room for it. -/
theorem written_eq_of_fits
    {offset count : Nat}
    (fits : offset + count ≤ blockSize * (file.blocks + room)) :
    file.written room offset count = count := by
  unfold written taken
  simp only [blockSize] at *
  omega

/-- A piece that is written behind the content is appended to it. -/
theorem HasContent.append
    (has : file.HasContent content)
    (fits : content.length + data.length ≤ blockSize * (file.blocks + room)) :
    (file.write room content.length data.byte data.length).HasContent
      (content ++ data.bytes) := by
  have all := written_eq_of_fits fits
  refine ⟨?_, ?_, ?_⟩
  · have isSize : (file.write room content.length data.byte data.length).size =
        if file.written room content.length data.length = data.length then
          file.size + UInt32.ofNat data.length
        else file.size := rfl
    rw [isSize, if_pos all, has.size, List.length_append, UInt32.ofNat_add]
    rfl
  · have isBlocks :
        (file.write room content.length data.byte data.length).blocks =
          file.blocks + file.taken room content.length data.length := rfl
    rw [isBlocks, List.length_append]
    change content.length + data.length ≤ _
    unfold taken
    simp only [blockSize] at *
    omega
  · intro position byte isByte
    have isBytes :
        (file.write room content.length data.byte data.length).bytes position =
          if content.length ≤ position ∧ position < content.length +
              file.written room content.length data.length then
            some (data.byte (position - content.length))
          else file.bytes position := rfl
    rw [isBytes, all]
    by_cases old : position < content.length
    · rw [if_neg (by omega)]
      rw [List.getElem?_append_left old] at isByte
      exact has.bytes position byte isByte
    · rw [List.getElem?_append_right (by omega)] at isByte
      obtain ⟨inside, _⟩ := List.getElem?_eq_some_iff.mp isByte
      have inside' : position - content.length < data.length := inside
      rw [if_pos (by omega), CString.byte, List.getD_eq_getElem?_getD, isByte]
      rfl

end StoredFile

namespace Store

/-- The file of this name is open with the first handle, which stands at an
offset of its content, and there are blocks for `total` bytes.  The other files
are those of `start`. -/
structure Holds
    (store start : Store)
    (name : CString)
    (content : List UInt8)
    (offset total : Nat) : Prop where
  handle : store.handles 0 =
    some { name := name, offset := UInt16.ofNat offset }
  file : ∃ file, store.files name = some file ∧ file.HasContent content ∧
    total ≤ blockSize * (file.blocks + store.freeBlocks)
  others : ∀ other, other ≠ name → store.files other = start.files other

variable {store start : Store} {name : CString} {content : List UInt8}
  {offset total : Nat} {data : CString}

/-- The first handle, on a file that has just been opened. -/
theorem opened_holds
    {file : StoredFile}
    (isFile : store.files name = some file)
    (has : file.HasContent content)
    (others : ∀ other, other ≠ name → store.files other = start.files other)
    (fits : total ≤ blockSize * (file.blocks + store.freeBlocks)) :
    (store.opened name).Holds start name content 0 total where
  handle := store.opened_handle name
  file := ⟨file, isFile, has, fits⟩
  others := others

/-- The handle moves over a transfer that is not short. -/
theorem Holds.moved
    (holds : store.Holds start name content offset total)
    (count : Nat) :
    (store.moved 0 { name := name, offset := UInt16.ofNat offset } count
      count).Holds start name content (offset + count) total where
  handle := by
    unfold Store.moved
    rw [if_pos rfl, UInt16.ofNat_add]
    simp [setHandle]
  file := by
    unfold Store.moved
    rw [if_pos rfl]
    exact holds.file
  others := by
    unfold Store.moved
    rw [if_pos rfl]
    exact holds.others

/-- A piece is written behind the content. -/
theorem Holds.exec_write
    (holds : store.Holds start name content content.length total)
    (small : content.length < 2 ^ 16)
    (nonempty : data.length ≠ 0)
    (fits : content.length + data.length ≤ total) :
    ∃ after, store.exec (.write 0 (some data.byte) data.length) =
        some (after, { result := (data.length : Nat) }) ∧
      after.Holds start name (content ++ data.bytes)
        (content ++ data.bytes).length total := by
  obtain ⟨file, isFile, has, room⟩ := holds.file
  have isOffset : (UInt16.ofNat content.length).toNat = content.length :=
    UInt16.toNat_ofNat_of_lt' (by simpa [UInt16.size] using small)
  have fitsRoom : content.length + data.length ≤
      blockSize * (file.blocks + store.freeBlocks) := fits.trans room
  have all := @StoredFile.written_eq_of_fits file store.freeBlocks _ _ fitsRoom
  let stored : Store :=
    { store.setFile name (some (file.write store.freeBlocks content.length
        data.byte data.length)) with
      freeBlocks := store.freeBlocks -
        file.taken store.freeBlocks content.length data.length }
  have storedHolds : stored.Holds start name (content ++ data.bytes)
      content.length total := by
    refine ⟨holds.handle, ?_, ?_⟩
    · refine ⟨_, Function.update_self .., has.append fitsRoom, ?_⟩
      refine room.trans (Nat.mul_le_mul_left _ ?_)
      have isBlocks : (file.write store.freeBlocks content.length data.byte
          data.length).blocks = file.blocks +
            file.taken store.freeBlocks content.length data.length := rfl
      have enough : file.taken store.freeBlocks content.length data.length ≤
          store.freeBlocks := Nat.min_le_right _ _
      rw [isBlocks]
      change _ ≤ _ + (store.freeBlocks - _)
      omega
    · intro other different
      exact (Function.update_of_ne different _ _).trans
        (holds.others other different)
  refine ⟨stored.moved 0 { name := name, offset := UInt16.ofNat content.length }
    data.length data.length, ?_, ?_⟩
  · unfold exec write
    refine (onFile_of_handle rfl holds.handle isFile _).trans ?_
    refine congrArg some ((if_neg nonempty).trans ?_)
    dsimp only
    rw [isOffset, all]
  · rw [List.length_append]
    exact storedHolds.moved data.length

/-- A seek to a place of the content. -/
theorem Holds.exec_lseek
    (holds : store.Holds start name content offset total)
    (small : content.length < 2 ^ 32)
    {place : Nat}
    (inside : place ≤ content.length) :
    ∃ after, store.exec (.lseek 0 place) = some (after, { result := 0 }) ∧
      after.Holds start name content place total := by
  obtain ⟨file, isFile, has, room⟩ := holds.file
  have isSize : file.size.toNat = content.length := by
    rw [has.size]
    exact UInt32.toNat_ofNat_of_lt' small
  refine ⟨store.setHandle 0
      (some { name := name, offset := UInt16.ofNat place }),
    ?_, ?_, ⟨file, isFile, has, room⟩, holds.others⟩
  · unfold exec lseek
    refine (onFile_of_handle rfl holds.handle isFile _).trans ?_
    exact congrArg some (if_neg (by omega))
  · simp [setHandle]

/-- A piece of the content is read.  Behind it the buffer is what it was. -/
theorem Holds.exec_read
    (holds : store.Holds start name content offset total)
    (small : offset < 2 ^ 16)
    (nonempty : data.length ≠ 0)
    (isPiece : ∀ index, index < data.length →
      content[offset + index]? = some (data.byte index))
    (buf : Buffer) :
    ∃ after answer,
      store.exec (.read 0 (some buf) data.length) = some (after, answer) ∧
      answer.result = (data.length : Nat) ∧ answer.stored = data.length ∧
      after.Holds start name content (offset + data.length) total ∧
      ∀ reply, answer.Allows reply →
        ∃ filled, reply.buffer = some filled ∧
          ∀ index, filled index =
            if index < data.length then data.byte index else buf index := by
  obtain ⟨file, isFile, has, room⟩ := holds.file
  have isOffset : (UInt16.ofNat offset).toNat = offset :=
    UInt16.toNat_ofNat_of_lt' (by simpa [UInt16.size] using small)
  have inside : offset + data.length ≤ content.length := by
    have isLast := isPiece (data.length - 1) (by omega)
    obtain ⟨isInside, _⟩ := List.getElem?_eq_some_iff.mp isLast
    omega
  have all : min data.length (file.behind offset) = data.length := by
    have := has.inside
    unfold StoredFile.behind
    omega
  refine ⟨store.moved 0 { name := name, offset := UInt16.ofNat offset }
      data.length data.length,
    { result := (data.length : Nat)
      buffer := some (file.read offset buf data.length)
      stored := data.length },
    ?_, rfl, rfl, holds.moved data.length, ?_⟩
  · unfold exec read
    refine (onFile_of_handle rfl holds.handle isFile _).trans ?_
    refine congrArg some ((if_neg fun empty => nonempty empty.1).trans ?_)
    dsimp only
    rw [isOffset, all]
  · intro reply allows
    obtain ⟨filled, isFilled, known⟩ := allows.buffer _ rfl
    refine ⟨filled, isFilled, fun index => known index _ ?_⟩
    unfold StoredFile.read
    split
    · rename_i isInside
      exact has.bytes _ _ (isPiece index isInside)
    · rfl

/-- The file is closed. -/
theorem Holds.exec_close
    (holds : store.Holds start name content offset total) :
    ∃ after, store.exec (.close 0) = some (after, { result := 0 }) ∧
      (∃ file, after.files name = some file ∧ file.HasContent content) ∧
      ∀ other, other ≠ name → after.files other = start.files other := by
  obtain ⟨file, isFile, has, _⟩ := holds.file
  unfold exec close
  exact ⟨_, onHandle_of_handle rfl holds.handle _, ⟨file, isFile, has⟩,
    holds.others⟩

end Store
end MsFat
