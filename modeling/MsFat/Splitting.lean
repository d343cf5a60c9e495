import MsFat.Commute

/-!
# Cutting a write into pieces

A run of writes through one descriptor, each of which starts where the one
before it stopped, leaves the state of the single write of all their bytes: two
rounds of allocation take the blocks that one round takes, and the bytes are
stored at the same places.  The writes have to start in front of position 65536,
where the offset wraps.
-/

namespace MsFat

open Memory

/-- The session is determined by its parts, once the superblock and the FAT are
the same. -/
theorem Session.eq_of_parts
    {sb : SuperBlock}
    {fat : Fat sb.numDataBlocks.toNat}
    {root root' : Slot → File}
    {files : String → Option Image}
    {disk disk' : Disk}
    {leakedFds : Nat}
    {openFiles openFiles' : Descriptor → Option FileDescriptor}
    {numOpenFiles : UInt8}
    (sameRoot : root = root')
    (sameDisk : disk = disk')
    (sameOpenFiles : openFiles = openFiles') :
    Session.mk ⟨sb, fat, root⟩ files disk leakedFds openFiles numOpenFiles =
      Session.mk ⟨sb, fat, root'⟩ files disk' leakedFds openFiles'
        numOpenFiles := by
  rw [sameRoot, sameDisk, sameOpenFiles]

/-- The root entry of a file behind a write of `bytes` bytes. -/
def writtenFile
    (file : File)
    (firstIndex : UInt16)
    (bytes : Nat) : File :=
  { file with
    fileSize := file.fileSize + UInt32.ofNat bytes
    firstIndex := firstIndex }

theorem writtenFile_writtenFile
    (file : File)
    (first second : UInt16)
    (bytes more : Nat) :
    writtenFile (writtenFile file first bytes) second more =
      writtenFile file second (bytes + more) := by
  unfold writtenFile
  simp only [UInt32.add_assoc, UInt32.ofNat_add]

namespace FileWrite

variable {session : Session}

/-- The root directory behind a write. -/
theorem behind_root
    (write : FileWrite)
    (fat' : Fat session.sb.numDataBlocks.toNat)
    (firstIndex' : UInt16) :
    (write.behind session fat' firstIndex').root =
      Function.update session.root write.file
        (writtenFile (session.root write.file) firstIndex' write.count) := by
  have entry : (session.setChain write.file fat' firstIndex').root write.file =
      { session.root write.file with firstIndex := firstIndex' } :=
    Function.update_self _ _ _
  change Function.update
    (Function.update session.root write.file _) write.file
    { (session.setChain write.file fat' firstIndex').root write.file with
      fileSize :=
        ((session.setChain write.file fat' firstIndex').root
          write.file).fileSize + UInt32.ofNat write.count } = _
  rw [Function.update_idem, entry]
  rfl

/-- The first part of a write that is cut behind `bytes` bytes. -/
def front (write : FileWrite) (bytes : Nat) : FileWrite :=
  { write with count := bytes }

/-- The rest of a write that is cut behind `bytes` bytes. -/
def rest (write : FileWrite) (session : Session) (bytes : Nat) : FileWrite where
  index := write.index
  descriptor := (write.front bytes).moved
  chain := session.extendedChain write.chain write.start bytes
  buf := fun position => write.buf (bytes + position)
  count := write.count - bytes

section Cut

variable {write : FileWrite} {bytes : Nat}
  (starts : write.start + bytes < 2 ^ 16)
  (le : bytes ≤ write.count)
  (fits : write.start + write.count ≤ session.room write.chain)

include starts in
/-- The rest starts where the front stops. -/
theorem rest_start :
    (write.rest session bytes).start = write.start + bytes := by
  unfold start at starts ⊢
  change (write.descriptor.offset + UInt16.ofNat bytes).toNat = _
  rw [UInt16.toNat_add, UInt16.toNat_ofNat']
  omega

include le fits in
/-- The blocks for the front are among the free ones. -/
theorem front_missing_le :
    (write.front bytes).missing ≤ (freeBlocks session.fat).length := by
  change targetBlocks write.start bytes - write.chain.length ≤ _
  unfold targetBlocks
  unfold Session.room at fits
  simp only [blockSize] at *
  omega

include starts le fits in
/-- The front and the rest lack as many blocks as the whole write. -/
theorem front_missing_add_rest_missing :
    (write.front bytes).missing + (write.rest session bytes).missing =
      write.missing := by
  have enough := front_missing_le le fits
  unfold missing at enough ⊢
  rw [rest_start starts]
  change targetBlocks write.start bytes - write.chain.length ≤ _ at enough
  change targetBlocks write.start bytes - write.chain.length +
    (targetBlocks (write.start + bytes) (write.count - bytes) -
      (session.extendedChain write.chain write.start bytes).length) = _
  rw [Session.extendedChain_length]
  have whole : write.start + bytes + (write.count - bytes) =
      write.start + write.count := by omega
  unfold targetBlocks at *
  rw [whole]
  have before : (write.start + bytes + (blockSize - 1)) / blockSize ≤
      (write.start + write.count + (blockSize - 1)) / blockSize :=
    Nat.div_le_div_right (by omega)
  omega

variable {fat' : Fat session.sb.numDataBlocks.toNat} {firstIndex' : UInt16}
  {allocated : Int}
  {fat'' : Fat session.sb.numDataBlocks.toNat} {firstIndex'' : UInt16}
  {allocated' : Int}

include starts le fits in
/-- The two rounds of allocation are one. -/
theorem grown_of_cut
    (front : Grown session.fat write.chain (write.front bytes).missing fat'
      firstIndex' allocated)
    (rest : Grown fat' (write.rest session bytes).chain
      (write.rest session bytes).missing fat'' firstIndex'' allocated') :
    Grown session.fat write.chain write.missing fat'' firstIndex''
      allocated' := by
  rw [← front_missing_add_rest_missing starts le fits]
  exact Grown.trans (front_missing_le le fits) front rest

include starts le fits in
/-- The chain of the file behind both rounds of allocation. -/
theorem extendedChain_of_cut
    (front : Grown session.fat write.chain (write.front bytes).missing fat'
      firstIndex' allocated) :
    ((write.front bytes).behind session fat' firstIndex').extendedChain
        (write.rest session bytes).chain (write.rest session bytes).start
        (write.rest session bytes).count =
      session.extendedChain write.chain write.start write.count := by
  have missing := front_missing_add_rest_missing starts le fits
  change (write.chain ++ (freeBlocks session.fat).take
      (write.front bytes).missing) ++
    (freeBlocks fat').take (write.rest session bytes).missing =
      write.chain ++ (freeBlocks session.fat).take write.missing
  rw [front.free, List.append_assoc, ← List.take_add, missing]

include starts le fits in
/-- The bytes of the front and of the rest are stored where the whole write
stores them. -/
theorem bytes_of_cut
    (front : Grown session.fat write.chain (write.front bytes).missing fat'
      firstIndex' allocated) :
    ((write.rest session bytes).behind
        ((write.front bytes).behind session fat' firstIndex') fat''
        firstIndex'').disk.bytes =
      (write.behind session fat'' firstIndex'').disk.bytes := by
  have frontFits : write.start + bytes ≤
      blockSize * (session.extendedChain write.chain write.start bytes).length :=
    Session.extendedChain_holds (by omega)
  have chainEq := extendedChain_of_cut starts le fits front
  change scatter (session.place
      (((write.front bytes).behind session fat' firstIndex').extendedChain
        (write.rest session bytes).chain (write.rest session bytes).start
        (write.rest session bytes).count))
      (write.rest session bytes).start
      (fun position => write.buf (bytes + position)) (write.count - bytes)
      (scatter (session.place
        (session.extendedChain write.chain write.start bytes))
        write.start write.buf bytes session.disk.bytes) =
    scatter (session.place
      (session.extendedChain write.chain write.start write.count))
      write.start write.buf write.count session.disk.bytes
  rw [chainEq, rest_start starts]
  have cut := scatter_add (session.place
    (session.extendedChain write.chain write.start write.count)) write.start
    write.buf session.disk.bytes bytes (write.count - bytes)
  rw [Nat.add_sub_cancel' le] at cut
  have sameFront : scatter (session.place
      (session.extendedChain write.chain write.start bytes)) write.start
        write.buf bytes session.disk.bytes =
      scatter (session.place
        (session.extendedChain write.chain write.start write.count))
        write.start write.buf bytes session.disk.bytes := by
    refine scatter_congr _ ?_ fun _ _ => rfl
    intro offset early
    rw [← chainEq]
    exact (session.place_append _ _ (by omega)).symm
  rw [cut, sameFront]

include starts le fits in
/-- The session behind the front and the rest is the one behind the whole
write. -/
theorem behind_of_cut
    (front : Grown session.fat write.chain (write.front bytes).missing fat'
      firstIndex' allocated) :
    (write.rest session bytes).behind
        ((write.front bytes).behind session fat' firstIndex') fat''
        firstIndex'' =
      write.behind session fat'' firstIndex'' := by
  apply Session.eq_of_parts
  · have whole := write.behind_root fat'' firstIndex''
    have first := (write.front bytes).behind_root fat' firstIndex'
    have second := @behind_root
      ((write.front bytes).behind session fat' firstIndex')
      (write.rest session bytes) fat'' firstIndex''
    rw [first] at second
    refine second.trans (Eq.trans ?_ whole.symm)
    change Function.update (Function.update session.root write.file _)
      write.file (writtenFile
        (Function.update session.root write.file _ write.file) _ _) = _
    rw [Function.update_idem, Function.update_self, writtenFile_writtenFile]
    exact congrArg (fun count => Function.update session.root write.file
      (writtenFile (session.root write.file) firstIndex'' count))
      (Nat.add_sub_cancel' le)
  · exact congrArg (fun bytes => { session.disk with bytes := bytes })
      (bytes_of_cut starts le fits front)
  · change Function.update (Function.update session.openFiles write.index _)
      write.index _ = Function.update session.openFiles write.index _
    rw [Function.update_idem]
    have offset : write.descriptor.offset + UInt16.ofNat bytes +
        UInt16.ofNat (write.count - bytes) =
          write.descriptor.offset + UInt16.ofNat write.count := by
      rw [UInt16.add_assoc, ← UInt16.ofNat_add, Nat.add_sub_cancel' le]
    exact congrArg (fun offset => Function.update session.openFiles write.index
      (some ⟨write.descriptor.file, offset⟩)) offset

end Cut

/-- The descriptor is open on the file with this chain, and the write fits in
the blocks of the file and the free blocks. -/
structure Fits (write : FileWrite) (session : Session) : Prop where
  inside : session.DataInside
  isOpen : session.openFiles write.index = some write.descriptor
  isChain : session.FileChain write.file write.chain
  countFits : write.count ≤ intMax
  room : write.start + write.count ≤ session.room write.chain

section Fits

variable {write : FileWrite}

/-- The blocks for a write can be allocated. -/
theorem Fits.grows (fits : write.Fits session) :
    ∃ fat' firstIndex' allocated,
      Grown session.fat write.chain write.missing fat' firstIndex'
        allocated := by
  obtain ⟨fat', firstIndex', allocated, _, grown⟩ :=
    allocateInFat_computes session.numDataBlocks_lt fits.isChain
      (targetBlocks write.start write.count : Nat)
  refine ⟨fat', firstIndex', allocated, ?_⟩
  have missing : ((targetBlocks write.start write.count : Nat) -
      (write.chain.length : Int)).toNat = write.missing := by
    unfold FileWrite.missing
    omega
  rwa [missing] at grown

variable {fat' : Fat session.sb.numDataBlocks.toNat} {firstIndex' : UInt16}
  {allocated : Int}

/-- A write that fits leaves the session with its blocks allocated and its bytes
stored. -/
theorem Fits.returns
    (fits : write.Fits session)
    (positive : 0 < write.count)
    (grown : Grown session.fat write.chain write.missing fat' firstIndex'
      allocated)
    {host : Host}
    (succeeds : host.IoSucceeds) :
    write.Returns host session (write.behind session fat' firstIndex')
      write.count := by
  obtain ⟨_, _, _, grown', computes⟩ := Session.write_fits write.index
    fits.inside fits.isChain succeeds write.buf positive fits.countFits
    fits.room
  obtain ⟨rfl, rfl, rfl⟩ := grown.unique session.numDataBlocks_lt grown'
  exact ⟨_, fsWrite_computes fits.isOpen positive computes⟩

/-- The first part of a write that fits. -/
theorem Fits.front
    (fits : write.Fits session)
    {bytes : Nat}
    (le : bytes ≤ write.count) :
    (write.front bytes).Fits session where
  inside := fits.inside
  isOpen := fits.isOpen
  isChain := fits.isChain
  countFits := Nat.le_trans le fits.countFits
  room := Nat.le_trans (Nat.add_le_add_left le _) fits.room

/-- The rest of a write that fits, behind its first part. -/
theorem Fits.rest
    (fits : write.Fits session)
    {bytes : Nat}
    (starts : write.start + bytes < 2 ^ 16)
    (le : bytes ≤ write.count)
    (front : Grown session.fat write.chain (write.front bytes).missing fat'
      firstIndex' allocated) :
    (write.rest session bytes).Fits
      ((write.front bytes).behind session fat' firstIndex') where
  inside := ⟨fits.inside.data_le, fits.inside.bcount_eq⟩
  isOpen := Function.update_self _ _ _
  isChain := Session.finishWrite_fileChain _ _ _
    (Session.fileChain_extended write.file front)
  countFits := Nat.le_trans (Nat.sub_le _ _) fits.countFits
  room := by
    have whole := fits.room
    have free : (freeBlocks fat').length = (freeBlocks session.fat).length -
        (write.front bytes).missing := by
      rw [front.free, List.length_drop]
    have longer := session.extendedChain_length write.chain write.start bytes
    have enough := front_missing_le le fits.room
    rw [rest_start starts]
    change write.start + bytes + (write.count - bytes) ≤ blockSize *
      ((session.extendedChain write.chain write.start bytes).length +
        (freeBlocks fat').length)
    change (session.extendedChain write.chain write.start bytes).length =
      write.chain.length + min (write.front bytes).missing _ at longer
    unfold Session.room at whole
    rw [free, longer]
    simp only [blockSize] at *
    omega

end Fits

end FileWrite

/-! ## Byte strings -/

/-- The buffer starts with these bytes. -/
def StartsWith (buf : Buffer) (bytes : List UInt8) : Prop :=
  ∀ (position : Nat) (inside : position < bytes.length),
    buf position = bytes[position]

/-- A buffer with these bytes. -/
def bufferOf (bytes : List UInt8) : Buffer :=
  fun position => bytes.getD position 0

theorem startsWith_bufferOf (bytes : List UInt8) :
    StartsWith (bufferOf bytes) bytes := by
  intro position inside
  simp [bufferOf, inside]

theorem StartsWith.left
    {buf : Buffer}
    {bytes more : List UInt8}
    (starts : StartsWith buf (bytes ++ more)) :
    StartsWith buf bytes := by
  intro position inside
  rw [starts position (by rw [List.length_append]; omega),
    List.getElem_append_left inside]

theorem StartsWith.right
    {buf : Buffer}
    {bytes more : List UInt8}
    (starts : StartsWith buf (bytes ++ more)) :
    StartsWith (fun position => buf (bytes.length + position)) more := by
  intro position inside
  change buf (bytes.length + position) = _
  rw [starts _ (by rw [List.length_append]; omega),
    List.getElem_append_right (Nat.le_add_right _ _)]
  simp only [Nat.add_sub_cancel_left]

/-- `fs_write` of the bytes through the descriptor returns their number and
leaves the state `after`, whatever buffer holds them and whatever host performs
the reads and writes. -/
def WritesBytes
    (index : Descriptor)
    (state : State)
    (bytes : List UInt8)
    (after : State) : Prop :=
  ∀ (host : Host) (buf : Buffer), host.IoSucceeds → StartsWith buf bytes →
    ∃ bound, Computes
      (fun fuel => fsWrite fuel host state index.val (some buf) bytes.length)
      bound (after, (bytes.length : Int))

/-- One call of `fs_write` for each of the pieces, in order, leaves the state
`after`. -/
def WritesPieces (index : Descriptor) :
    State → List (List UInt8) → State → Prop
  | state, [], after => after = state
  | state, piece :: pieces, after =>
      ∃ middle, WritesBytes index state piece middle ∧
        WritesPieces index middle pieces after

theorem WritesBytes.unique
    {index : Descriptor}
    {state after other : State}
    {bytes : List UInt8}
    (writes : WritesBytes index state bytes after)
    (writes' : WritesBytes index state bytes other) :
    after = other := by
  obtain ⟨_, computes⟩ := writes .reliable (bufferOf bytes)
    Host.reliable_reliable.toIoSucceeds (startsWith_bufferOf bytes)
  obtain ⟨_, computes'⟩ := writes' .reliable (bufferOf bytes)
    Host.reliable_reliable.toIoSucceeds (startsWith_bufferOf bytes)
  exact (Prod.mk.inj (computes.unique computes')).1

/-- Writing no bytes changes nothing. -/
theorem writesBytes_nil
    {session : Session}
    {index : Descriptor}
    {descriptor : FileDescriptor}
    (isOpen : session.openFiles index = some descriptor) :
    WritesBytes index session.toState [] session.toState := by
  intro host buf _ _
  exact ⟨0, .const fun fuel => fsWrite_zero isOpen fuel host buf⟩

namespace FileWrite

variable {session : Session} {write : FileWrite} {bytes more : List UInt8}

section

variable {fat' : Fat session.sb.numDataBlocks.toNat} {firstIndex' : UInt16}
  {allocated : Int}

/-- A write that fits writes the bytes its buffer starts with. -/
theorem Fits.writesBytes
    (fits : write.Fits session)
    (starts : StartsWith write.buf bytes)
    (length : write.count = bytes.length)
    (nonempty : bytes ≠ [])
    (grown : Grown session.fat write.chain write.missing fat' firstIndex'
      allocated) :
    WritesBytes write.index session.toState bytes
      (write.behind session fat' firstIndex').toState := by
  intro host buf succeeds starts'
  have positive : 0 < write.count := by
    rw [length]
    exact List.length_pos_iff.mpr nonempty
  have other : ({ write with buf := buf } : FileWrite).Fits session :=
    ⟨fits.inside, fits.isOpen, fits.isChain, fits.countFits, fits.room⟩
  have returns := other.returns positive grown succeeds
  have same : ({ write with buf := buf } : FileWrite).behind session fat'
      firstIndex' = write.behind session fat' firstIndex' := by
    refine Session.eq_of_parts rfl (Disk.ext rfl rfl ?_) rfl
    refine scatter_congr _ (fun _ _ => rfl) ?_
    intro offset early
    change offset < write.count at early
    rw [length] at early
    exact (starts' offset early).trans (starts offset early).symm
  rw [same] at returns
  rw [← length]
  exact returns

/-- Writing the first bytes and then the others is writing all of them. -/
theorem Fits.writesBytes_append
    (fits : write.Fits session)
    (starts : StartsWith write.buf (bytes ++ more))
    (length : write.count = (bytes ++ more).length)
    (nonempty : bytes ≠ [])
    (early : write.start + bytes.length < 2 ^ 16)
    (front : Grown session.fat write.chain (write.front bytes.length).missing
      fat' firstIndex' allocated)
    {after : State}
    (rest : WritesBytes write.index
      ((write.front bytes.length).behind session fat' firstIndex').toState more
      after) :
    WritesBytes write.index session.toState (bytes ++ more) after := by
  rw [List.length_append] at length
  have le : bytes.length ≤ write.count := by omega
  have restFits := fits.rest early le front
  by_cases nothing : more = []
  · subst nothing
    have same := rest.unique (writesBytes_nil restFits.isOpen)
    rw [same, List.append_nil]
    exact (fits.front le).writesBytes starts.left rfl nonempty front
  · obtain ⟨fat'', firstIndex'', allocated', restGrown⟩ := restFits.grows
    have restWrites := restFits.writesBytes starts.right
      (show write.count - bytes.length = more.length by omega) nothing restGrown
    have same := rest.unique restWrites
    have cut := @behind_of_cut session write bytes.length early le fits.room
      fat' firstIndex' allocated fat'' firstIndex'' front
    rw [same, cut]
    exact fits.writesBytes starts (by rw [length, List.length_append])
      (by simp [nonempty])
      (grown_of_cut early le fits.room front restGrown)

end

/-- Writing the pieces of a byte string one after the other is writing the byte
string. -/
theorem Fits.writesPieces
    (pieces : List (List UInt8))
    (fits : write.Fits session)
    (starts : StartsWith write.buf pieces.flatten)
    (length : write.count = pieces.flatten.length)
    (early : ∀ k < pieces.length,
      write.start + (pieces.take k).flatten.length < 2 ^ 16) :
    ∃ after, WritesPieces write.index session.toState pieces after ∧
      WritesBytes write.index session.toState pieces.flatten after := by
  induction pieces generalizing write session with
  | nil => exact ⟨session.toState, rfl, writesBytes_nil fits.isOpen⟩
  | cons piece pieces inductionHypothesis =>
      rw [List.flatten_cons] at starts length ⊢
      by_cases nothing : piece = []
      · subst nothing
        obtain ⟨after, writes, whole⟩ := inductionHypothesis fits starts length
          fun k inside => early (k + 1) (Nat.succ_lt_succ inside)
        exact ⟨after, ⟨session.toState, writesBytes_nil fits.isOpen, writes⟩,
          whole⟩
      · have total := length
        rw [List.length_append] at total
        have le : piece.length ≤ write.count := by omega
        obtain ⟨fat', firstIndex', allocated, front⟩ := (fits.front le).grows
        have frontWrites := (fits.front le).writesBytes starts.left rfl nothing
          front
        by_cases last : pieces = []
        · subst last
          rw [List.flatten_nil, List.append_nil]
          exact ⟨_, ⟨_, frontWrites, rfl⟩, frontWrites⟩
        · have earlyRest : write.start + piece.length < 2 ^ 16 := by
            have second := early 1 (Nat.succ_lt_succ
              (List.length_pos_iff.mpr last))
            simpa using second
          obtain ⟨after, writes, rest⟩ := inductionHypothesis
            (fits.rest earlyRest le front) starts.right
            (show write.count - piece.length = pieces.flatten.length by omega)
            (by
              intro k inside
              have next := early (k + 1) (Nat.succ_lt_succ inside)
              rw [List.take_succ_cons, List.flatten_cons,
                List.length_append] at next
              rw [rest_start earlyRest]
              omega)
          exact ⟨after, ⟨_, frontWrites, writes⟩, fits.writesBytes_append starts
            length nothing earlyRest front rest⟩

end FileWrite

/-- Cutting a write does not matter: writing the pieces one after the other, in
any cutting whose pieces start in front of position 65536, leaves the state that
writing all of them in one call leaves, and each call returns the number of its
bytes. -/
theorem fsWrite_pieces
    {session : Session}
    {index : Descriptor}
    {descriptor : FileDescriptor}
    {chain : List UInt16}
    (wellFormed : session.WellFormed)
    (isOpen : session.openFiles index = some descriptor)
    (isChain : session.FileChain descriptor.file chain) :
    (∀ a b : List UInt8, a.length + b.length ≤ intMax →
      descriptor.offset.toNat + a.length ≤ 65535 →
      descriptor.offset.toNat + a.length + b.length ≤
        4096 * (chain.length + (freeBlocks session.fat).length) →
      ∃ middle after,
        WritesBytes index session.toState a middle ∧
        WritesBytes index middle b after ∧
        WritesBytes index session.toState (a ++ b) after) ∧
    ∀ pieces : List (List UInt8), pieces.flatten.length ≤ intMax →
      (∀ k < pieces.length,
        descriptor.offset.toNat + (pieces.take k).flatten.length ≤ 65535) →
      descriptor.offset.toNat + pieces.flatten.length ≤
        4096 * (chain.length + (freeBlocks session.fat).length) →
      ∃ after,
        WritesPieces index session.toState pieces after ∧
        WritesBytes index session.toState pieces.flatten after := by
  have cut : ∀ pieces : List (List UInt8), pieces.flatten.length ≤ intMax →
      (∀ k < pieces.length,
        descriptor.offset.toNat + (pieces.take k).flatten.length ≤ 65535) →
      descriptor.offset.toNat + pieces.flatten.length ≤
        4096 * (chain.length + (freeBlocks session.fat).length) →
      ∃ after,
        WritesPieces index session.toState pieces after ∧
        WritesBytes index session.toState pieces.flatten after := by
    intro pieces countFits early room
    let write : FileWrite := ⟨index, descriptor, chain,
      bufferOf pieces.flatten, pieces.flatten.length⟩
    have fits : write.Fits session :=
      ⟨wellFormed.layout.toDataInside, isOpen, isChain, countFits, room⟩
    exact fits.writesPieces pieces (startsWith_bufferOf _) rfl
      fun k inside => Nat.lt_succ_of_le (early k inside)
  refine ⟨?_, cut⟩
  intro a b countFits early room
  have flat : [a, b].flatten = a ++ b := by simp
  obtain ⟨after, ⟨middle, writes, last, writes', rfl⟩, whole⟩ := cut [a, b]
    (by rw [flat, List.length_append]; exact countFits)
    (by
      intro k inside
      change k < 2 at inside
      obtain rfl | rfl : k = 0 ∨ k = 1 := by omega
      · exact Nat.le_of_lt_succ descriptor.offset.toNat_lt
      · simpa using early)
    (by rw [flat, List.length_append]; omega)
  rw [flat] at whole
  exact ⟨middle, _, writes, writes', whole⟩

/-- Six bytes behind each other in the file of five bytes, one by one and in one
call. -/
theorem fsWrite_pieces_sample :
    ∃ after,
      WritesPieces 0 Session.sample.toState [[1], [2], [3], [4], [5], [6]]
        after ∧
      WritesBytes 0 Session.sample.toState [1, 2, 3, 4, 5, 6] after :=
  (@fsWrite_pieces Session.sample 0 ⟨0, 0⟩ [1] Session.sample_wellFormed rfl
    Session.sample_fileChain).2 [[1], [2], [3], [4], [5], [6]] (by decide)
    (by decide) (by decide)

end MsFat
