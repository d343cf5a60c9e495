import MsFat.Directory.Names
import MsFat.Fat.Allocation

/-!
# Well-formed sessions

The invariant of a mount session: the regions of the disk are apart, the names
of the files are terminated and distinct, every file has a chain, no block is in
the chains of two files, and open descriptors refer to files.
-/

namespace MsFat
namespace Session

/-- `chain` are the blocks of the file at a slot. -/
def FileChain
    (session : Session)
    (slot : Slot)
    (chain : List UInt16) : Prop :=
  FatChain session.fat (session.root slot).firstIndex chain

/-- The data region lies inside the disk, whose block count is the one of the
superblock. -/
structure DataInside (session : Session) : Prop where
  data_le : session.sb.dataStartIndex.toNat +
    session.sb.numDataBlocks.toNat ≤ session.disk.bcount
  bcount_eq : session.disk.bcount = session.sb.numBlocks.toNat

/-- The data region also lies behind the FAT and the root block. -/
structure LayoutOk (session : Session) : Prop extends session.DataInside where
  fat_lt : session.sb.numFatBlocks.toNat < session.sb.dataStartIndex.toNat
  root_lt : session.sb.rootIndex.toNat < session.sb.dataStartIndex.toNat

/-- The names of the files are terminated and pairwise distinct. -/
structure NamesOk (session : Session) : Prop where
  terminated : ∀ slot, session.InUse slot →
    ∃ index, (session.root slot).filename index = 0
  distinct : ∀ slot other, session.InUse slot → session.InUse other →
    arrayString (session.root slot).filename =
      arrayString (session.root other).filename → slot = other

/-- Every file has a chain, and the chains of two files share no block. -/
structure ChainsOk (session : Session) : Prop where
  chain : ∀ slot, session.InUse slot → ∃ chain, session.FileChain slot chain
  disjoint : ∀ slot other left right, slot ≠ other →
    session.InUse slot → session.InUse other →
    session.FileChain slot left → session.FileChain other right →
      left.Disjoint right

/-- Open descriptors refer to files. -/
def DescriptorsOk (session : Session) : Prop :=
  ∀ index descriptor, session.openFiles index = some descriptor →
    session.InUse descriptor.file

/-- The invariant of a mount session. -/
structure WellFormed (session : Session) : Prop where
  layout : session.LayoutOk
  names : session.NamesOk
  chains : session.ChainsOk
  descriptors : session.DescriptorsOk

/-- The number of FAT entries fits in 16 bits. -/
theorem numDataBlocks_lt (session : Session) :
    session.sb.numDataBlocks.toNat < 2 ^ 16 :=
  session.sb.numDataBlocks.toNat_lt

theorem FileChain.unique
    {session : Session}
    {slot : Slot}
    {left right : List UInt16}
    (isLeft : session.FileChain slot left)
    (isRight : session.FileChain slot right) :
    left = right :=
  FatChain.unique isLeft isRight

/-- A chain holds at most 2^28 bytes. -/
theorem chain_bytes_le
    {session : Session}
    {file : Slot}
    {chain : List UInt16}
    (isChain : session.FileChain file chain) :
    blockSize * chain.length ≤ 2 ^ 28 := by
  have counted := isChain.length_le
  have fits := session.numDataBlocks_lt
  simp only [blockSize]
  omega

namespace DataInside

variable {session : Session}

/-- A block of a chain stands for a block of the data region, and the 16-bit
sum of the code does not wrap. -/
theorem dataBlock_eq
    (inside : session.DataInside)
    {index : UInt16}
    (below : index.toNat < session.sb.numDataBlocks.toNat) :
    (index + session.sb.dataStartIndex).toNat =
      session.sb.dataStartIndex.toNat + index.toNat := by
  have dataLe := inside.data_le
  have blocks := session.sb.numBlocks.toNat_lt
  rw [inside.bcount_eq] at dataLe
  rw [UInt16.toNat_add, Nat.mod_eq_of_lt (by omega), Nat.add_comm]

theorem dataBlock_lt
    (inside : session.DataInside)
    {index : UInt16}
    (below : index.toNat < session.sb.numDataBlocks.toNat) :
    session.sb.dataStartIndex.toNat + index.toNat < session.disk.bcount := by
  have dataLe := inside.data_le
  omega

end DataInside

/-! ## Files and their names -/

section Names

variable {session : Session} {filename : CString} {slot : Slot}

theorem findMatchingFilename_eq_some
    (found : session.findMatchingFilename filename = some slot) :
    arrayString (session.root slot).filename = filename.bytes := by
  have holds := List.find?_some found
  exact strcmpEq_iff.mp holds

theorem findMatchingFilename_eq_none
    (notFound : session.findMatchingFilename filename = none)
    (slot : Slot) :
    arrayString (session.root slot).filename ≠ filename.bytes := by
  intro holds
  have := List.find?_eq_none.mp notFound slot (List.mem_finRange slot)
  exact this (strcmpEq_iff.mpr holds)

theorem findEmptyRootEntry_eq_some
    (found : session.findEmptyRootEntry = some slot) :
    ¬session.InUse slot := by
  have zero := List.find?_some found
  simpa [InUse] using zero

/-- No open descriptor refers to a file of a name that is not open. -/
theorem isOpen_eq_false_iff (short : filename.length < fsFilenameLen) :
    session.isOpen filename = false ↔
      ∀ index descriptor, session.openFiles index = some descriptor →
        arrayString (session.root descriptor.file).filename ≠
          filename.bytes := by
  unfold isOpen
  rw [List.any_eq_false]
  constructor
  · intro none index descriptor present holds
    apply none index (List.mem_finRange index)
    simp [present, (streq_eq_zero_iff short).mpr holds]
  · intro none index _
    cases present : session.openFiles index with
    | none => simp
    | some descriptor =>
        simpa [streq_eq_zero_iff short] using none index descriptor present

end Names
/-! ## Volumes whose files are called by a letter -/

/-- A superblock for a FAT of one block, followed by the root block and the data
blocks. -/
def compactSuperBlock (numDataBlocks : UInt16) : SuperBlock where
  signature := fun _ => 0
  numBlocks := numDataBlocks + 3
  rootIndex := 2
  dataStartIndex := 3
  numDataBlocks := numDataBlocks
  numFatBlocks := 1
  padding := fun _ => 0

/-- The name array of the file at a slot: one letter, `a` for slot 0. -/
def letterName (slot : Slot) (index : Fin fsFilenameLen) : UInt8 :=
  if index = 0 then UInt8.ofNat (97 + slot.val) else 0

theorem letterName_zero_toNat (slot : Slot) :
    (letterName slot 0).toNat = 97 + slot.val := by
  have bound := slot.isLt
  simp only [fsFileMaxCount] at bound
  simp only [letterName, if_pos, UInt8.toNat_ofNat']
  omega

/-- A session with the given first indices and sizes of files. -/
def lettered
    (numDataBlocks : UInt16)
    (fat : Fat numDataBlocks.toNat)
    (entries : Slot → Option (UInt16 × UInt32))
    (openFiles : Descriptor → Option FileDescriptor) : Session where
  sb := compactSuperBlock numDataBlocks
  fat := fat
  root := fun slot =>
    { filename := if (entries slot).isSome then letterName slot else fun _ => 0
      fileSize := ((entries slot).map Prod.snd).getD 0
      firstIndex := ((entries slot).map Prod.fst).getD fatEoc
      padding := fun _ => 0 }
  files := fun _ => none
  disk :=
    { diskname := "disk"
      bcount := numDataBlocks.toNat + 3
      bytes := fun _ => 0 }
  leakedFds := 0
  openFiles := openFiles
  numOpenFiles := 0

section Lettered

variable {numDataBlocks : UInt16} {fat : Fat numDataBlocks.toNat}
  {entries : Slot → Option (UInt16 × UInt32)}
  {openFiles : Descriptor → Option FileDescriptor}

theorem lettered_inUse_iff {slot : Slot} :
    (lettered numDataBlocks fat entries openFiles).InUse slot ↔
      (entries slot).isSome := by
  have nonzero : letterName slot 0 ≠ 0 := by
    intro zero
    have value := letterName_zero_toNat slot
    rw [zero] at value
    change 0 = 97 + slot.val at value
    omega
  cases present : entries slot with
  | none => simp [InUse, lettered, present]
  | some entry => simp [InUse, lettered, present, nonzero]

/-- With chains for its files that share no block, such a session is
well-formed. -/
theorem lettered_wellFormed
    (fits : numDataBlocks.toNat + 3 < 2 ^ 16)
    (chains : Slot → List UInt16)
    (isChain : ∀ slot entry, entries slot = some entry →
      FatChain fat entry.1 (chains slot))
    (disjoint : ∀ slot other, slot ≠ other → (entries slot).isSome →
      (entries other).isSome → (chains slot).Disjoint (chains other))
    (descriptors : ∀ index descriptor, openFiles index = some descriptor →
      (entries descriptor.file).isSome) :
    (lettered numDataBlocks fat entries openFiles).WellFormed := by
  have numBlocks : (numDataBlocks + 3).toNat = numDataBlocks.toNat + 3 := by
    rw [UInt16.toNat_add]
    exact Nat.mod_eq_of_lt fits
  have fileChain : ∀ slot,
      (lettered numDataBlocks fat entries openFiles).InUse slot →
        (lettered numDataBlocks fat entries openFiles).FileChain slot
          (chains slot) := by
    intro slot used
    obtain ⟨entry, present⟩ :=
      Option.isSome_iff_exists.mp (lettered_inUse_iff.mp used)
    change FatChain fat (((entries slot).map Prod.fst).getD fatEoc)
      (chains slot)
    rw [present]
    exact isChain slot entry present
  have filename : ∀ slot,
      (lettered numDataBlocks fat entries openFiles).InUse slot →
        ((lettered numDataBlocks fat entries openFiles).root slot).filename =
          letterName slot := by
    intro slot used
    have present := lettered_inUse_iff.mp used
    simp [lettered, present]
  refine ⟨⟨⟨?_, numBlocks.symm⟩, show (1 : UInt8).toNat < 3 by decide,
    show (2 : UInt16).toNat < 3 by decide⟩, ⟨?_, ?_⟩, ⟨?_, ?_⟩, ?_⟩
  · exact (Nat.add_comm _ _).le
  · intro slot used
    refine ⟨1, ?_⟩
    rw [filename slot used]
    rfl
  · intro slot other used usedOther equal
    have heads := congrArg List.head? equal
    rw [head?_arrayString used, head?_arrayString usedOther,
      filename slot used, filename other usedOther] at heads
    have values := congrArg UInt8.toNat (Option.some.inj heads)
    rw [letterName_zero_toNat, letterName_zero_toNat] at values
    exact Fin.ext (by omega)
  · intro slot used
    exact ⟨chains slot, fileChain slot used⟩
  · intro slot other left right different used usedOther isLeft isRight
    rw [isLeft.unique (fileChain slot used),
      isRight.unique (fileChain other usedOther)]
    exact disjoint slot other different (lettered_inUse_iff.mp used)
      (lettered_inUse_iff.mp usedOther)
  · intro index descriptor isOpen
    exact lettered_inUse_iff.mpr (descriptors index descriptor isOpen)

end Lettered

/-- A session with one file, called `a`, which descriptor 0 has open at its
start. -/
def oneFile
    (numDataBlocks : UInt16)
    (fat : Fat numDataBlocks.toNat)
    (firstIndex : UInt16)
    (fileSize : UInt32) : Session :=
  lettered numDataBlocks fat
    (fun slot => if slot = 0 then some (firstIndex, fileSize) else none)
    fun index => if index = 0 then some { file := 0, offset := 0 } else none

theorem oneFile_wellFormed
    {numDataBlocks : UInt16}
    {fat : Fat numDataBlocks.toNat}
    {firstIndex : UInt16}
    {chain : List UInt16}
    (fits : numDataBlocks.toNat + 3 < 2 ^ 16)
    (isChain : FatChain fat firstIndex chain)
    (fileSize : UInt32) :
    (oneFile numDataBlocks fat firstIndex fileSize).WellFormed := by
  have onlyFile : ∀ slot : Slot,
      ((if slot = 0 then some (firstIndex, fileSize) else none :
        Option (UInt16 × UInt32))).isSome → slot = 0 := by
    intro slot present
    by_contra other
    simp [other] at present
  refine lettered_wellFormed fits (fun _ => chain) ?_ ?_ ?_
  · intro slot entry present
    have first := onlyFile slot (by simp [present])
    rw [if_pos first] at present
    cases present
    exact isChain
  · intro slot other different present presentOther
    exact absurd ((onlyFile slot present).trans (onlyFile other presentOther).symm)
      different
  · intro index descriptor isOpen
    by_cases first : index = 0
    · rw [if_pos first] at isOpen
      cases isOpen
      rfl
    · rw [if_neg first] at isOpen
      exact nomatch isOpen

/-- A session with two files, called `a` and `b`. -/
def twoFiles
    (numDataBlocks : UInt16)
    (fat : Fat numDataBlocks.toNat)
    (first second : UInt16 × UInt32)
    (openFiles : Descriptor → Option FileDescriptor) : Session :=
  lettered numDataBlocks fat
    (fun slot =>
      if slot = 0 then some first else if slot = 1 then some second else none)
    openFiles

theorem twoFiles_wellFormed
    {numDataBlocks : UInt16}
    {fat : Fat numDataBlocks.toNat}
    {first second : UInt16 × UInt32}
    {openFiles : Descriptor → Option FileDescriptor}
    {left right : List UInt16}
    (fits : numDataBlocks.toNat + 3 < 2 ^ 16)
    (isLeft : FatChain fat first.1 left)
    (isRight : FatChain fat second.1 right)
    (disjoint : left.Disjoint right)
    (descriptors : ∀ index descriptor, openFiles index = some descriptor →
      descriptor.file = 0 ∨ descriptor.file = 1) :
    (twoFiles numDataBlocks fat first second openFiles).WellFormed := by
  have only : ∀ slot : Slot, (if slot = 0 then some first
      else if slot = 1 then some second else none).isSome →
        slot = 0 ∨ slot = 1 := by
    intro slot present
    by_contra other
    rw [not_or] at other
    simp [other.1, other.2] at present
  refine lettered_wellFormed fits
    (fun slot => if slot = 0 then left else right) ?_ ?_ ?_
  · intro slot entry present
    rcases only slot (by simp [present]) with rfl | rfl
    · cases present
      exact isLeft
    · cases present
      exact isRight
  · intro slot other different present presentOther
    rcases only slot present with rfl | rfl <;>
      rcases only other presentOther with rfl | rfl
    · exact absurd rfl different
    · exact disjoint
    · exact List.disjoint_symm disjoint
    · exact absurd rfl different
  · intro index descriptor isOpen
    rcases descriptors index descriptor isOpen with isFirst | isSecond
    · rw [isFirst]
      rfl
    · rw [isSecond]
      rfl

/-- The five bytes of the file lie in block 1. -/
def sample : Session :=
  oneFile 4 #v[fatEoc, fatEoc, 0, 0] 1 5

theorem sample_fileChain : sample.FileChain 0 [1] :=
  show FatChain #v[fatEoc, fatEoc, 0, 0] 1 [1] by decide

theorem sample_wellFormed : sample.WellFormed :=
  oneFile_wellFormed (by decide) sample_fileChain 5

theorem sample_inUse : sample.InUse 0 :=
  lettered_inUse_iff.mpr rfl

end Session
end MsFat
