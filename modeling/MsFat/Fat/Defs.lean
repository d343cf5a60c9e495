import MsFat.Basic
import Mathlib.Data.List.Range

/-!
# Walking and growing chains of the FAT

The two functions of `fs.c` that follow the chain of a file:
`allocate_blocks_in_fat`, which appends blocks to it, and `find_data_block`,
which looks one block up.

The loops of `allocate_blocks_in_fat` that look for an empty entry are one
function here, and its loop that follows the chain takes fuel, since a chain
that closes on itself has no end.
-/

namespace MsFat

variable {count : Nat}

/-- The entry behind a block in the FAT, if the block has one. -/
def fatNext (fat : Fat count) (index : UInt16) : Option UInt16 :=
  fat[index.toNat]?

/-- `*(fat+index)` -/
def fatGet (fat : Fat count) (index : UInt16) : Outcome UInt16 :=
  match fatNext fat index with
  | none => .error .outOfBounds
  | some entry => .ok entry

/-- `*(fat+index) = entry`, for an index the code has read before. -/
def fatSet (fat : Fat count) (index entry : UInt16) : Fat count :=
  fat.setIfInBounds index.toNat entry

/-- The first entry from 1 on that is 0. -/
def findFreeEntry (fat : Fat count) : Option UInt16 :=
  ((List.range' 1 (count - 1)).find? fun index => fat[index]? == some 0).map
    UInt16.ofNat

/-- The block the walk of `allocate_blocks_in_fat` starts from.  A file without
blocks is given the first free one. -/
def firstBlock
    (fat : Fat count)
    (firstIndex : UInt16) : Option (Fat count × UInt16) :=
  if firstIndex = fatEoc then
    match findFreeEntry fat with
    | none => none
    | some free => some (fatSet fat free fatEoc, free)
  else some (fat, firstIndex)

/-- The walk to the last block of the chain, which counts the blocks. -/
def walkToEnd :
    Nat → Fat count → UInt16 → Nat → Outcome (UInt16 × Nat)
  | 0, _, _, _ => .error .outOfFuel
  | fuel + 1, fat, blockIndex, numDataBlocks => do
      let entry ← fatGet fat blockIndex
      if entry = fatEoc then .ok (blockIndex, numDataBlocks)
      else walkToEnd fuel fat entry (numDataBlocks + 1)

/-- The loop that appends one free block after the other until none is missing.
The result is -1 when no entry is free. -/
def extendChain : Nat → Fat count → UInt16 → Fat count × Int
  | 0, fat, _ => (fat, 0)
  | missing + 1, fat, blockIndex =>
      match findFreeEntry fat with
      | none => (fat, -1)
      | some free =>
          extendChain missing
            (fatSet (fatSet fat blockIndex free) free fatEoc) free

/-- What `allocate_blocks_in_fat` does to the FAT and to the first index of the
file, and what it returns. -/
def allocateInFat
    (fuel : Nat)
    (fat : Fat count)
    (firstIndex : UInt16)
    (numTargetBlocks : Int) : Outcome (Fat count × UInt16 × Int) :=
  if numTargetBlocks ≤ 0 then .ok (fat, firstIndex, 0)
  else
    match firstBlock fat firstIndex with
    | none => .ok (fat, firstIndex, -1)
    | some (fat, firstIndex) => do
        let (blockIndex, numDataBlocks) ← walkToEnd fuel fat firstIndex 1
        let (fat, result) :=
          extendChain (numTargetBlocks - numDataBlocks).toNat fat blockIndex
        .ok (fat, firstIndex, result)

/-- The steps of `find_data_block` along the chain. -/
def findDataBlockFrom :
    Nat → Fat count → UInt16 → Outcome UInt16
  | 0, _, blockIndex => .ok blockIndex
  | steps + 1, fat, blockIndex =>
      if blockIndex = fatEoc then .ok fatEoc
      else do
        let entry ← fatGet fat blockIndex
        findDataBlockFrom steps fat entry

namespace Session

/-- The session with another FAT, and another first index of one file. -/
def setChain
    (session : Session)
    (file : Slot)
    (fat : Fat session.sb.numDataBlocks.toNat)
    (firstIndex : UInt16) : Session :=
  { session with
    fat := fat
    root := Function.update session.root file
      { session.root file with firstIndex := firstIndex } }

/-- `allocate_blocks_in_fat`, for the file an open descriptor points to. -/
def allocateBlocksInFat
    (fuel : Nat)
    (session : Session)
    (file : Slot)
    (numTargetBlocks : Int) : Outcome (Session × Int) := do
  let (fat, firstIndex, result) ←
    allocateInFat fuel session.fat (session.root file).firstIndex
      numTargetBlocks
  .ok (session.setChain file fat firstIndex, result)

/-- `find_data_block`, for the file an open descriptor points to. -/
def findDataBlock
    (session : Session)
    (file : Slot)
    (blockNum : Int) : Outcome UInt16 :=
  let firstIndex := (session.root file).firstIndex
  if blockNum = 0 then .ok firstIndex
  else findDataBlockFrom blockNum.toNat session.fat firstIndex

end Session
end MsFat
