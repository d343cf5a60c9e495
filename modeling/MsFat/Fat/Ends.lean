import MsFat.Fat.Allocation
import Mathlib.Data.List.GetD

/-!
# Chains of any FAT

A FAT that comes from a disk may hold any words: chains may share blocks, pass
through block 0 or through free entries, leave the FAT, or never end.  Whatever
it holds, `allocate_blocks_in_fat` returns exactly from files whose chain ends,
and it keeps every chain that ends from running on.
-/

namespace MsFat

open LinkedTable

variable {count : Nat}

/-- The walk along the FAT from this first index stays inside the FAT and comes
to `FAT_EOC`. -/
def ChainEnds (fat : Fat count) (firstIndex : UInt16) : Prop :=
  Ends (fatNext fat) fatEoc firstIndex

section

variable {fat fat' : Fat count} {firstIndex firstIndex' head last : UInt16}
  (fits : count < 2 ^ 16)

include fits

/-- `FAT_EOC` lies behind every FAT. -/
theorem ne_eoc_of_lt
    {index : UInt16}
    (inside : index.toNat < count) :
    index ≠ fatEoc := by
  rintro rfl
  have value : fatEoc.toNat = 65535 := rfl
  omega

theorem lt_of_findFreeEntry
    {free : UInt16}
    (found : findFreeEntry fat = some free) :
    free.toNat < count := by
  rw [findFreeEntry_eq_head fits] at found
  obtain ⟨rest, freeEq⟩ := List.head?_eq_some_iff.mp found
  exact fatNext_lt (free_of_freeBlocks_eq_cons fits freeEq).2.1

/-- From a block that is followed by `FAT_EOC` the chain ends. -/
theorem chainEnds_fatSet_self
    {free : UInt16}
    (inside : free.toNat < count) :
    ChainEnds (fatSet fat free fatEoc) free :=
  .cons (ne_eoc_of_lt fits inside) (fatNext_fatSet_self fat inside fatEoc) .refl

/-- A new end of a chain keeps every chain ending. -/
theorem ChainEnds.fatSet
    {free : UInt16}
    (inside : free.toNat < count)
    (ends : ChainEnds fat head) :
    ChainEnds (fatSet fat free fatEoc) head := by
  apply ends.of_changed
  intro node changed
  have isFree : node = free := by
    by_contra different
    exact changed (fatNext_fatSet_of_ne fat different fatEoc)
  rw [isFree]
  exact chainEnds_fatSet_self fits inside

/-- So does a block that is appended. -/
theorem ChainEnds.append
    {free : UInt16}
    (lastInside : last.toNat < count)
    (inside : free.toNat < count)
    (ends : ChainEnds fat head) :
    ChainEnds (MsFat.fatSet (MsFat.fatSet fat last free) free fatEoc) head := by
  have atFree : ChainEnds
      (MsFat.fatSet (MsFat.fatSet fat last free) free fatEoc) free :=
    chainEnds_fatSet_self fits inside
  apply ends.of_changed
  intro node changed
  by_cases isFree : node = free
  · rw [isFree]
    exact atFree
  · rw [fatNext_fatSet_of_ne _ isFree] at changed
    have isLast : node = last := by
      by_contra different
      exact changed (fatNext_fatSet_of_ne fat different free)
    subst isLast
    refine .cons (ne_eoc_of_lt fits lastInside) ?_ atFree
    rw [fatNext_fatSet_of_ne _ isFree]
    exact fatNext_fatSet_self fat lastInside free

theorem ChainEnds.extendChain
    (lastInside : last.toNat < count)
    (ends : ChainEnds fat head)
    (missing : Nat) :
    ChainEnds (extendChain missing fat last).1 head := by
  induction missing generalizing fat last with
  | zero => exact ends
  | succ missing inductionHypothesis =>
      rw [MsFat.extendChain]
      cases found : findFreeEntry fat with
      | none => exact ends
      | some free =>
          have inside := lt_of_findFreeEntry fits found
          exact inductionHypothesis inside (ends.append fits lastInside inside)

/-- The block that a file without blocks is given keeps every chain ending. -/
theorem firstBlock_ends
    {started : Fat count × UInt16}
    (starts : firstBlock fat firstIndex = some started) :
    started.2 ≠ fatEoc ∧
      (∀ head, ChainEnds fat head → ChainEnds started.1 head) ∧
      (ChainEnds fat firstIndex → ChainEnds started.1 started.2) := by
  unfold firstBlock at starts
  by_cases atEnd : firstIndex = fatEoc
  · rw [if_pos atEnd] at starts
    cases found : findFreeEntry fat with
    | none =>
        rw [found] at starts
        exact nomatch starts
    | some free =>
        rw [found] at starts
        cases starts
        have inside := lt_of_findFreeEntry fits found
        exact ⟨ne_eoc_of_lt fits inside, fun head ends => ends.fatSet fits inside,
          fun _ => chainEnds_fatSet_self fits inside⟩
  · rw [if_neg atEnd] at starts
    cases starts
    exact ⟨atEnd, fun _ ends => ends, fun ends => ends⟩

/-- A walk that returns has come to the end of its chain. -/
theorem links_of_walkToEnd
    {fuel counted reached : Nat}
    (returns : walkToEnd fuel fat head counted = .ok (last, reached)) :
    ∃ front, Links (fatNext fat) fatEoc head (front ++ [last]) := by
  induction fuel generalizing head counted with
  | zero => cases returns
  | succ fuel inductionHypothesis =>
      rw [walkToEnd] at returns
      unfold fatGet at returns
      cases follows : fatNext fat head with
      | none =>
          rw [follows] at returns
          cases returns
      | some entry =>
          rw [follows] at returns
          dsimp only at returns
          rw [outcome_ok_bind] at returns
          have notEnd := ne_eoc_of_lt fits (fatNext_lt follows)
          by_cases atEnd : entry = fatEoc
          · rw [if_pos atEnd] at returns
            cases returns
            exact ⟨[], rfl, notEnd, entry, follows, atEnd⟩
          · rw [if_neg atEnd] at returns
            obtain ⟨front, links⟩ := inductionHypothesis returns
            exact ⟨head :: front, rfl, notEnd, entry, follows, links⟩

/-- An allocation that returns keeps every chain ending, and the chain of its
own file ends behind it if it has walked along it. -/
theorem allocateInFat_ends
    {fuel : Nat}
    {numTargetBlocks result : Int}
    (returns : allocateInFat fuel fat firstIndex numTargetBlocks =
      .ok (fat', firstIndex', result)) :
    (∀ head, ChainEnds fat head → ChainEnds fat' head) ∧
      (0 < numTargetBlocks ∨ ChainEnds fat firstIndex →
        ChainEnds fat' firstIndex') := by
  unfold allocateInFat at returns
  by_cases noTarget : numTargetBlocks ≤ 0
  · rw [if_pos noTarget] at returns
    cases returns
    refine ⟨fun _ ends => ends, ?_⟩
    rintro (positive | ends)
    · omega
    · exact ends
  · rw [if_neg noTarget] at returns
    cases starts : firstBlock fat firstIndex with
    | none =>
        rw [starts] at returns
        cases returns
        have atEnd : firstIndex = fatEoc := by
          by_contra started
          unfold firstBlock at starts
          rw [if_neg started] at starts
          exact nomatch starts
        refine ⟨fun _ ends => ends, fun _ => ?_⟩
        rw [atEnd]
        exact .refl
    | some started =>
        obtain ⟨_, keeps, _⟩ := firstBlock_ends fits starts
        rw [starts] at returns
        dsimp only at returns
        obtain ⟨⟨last, reached⟩, walks, rest⟩ := outcome_bind_eq_ok returns
        cases rest
        obtain ⟨front, links⟩ := links_of_walkToEnd fits walks
        have lastInside := fatNext_lt links.last_eq
        refine ⟨fun head ends => ?_, fun _ => ?_⟩
        · exact (keeps head ends).extendChain fits lastInside _
        · exact ChainEnds.extendChain fits lastInside ⟨_, links⟩ _

/-- An allocation that returns and is asked for blocks has walked along the chain
to its end. -/
theorem chainEnds_of_allocateInFat
    {fuel : Nat}
    {numTargetBlocks result : Int}
    (returns : allocateInFat fuel fat firstIndex numTargetBlocks =
      .ok (fat', firstIndex', result))
    (positive : 0 < numTargetBlocks) :
    ChainEnds fat firstIndex := by
  by_cases atEnd : firstIndex = fatEoc
  · rw [atEnd]
    exact .refl
  · unfold allocateInFat firstBlock at returns
    rw [if_neg (Int.not_le.mpr positive), if_neg atEnd] at returns
    dsimp only at returns
    obtain ⟨⟨last, reached⟩, walks, _⟩ := outcome_bind_eq_ok returns
    obtain ⟨front, links⟩ := links_of_walkToEnd fits walks
    exact ⟨_, links⟩

/-- On a chain that ends the allocation returns, within as many steps as the FAT
has entries. -/
theorem allocateInFat_returns
    (ends : ChainEnds fat firstIndex)
    (numTargetBlocks : Int)
    {fuel : Nat}
    (enough : count < fuel) :
    ∃ after, allocateInFat fuel fat firstIndex numTargetBlocks = .ok after := by
  by_cases noTarget : numTargetBlocks ≤ 0
  · refine ⟨(fat, firstIndex, 0), ?_⟩
    rw [allocateInFat, if_pos noTarget]
  · cases starts : firstBlock fat firstIndex with
    | none =>
        refine ⟨(fat, firstIndex, -1), ?_⟩
        rw [allocateInFat, if_neg noTarget, starts]
    | some started =>
        obtain ⟨notEnd, _, own⟩ := firstBlock_ends fits starts
        obtain ⟨chain, links⟩ := own ends
        have short := links_length_le links
        rcases List.eq_nil_or_concat chain with rfl | ⟨front, last, rfl⟩
        · exact absurd links notEnd
        · rw [List.concat_eq_append] at links short
          rw [List.length_append, List.length_singleton] at short
          have walks := (walkToEnd_computes links 1).enough fuel
            (Nat.le_trans short (Nat.le_of_lt enough))
          unfold allocateInFat
          rw [if_neg noTarget, starts]
          dsimp only
          rw [walks]
          exact ⟨_, rfl⟩

end

/-- The chain of a file behind an allocation. -/
theorem Session.chainEnds_setChain
    {session : Session}
    {fat' : Fat session.sb.numDataBlocks.toNat}
    {firstIndex' : UInt16}
    (file : Slot)
    (ends : ChainEnds fat' firstIndex') :
    ChainEnds (session.setChain file fat' firstIndex').fat
      ((session.setChain file fat' firstIndex').root file).firstIndex := by
  simpa [setChain] using ends

/-- On a chain that ends `find_data_block` returns a block of the FAT, or
`FAT_EOC`. -/
theorem Session.findDataBlock_of_ends
    {session : Session}
    {file : Slot}
    (ends : ChainEnds session.fat (session.root file).firstIndex)
    (blockNum : Int) :
    ∃ index, session.findDataBlock file blockNum = .ok index ∧
      (index = fatEoc ∨ index.toNat < session.sb.numDataBlocks.toNat) := by
  obtain ⟨chain, links⟩ := ends
  refine ⟨_, findDataBlock_links links blockNum, ?_⟩
  rcases Nat.lt_or_ge blockNum.toNat chain.length with inside | behind
  · right
    rw [List.getD_eq_getElem _ _ inside]
    exact lt_of_mem_links links (List.getElem_mem inside)
  · exact .inl (List.getD_eq_default _ _ behind)

end MsFat
