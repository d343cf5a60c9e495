import MsFat.Directory.Defs
import MsFat.Fat.Chain

/-!
# Deletion of a chain

The loop of `fs_delete` clears the entry of a block before it reads the entry to
find the next block.  So it never sees the second block of a chain: it goes on
at entry 0.  A chain of one block is freed.  Of a longer chain only the first
block is freed, and entry 0 is cleared with it; if entry 0 does not hold
`FAT_EOC`, the loop does not end.
-/

namespace MsFat

variable {count : Nat}

/-- The FAT behind the deletion of a file with the given chain. -/
def freedFat (fat : Fat count) : List UInt16 → Fat count
  | [] => fat
  | [first] => fatSet fat first 0
  | first :: _ :: _ => fatSet (fatSet fat first 0) 0 0

/-- One round of the loop at a block that is not the last. -/
theorem freeChain_succ_of_ne
    {fat : Fat count}
    {blockIndex entry : UInt16}
    (present : fatNext fat blockIndex = some entry)
    (notEnd : entry ≠ fatEoc)
    (fuel : Nat) :
    freeChain (fuel + 1) fat blockIndex =
      freeChain fuel (fatSet fat blockIndex 0) 0 := by
  have cleared := fatNext_fatSet_self fat (fatNext_lt present) 0
  rw [freeChain, fatGet_of_next present, outcome_ok_bind, if_pos notEnd]
  simp only []
  rw [fatGet_of_next cleared, outcome_ok_bind]

/-- The last round of the loop. -/
theorem freeChain_succ_of_eoc
    {fat : Fat count}
    {blockIndex : UInt16}
    (atEnd : fatNext fat blockIndex = some fatEoc)
    (fuel : Nat) :
    freeChain (fuel + 1) fat blockIndex = .ok (fatSet fat blockIndex 0) := by
  rw [freeChain, fatGet_of_next atEnd, outcome_ok_bind, if_neg (by simp)]

/-- At entry 0 the loop goes round for ever, unless the entry holds
`FAT_EOC`. -/
theorem freeChain_zero_diverges
    {fat : Fat count}
    {entry : UInt16}
    (present : fatNext fat 0 = some entry)
    (notEnd : entry ≠ fatEoc)
    (fuel : Nat) :
    freeChain fuel fat 0 = .error .outOfFuel := by
  induction fuel generalizing fat entry with
  | zero => rfl
  | succ fuel inductionHypothesis =>
      rw [freeChain_succ_of_ne present notEnd]
      exact inductionHypothesis
        (fatNext_fatSet_self fat (fatNext_lt present) 0) fatEoc_ne_zero.symm

section

variable {fat : Fat count} {firstIndex : UInt16} {chain : List UInt16}
  (isChain : FatChain fat firstIndex chain)

include isChain

/-- A chain of one block is freed, and a longer one as far as the loop goes. -/
theorem freeChain_computes
    (nonempty : chain ≠ [])
    (ends : chain.length ≤ 1 ∨ fatNext fat 0 = some fatEoc) :
    Computes (fun fuel => freeChain fuel fat firstIndex) 2
      (freedFat fat chain) := by
  cases chain with
  | nil => exact absurd rfl nonempty
  | cons first rest =>
      obtain ⟨rfl, _, follower, followerEq, restLinks⟩ := id isChain.links
      cases rest with
      | nil =>
          rw [LinkedTable.links_nil] at restLinks
          subst restLinks
          constructor
          · intro fuel enough
            obtain ⟨fuel, rfl⟩ := Nat.exists_eq_add_of_le' enough
            exact freeChain_succ_of_eoc followerEq (fuel + 1)
          · intro fuel other gives
            cases fuel with
            | zero => exact nomatch gives
            | succ fuel =>
                rw [freeChain_succ_of_eoc followerEq] at gives
                exact (Except.ok.inj gives).symm
      | cons second others =>
          have notEnd : follower ≠ fatEoc := by
            rw [restLinks.1]
            exact isChain.ne_eoc (by simp)
          have zeroEnd : fatNext fat 0 = some fatEoc :=
            ends.resolve_left (by simp)
          have zeroNotFirst : (0 : UInt16) ≠ firstIndex :=
            (isChain.ne_zero firstIndex (by simp)).symm
          have zeroKept : fatNext (fatSet fat firstIndex 0) 0 = some fatEoc := by
            rw [fatNext_fatSet_of_ne _ zeroNotFirst, zeroEnd]
          constructor
          · intro fuel enough
            obtain ⟨fuel, rfl⟩ := Nat.exists_eq_add_of_le' enough
            change freeChain (fuel + 1 + 1) fat firstIndex = _
            rw [freeChain_succ_of_ne followerEq notEnd,
              freeChain_succ_of_eoc zeroKept]
            rfl
          · intro fuel other gives
            change freeChain fuel fat firstIndex = _ at gives
            match fuel with
            | 0 => exact nomatch gives
            | 1 =>
                rw [freeChain_succ_of_ne followerEq notEnd] at gives
                exact nomatch gives
            | fuel + 2 =>
                rw [freeChain_succ_of_ne followerEq notEnd,
                  freeChain_succ_of_eoc zeroKept] at gives
                exact (Except.ok.inj gives).symm

/-- The loop does not end on a chain of two or more blocks when entry 0 does not
hold `FAT_EOC`. -/
theorem freeChain_diverges
    (long : 2 ≤ chain.length)
    (zeroNotEnd : fatNext fat 0 ≠ some fatEoc)
    (fuel : Nat) :
    freeChain fuel fat firstIndex = .error .outOfFuel := by
  match chain, isChain, long with
  | first :: second :: others, isChain, _ =>
      obtain ⟨rfl, _, follower, followerEq, restLinks⟩ := id isChain.links
      have notEnd : follower ≠ fatEoc := by
        rw [restLinks.1]
        exact isChain.ne_eoc (by simp)
      have zeroNotFirst : (0 : UInt16) ≠ firstIndex :=
        (isChain.ne_zero firstIndex (by simp)).symm
      have zeroInside : (0 : UInt16).toNat < count :=
        Nat.lt_of_le_of_lt (Nat.zero_le _) (fatNext_lt followerEq)
      have zeroPresent : ∃ entry, fatNext fat 0 = some entry :=
        ⟨_, Vector.getElem?_eq_getElem zeroInside⟩
      obtain ⟨entry, zeroEntry⟩ := zeroPresent
      cases fuel with
      | zero => rfl
      | succ fuel =>
          rw [freeChain_succ_of_ne followerEq notEnd]
          have zeroKept : fatNext (fatSet fat firstIndex 0) 0 = some entry := by
            rw [fatNext_fatSet_of_ne _ zeroNotFirst, zeroEntry]
          refine freeChain_zero_diverges zeroKept ?_ fuel
          rintro rfl
          exact zeroNotEnd zeroEntry

/-- Entries of blocks outside the chain are kept, entry 0 apart. -/
theorem fatNext_freedFat
    {index : UInt16}
    (nonzero : index ≠ 0)
    (outside : index ∉ chain) :
    fatNext (freedFat fat chain) index = fatNext fat index := by
  match chain, isChain with
  | [], _ => rfl
  | [first], _ =>
      exact fatNext_fatSet_of_ne _ (by simpa using outside) _
  | first :: second :: others, _ =>
      simp only [List.mem_cons, not_or] at outside
      rw [freedFat, fatNext_fatSet_of_ne _ nonzero,
        fatNext_fatSet_of_ne _ outside.1]

/-- The deletion of a chain frees its first block, and no other one apart from
entry 0. -/
theorem fatNext_freedFat_eq_zero_iff
    {index : UInt16}
    (nonzero : index ≠ 0) :
    fatNext (freedFat fat chain) index = some 0 ↔
      fatNext fat index = some 0 ∨ chain.head? = some index := by
  match chain, isChain with
  | [], _ => simp [freedFat]
  | first :: rest, isChain =>
      have below := isChain.lt_count (show first ∈ first :: rest by simp)
      have set : fatNext (freedFat fat (first :: rest)) index =
          fatNext (fatSet fat first 0) index := by
        cases rest with
        | nil => rfl
        | cons second others => exact fatNext_fatSet_of_ne _ nonzero 0
      rw [set]
      by_cases isFirst : index = first
      · subst isFirst
        simp [fatNext_fatSet_self fat below]
      · simp [fatNext_fatSet_of_ne fat isFirst, Ne.symm isFirst]

/-- The deletion of a chain of at most one block keeps entry 0. -/
theorem fatNext_freedFat_zero_of_short (short : chain.length ≤ 1) :
    fatNext (freedFat fat chain) 0 = fatNext fat 0 := by
  match chain, isChain, short with
  | [], _, _ => rfl
  | [first], isChain, _ =>
      exact fatNext_fatSet_of_ne _ (isChain.ne_zero first (by simp)).symm _

/-- The deletion of a longer chain clears entry 0. -/
theorem fatNext_freedFat_zero_of_long (long : 2 ≤ chain.length) :
    fatNext (freedFat fat chain) 0 = some 0 := by
  match chain, isChain, long with
  | first :: second :: others, isChain, _ =>
      have inside := isChain.lt_count (show first ∈ _ by simp)
      exact fatNext_fatSet_self _ (Nat.lt_of_le_of_lt (Nat.zero_le _) inside) 0

end
end MsFat
