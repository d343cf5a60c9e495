import MsFat.Fat.Chain

/-!
# Allocation of blocks

`allocate_blocks_in_fat` appends the first free blocks of the FAT to the chain
of a file, in increasing order and as many as it is asked for or as there are.
`Grown` states this effect, and `allocateInFat_computes` proves it.
-/

namespace MsFat

open LinkedTable

variable {count : Nat}

/-! ## Free blocks -/

/-- The blocks from 1 on. -/
def blockIndices (count : Nat) : List UInt16 :=
  (List.range' 1 (count - 1)).map UInt16.ofNat

/-- The free blocks of the FAT, in increasing order. -/
def freeBlocks (fat : Fat count) : List UInt16 :=
  (blockIndices count).filter fun index => fatNext fat index == some 0

theorem toNat_ofNat_of_mem_range'
    (fits : count < 2 ^ 16)
    {index : Nat}
    (member : index ∈ List.range' 1 (count - 1)) :
    (UInt16.ofNat index).toNat = index := by
  rw [List.mem_range'_1] at member
  rw [UInt16.toNat_ofNat']
  exact Nat.mod_eq_of_lt (by omega)

theorem mem_blockIndices
    (fits : count < 2 ^ 16)
    {index : UInt16} :
    index ∈ blockIndices count ↔ index ≠ 0 ∧ index.toNat < count := by
  unfold blockIndices
  rw [List.mem_map]
  constructor
  · rintro ⟨position, member, rfl⟩
    have value := toNat_ofNat_of_mem_range' fits member
    rw [List.mem_range'_1] at member
    refine ⟨?_, by omega⟩
    intro zero
    rw [zero] at value
    have : (0 : UInt16).toNat = 0 := rfl
    omega
  · rintro ⟨nonzero, below⟩
    have positive : index.toNat ≠ 0 := fun zero =>
      nonzero (UInt16.toNat_inj.mp zero)
    refine ⟨index.toNat, ?_, UInt16.ofNat_toNat⟩
    rw [List.mem_range'_1]
    omega

theorem nodup_blockIndices (fits : count < 2 ^ 16) :
    (blockIndices count).Nodup := by
  refine List.Nodup.map_on ?_ List.nodup_range'
  intro left leftMember right rightMember equal
  rw [← toNat_ofNat_of_mem_range' fits leftMember,
    ← toNat_ofNat_of_mem_range' fits rightMember, equal]

theorem mem_freeBlocks
    (fits : count < 2 ^ 16)
    {fat : Fat count}
    {index : UInt16} :
    index ∈ freeBlocks fat ↔ index ≠ 0 ∧ fatNext fat index = some 0 := by
  unfold freeBlocks
  rw [List.mem_filter, mem_blockIndices fits, beq_iff_eq]
  constructor
  · rintro ⟨⟨nonzero, _⟩, free⟩
    exact ⟨nonzero, free⟩
  · rintro ⟨nonzero, free⟩
    exact ⟨⟨nonzero, fatNext_lt free⟩, free⟩

theorem nodup_freeBlocks
    (fits : count < 2 ^ 16)
    (fat : Fat count) :
    (freeBlocks fat).Nodup :=
  (nodup_blockIndices fits).filter _

/-- The search of the code finds the first free block. -/
theorem findFreeEntry_eq_head
    (fits : count < 2 ^ 16)
    (fat : Fat count) :
    findFreeEntry fat = (freeBlocks fat).head? := by
  unfold findFreeEntry freeBlocks blockIndices
  rw [List.head?_filter, List.find?_map, ← List.head?_filter,
    ← List.head?_filter]
  congr 2
  apply List.filter_congr
  intro index member
  simp only [Function.comp_apply, fatNext,
    toNat_ofNat_of_mem_range' fits member]

/-- When exactly one block stops being free, it leaves the list of free
blocks. -/
theorem freeBlocks_of_taken
    (fits : count < 2 ^ 16)
    {fat fat' : Fat count}
    {free : UInt16}
    {rest : List UInt16}
    (freeEq : freeBlocks fat = free :: rest)
    (taken : ∀ index, fatNext fat' index = some 0 ↔
      fatNext fat index = some 0 ∧ index ≠ free) :
    freeBlocks fat' = rest := by
  have filtered :
      freeBlocks fat' = (freeBlocks fat).filter fun index => index != free := by
    unfold freeBlocks
    rw [List.filter_filter]
    apply List.filter_congr
    intro index _
    rw [Bool.eq_iff_iff]
    simp only [beq_iff_eq, Bool.and_eq_true, bne_iff_ne, taken index, and_comm]
  have distinct := nodup_freeBlocks fits fat
  rw [freeEq] at distinct
  obtain ⟨notIn, _⟩ := List.nodup_cons.mp distinct
  rw [filtered, freeEq, List.filter_cons_of_neg (by simp),
    List.filter_eq_self]
  intro index member
  simp only [bne_iff_ne, ne_eq]
  rintro rfl
  exact notIn member

/-! ## The effect of an allocation -/

/-- The FAT `fat'` and the first index `firstIndex'` come from `fat` by
appending up to `missing` blocks to `chain`: the first free ones, in order.
Only the old last entry and those of the new blocks change, and the result is 0
exactly when enough blocks were free. -/
structure Grown
    (fat : Fat count)
    (chain : List UInt16)
    (missing : Nat)
    (fat' : Fat count)
    (firstIndex' : UInt16)
    (result : Int) : Prop where
  isChain : FatChain fat' firstIndex' (chain ++ (freeBlocks fat).take missing)
  frame : ∀ index, chain.getLast? ≠ some index →
    index ∉ (freeBlocks fat).take missing →
      fatNext fat' index = fatNext fat index
  free : freeBlocks fat' = (freeBlocks fat).drop missing
  result_eq : result = if missing ≤ (freeBlocks fat).length then 0 else -1

/-- Nothing is missing. -/
theorem Grown.refl
    {fat : Fat count}
    {firstIndex : UInt16}
    {chain : List UInt16}
    (isChain : FatChain fat firstIndex chain) :
    Grown fat chain 0 fat firstIndex 0 where
  isChain := by simpa using isChain
  frame := fun _ _ _ => rfl
  free := by simp
  result_eq := by simp

/-- Blocks are missing, but none is free. -/
theorem Grown.full
    {fat : Fat count}
    {firstIndex : UInt16}
    {chain : List UInt16}
    {missing : Nat}
    (isChain : FatChain fat firstIndex chain)
    (none : freeBlocks fat = [])
    (positive : 0 < missing) :
    Grown fat chain missing fat firstIndex (-1) where
  isChain := by simpa [none] using isChain
  frame := fun _ _ _ => rfl
  free := by simp [none]
  result_eq := by simp [none, Nat.pos_iff_ne_zero.mp positive]

/-- One block is appended before the others. -/
theorem Grown.cons
    {fat middle fat' : Fat count}
    {chain : List UInt16}
    {free firstIndex' : UInt16}
    {rest : List UInt16}
    {missing : Nat}
    {result : Int}
    (freeEq : freeBlocks fat = free :: rest)
    (restEq : freeBlocks middle = rest)
    (frame : ∀ index, chain.getLast? ≠ some index → index ≠ free →
      fatNext middle index = fatNext fat index)
    (grown : Grown middle (chain ++ [free]) missing fat' firstIndex' result) :
    Grown fat chain (missing + 1) fat' firstIndex' result where
  isChain := by
    have isChain := grown.isChain
    rw [restEq] at isChain
    simpa [freeEq] using isChain
  frame := by
    intro index notLast notTaken
    rw [freeEq, List.take_succ_cons, List.mem_cons, not_or] at notTaken
    rw [grown.frame index ?_ (by rw [restEq]; exact notTaken.2)]
    · exact frame index notLast notTaken.1
    · rw [List.getLast?_append_of_ne_nil _ (by simp)]
      simpa using Ne.symm notTaken.1
  free := by rw [grown.free, restEq, freeEq, List.drop_succ_cons]
  result_eq := by
    rw [grown.result_eq, restEq, freeEq, List.length_cons]
    simp

/-- An allocation may be done in two steps, if the first one finds all its
blocks. -/
theorem Grown.trans
    {fat middle fat' : Fat count}
    {chain : List UInt16}
    {missing more : Nat}
    {firstIndex firstIndex' : UInt16}
    {result result' : Int}
    (enough : missing ≤ (freeBlocks fat).length)
    (first : Grown fat chain missing middle firstIndex result)
    (second : Grown middle (chain ++ (freeBlocks fat).take missing) more fat'
      firstIndex' result') :
    Grown fat chain (missing + more) fat' firstIndex' result' where
  isChain := by
    have isChain := second.isChain
    rw [first.free] at isChain
    rwa [List.take_add, ← List.append_assoc]
  frame := by
    intro index notLast notTaken
    rw [List.take_add, List.mem_append, not_or] at notTaken
    obtain ⟨notFirst, notSecond⟩ := notTaken
    rw [second.frame index ?_ (by rwa [first.free])]
    · exact first.frame index notLast notFirst
    · rcases List.eq_nil_or_concat ((freeBlocks fat).take missing) with
        none | ⟨front, last, some⟩
      · rwa [none, List.append_nil]
      · rw [some, List.concat_eq_append] at notFirst ⊢
        rw [← List.append_assoc, List.getLast?_append_of_ne_nil _ (by simp)]
        intro equal
        rw [List.getLast?_singleton, Option.some.injEq] at equal
        exact notFirst (by simp [equal])
  free := by rw [second.free, first.free, List.drop_drop]
  result_eq := by
    rw [second.result_eq, first.free, List.length_drop]
    congr 1
    apply propext
    omega

/-- A FAT is determined by the entries behind its blocks. -/
theorem fat_ext
    (fits : count < 2 ^ 16)
    {left right : Fat count}
    (same : ∀ index, fatNext left index = fatNext right index) :
    left = right := by
  apply Vector.ext
  intro index inside
  have value : (UInt16.ofNat index).toNat = index := by
    rw [UInt16.toNat_ofNat']
    exact Nat.mod_eq_of_lt (by omega)
  have entries := same (UInt16.ofNat index)
  unfold fatNext at entries
  rw [value] at entries
  simpa [inside] using entries

/-- An allocation has one effect only. -/
theorem Grown.unique
    (fits : count < 2 ^ 16)
    {fat left right : Fat count}
    {chain : List UInt16}
    {missing : Nat}
    {firstLeft firstRight : UInt16}
    {resultLeft resultRight : Int}
    (isLeft : Grown fat chain missing left firstLeft resultLeft)
    (isRight : Grown fat chain missing right firstRight resultRight) :
    left = right ∧ firstLeft = firstRight ∧ resultLeft = resultRight := by
  refine ⟨?_, ?_, ?_⟩
  · apply fat_ext fits
    intro index
    by_cases member : index ∈ chain ++ (freeBlocks fat).take missing
    · exact isRight.isChain.links.next_eq isLeft.isChain.links index member
    · rw [List.mem_append, not_or] at member
      obtain ⟨notOld, notTaken⟩ := member
      have notLast : chain.getLast? ≠ some index := fun last =>
        notOld (List.mem_of_getLast? last)
      rw [isLeft.frame index notLast notTaken,
        isRight.frame index notLast notTaken]
  · rw [isLeft.isChain.firstIndex_eq, isRight.isChain.firstIndex_eq]
  · rw [isLeft.result_eq, isRight.result_eq]

/-- The block that the search finds, and what it means for it to be free. -/
theorem free_of_freeBlocks_eq_cons
    (fits : count < 2 ^ 16)
    {fat : Fat count}
    {free : UInt16}
    {rest : List UInt16}
    (freeEq : freeBlocks fat = free :: rest) :
    free ≠ 0 ∧ fatNext fat free = some 0 ∧ free ≠ fatEoc := by
  have member : free ∈ freeBlocks fat := by simp [freeEq]
  obtain ⟨nonzero, isFree⟩ := (mem_freeBlocks fits).mp member
  refine ⟨nonzero, isFree, ?_⟩
  rintro rfl
  have below := fatNext_lt isFree
  have : (fatEoc).toNat = 65535 := rfl
  omega

/-- The loop that appends blocks. -/
theorem extendChain_grown
    (fits : count < 2 ^ 16)
    {fat : Fat count}
    {firstIndex last : UInt16}
    {front : List UInt16}
    (isChain : FatChain fat firstIndex (front ++ [last]))
    (missing : Nat) :
    Grown fat (front ++ [last]) missing (extendChain missing fat last).1
      firstIndex (extendChain missing fat last).2 := by
  induction missing generalizing fat front last with
  | zero => exact .refl isChain
  | succ missing inductionHypothesis =>
      rw [extendChain, findFreeEntry_eq_head fits]
      cases freeEq : freeBlocks fat with
      | nil => exact .full isChain freeEq (by omega)
      | cons free rest =>
          obtain ⟨nonzero, isFree, notEnd⟩ :=
            free_of_freeBlocks_eq_cons fits freeEq
          have lastEnd := isChain.links.last_eq
          have lastNotFree : last ≠ free := by
            rintro rfl
            rw [isFree] at lastEnd
            exact fatEoc_ne_zero (Option.some.inj lastEnd).symm
          let middle := fatSet (fatSet fat last free) free fatEoc
          have atFree : fatNext middle free = some fatEoc :=
            fatNext_fatSet_self _ (fatNext_lt isFree) _
          have atLast : fatNext middle last = some free := by
            rw [fatNext_fatSet_of_ne _ lastNotFree]
            exact fatNext_fatSet_self _ (fatNext_lt lastEnd) _
          have elsewhere : ∀ index, index ≠ last → index ≠ free →
              fatNext middle index = fatNext fat index := by
            intro index notLast notFree
            rw [fatNext_fatSet_of_ne _ notFree, fatNext_fatSet_of_ne _ notLast]
          have restEq : freeBlocks middle = rest := by
            apply freeBlocks_of_taken fits freeEq
            intro index
            by_cases isLast : index = last
            · subst isLast
              rw [atLast, lastEnd]
              simp [nonzero, fatEoc_ne_zero]
            · by_cases isNew : index = free
              · subst isNew
                rw [atFree]
                simp [fatEoc_ne_zero]
              · rw [elsewhere index isLast isNew]
                simp [isNew]
          have middleChain :
              FatChain middle firstIndex (front ++ [last] ++ [free]) := by
            constructor
            · refine isChain.links.snoc ?_ atLast notEnd atFree
              intro index member
              have chainMember : index ∈ front ++ [last] := by simp [member]
              apply elsewhere index
              · rintro rfl
                have distinct := isChain.nodup
                exact (List.nodup_append.mp distinct).2.2 _ member _
                  (by simp) rfl
              · rintro rfl
                exact isChain.entry_ne_zero chainMember isFree
            · intro index member
              rcases List.mem_append.mp member with old | new
              · exact isChain.ne_zero index old
              · rw [List.mem_singleton.mp new]
                exact nonzero
          refine Grown.cons freeEq restEq ?_ (inductionHypothesis middleChain)
          intro index notLast notFree
          refine elsewhere index ?_ notFree
          rintro rfl
          exact notLast (by simp)

/-- On a chain with a block the walk ends at the last one, and the chain is
extended from there. -/
theorem walkToEnd_extendChain
    (fits : count < 2 ^ 16)
    {fat : Fat count}
    {firstIndex last : UInt16}
    {front : List UInt16}
    (isChain : FatChain fat firstIndex (front ++ [last]))
    (numTargetBlocks : Int) :
    ∃ fat' result,
      Computes
        (fun fuel => walkToEnd fuel fat firstIndex 1 >>= fun reached =>
          .ok ((extendChain (numTargetBlocks - reached.2).toNat fat reached.1).1,
            firstIndex,
            (extendChain (numTargetBlocks - reached.2).toNat fat reached.1).2))
        (front.length + 1) (fat', firstIndex, result) ∧
      Grown fat (front ++ [last])
        (numTargetBlocks - (front ++ [last]).length).toNat fat' firstIndex
        result := by
  refine ⟨_, _, (walkToEnd_computes isChain.links 1).bind rfl, ?_⟩
  have length : (front ++ [last]).length = 1 + front.length := by
    simp [Nat.add_comm]
  rw [length]
  exact extendChain_grown fits isChain _

/-- `allocate_blocks_in_fat` brings the chain of a file to the target length, or
as close to it as the free blocks allow. -/
theorem allocateInFat_computes
    (fits : count < 2 ^ 16)
    {fat : Fat count}
    {firstIndex : UInt16}
    {chain : List UInt16}
    (isChain : FatChain fat firstIndex chain)
    (numTargetBlocks : Int) :
    ∃ fat' firstIndex' result,
      Computes
        (fun fuel => allocateInFat fuel fat firstIndex numTargetBlocks)
        (chain.length + 1) (fat', firstIndex', result) ∧
      Grown fat chain (numTargetBlocks - chain.length).toNat
        fat' firstIndex' result := by
  by_cases noTarget : numTargetBlocks ≤ 0
  · refine ⟨fat, firstIndex, 0, ?_, ?_⟩
    · refine (Computes.const fun fuel => ?_).weaken (Nat.zero_le _)
      rw [allocateInFat, if_pos noTarget]
    · rw [show (numTargetBlocks - chain.length).toNat = 0 by omega]
      exact .refl isChain
  · rcases List.eq_nil_or_concat chain with rfl | ⟨front, last, rfl⟩
    · have atEnd : firstIndex = fatEoc := FatChain.nil_iff.mp isChain
      cases freeEq : freeBlocks fat with
      | nil =>
          refine ⟨fat, firstIndex, -1, ?_, ?_⟩
          · refine (Computes.const fun fuel => ?_).weaken (Nat.zero_le _)
            simp [allocateInFat, noTarget, firstBlock, atEnd,
              findFreeEntry_eq_head fits, freeEq]
          · exact .full isChain freeEq (by simp; omega)
      | cons free rest =>
          obtain ⟨nonzero, isFree, notEnd⟩ :=
            free_of_freeBlocks_eq_cons fits freeEq
          have atFree : fatNext (fatSet fat free fatEoc) free = some fatEoc :=
            fatNext_fatSet_self _ (fatNext_lt isFree) _
          have single :
              FatChain (fatSet fat free fatEoc) free ([] ++ [free]) :=
            ⟨links_singleton notEnd atFree, by simp [nonzero]⟩
          have restEq : freeBlocks (fatSet fat free fatEoc) = rest := by
            apply freeBlocks_of_taken fits freeEq
            intro index
            by_cases isNew : index = free
            · subst isNew
              rw [atFree]
              simp [fatEoc_ne_zero]
            · rw [fatNext_fatSet_of_ne _ isNew]
              simp [isNew]
          obtain ⟨fat', result, computes, grown⟩ := 
            walkToEnd_extendChain fits single numTargetBlocks
          refine ⟨fat', free, result, computes.congr fun fuel => ?_, ?_⟩
          · simp [allocateInFat, noTarget, firstBlock, atEnd,
              findFreeEntry_eq_head fits, freeEq]
          · have target : (numTargetBlocks - ([] : List UInt16).length).toNat =
                (numTargetBlocks - ([] ++ [free]).length).toNat + 1 := by
              simp
              omega
            rw [target]
            refine Grown.cons freeEq restEq ?_ grown
            intro index _ notFree
            exact fatNext_fatSet_of_ne _ notFree _
    · rw [List.concat_eq_append] at isChain ⊢
      have started : firstIndex ≠ fatEoc := by
        rw [isChain.firstIndex_eq]
        apply isChain.ne_eoc
        cases front <;> simp
      obtain ⟨fat', result, computes, grown⟩ := 
        walkToEnd_extendChain fits isChain numTargetBlocks
      refine ⟨fat', firstIndex, result, ?_, grown⟩
      refine (computes.congr fun fuel => ?_).weaken (by simp)
      simp [allocateInFat, noTarget, firstBlock, started]

end MsFat
