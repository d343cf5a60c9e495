import MsFat.Deletion
import MsFat.Directory.Lookup
import MsFat.Info

/-!
# Blocks that a deletion gives back

The deletion of a file of at most one block gives back its blocks and nothing
else.  Of a longer file it gives back only the first block, and it clears
entry 0 of the FAT with it.
-/

namespace MsFat

variable {count : Nat}

/-- Blocks of a chain that are cleared are free, in addition to those that were
free. -/
theorem freeBlocks_length_of_cleared
    (fits : count < 2 ^ 16)
    {fat fat' : Fat count}
    {firstIndex : UInt16}
    {chain : List UInt16}
    (isChain : FatChain fat firstIndex chain)
    (cleared : ∀ index ∈ chain, fatNext fat' index = some 0)
    (kept : ∀ index, index ∉ chain → fatNext fat' index = fatNext fat index) :
    (freeBlocks fat').length = (freeBlocks fat).length + chain.length := by
  have apart : (freeBlocks fat).Disjoint chain := by
    intro index free member
    exact isChain.entry_ne_zero member ((mem_freeBlocks fits).mp free).2
  have same : (freeBlocks fat').Perm (freeBlocks fat ++ chain) := by
    rw [List.perm_ext_iff_of_nodup (nodup_freeBlocks fits fat')
      ((nodup_freeBlocks fits fat).append isChain.nodup apart)]
    intro index
    rw [List.mem_append, mem_freeBlocks fits, mem_freeBlocks fits]
    by_cases member : index ∈ chain
    · simp [member, cleared index member, isChain.ne_zero index member]
    · simp [member, kept index member]
  rw [same.length_eq, List.length_append]

/-- The deletion of a chain of at most one block clears its blocks. -/
theorem fatNext_freedFat_of_mem
    {fat : Fat count}
    {firstIndex : UInt16}
    {chain : List UInt16}
    (isChain : FatChain fat firstIndex chain)
    (short : chain.length ≤ 1)
    {index : UInt16}
    (member : index ∈ chain) :
    fatNext (freedFat fat chain) index = some 0 := by
  match chain, short, isChain, member with
  | [first], _, isChain, member =>
      rw [List.mem_singleton.mp member]
      exact fatNext_fatSet_self _ (isChain.lt_count (by simp)) 0

namespace Session

/-- The deletion of the file at a slot has given back the blocks of its chain
and nothing else. -/
structure Reclaimed
    (before after : Session)
    (slot : Slot)
    (chain : List UInt16) : Prop where
  cleared : ∀ index ∈ chain, fatNext after.fat index = some 0
  kept : ∀ index, index ∉ chain → fatNext after.fat index = fatNext before.fat index
  otherChains : ∀ other otherChain, other ≠ slot → before.InUse other →
    before.FileChain other otherChain → after.FileChain other otherChain
  entryFree : ¬after.InUse slot
  freeEntries : freeFatEntries after.fat =
    freeFatEntries before.fat + chain.length

variable {session : Session} {slot : Slot} {chain : List UInt16}

/-- A chain of at most one block is given back. -/
theorem reclaimed_removed
    (wellFormed : session.WellFormed)
    (used : session.InUse slot)
    (isChain : session.FileChain slot chain)
    (short : chain.length ≤ 1) :
    session.Reclaimed (session.removed slot chain) slot chain := by
  have cleared : ∀ index ∈ chain,
      fatNext (freedFat session.fat chain) index = some 0 :=
    fun index member => fatNext_freedFat_of_mem isChain short member
  have zeroKept : fatNext (freedFat session.fat chain) 0 =
      fatNext session.fat 0 :=
    fatNext_freedFat_zero_of_short isChain short
  have kept : ∀ index, index ∉ chain →
      fatNext (freedFat session.fat chain) index =
        fatNext session.fat index := by
    intro index outside
    by_cases zero : index = 0
    · rw [zero, zeroKept]
    · exact fatNext_freedFat isChain zero outside
  refine ⟨cleared, kept, ?_, not_inUse_removed slot chain, ?_⟩
  · intro other otherChain different usedOther isOther
    exact fileChain_removed wellFormed.chains used usedOther different isChain
      isOther
  · have fits := session.numDataBlocks_lt
    have free := freeBlocks_length_of_cleared fits isChain cleared kept
    change freeFatEntries (freedFat session.fat chain) = _
    rw [freeFatEntries_eq fits, freeFatEntries_eq fits, zeroKept, free,
      Nat.add_assoc]

/-- Of a longer chain entry 0 is cleared, which is no block of it. -/
theorem not_reclaimed_removed
    (isChain : session.FileChain slot chain)
    (zeroEnds : fatNext session.fat 0 = some fatEoc)
    (long : 2 ≤ chain.length) :
    ¬session.Reclaimed (session.removed slot chain) slot chain := by
  intro reclaimed
  have kept := reclaimed.kept 0 fun member => isChain.ne_zero 0 member rfl
  change fatNext (freedFat session.fat chain) 0 = _ at kept
  rw [fatNext_freedFat_zero_of_long isChain long, zeroEnds] at kept
  exact fatEoc_ne_zero (Option.some.inj kept).symm

/-- Behind its checks `fs_delete` frees the chain of a closed file as far as the
loop goes. -/
theorem deleteFile_computes
    {name : CString}
    (found : session.findMatchingFilename name = some slot)
    (closed : session.isOpen name = false)
    (isChain : session.FileChain slot chain)
    (ends : chain.length ≤ 1 ∨ fatNext session.fat 0 = some fatEoc) :
    Computes (fun fuel => session.deleteFile fuel name) 2
      (session.removed slot chain, 0) := by
  by_cases noBlocks : (session.root slot).firstIndex = fatEoc
  · have emptyChain :=
      FatChain.unique isChain (FatChain.nil_iff.mpr noBlocks)
    subst emptyChain
    refine (Computes.const fun fuel => ?_).weaken (Nat.zero_le _)
    simp only [deleteFile, found, closed, noBlocks, Bool.false_eq_true, if_false,
      ne_eq, not_true_eq_false, outcome_ok_bind]
    rfl
  · have nonempty : chain ≠ [] := by
      rintro rfl
      exact noBlocks (FatChain.nil_iff.mp isChain)
    have freed : Computes
        (fun fuel =>
          freeChain fuel session.fat (session.root slot).firstIndex >>=
            fun fat => .ok (({ session with
              fat := fat
              root := Function.update session.root slot
                (clearedFile (session.root slot)) } : Session), (0 : Int)))
        2 (session.removed slot chain, 0) :=
      (freeChain_computes isChain nonempty ends).bind rfl
    apply freed.congr
    intro fuel
    simp only [deleteFile, found, closed, noBlocks, Bool.false_eq_true, if_false,
      ne_eq, not_false_eq_true, if_true]
    rfl

/-- The deletion of a closed file by its name. -/
theorem fsDelete_computes
    (wellFormed : session.WellFormed)
    (used : session.InUse slot)
    (closed : ∀ index descriptor, session.openFiles index = some descriptor →
      descriptor.file ≠ slot)
    (isChain : session.FileChain slot chain)
    (ends : chain.length ≤ 1 ∨ fatNext session.fat 0 = some fatEoc) :
    Computes
      (fun fuel =>
        fsDelete fuel session.toState (some (session.nameAt slot)))
      2 ((session.removed slot chain).toState, 0) := by
  have names := wellFormed.names
  have valid := names.validName used
  have found : session.findMatchingFilename (session.nameAt slot) = some slot :=
    (names.findMatchingFilename_iff valid).mpr ⟨used, rfl⟩
  have notOpen : session.isOpen (session.nameAt slot) = false := by
    rw [← Bool.not_eq_true, names.isOpen_iff_file wellFormed.descriptors used]
    rintro ⟨index, descriptor, isOpen, same⟩
    exact closed index descriptor isOpen same
  have body : Computes
      (fun fuel => session.deleteFile fuel (session.nameAt slot) >>=
        fun ran => .ok (ran.1.toState, ran.2))
      2 ((session.removed slot chain).toState, 0) :=
    (deleteFile_computes found notOpen isChain ends).bind rfl
  exact body.congr fun fuel => onFilename_valid valid

end Session

/-- While entry 0 of the FAT holds `FAT_EOC`, the deletion of a closed file
returns 0 and gives back exactly the blocks of its chain if and only if the chain
has at most one block. -/
theorem fsDelete_reclaims_iff
    {session : Session}
    (wellFormed : session.WellFormed)
    (zeroEnds : fatNext session.fat 0 = some fatEoc)
    {slot : Slot}
    (used : session.InUse slot)
    (closed : ∀ index descriptor, session.openFiles index = some descriptor →
      descriptor.file ≠ slot)
    {chain : List UInt16}
    (isChain : session.FileChain slot chain) :
    (∃ bound after,
        Computes
          (fun fuel =>
            fsDelete fuel session.toState (some (session.nameAt slot)))
          bound (after.toState, 0) ∧
        session.Reclaimed after slot chain) ↔
      chain.length ≤ 1 := by
  have computes :=
    Session.fsDelete_computes wellFormed used closed isChain (.inr zeroEnds)
  constructor
  · rintro ⟨bound, after, other, reclaimed⟩
    have same := computes.only _ _ (other.enough bound (Nat.le_refl _))
    have sessions := Session.toState_injective (Prod.mk.inj same).1
    subst sessions
    by_contra long
    exact Session.not_reclaimed_removed isChain zeroEnds (by omega) reclaimed
  · intro short
    exact ⟨2, _, computes,
      Session.reclaimed_removed wellFormed used isChain short⟩

/-- The deletion of the file in block 1, once it is closed. -/
theorem fsDelete_reclaims_iff_sample :
    (∃ bound after,
        Computes
          (fun fuel => fsDelete fuel (Session.sample.closeFile 0).toState
            (some ((Session.sample.closeFile 0).nameAt 0)))
          bound (after.toState, 0) ∧
        (Session.sample.closeFile 0).Reclaimed after 0 [1]) ↔
      [(1 : UInt16)].length ≤ 1 := by
  have wellFormed : (Session.sample.closeFile 0).WellFormed :=
    Session.sample_wellFormed.setOpenFile 0 nofun
  refine fsDelete_reclaims_iff wellFormed rfl Session.sample_inUse ?_
    Session.sample_fileChain
  intro index descriptor isOpen
  have none : (Session.sample.closeFile 0).openFiles index = none := by
    by_cases first : index = 0
    · subst first
      rfl
    · simp [Session.sample, Session.oneFile, Session.lettered,
        Session.closeFile, Session.setOpenFile, first]
  rw [none] at isOpen
  cases isOpen

/-- Of the blocks 1 and 2 of a file only block 1 is given back, and entry 0 is
cleared. -/
theorem not_reclaimed_twoLongFiles :
    twoLongFiles.WellFormed ∧
      fatNext twoLongFiles.fat 0 = some fatEoc ∧
      twoLongFiles.InUse 0 ∧
      (∀ index, twoLongFiles.openFiles index = none) ∧
      twoLongFiles.FileChain 0 [1, 2] ∧
      ¬∃ bound after,
        Computes
          (fun fuel =>
            fsDelete fuel twoLongFiles.toState (some (twoLongFiles.nameAt 0)))
          bound (after.toState, 0) ∧
        twoLongFiles.Reclaimed after 0 [1, 2] := by
  have isChain : twoLongFiles.FileChain 0 [1, 2] :=
    show FatChain #v[fatEoc, 2, fatEoc, 4, fatEoc] 1 [1, 2] by decide
  have used : twoLongFiles.InUse 0 := Session.lettered_inUse_iff.mpr rfl
  refine ⟨twoLongFiles_wellFormed, rfl, used, fun _ => rfl, isChain, ?_⟩
  rintro ⟨bound, after, computes, reclaimed⟩
  have deletes := Session.fsDelete_computes twoLongFiles_wellFormed used nofun
    isChain (.inr rfl)
  have same := deletes.only _ _ (computes.enough bound (Nat.le_refl _))
  have sessions := Session.toState_injective (Prod.mk.inj same).1
  subst sessions
  exact Session.not_reclaimed_removed isChain rfl (by decide) reclaimed

end MsFat
