import MsFat.Fat.Defs
import MsFat.Library.LinkedTable
import MsFat.Library.Fuel

/-!
# Chains of the FAT

The chain of a file is the list threaded through the FAT from the first index of
the file to `FAT_EOC`, none of whose blocks is block 0.  This module computes
what the two walks of `fs.c` return on a chain.
-/

namespace MsFat

open LinkedTable

variable {count : Nat}

theorem fatEoc_ne_zero : fatEoc ≠ 0 := by decide

/-! ## Reading and writing entries -/

theorem fatNext_lt
    {fat : Fat count}
    {index entry : UInt16}
    (present : fatNext fat index = some entry) :
    index.toNat < count := by
  unfold fatNext at present
  exact (Vector.getElem?_eq_some_iff.mp present).1

theorem fatGet_of_next
    {fat : Fat count}
    {index entry : UInt16}
    (present : fatNext fat index = some entry) :
    fatGet fat index = .ok entry := by
  simp [fatGet, present]

theorem fatNext_fatSet_self
    (fat : Fat count)
    {index : UInt16}
    (inside : index.toNat < count)
    (entry : UInt16) :
    fatNext (fatSet fat index entry) index = some entry := by
  simp [fatNext, fatSet, inside]

theorem fatNext_fatSet_of_ne
    (fat : Fat count)
    {index other : UInt16}
    (different : other ≠ index)
    (entry : UInt16) :
    fatNext (fatSet fat index entry) other = fatNext fat other := by
  unfold fatNext fatSet
  rw [Vector.getElem?_setIfInBounds_ne]
  exact fun equal => different (UInt16.toNat_inj.mp equal.symm)

/-! ## Chains -/

/-- The blocks of a list threaded through the FAT lie in the FAT. -/
theorem lt_of_mem_links
    {fat : Fat count}
    {firstIndex index : UInt16}
    {chain : List UInt16}
    (links : Links (fatNext fat) fatEoc firstIndex chain)
    (member : index ∈ chain) :
    index.toNat < count := by
  rcases links.follower_mem index member with atEnd | ⟨follower, _, follows⟩
  · exact fatNext_lt atEnd
  · exact fatNext_lt follows

/-- There are at most as many of them as the FAT has entries. -/
theorem links_length_le
    {fat : Fat count}
    {firstIndex : UInt16}
    {chain : List UInt16}
    (links : Links (fatNext fat) fatEoc firstIndex chain) :
    chain.length ≤ count := by
  have distinct : (chain.map UInt16.toNat).Nodup :=
    links.nodup.map fun _ _ equal => UInt16.toNat_inj.mp equal
  have below : chain.map UInt16.toNat ⊆ List.range count := by
    intro value member
    obtain ⟨index, isMember, rfl⟩ := List.mem_map.mp member
    exact List.mem_range.mpr (lt_of_mem_links links isMember)
  have counted := distinct.length_le_of_subset below
  rwa [List.length_map, List.length_range] at counted

/-- `chain` are the blocks of a file in order: they are threaded through the FAT
from the first index to `FAT_EOC`, and block 0 is not among them.  The empty
chain belongs to the first index `FAT_EOC`. -/
structure FatChain
    (fat : Fat count)
    (firstIndex : UInt16)
    (chain : List UInt16) : Prop where
  links : Links (fatNext fat) fatEoc firstIndex chain
  ne_zero : ∀ index ∈ chain, index ≠ 0

instance
    (fat : Fat count)
    (firstIndex : UInt16)
    (chain : List UInt16) : Decidable (FatChain fat firstIndex chain) :=
  decidable_of_iff
    (Links (fatNext fat) fatEoc firstIndex chain ∧ (0 : UInt16) ∉ chain)
    ⟨fun both => ⟨both.1, fun _ member zero => both.2 (zero ▸ member)⟩,
      fun isChain => ⟨isChain.links, fun member =>
        isChain.ne_zero 0 member rfl⟩⟩

namespace FatChain

variable {fat fat' : Fat count} {firstIndex : UInt16} {chain : List UInt16}

/-- The blocks of a chain lie in the FAT. -/
theorem lt_count
    (isChain : FatChain fat firstIndex chain)
    {index : UInt16}
    (member : index ∈ chain) :
    index.toNat < count :=
  lt_of_mem_links isChain.links member

/-- The entries of the blocks of a chain are not 0. -/
theorem entry_ne_zero
    (isChain : FatChain fat firstIndex chain)
    {index : UInt16}
    (member : index ∈ chain) :
    fatNext fat index ≠ some 0 := by
  intro free
  rcases isChain.links.follower_mem index member with
    atEnd | ⟨follower, there, eq⟩
  · rw [free] at atEnd
    exact fatEoc_ne_zero (Option.some.inj atEnd).symm
  · rw [free] at eq
    exact isChain.ne_zero follower there (Option.some.inj eq).symm

/-- The blocks of a chain are pairwise distinct. -/
theorem nodup (isChain : FatChain fat firstIndex chain) : chain.Nodup :=
  isChain.links.nodup

theorem ne_eoc
    (isChain : FatChain fat firstIndex chain)
    {index : UInt16}
    (member : index ∈ chain) :
    index ≠ fatEoc :=
  isChain.links.ne_stop index member

theorem unique
    {other : List UInt16}
    (isChain : FatChain fat firstIndex chain)
    (isOther : FatChain fat firstIndex other) :
    chain = other :=
  isChain.links.unique isOther.links

/-- A FAT that agrees on the blocks of a chain has the same chain. -/
theorem congr
    (isChain : FatChain fat firstIndex chain)
    (agrees : ∀ index ∈ chain, fatNext fat' index = fatNext fat index) :
    FatChain fat' firstIndex chain where
  links := isChain.links.congr agrees
  ne_zero := isChain.ne_zero

theorem nil_iff : FatChain fat firstIndex [] ↔ firstIndex = fatEoc :=
  ⟨fun isChain => isChain.links, fun atEnd => ⟨atEnd, by simp⟩⟩

theorem firstIndex_eq
    (isChain : FatChain fat firstIndex chain) :
    firstIndex = chain.headD fatEoc :=
  isChain.links.head_eq

/-- A chain has at most as many blocks as the FAT has entries. -/
theorem length_le (isChain : FatChain fat firstIndex chain) :
    chain.length ≤ count :=
  links_length_le isChain.links

end FatChain

/-! ## Walks on a chain -/

/-- `find_data_block` returns the blocks of the chain in order, and `FAT_EOC`
behind its end. -/
theorem findDataBlockFrom_links
    {fat : Fat count}
    {blockIndex : UInt16}
    {chain : List UInt16}
    (links : Links (fatNext fat) fatEoc blockIndex chain)
    (steps : Nat) :
    findDataBlockFrom steps fat blockIndex = .ok (chain.getD steps fatEoc) := by
  induction steps generalizing blockIndex chain with
  | zero =>
      rw [findDataBlockFrom, links.head_eq]
      cases chain <;> rfl
  | succ steps inductionHypothesis =>
      cases chain with
      | nil =>
          rw [links_nil] at links
          simp [findDataBlockFrom, links]
      | cons first rest =>
          obtain ⟨rfl, notEnd, follower, followerEq, restLinks⟩ := links
          rw [findDataBlockFrom, if_neg notEnd, fatGet_of_next followerEq,
            outcome_ok_bind, inductionHypothesis restLinks]
          simp

theorem Session.findDataBlock_links
    {session : Session}
    {file : Slot}
    {chain : List UInt16}
    (links : Links (fatNext session.fat) fatEoc (session.root file).firstIndex
      chain)
    (blockNum : Int) :
    session.findDataBlock file blockNum =
      .ok (chain.getD blockNum.toNat fatEoc) := by
  have walk := findDataBlockFrom_links links blockNum.toNat
  by_cases first : blockNum = 0
  · subst first
    simpa [findDataBlock, findDataBlockFrom] using walk
  · simpa [findDataBlock, first] using walk

theorem Session.findDataBlock_chain
    {session : Session}
    {file : Slot}
    {chain : List UInt16}
    (isChain : FatChain session.fat (session.root file).firstIndex chain)
    (blockNum : Nat) :
    session.findDataBlock file blockNum = .ok (chain.getD blockNum fatEoc) :=
  findDataBlock_links isChain.links blockNum

/-- The walk of `allocate_blocks_in_fat` ends at the last block of the chain,
after as many steps as the chain has blocks. -/
theorem walkToEnd_computes
    {fat : Fat count}
    {head last : UInt16}
    {front : List UInt16}
    (links : Links (fatNext fat) fatEoc head (front ++ [last]))
    (counted : Nat) :
    Computes (fun fuel => walkToEnd fuel fat head counted)
      (front.length + 1) (last, counted + front.length) := by
  induction front generalizing head counted with
  | nil =>
      obtain ⟨rfl, _, _, _, _⟩ := id links
      have lastEq : fatNext fat head = some fatEoc :=
        Links.last_eq (show Links (fatNext fat) fatEoc head ([] ++ [head]) from
          links)
      have atEnd := fatGet_of_next lastEq
      constructor
      · intro fuel enough
        obtain ⟨fuel, rfl⟩ := Nat.exists_eq_add_of_le' enough
        simp [walkToEnd, atEnd]
      · intro fuel other gives
        cases fuel with
        | zero => exact nomatch gives
        | succ fuel =>
            simp [walkToEnd, atEnd] at gives
            exact gives.symm
  | cons first front inductionHypothesis =>
      obtain ⟨rfl, notEnd, follower, followerEq, rest⟩ := links
      have walked := inductionHypothesis rest (counted + 1)
      have followerNotEnd : follower ≠ fatEoc := by
        rw [rest.head_eq]
        apply rest.ne_stop
        cases front <;> simp
      have step : ∀ fuel,
          walkToEnd (fuel + 1) fat head counted =
            walkToEnd fuel fat follower (counted + 1) := by
        intro fuel
        rw [walkToEnd, fatGet_of_next followerEq, outcome_ok_bind,
          if_neg followerNotEnd]
      have total : counted + (front.length + 1) =
          counted + 1 + front.length := by omega
      rw [List.length_cons, total]
      constructor
      · intro fuel enough
        obtain ⟨fuel, rfl⟩ := Nat.exists_eq_add_of_le' enough
        change walkToEnd (fuel + (front.length + 1) + 1) fat head counted = _
        rw [step]
        exact walked.enough _ (by omega)
      · intro fuel other gives
        cases fuel with
        | zero => exact nomatch gives
        | succ fuel =>
            exact walked.only fuel other ((step fuel).symm.trans gives)

end MsFat
