import Mathlib.Logic.Function.Basic
import Mathlib.Data.Set.Function

/-!
# Copying and scattering cells of a memory

A memory is a function from addresses to cells.  `memcpy` copies a run of cells
to a run of cells.  `scatter` stores the cells of a source one after the other
at the addresses that a placement map gives to consecutive positions.  A run of
positions that the map places side by side is one `memcpy`, and the runs of a
cut scatter compose.
-/

namespace MsFat
namespace Memory

variable {α : Type*}

/-- Copy `count` cells of `source` from `sourceStart` on into `target` from
`targetStart` on. -/
def memcpy
    (target : ℕ → α)
    (targetStart : ℕ)
    (source : ℕ → α)
    (sourceStart count : ℕ) : ℕ → α :=
  fun index =>
    if targetStart ≤ index ∧ index < targetStart + count then
      source (sourceStart + (index - targetStart))
    else target index

@[simp] theorem memcpy_zero
    (target : ℕ → α)
    (targetStart : ℕ)
    (source : ℕ → α)
    (sourceStart : ℕ) :
    memcpy target targetStart source sourceStart 0 = target := by
  funext index
  unfold memcpy
  rw [if_neg (by omega)]

theorem memcpy_apply_inside
    {target source : ℕ → α}
    {targetStart sourceStart count index : ℕ}
    (lower : targetStart ≤ index)
    (upper : index < targetStart + count) :
    memcpy target targetStart source sourceStart count index =
      source (sourceStart + (index - targetStart)) := by
  unfold memcpy
  rw [if_pos ⟨lower, upper⟩]

theorem memcpy_apply_outside
    {target source : ℕ → α}
    {targetStart sourceStart count index : ℕ}
    (outside : index < targetStart ∨ targetStart + count ≤ index) :
    memcpy target targetStart source sourceStart count index =
      target index := by
  unfold memcpy
  rw [if_neg (by omega)]

/-- Copies of the same cells into two targets agree where the targets agree, or
where the cells are copied to. -/
theorem memcpy_congr
    {left right source : ℕ → α}
    {targetStart sourceStart count index : ℕ}
    (agree : index < targetStart ∨ targetStart + count ≤ index →
      left index = right index) :
    memcpy left targetStart source sourceStart count index =
      memcpy right targetStart source sourceStart count index := by
  by_cases inside : targetStart ≤ index ∧ index < targetStart + count
  · rw [memcpy_apply_inside inside.1 inside.2,
      memcpy_apply_inside inside.1 inside.2]
  · have outside : index < targetStart ∨ targetStart + count ≤ index := by omega
    rw [memcpy_apply_outside outside, memcpy_apply_outside outside]
    exact agree outside

/-- The start in the source may be moved into the source. -/
theorem memcpy_shift
    (target source : ℕ → α)
    (targetStart sourceStart count : ℕ) :
    memcpy target targetStart (fun index => source (sourceStart + index)) 0
        count =
      memcpy target targetStart source sourceStart count := by
  funext index
  unfold memcpy
  rw [Nat.zero_add]

/-- Reading a window of a memory, changing a part of it and writing the window
back changes exactly that part of the memory. -/
theorem memcpy_window
    (memory source : ℕ → α)
    {base size start sourceStart count : ℕ}
    (fits : start + count ≤ size) :
    memcpy memory base
        (memcpy (fun index => memory (base + index)) start
          source sourceStart count) 0 size =
      memcpy memory (base + start) source sourceStart count := by
  funext index
  unfold memcpy
  by_cases inWindow : base ≤ index ∧ index < base + size
  · rw [if_pos inWindow]
    by_cases inPart : base + start ≤ index ∧ index < base + start + count
    · rw [if_pos inPart, if_pos (by omega)]
      congr 1
      omega
    · rw [if_neg inPart, if_neg (by omega)]
      change memory (base + (0 + (index - base))) = memory index
      congr 1
      omega
  · rw [if_neg inWindow, if_neg (by omega)]

/-- Two copies that continue each other in the target are one copy when the
second source continues the first. -/
theorem memcpy_append
    (target first second : ℕ → α)
    {start base count more : ℕ}
    (continues : ∀ offset < more,
      second (base + offset) = first (start + count + offset)) :
    memcpy (memcpy target 0 first start count) count second base more =
      memcpy target 0 first start (count + more) := by
  funext index
  unfold memcpy
  by_cases later : count ≤ index ∧ index < count + more
  · rw [if_pos later, if_pos (by omega), continues _ (by omega)]
    congr 1
    omega
  · rw [if_neg later]
    by_cases earlier : 0 ≤ index ∧ index < 0 + count
    · rw [if_pos earlier, if_pos (by omega)]
    · rw [if_neg earlier, if_neg (by omega)]

/-- Store the first `count` cells of `source` at the places of the positions
`start`, `start + 1`, and so on. -/
def scatter
    (place : ℕ → ℕ)
    (start : ℕ)
    (source : ℕ → α) : ℕ → (ℕ → α) → ℕ → α
  | 0, memory => memory
  | count + 1, memory =>
      Function.update (scatter place start source count memory)
        (place (start + count)) (source count)

@[simp] theorem scatter_zero
    (place : ℕ → ℕ)
    (start : ℕ)
    (source memory : ℕ → α) :
    scatter place start source 0 memory = memory := rfl

/-- An address that no position is placed at keeps its cell. -/
theorem scatter_apply_of_ne
    {place : ℕ → ℕ}
    {start count index : ℕ}
    {source memory : ℕ → α}
    (apart : ∀ offset < count, place (start + offset) ≠ index) :
    scatter place start source count memory index = memory index := by
  induction count with
  | zero => rfl
  | succ count inductionHypothesis =>
      rw [scatter, Function.update_of_ne (apart count (by omega)).symm]
      exact inductionHypothesis fun offset inside => apart offset (by omega)

/-- Under an injective placement every stored cell is found at its place. -/
theorem scatter_apply_place
    {place : ℕ → ℕ}
    {start count offset : ℕ}
    {source memory : ℕ → α}
    (injective : Set.InjOn place {position | position < start + count})
    (inside : offset < count) :
    scatter place start source count memory (place (start + offset)) =
      source offset := by
  induction count with
  | zero => omega
  | succ count inductionHypothesis =>
      rw [scatter]
      by_cases last : offset = count
      · subst last
        rw [Function.update_self]
      · have different : place (start + offset) ≠ place (start + count) := by
          intro equal
          have := injective (show start + offset < start + (count + 1) by omega)
            (show start + count < start + (count + 1) by omega) equal
          omega
        rw [Function.update_of_ne different]
        refine inductionHypothesis (injective.mono ?_) (by omega)
        intro position below
        exact Nat.lt_trans below (by omega)

/-- Seen through an injective placement, a scatter is a copy. -/
theorem scatter_apply_injOn
    {place : ℕ → ℕ}
    {start count limit position : ℕ}
    {source memory : ℕ → α}
    (injective : Set.InjOn place {position | position < limit})
    (inside : start + count ≤ limit)
    (below : position < limit) :
    scatter place start source count memory (place position) =
      memcpy (fun position => memory (place position)) start source 0 count
        position := by
  by_cases within : start ≤ position ∧ position < start + count
  · obtain ⟨offset, rfl⟩ := Nat.exists_eq_add_of_le within.1
    rw [memcpy_apply_inside within.1 within.2, Nat.add_sub_cancel_left,
      Nat.zero_add]
    refine scatter_apply_place (injective.mono ?_) (by omega)
    intro position early
    exact Nat.lt_of_lt_of_le early inside
  · rw [memcpy_apply_outside (by omega)]
    apply scatter_apply_of_ne
    intro offset early equal
    have same := injective (show start + offset < limit by omega) below equal
    omega

/-- A scatter may be cut anywhere: the second part goes on where the first
stopped. -/
theorem scatter_add
    (place : ℕ → ℕ)
    (start : ℕ)
    (source memory : ℕ → α)
    (count more : ℕ) :
    scatter place start source (count + more) memory =
      scatter place (start + count) (fun offset => source (count + offset)) more
        (scatter place start source count memory) := by
  induction more with
  | zero => rfl
  | succ more inductionHypothesis =>
      rw [← Nat.add_assoc, scatter, inductionHypothesis, scatter]
      congr 2
      omega

/-- A scatter looks at the places and at the cells of its own positions only. -/
theorem scatter_congr
    {left right : ℕ → ℕ}
    {start count : ℕ}
    {source other : ℕ → α}
    (memory : ℕ → α)
    (samePlaces : ∀ offset < count,
      left (start + offset) = right (start + offset))
    (sameCells : ∀ offset < count, source offset = other offset) :
    scatter left start source count memory =
      scatter right start other count memory := by
  induction count with
  | zero => rfl
  | succ count inductionHypothesis =>
      rw [scatter, scatter, samePlaces count (Nat.lt_succ_self _),
        sameCells count (Nat.lt_succ_self _),
        inductionHypothesis
          (fun offset inside => samePlaces offset (Nat.lt_succ_of_lt inside))
          (fun offset inside => sameCells offset (Nat.lt_succ_of_lt inside))]

/-- A scatter to adjacent places is a plain copy. -/
theorem scatter_eq_memcpy
    {place : ℕ → ℕ}
    {start base count : ℕ}
    (source memory : ℕ → α)
    (sourceStart : ℕ)
    (adjacent : ∀ offset < count, place (start + offset) = base + offset) :
    scatter place start (fun offset => source (sourceStart + offset)) count
        memory =
      memcpy memory base source sourceStart count := by
  induction count with
  | zero => rw [scatter_zero, memcpy_zero]
  | succ count inductionHypothesis =>
      rw [scatter, inductionHypothesis fun offset inside =>
        adjacent offset (by omega), adjacent count (by omega)]
      funext index
      by_cases last : index = base + count
      · subst last
        rw [Function.update_self,
          memcpy_apply_inside (by omega) (by omega)]
        congr 1
        omega
      · rw [Function.update_of_ne last]
        unfold memcpy
        by_cases inside : base ≤ index ∧ index < base + count
        · rw [if_pos inside, if_pos (by omega)]
        · rw [if_neg inside, if_neg (by omega)]

end Memory
end MsFat
