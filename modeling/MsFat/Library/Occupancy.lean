import Mathlib.Data.Fintype.Card
import Mathlib.Data.Finset.Card

/-!
# Occupied entries of a table

The entries of a finite table that hold a value, and how storing, replacing and
removing a value changes their number.
-/

namespace MsFat

universe u v

variable {ι : Type u} {α : Type v} [Fintype ι]

/-- The entries of the table that hold a value. -/
def occupied (table : ι → Option α) : Finset ι :=
  Finset.univ.filter fun index => (table index).isSome

variable {table : ι → Option α} {index : ι} {value : α}

@[simp] theorem mem_occupied :
    index ∈ occupied table ↔ table index ≠ none := by
  simp [occupied, Option.isSome_iff_ne_none]

section Update

variable [DecidableEq ι]

theorem occupied_update_some :
    occupied (Function.update table index (some value)) =
      insert index (occupied table) := by
  ext other
  by_cases same : other = index
  · subst same
    simp
  · simp [same]

theorem occupied_update_none :
    occupied (Function.update table index none) =
      (occupied table).erase index := by
  ext other
  by_cases same : other = index
  · subst same
    simp
  · simp [same]

/-- A value in a vacant entry. -/
theorem card_occupied_store (vacant : table index = none) :
    (occupied (Function.update table index (some value))).card =
      (occupied table).card + 1 := by
  rw [occupied_update_some]
  exact Finset.card_insert_of_notMem fun taken => mem_occupied.mp taken vacant

/-- Another value in an occupied entry. -/
theorem card_occupied_replace (taken : table index ≠ none) :
    (occupied (Function.update table index (some value))).card =
      (occupied table).card := by
  rw [occupied_update_some, Finset.insert_eq_of_mem (mem_occupied.mpr taken)]

/-- An occupied entry becomes vacant. -/
theorem card_occupied_remove (taken : table index ≠ none) :
    (occupied (Function.update table index none)).card + 1 =
      (occupied table).card := by
  rw [occupied_update_none]
  exact Finset.card_erase_add_one (mem_occupied.mpr taken)

end Update

theorem card_occupied_eq_zero_iff :
    (occupied table).card = 0 ↔ ∀ index, table index = none := by
  simp [Finset.card_eq_zero, Finset.eq_empty_iff_forall_notMem]

/-- A table that is not full has a vacant entry. -/
theorem exists_vacant
    (room : (occupied table).card < Fintype.card ι) :
    ∃ index, table index = none := by
  by_contra full
  have all : occupied table = Finset.univ := by
    refine Finset.eq_univ_iff_forall.mpr fun index => mem_occupied.mpr ?_
    exact fun vacant => full ⟨index, vacant⟩
  rw [all, Finset.card_univ] at room
  exact Nat.lt_irrefl _ room

/-- One entry of a list stops being counted. -/
theorem countP_of_one_lost
    {κ : Type u}
    {entries : List κ}
    {before after : κ → Bool}
    {entry : κ}
    (distinct : entries.Nodup)
    (member : entry ∈ entries)
    (counted : before entry = true)
    (lost : after entry = false)
    (same : ∀ other ∈ entries, other ≠ entry → after other = before other) :
    entries.countP before = entries.countP after + 1 := by
  obtain ⟨front, back, rfl⟩ := List.append_of_mem member
  have apart : ∀ other ∈ front ++ back, after other = before other := by
    intro other elsewhere
    have member : other ∈ front ++ entry :: back :=
      List.perm_middle.mem_iff.mpr (List.mem_cons_of_mem entry elsewhere)
    apply same other member
    rintro rfl
    exact (List.nodup_middle.mp distinct).notMem elsewhere
  have frontSame : front.countP before = front.countP after :=
    List.countP_congr fun other inFront => by
      rw [apart other (List.mem_append_left _ inFront)]
  have backSame : back.countP before = back.countP after :=
    List.countP_congr fun other inBack => by
      rw [apart other (List.mem_append_right _ inBack)]
  rw [List.countP_append, List.countP_append, frontSame,
    List.countP_cons_of_pos counted, List.countP_cons_of_neg (by simp [lost]),
    backSame, Nat.add_assoc]

end MsFat
