import MsFat.Directory.Defs
import Mathlib.Data.List.TakeWhile

/-!
# File names

Names are compared in two ways, by `strcmp` when a file is looked up and by
`streq` when `fs_delete` looks for open descriptors.  For the names that pass
`is_filename_invalid` the two agree, and a name that `fs_create` has stored
reads back as itself, whatever the array held before.
-/

namespace MsFat

variable {array : Fin fsFilenameLen → UInt8} {filename : CString}

namespace CString

/-- The byte behind the string is the NUL. -/
theorem byte_of_le
    {index : Nat}
    (outside : filename.length ≤ index) :
    filename.byte index = 0 := by
  simp [byte, List.getD_eq_getElem?_getD, List.getElem?_eq_none outside]

theorem byte_of_lt
    {index : Nat}
    (inside : index < filename.length) :
    filename.bytes[index]? = some (filename.byte index) := by
  have present : index < filename.bytes.length := inside
  simp [byte, present]

/-- No byte of the string is the NUL. -/
theorem byte_ne_zero
    {index : Nat}
    (inside : index < filename.length) :
    filename.byte index ≠ 0 :=
  filename.nonzero _ (List.mem_of_getElem? (byte_of_lt inside))

end CString

/-- The names that `is_filename_invalid` lets through. -/
theorem isFilenameInvalid_eq_false_iff :
    isFilenameInvalid (some filename) = false ↔
      0 < filename.length ∧ filename.length < fsFilenameLen := by
  unfold isFilenameInvalid
  simp only [Bool.or_eq_false_iff, beq_eq_false_iff_ne, decide_eq_false_iff_not,
    Nat.not_lt]
  constructor
  · rintro ⟨nonempty, short⟩
    refine ⟨?_, by omega⟩
    by_contra empty
    exact nonempty (CString.byte_of_le (by omega))
  · rintro ⟨nonempty, short⟩
    exact ⟨CString.byte_ne_zero nonempty, by omega⟩

theorem getElem?_ofFn_array
    (array : Fin fsFilenameLen → UInt8)
    (index : Fin fsFilenameLen) :
    (List.ofFn array)[index.val]? = some (array index) := by
  rw [List.getElem?_ofFn, dif_pos index.isLt]

/-- An array holds a string exactly when it agrees with it up to the NUL. -/
theorem arrayString_eq_iff (short : filename.length < fsFilenameLen) :
    arrayString array = filename.bytes ↔
      ∀ index : Fin fsFilenameLen, index.val ≤ filename.length →
        array index = filename.byte index := by
  constructor
  · intro equal index inside
    have split : filename.bytes ++ (List.ofFn array).dropWhile (· ≠ 0) =
        List.ofFn array := by
      rw [← equal]
      exact List.takeWhile_append_dropWhile
    have entry := getElem?_ofFn_array array index
    rw [← split] at entry
    by_cases inString : index.val < filename.length
    · rw [List.getElem?_append_left inString,
        CString.byte_of_lt inString] at entry
      exact (Option.some.inj entry).symm
    · have atEnd : index.val = filename.bytes.length :=
        Nat.le_antisymm inside (Nat.not_lt.mp inString)
      rw [atEnd, List.getElem?_append_right (Nat.le_refl _), Nat.sub_self,
        ← List.head?_eq_getElem?] at entry
      have stops := List.head?_dropWhile_not (· ≠ 0) (List.ofFn array)
      rw [entry] at stops
      rw [CString.byte_of_le (Nat.not_lt.mp inString)]
      simpa using stops
  · intro agrees
    have split : List.ofFn array =
        filename.bytes ++ (List.ofFn array).drop filename.length := by
      conv_lhs => rw [← List.take_append_drop filename.length (List.ofFn array)]
      congr 1
      apply List.ext_getElem?
      intro position
      by_cases inside : position < filename.length
      · have below : position < fsFilenameLen := by omega
        rw [List.getElem?_take_of_lt inside, CString.byte_of_lt inside,
          getElem?_ofFn_array array ⟨position, below⟩,
          agrees ⟨position, below⟩ (Nat.le_of_lt inside)]
      · rw [List.getElem?_eq_none (by simp; omega),
          List.getElem?_eq_none (Nat.not_lt.mp inside)]
    have behind : (List.ofFn array).drop filename.length =
        0 :: (List.ofFn array).drop (filename.length + 1) := by
      have entry := getElem?_ofFn_array array
        ⟨filename.length, short⟩
      rw [agrees ⟨filename.length, short⟩ (Nat.le_refl _),
        CString.byte_of_le (Nat.le_refl _)] at entry
      obtain ⟨bound, value⟩ := List.getElem?_eq_some_iff.mp entry
      rw [List.drop_eq_getElem_cons bound, value]
    unfold arrayString
    rw [split, List.takeWhile_append_of_pos, behind,
      List.takeWhile_cons_of_neg (by simp), List.append_nil]
    intro byte member
    simpa using filename.nonzero byte member

theorem strcmpEq_iff :
    strcmpEq filename array = true ↔
      arrayString array = filename.bytes := by
  rw [strcmpEq, beq_iff_eq, eq_comm]

/-- The loop of `streq` stops at the first common NUL, up to which the strings
agree. -/
theorem streqFrom_eq_zero_iff (indices : List (Fin fsFilenameLen)) :
    streqFrom array filename indices = 0 ↔
      ∃ front stop back, indices = front ++ stop :: back ∧
        (∀ index ∈ front, array index = filename.byte index) ∧
        array stop = 0 ∧ filename.byte stop = 0 := by
  induction indices with
  | nil => simp [streqFrom]
  | cons first rest inductionHypothesis =>
      rw [streqFrom]
      by_cases bothEnd : array first = 0 ∧ filename.byte first = 0
      · rw [if_pos bothEnd]
        exact ⟨fun _ => ⟨[], first, rest, rfl, by simp, bothEnd⟩, fun _ => rfl⟩
      · rw [if_neg bothEnd]
        by_cases same : array first = filename.byte first
        · rw [if_neg (by simpa using same), inductionHypothesis]
          constructor
          · rintro ⟨front, stop, back, rfl, agrees, ends⟩
            refine ⟨first :: front, stop, back, rfl, ?_, ends⟩
            intro index member
            rcases List.mem_cons.mp member with rfl | later
            · exact same
            · exact agrees index later
          · rintro ⟨front, stop, back, split, agrees, ends⟩
            cases front with
            | nil =>
                obtain ⟨rfl, _⟩ := List.cons.inj split
                exact absurd ends bothEnd
            | cons head front =>
                obtain ⟨rfl, restEq⟩ := List.cons.inj split
                exact ⟨front, stop, back, restEq,
                  fun index member => agrees index (by simp [member]), ends⟩
        · rw [if_pos same]
          constructor
          · intro contradiction
            exact absurd contradiction (by decide)
          · rintro ⟨front, stop, back, split, agrees, ends⟩
            cases front with
            | nil =>
                obtain ⟨rfl, _⟩ := List.cons.inj split
                exact absurd ends bothEnd
            | cons head front =>
                obtain ⟨rfl, _⟩ := List.cons.inj split
                exact absurd (agrees first (by simp)) same

/-- On the names that pass `is_filename_invalid`, `streq` is equality of the
strings. -/
theorem streq_eq_zero_iff (short : filename.length < fsFilenameLen) :
    streq array filename = 0 ↔ arrayString array = filename.bytes := by
  rw [streq, streqFrom_eq_zero_iff, arrayString_eq_iff short]
  have position : ∀ {front back : List (Fin fsFilenameLen)}
      {stop : Fin fsFilenameLen},
      List.finRange fsFilenameLen = front ++ stop :: back →
        ∀ index : Fin fsFilenameLen, index ∈ front ↔ index < stop := by
    intro front back stop split index
    have sorted := List.pairwise_lt_finRange fsFilenameLen
    have everywhere := List.mem_finRange index
    rw [split] at sorted everywhere
    rw [List.pairwise_append, List.pairwise_cons] at sorted
    obtain ⟨_, ⟨after, _⟩, across⟩ := sorted
    constructor
    · intro member
      exact across index member stop (by simp)
    · intro before
      rcases List.mem_append.mp everywhere with member | member
      · exact member
      · rcases List.mem_cons.mp member with rfl | later
        · exact absurd before (lt_irrefl _)
        · exact absurd before (lt_asymm (after index later))
  constructor
  · rintro ⟨front, stop, back, split, agrees, arrayEnd, stringEnd⟩ index inside
    have notBefore : filename.length ≤ stop.val := by
      by_contra before
      exact CString.byte_ne_zero (Nat.not_le.mp before) stringEnd
    rcases Nat.lt_or_ge index.val stop.val with before | atStop
    · exact agrees index ((position split index).mpr before)
    · have same : index = stop := Fin.ext (by omega)
      rw [same, arrayEnd, stringEnd]
  · intro agrees
    let stop : Fin fsFilenameLen := ⟨filename.length, short⟩
    obtain ⟨front, back, split⟩ :=
      List.append_of_mem (List.mem_finRange stop)
    have stringEnd : filename.byte stop = 0 :=
      CString.byte_of_le (Nat.le_refl _)
    refine ⟨front, stop, back, split, ?_, ?_, stringEnd⟩
    · intro index member
      have before : index.val < filename.length :=
        (position split index).mp member
      exact agrees index (Nat.le_of_lt before)
    · rw [agrees stop (Nat.le_refl _), stringEnd]

/-- A stored name reads back as itself. -/
theorem arrayString_storeFilename
    (old : Fin fsFilenameLen → UInt8)
    (short : filename.length < fsFilenameLen) :
    arrayString (storeFilename old filename) = filename.bytes := by
  rw [arrayString_eq_iff short]
  intro index inside
  unfold storeFilename
  by_cases inString : index.val < filename.length
  · rw [if_pos inString]
  · rw [if_neg inString, if_pos (by omega), CString.byte_of_le (by omega)]

/-- A stored name is terminated. -/
theorem storeFilename_terminated
    (old : Fin fsFilenameLen → UInt8)
    (short : filename.length < fsFilenameLen) :
    ∃ index, storeFilename old filename index = 0 :=
  ⟨⟨filename.length, short⟩, by simp [storeFilename]⟩

/-- An array that holds a nonempty string is in use. -/
theorem array_zero_ne_zero
    (short : filename.length < fsFilenameLen)
    (nonempty : 0 < filename.length)
    (holds : arrayString array = filename.bytes) :
    array 0 ≠ 0 := by
  rw [(arrayString_eq_iff short).mp holds 0 (Nat.zero_le _)]
  exact CString.byte_ne_zero nonempty

/-- The string of an array in use begins with the first byte of the array. -/
theorem head?_arrayString (nonzero : array 0 ≠ 0) :
    (arrayString array).head? = some (array 0) := by
  unfold arrayString
  rw [List.ofFn_succ, List.takeWhile_cons_of_pos (by simpa using nonzero)]
  rfl

/-- The name `a`. -/
def nameA : CString where
  bytes := [97]
  nonzero := by simp

/-- The name `b`. -/
def nameB : CString where
  bytes := [98]
  nonzero := by simp

end MsFat
