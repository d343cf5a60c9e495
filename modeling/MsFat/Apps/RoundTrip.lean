import MsFat.Apps.Sequences

/-!
# Adding and printing a file

What `test_fs add` has copied to a disk, `test_fs cat` prints, however many
commands have come in between.  Only if the whole host file has found room is
anything printed.
-/

namespace MsFat

variable {sb : SuperBlock} {store : Store} {name : CString}
  {hostFile : HostFile}

namespace Store

/-- The last block of a file that fits is not beyond the free ones. -/
theorem fits_blocks
    (fits : hostFile.size ≤ blockSize * store.freeBlocks) :
    hostFile.size ≤ blockSize * (store.addedFile hostFile).blocks := by
  have isBlocks : (store.addedFile hostFile).blocks =
      0 + min ((0 + hostFile.size + (blockSize - 1)) / blockSize - 0)
        store.freeBlocks := rfl
  rw [isBlocks]
  simp only [blockSize] at *
  omega

/-- A host file that fits is written as a whole. -/
theorem fitting_eq_iff :
    store.fitting hostFile = hostFile.size ↔
      hostFile.size ≤ blockSize * store.freeBlocks := by
  unfold fitting
  omega

/-- The size of a file that has been added. -/
theorem addedFile_size
    (countFits : hostFile.size ≤ intMax) :
    (store.addedFile hostFile).size.toNat =
      if hostFile.size ≤ blockSize * store.freeBlocks then hostFile.size
      else 0 := by
  have isSize : (store.addedFile hostFile).size =
      if StoredFile.empty.written store.freeBlocks 0 hostFile.size =
          hostFile.size then 0 + UInt32.ofNat hostFile.size
      else 0 := rfl
  simp only [isSize, written_eq_fitting, fitting_eq_iff]
  split
  · rw [UInt32.zero_add, UInt32.toNat_ofNat']
    exact Nat.mod_eq_of_lt (by simp only [intMax] at countFits; omega)
  · rfl

/-- The bytes of a file that fits are those of the host file. -/
theorem addedFile_bytes
    (fits : hostFile.size ≤ blockSize * store.freeBlocks)
    {position : Nat}
    (inside : position < hostFile.size) :
    (store.addedFile hostFile).bytes position =
      some (hostFile.bytes position) := by
  have isBytes : (store.addedFile hostFile).bytes position =
      if 0 ≤ position ∧ position <
          0 + StoredFile.empty.written store.freeBlocks 0 hostFile.size then
        some (hostFile.bytes (position - 0))
      else none := rfl
  rw [isBytes, written_eq_fitting, fitting_eq_iff.mpr fits, if_pos (by omega),
    Nat.sub_zero]

end Store

/-- What `cat` prints of a file that has been added, if it prints. -/
def catLine (store : Store) (name : CString) (hostFile : HostFile) : Printed :=
  if 0 < hostFile.size ∧ hostFile.size ≤ blockSize * store.freeBlocks then
    .content name hostFile.size hostFile.size
      ((List.range hostFile.size).map hostFile.bytes)
  else .emptyFile

/-- A file that has been added as a whole is printed as a whole. -/
theorem prints_added
    (fits : hostFile.size ≤ blockSize * store.freeBlocks)
    {memory : Buffer}
    {printed : Printed}
    (prints : (store.addedFile hostFile).Prints name hostFile.size memory
      printed) :
    printed = .content name hostFile.size hostFile.size
      ((List.range hostFile.size).map hostFile.bytes) := by
  obtain ⟨bytes, rfl, length, known⟩ := prints
  have enough : min hostFile.size ((store.addedFile hostFile).behind 0) =
      hostFile.size := by
    have blocks := Store.fits_blocks fits
    unfold StoredFile.behind
    omega
  rw [enough] at known ⊢
  have isBytes : bytes = (List.range hostFile.size).map hostFile.bytes := by
    apply List.ext_getElem
    · rw [length, List.length_map, List.length_range]
    · intro position inBytes _
      rw [length] at inBytes
      have read : (store.addedFile hostFile).read 0 memory hostFile.size
          position = some (hostFile.bytes position) := by
        unfold StoredFile.read
        rw [if_pos inBytes, Nat.zero_add, Store.addedFile_bytes fits inBytes]
      have isByte := known position _ inBytes read
      rw [List.getElem?_eq_some_iff] at isByte
      obtain ⟨_, isByte⟩ := isByte
      rw [isByte, List.getElem_map, List.getElem_range]
  rw [isBytes]

/-- `cat` prints the file that `add` has made. -/
theorem exec_cat_added
    {other : Store}
    (guarded : other.guarded = true)
    (isFile : other.files name = some (store.addedFile hostFile))
    (countFits : hostFile.size ≤ intMax)
    {memory : Buffer}
    {printed : Printed}
    (allowed : ((Command.cat name (some memory)).exec sb other).2 printed) :
    printed = catLine store name hostFile := by
  have isSize := @Store.addedFile_size store hostFile countFits
  have nonneg : ¬int32 (store.addedFile hostFile).size.toNat < 0 := by
    rw [int32_of_range (by omega) ?_]
    · omega
    · rw [isSize]
      simp only [intMax] at countFits
      split <;> omega
  have isZero : (store.addedFile hostFile).size = 0 ↔
      ¬(0 < hostFile.size ∧ hostFile.size ≤ blockSize * store.freeBlocks) := by
    rw [← UInt32.toNat_inj, isSize, UInt32.toNat_zero]
    split <;> omega
  simp only [Command.exec, guarded, isFile, Bool.not_true, if_neg nonneg,
    isZero] at allowed
  unfold catLine
  by_cases whole : 0 < hostFile.size ∧
      hostFile.size ≤ blockSize * store.freeBlocks
  · rw [if_pos whole]
    simp only [whole, and_self, not_true_eq_false, Bool.false_eq_true,
      if_false] at allowed
    rw [isSize, if_pos whole.2] at allowed
    exact prints_added whole.2 allowed
  · rw [if_neg whole]
    simp only [whole, not_false_eq_true, if_true, Bool.false_eq_true, if_false]
      at allowed
    exact allowed

/-- The last of related lists. -/
theorem forall₂_concat
    {α β : Type}
    {related : α → β → Prop}
    {first : List α}
    {last : α}
    {others : List β}
    (all : List.Forall₂ related (first ++ [last]) others) :
    ∃ middle final, others = middle ++ [final] ∧ related last final := by
  rw [← List.forall₂_reverse_iff, List.reverse_concat,
    List.forall₂_cons_left_iff] at all
  obtain ⟨final, middle, relates, _, isReverse⟩ := all
  refine ⟨middle.reverse, final, ?_, relates⟩
  rw [← List.reverse_reverse others, isReverse, List.reverse_cons]

/-- What `add` has copied to a disk, `cat` prints behind all other commands, as
long as the file is not removed and the disk can be mounted.  A file that did
not fit as a whole is printed as an empty one. -/
theorem runCommands_add_cat
    {diskname : String}
    {files : String → Option Image}
    (holds : HoldsStore sb diskname files store)
    (guarded : store.guarded = true)
    (admits : store.Admits name)
    (usable : hostFile.failure = none)
    (countFits : hostFile.size ≤ intMax)
    {adding printing : Nat → Host}
    (addingReliable : ∀ number, (adding number).Reliable)
    (printingReliable : ∀ number, (printing number).Reliable)
    {between : List ((Nat → Host) × Command)}
    (reliable : ∀ made ∈ between, ∀ number, (made.1 number).Reliable)
    (fits : ∀ made ∈ between, made.2.Fits)
    (notRemoved : ∀ made ∈ between, made.2 ≠ .rm name)
    (memory : Buffer) :
    ∃ files' middle last bound,
      Computes
        (fun fuel => runCommands diskname fuel
          ((adding, .add name hostFile) ::
            (between ++ [(printing, .cat name (some memory))])) files)
        bound
        (files', .wrote name (store.fitting hostFile) hostFile.size ::
          (middle ++ [last])) ∧
      (¬RemovesLong sb (between.map Prod.snd) (store.added name hostFile) →
        last = catLine store name hostFile) ∧
      (RemovesLong sb (between.map Prod.snd) (store.added name hostFile) →
        last = .died "Cannot mount diskname") := by
  have allReliable : ∀ made ∈ (adding, Command.add name hostFile) ::
      (between ++ [(printing, .cat name (some memory))]),
      ∀ number, (made.1 number).Reliable := by
    simp only [List.mem_cons, List.mem_append, List.not_mem_nil, or_false]
    rintro made (rfl | member | rfl)
    · exact addingReliable
    · exact reliable made member
    · exact printingReliable
  have allFit : ∀ made ∈ (adding, Command.add name hostFile) ::
      (between ++ [(printing, .cat name (some memory))]), made.2.Fits := by
    simp only [List.mem_cons, List.mem_append, List.not_mem_nil, or_false]
    rintro made (rfl | member | rfl)
    · exact countFits
    · exact fits made member
    · trivial
  obtain ⟨files', printed, bound, computes, _, allowed⟩ :=
    holds.restarted.runs_commands allReliable allFit
  rw [List.map_cons, List.map_append, List.map_singleton, execCommands,
    Command.exec_add guarded admits usable] at allowed
  dsimp only at allowed
  rw [execCommands_concat] at allowed
  have guarded_iff := @execCommands_guarded_iff sb (store.added name hostFile)
    (between.map Prod.snd) guarded
  cases allowed with
  | cons isFirst allowed =>
      obtain ⟨middle, last, rfl, isLast⟩ := forall₂_concat allowed
      cases isFirst
      refine ⟨files', middle, last, bound, computes, ?_, ?_⟩
      · intro notLong
        refine exec_cat_added (guarded_iff.mpr notLong) ?_ countFits isLast
        refine execCommands_file (Function.update_self ..) ?_
        rintro command member
        obtain ⟨made, isMade, rfl⟩ := List.mem_map.mp member
        exact notRemoved made isMade
      · intro long
        have unguarded := Bool.eq_false_iff.mpr
          (guarded_iff.not.mpr (not_not.mpr long))
        rw [Command.exec_of_unguarded _ _ unguarded] at isLast
        exact isLast

/-- The file of two blocks is printed, also behind `ls`. -/
theorem runCommands_add_cat_twoBlockFile :
    ∃ sb files' middle last bound,
      Computes
        (fun fuel => runCommands "disk.fs" fuel
          ((fun _ => .reliable, .add nameA twoBlockFile) ::
            (onReliable [.ls] ++
              [(fun _ => .reliable, .cat nameA (some fun _ => 0))]))
          fun _ => some (freshImage 100 50 1))
        bound
        (files', .wrote nameA ((emptyStore 49).fitting twoBlockFile) 5000 ::
          (middle ++ [last])) ∧
      (¬RemovesLong sb ((onReliable [.ls]).map Prod.snd)
          ((emptyStore 49).added nameA twoBlockFile) →
        last = catLine (emptyStore 49) nameA twoBlockFile) ∧
      (RemovesLong sb ((onReliable [.ls]).map Prod.snd)
          ((emptyStore 49).added nameA twoBlockFile) →
        last = .died "Cannot mount diskname") := by
  obtain ⟨sb, holds⟩ := @freshImage_holdsStore 100 50 (by decide) (by decide)
    (by decide)
  exact ⟨sb, runCommands_add_cat holds rfl (emptyStore_admits 49) rfl (by decide)
    (fun _ => Host.reliable_reliable) (fun _ => Host.reliable_reliable)
    (onReliable_reliable [.ls])
    (by simp [onReliable, Command.Fits])
    (by simp [onReliable]) fun _ => 0⟩

end MsFat
