import MsFat.Apps.Content
import MsFat.Apps.RoundTrip
import MsFat.Apps.ScriptLines

/-!
# `simple_writer` and `simple_reader`

One program writes the letters to a new file, the other one reads ten of them
from the middle of it, each in a process of its own.  A process that fails ends
at once, with the disk still mounted.
-/

namespace MsFat

/-! ## The programs -/

/-- How `main` comes to its end: `ASSERT` names the function that has failed. -/
inductive Exit
  | success
  | failed (function : String)
  deriving DecidableEq

/-- `myfile` -/
def myfile : CString :=
  (Word.ofSource ['m', 'y', 'f', 'i', 'l', 'e'] (by decide)).text

/-- `data` of `simple_writer`: the letters, and what lies behind them on the
stack. -/
def simpleWriterData (stack : Buffer) : Buffer :=
  fun position =>
    if position < 26 then UInt8.ofNat (97 + position) else stack position

namespace Client

/-- `main` of `simple_writer.c` -/
def simpleWriter (diskname : String) (stack : Buffer) : Client Exit := do
  let mounted ← fsMount diskname
  if mounted.result ≠ 0 then return .failed "fs_mount"
  let created ← file (.create (some myfile))
  if created.result ≠ 0 then return .failed "fs_create"
  let opened ← file (.open (some myfile))
  if opened.result < 0 then return .failed "fs_open"
  let written ← file (.write opened.result (some (simpleWriterData stack)) 26)
  if written.result ≠ 26 then return .failed "fs_write"
  let _ ← file (.close opened.result)
  let _ ← fsUmount
  return .success

/-- `main` of `simple_reader.c`.  The ten letters that `strncmp` compares with
have no NUL among them. -/
def simpleReader (diskname : String) (stack : Buffer) : Client Exit := do
  let mounted ← fsMount diskname
  if mounted.result ≠ 0 then return .failed "fs_mount"
  let opened ← file (.open (some myfile))
  if opened.result < 0 then return .failed "fs_open"
  let _ ← file (.lseek opened.result 12)
  let read ← file (.read opened.result (some stack) 10)
  if read.result ≠ 10 then return .failed "fs_read"
  if !memcmpEq (read.buffer.getD stack)
      (fun position => UInt8.ofNat (109 + position)) 10 then
    return .failed "fs_read"
  let _ ← file (.close opened.result)
  let _ ← fsUmount
  return .success

end Client

/-! ## Writing -/

/-- The letters as a file that `test_fs add` could add. -/
def simpleWriterFile (stack : Buffer) : HostFile where
  opens := true
  fstatSucceeds := true
  isRegular := true
  bytes := simpleWriterData stack
  size := 26

namespace Store

variable {store : Store}

/-- The letters can be written to a new file. -/
def AdmitsLetters (store : Store) : Prop :=
  store.guarded = true ∧ store.Admits myfile ∧ 0 < store.freeBlocks

/-- Nothing is forgotten of a file that is not there. -/
theorem forget_of_missing
    {name : CString}
    (missing : store.files name = none) :
    store.forget name = store := by
  unfold forget setFile
  rw [missing, Option.map_none, ← missing, Function.update_eq_self]

/-- A block is enough for the letters, and less is not. -/
theorem fitting_simpleWriterFile (stack : Buffer) :
    store.fitting (simpleWriterFile stack) = 26 ↔ 0 < store.freeBlocks := by
  unfold fitting simpleWriterFile
  simp only [blockSize]
  omega

end Store

namespace Client

variable {sb : SuperBlock} {diskname : String} {store : Store}

/-- The program leaves the store with the file, or the store as it is. -/
theorem simpleWriter_ensures (stack : Buffer) :
    (simpleWriter diskname stack).Ensures (Drive.exec sb diskname)
      (.unmounted store.restarted) fun drive ended =>
        (store.AdmitsLetters ∧ ended = .success ∧
          drive.atExit =
            (store.added myfile (simpleWriterFile stack)).restarted) ∨
        (¬store.AdmitsLetters ∧ ended ≠ .success ∧
          drive.atExit = store.restarted) := by
  cases guarded : store.guarded with
  | false =>
      refine ensures_fsMount_broken guarded fun mounted failed => ?_
      rw [if_pos (by rw [failed]; decide)]
      refine .inr ⟨fun admits => ?_, by simp, rfl⟩
      exact absurd (guarded.symm.trans admits.1) (by simp)
  | true =>
      refine ensures_fsMount guarded fun mounted isMounted => ?_
      rw [if_neg (not_not.mpr isMounted)]
      by_cases admits : store.Admits myfile
      · let created : Store :=
          { store.setFile myfile (some .empty) with
            freeEntries := store.freeEntries - 1 }
        have isFile : created.files myfile = some .empty := by
          simp [created, Store.setFile]
        obtain ⟨after, handle, writes, isHandle, isAfter⟩ :=
          Store.exec_write isFile (simpleWriterFile stack)
        obtain ⟨last, closes, isLast⟩ := Store.exec_close isHandle
        refine ensures_file trivial (Store.exec_create admits)
          fun made isMade => ?_
        rw [if_neg (not_not.mpr isMade.result)]
        refine ensures_file trivial (Store.exec_open isFile)
          fun opened isOpened => ?_
        rw [isOpened.result, if_neg (by decide)]
        refine ensures_file (show 26 ≤ intMax by decide) writes
          fun written isWritten => ?_
        have fits := @Store.fitting_simpleWriterFile created stack
        rw [isWritten.result]
        dsimp only
        by_cases room : 0 < store.freeBlocks
        · have all : (created.fitting (simpleWriterFile stack) : Int) = 26 := by
            rw [fits.mpr room]
            rfl
          rw [if_neg (not_not.mpr all)]
          refine ensures_file trivial closes fun closed _ => ?_
          refine ensures_fsUmount fun unmounted _ => ?_
          refine .inl ⟨⟨guarded, admits, room⟩, rfl, ?_⟩
          refine (isLast.trans isAfter).trans ?_
          unfold Store.added Store.setFile Store.restarted Store.closed
          simp only [created, Store.setFile, Function.update_idem]
          rfl
        · have short : (created.fitting (simpleWriterFile stack) : Int) ≠ 26 := by
            intro all
            exact room (fits.mp (Int.ofNat_inj.mp all))
          rw [if_pos short]
          refine .inr ⟨fun all => room all.2.2, by simp, ?_⟩
          exact Store.forget_of_missing (Option.isNone_iff_eq_none.mp admits.2.2.1)
      · refine ensures_file trivial (Store.exec_create_refused admits)
          fun made refused => ?_
        rw [if_pos (by rw [refused.result]; decide)]
        exact .inr ⟨fun all => admits all.2.1, by simp, rfl⟩

end Client

section Writing

variable {sb : SuperBlock} {diskname : String}
  {files : String → Option Image} {store : Store}

end Writing

/-! ## Reading -/

/-- The letters from `m` to `v`. -/
def middleLetters : CString :=
  (Word.ofSource ['m', 'n', 'o', 'p', 'q', 'r', 's', 't', 'u', 'v']
    (by decide)).text

/-- They are those that `strncmp` compares with. -/
theorem memcmpEq_middleLetters
    {filled : Buffer}
    (isFilled : ∀ index, index < 10 →
      filled index = middleLetters.byte index) :
    memcmpEq filled (fun position => UInt8.ofNat (109 + position)) 10 =
      true := by
  have same : memcmpEq middleLetters.byte
      (fun position => UInt8.ofNat (109 + position)) 10 = true := by
    decide
  unfold memcmpEq at same ⊢
  rw [List.all_eq_true] at same ⊢
  intro index member
  rw [isFilled index (List.mem_range.mp member)]
  exact same index member

/-- Ten of the letters that `simple_writer` writes. -/
theorem simpleWriterData_middle
    (stack : Buffer)
    (index : Nat)
    (inside : index < 10) :
    ((List.range 26).map (simpleWriterData stack))[12 + index]? =
      some (middleLetters.byte index) := by
  have areLetters : (List.range 26).map (simpleWriterData stack) =
      (List.range 12).map (simpleWriterData fun _ => 0) ++ middleLetters.bytes ++
        (List.range' 22 4).map (simpleWriterData fun _ => 0) := rfl
  have inBytes : index < middleLetters.bytes.length := inside
  rw [areLetters, List.append_assoc,
    List.getElem?_append_right (Nat.le_add_right 12 index)]
  change (middleLetters.bytes ++ _)[12 + index - 12]? = _
  rw [Nat.add_sub_cancel_left, List.getElem?_append_left inBytes,
    List.getElem?_eq_getElem inBytes, CString.byte,
    List.getD_eq_getElem _ _ inBytes]

/-- A file that has been added as a whole has the bytes of the host file. -/
theorem addedFile_hasContent
    {store : Store}
    {hostFile : HostFile}
    (fits : hostFile.size ≤ blockSize * store.freeBlocks)
    (countFits : hostFile.size ≤ intMax) :
    (store.addedFile hostFile).HasContent
      ((List.range hostFile.size).map hostFile.bytes) where
  size := by
    have isSize := @Store.addedFile_size store hostFile countFits
    rw [if_pos fits] at isSize
    rw [List.length_map, List.length_range, ← isSize, UInt32.ofNat_toNat]
  inside := by
    rw [List.length_map, List.length_range]
    exact Store.fits_blocks fits
  bytes := by
    intro position byte isByte
    obtain ⟨inside, isByte⟩ := List.getElem?_eq_some_iff.mp isByte
    rw [List.length_map, List.length_range] at inside
    rw [Store.addedFile_bytes fits inside, ← isByte, List.getElem_map,
      List.getElem_range]

namespace Client

variable {sb : SuperBlock} {diskname : String} {store : Store}

/-- The ten letters are read if they are in the file. -/
theorem simpleReader_ensures
    (guarded : store.guarded = true)
    {file : StoredFile}
    (isFile : store.files myfile = some file)
    {content : List UInt8}
    (has : file.HasContent content)
    (small : content.length < 2 ^ 32)
    (inContent : ∀ index, index < 10 →
      content[12 + index]? = some (middleLetters.byte index))
    (stack : Buffer) :
    (simpleReader diskname stack).Ensures (Drive.exec sb diskname)
      (.unmounted store.restarted) fun _ ended => ended = .success := by
  have inside : 12 ≤ content.length := by
    obtain ⟨isInside, _⟩ :=
      List.getElem?_eq_some_iff.mp (inContent 0 (by decide))
    omega
  have opened : (store.opened myfile).Holds store myfile content 0 0 :=
    Store.opened_holds isFile has (fun _ _ => rfl) (Nat.zero_le _)
  obtain ⟨sought, seeks, atMiddle⟩ := opened.exec_lseek small inside
  obtain ⟨after, answer, reads, result, _, holds', fills⟩ :=
    @Store.Holds.exec_read _ _ _ _ _ _ middleLetters atMiddle (by decide)
      (by decide) inContent stack
  obtain ⟨last, closes, _⟩ := holds'.exec_close
  refine ensures_fsMount guarded fun mounted isMounted => ?_
  rw [if_neg (not_not.mpr isMounted)]
  refine ensures_file trivial (Store.exec_open isFile) fun opened isOpened => ?_
  rw [isOpened.result, if_neg (by decide)]
  refine ensures_file trivial seeks fun _ _ => ?_
  refine ensures_file (show 10 ≤ intMax by decide) reads fun read isRead => ?_
  obtain ⟨filled, isBuffer, isFilled⟩ := fills read isRead
  have isTen : read.result = 10 := isRead.result.trans result
  have same := @memcmpEq_middleLetters filled fun index inside =>
    (isFilled index).trans (if_pos inside)
  rw [if_neg (not_not.mpr isTen), isBuffer, Option.getD_some, same]
  refine ensures_file trivial closes fun _ _ => ?_
  exact ensures_fsUmount fun _ _ => rfl

theorem simpleReader_ensures_notMounted
    (unguarded : store.guarded = false)
    (stack : Buffer) :
    (simpleReader diskname stack).Ensures (Drive.exec sb diskname)
      (.unmounted store.restarted) fun _ ended =>
        ended = .failed "fs_mount" := by
  refine ensures_fsMount_broken unguarded fun mounted failed => ?_
  rw [if_pos (by rw [failed]; decide)]
  rfl

end Client

/-- Behind a `simple_writer` that has succeeded and any commands of `test_fs`
that do not remove its file, `simple_reader` succeeds, unless one of the
commands has removed a file of two or more blocks; then it fails to mount the
disk. -/
theorem simpleReader_of_simpleWriter
    {sb : SuperBlock}
    {diskname : String}
    {files written : String → Option Image}
    {store : Store}
    (holds : HoldsStore sb diskname files store)
    {writing reading : Nat → Host}
    (writingReliable : ∀ number, (writing number).Reliable)
    (readingReliable : ∀ number, (reading number).Reliable)
    {fuel : Nat}
    {stack : Buffer}
    (writes : runProcess (Client.simpleWriter diskname stack) fuel writing
      files = .ok (written, .success))
    {between : List ((Nat → Host) × Command)}
    (reliable : ∀ made ∈ between, ∀ number, (made.1 number).Reliable)
    (fits : ∀ made ∈ between, made.2.Fits)
    (notRemoved : ∀ made ∈ between, made.2 ≠ .rm myfile)
    (stack' : Buffer) :
    ∃ middle printed files' ended bound,
      Computes (fun fuel => runCommands diskname fuel between written) bound
        (middle, printed) ∧
      Computes
        (fun fuel => runProcess (Client.simpleReader diskname stack') fuel
          reading middle)
        bound (files', ended) ∧
      (¬RemovesLong sb (between.map Prod.snd)
          (store.added myfile (simpleWriterFile stack)) →
        ended = .success) ∧
      (RemovesLong sb (between.map Prod.snd)
          (store.added myfile (simpleWriterFile stack)) →
        ended = .failed "fs_mount") := by
  obtain ⟨_, _, _, drive, computes, holdsWritten, does⟩ :=
    holds.restarted.runs writingReliable (Client.simpleWriter_ensures stack)
  cases computes.only fuel _ writes
  obtain ⟨⟨guarded, admits, room⟩, _, atExit⟩ | ⟨_, fails, _⟩ := does
  · rw [atExit] at holdsWritten
    obtain ⟨middle, printed, bound, runs, holdsMiddle, _⟩ :=
      holdsWritten.runs_commands reliable fits
    have isFile : (execCommands sb (between.map Prod.snd)
        (store.added myfile (simpleWriterFile stack))).1.files myfile =
          some (store.addedFile (simpleWriterFile stack)) := by
      refine execCommands_file (by simp [Store.added, Store.setFile]) ?_
      intro command member
      obtain ⟨made, isMade, rfl⟩ := List.mem_map.mp member
      exact notRemoved made isMade
    have guarded_iff := @execCommands_guarded_iff sb
      (store.added myfile (simpleWriterFile stack)) (between.map Prod.snd) guarded
    have has := @addedFile_hasContent store (simpleWriterFile stack)
      (by simp only [simpleWriterFile, blockSize]; omega)
      (show 26 ≤ intMax by decide)
    by_cases long : RemovesLong sb (between.map Prod.snd)
        (store.added myfile (simpleWriterFile stack))
    · have unguarded := Bool.eq_false_iff.mpr
        (guarded_iff.not.mpr (not_not.mpr long))
      obtain ⟨files', ended, bound', _, reads, _, fails⟩ :=
        holdsMiddle.runs readingReliable
          (Client.simpleReader_ensures_notMounted unguarded stack')
      exact ⟨middle, printed, files', ended, max bound bound',
        runs.weaken (le_max_left _ _), reads.weaken (le_max_right _ _),
        fun notLong => absurd long notLong, fun _ => fails⟩
    · obtain ⟨files', ended, bound', _, reads, _, succeeds⟩ :=
        holdsMiddle.runs readingReliable
          (Client.simpleReader_ensures (guarded_iff.mpr long) isFile has
            (show 26 < 2 ^ 32 by decide) (simpleWriterData_middle stack) stack')
      exact ⟨middle, printed, files', ended, max bound bound',
        runs.weaken (le_max_left _ _), reads.weaken (le_max_right _ _),
        fun _ => succeeds, fun isLong => absurd isLong long⟩
  · exact absurd rfl fails

/-- The letters are read from a fresh disk, also behind `ls`. -/
theorem simpleReader_of_simpleWriter_freshImage :
    ∃ sb written middle printed files' ended bound,
      Computes (fun fuel => runCommands "disk.fs" fuel (onReliable [.ls])
        written) bound (middle, printed) ∧
      Computes
        (fun fuel => runProcess (Client.simpleReader "disk.fs" fun _ => 0) fuel
          (fun _ => .reliable) middle)
        bound (files', ended) ∧
      (¬RemovesLong sb ((onReliable [.ls]).map Prod.snd)
          ((emptyStore 49).added myfile (simpleWriterFile fun _ => 0)) →
        ended = .success) ∧
      (RemovesLong sb ((onReliable [.ls]).map Prod.snd)
          ((emptyStore 49).added myfile (simpleWriterFile fun _ => 0)) →
        ended = .failed "fs_mount") := by
  obtain ⟨sb, holds⟩ := @freshImage_holdsStore 100 50 (by decide) (by decide)
    (by decide)
  have reliable : ∀ number : Nat, Host.reliable.Reliable :=
    fun _ => Host.reliable_reliable
  have admits : (emptyStore 49).AdmitsLetters :=
    ⟨rfl, ⟨by decide, by decide, rfl, by decide⟩, by decide⟩
  obtain ⟨written, ended, bound, drive, computes, _, ⟨_, rfl, _⟩ | ⟨refuses, _⟩⟩ :=
    holds.restarted.runs reliable (Client.simpleWriter_ensures fun _ => 0)
  · exact ⟨sb, written, @simpleReader_of_simpleWriter sb "disk.fs" _ _
      (emptyStore 49) holds _ _ reliable reliable bound _
      (computes.enough bound le_rfl) _ (onReliable_reliable [.ls])
      (by simp [onReliable, Command.Fits]) (by simp [onReliable]) fun _ => 0⟩
  · exact absurd admits refuses

end MsFat
