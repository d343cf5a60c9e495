import MsFat.Apps.Content
import MsFat.Apps.ScriptRefinement
import MsFat.Apps.Sequences

/-!
# A script that checks what it has written

A script creates a file, writes data to it piece by piece, goes back to its
start and reads the data, cut into other pieces.  Every comparison that it makes
is correct, and the file is on the disk behind it.
-/

namespace MsFat

/-! ## The script -/

/-- A word that leaves room for a command in front of it. -/
structure ShortWord extends Word where
  short : text.length ≤ 1000

theorem createWord_few : createWord.text.length ≤ 6 := by
  decide

theorem openWord_few : openWord.text.length ≤ 6 := by
  decide

/-- The length of a line with a short command and a name. -/
theorem nameLine_short
    {command : Word}
    (few : command.text.length ≤ 6)
    (name : ShortWord) :
    (joined [command, name.toWord]).length < 1024 := by
  have := name.short
  refine (joined_length_le _).trans_lt ?_
  simp only [List.map_cons, List.map_nil, List.sum_cons, List.sum_nil]
  omega

/-- `CREATE` -/
def createLine (name : ShortWord) : ScriptLine :=
  .ofWords [createWord, name.toWord] (nameLine_short createWord_few name)

/-- `OPEN` -/
def openLine (name : ShortWord) : ScriptLine :=
  .ofWords [openWord, name.toWord] (nameLine_short openWord_few name)

theorem writeLine_short (data : ShortWord) :
    (joined [writeWord, dataWord, data.toWord]).length < 1024 := by
  have := data.short
  have : writeWord.text.length = 5 := rfl
  have : dataWord.text.length = 4 := rfl
  refine (joined_length_le _).trans_lt ?_
  simp only [List.map_cons, List.map_nil, List.sum_cons, List.sum_nil]
  omega

/-- `WRITE DATA` -/
def writeLine (data : ShortWord) : ScriptLine :=
  .ofWords [writeWord, dataWord, data.toWord] (writeLine_short data)

/-- `CLOSE` -/
def closeLine : ScriptLine :=
  .ofWords [closeWord] (by decide)

/-- `UMOUNT` -/
def umountLine : ScriptLine :=
  .ofWords [umountWord] (by decide)

/-- The words of `READ`. -/
def readLineWords (data : ShortWord) : List Word :=
  [readWord, .decimal data.text.length, dataWord, data.toWord]

theorem readLineWords_short (data : ShortWord) :
    (joined (readLineWords data)).length < 1024 := by
  have := data.short
  have : readWord.text.length = 4 := rfl
  have : dataWord.text.length = 4 := rfl
  have digits : (Word.decimal data.text.length).text.length ≤ 4 := by
    change (ascii (Nat.toDigits 10 data.text.length)).length ≤ 4
    rw [ascii, List.length_map, Nat.length_toDigits_le_iff (by decide)
      (by decide)]
    omega
  refine (joined_length_le _).trans_lt ?_
  simp only [readLineWords, List.map_cons, List.map_nil, List.sum_cons,
    List.sum_nil]
  omega

/-- `READ` of the length of the data, and `DATA`. -/
def readLine (data : ShortWord) : ScriptLine :=
  .ofWords (readLineWords data) (readLineWords_short data)

/-- A file is created and written piece by piece, and read piece by piece from
its start. -/
def roundTrip
    (name : ShortWord)
    (written read : List ShortWord) : List ScriptLine :=
  mountLine :: createLine name :: openLine name ::
    (written.map writeLine ++
      rewindLine :: (read.map readLine ++ [closeLine, umountLine]))

/-- What such a script prints. -/
def roundTripShown (written read : List ShortWord) : List Shown :=
  .successful "MOUNT" :: .successful "CREATE" :: .successful "OPEN" ::
    (written.map (fun data => .wrote data.text.length) ++
      .successful "SEEK" ::
        (read.map (fun data =>
            .compared data.text.length data.text.length) ++
          [.successful "CLOSE", .successful "UMOUNT"]))

/-! ## Scripts that come to their end -/

/-- From this drive on, the lines come to their end on a drive of this kind and
print exactly this. -/
def ScriptPrints
    (hosts : Nat → ScriptHost)
    (lines : List ScriptLine)
    (drive : Drive)
    (fsFd : Int)
    (final : Drive → Prop)
    (shown : List Shown) : Prop :=
  ScriptFits hosts lines ∧
    ∃ after allowed,
      execLines lines hosts drive fsFd = some (after, .finished, allowed) ∧
      final after ∧
      ∀ printed, List.Forall₂ (fun allowed line => allowed line) allowed
        printed → printed = shown

section ScriptPrints

variable {hosts : Nat → ScriptHost} {drive next : Drive} {fsFd nextFd : Int}
  {final : Drive → Prop} {rest : List ScriptLine} {others : List Shown}

theorem scriptPrints_nil (holds : final drive.umount) :
    ScriptPrints hosts [] drive fsFd final [] := by
  refine ⟨by simp [ScriptFits], drive.umount, [], rfl, holds, ?_⟩
  exact fun printed prints => List.forall₂_nil_left_iff.mp prints

/-- One line in front of others. -/
theorem ScriptPrints.cons
    (prints : ScriptPrints (fun number => hosts (number + 1)) rest next nextFd
      final others)
    {words : List Word}
    {short : (joined words).length < 1024}
    {command : Word}
    {arguments : List Word}
    (isLine : words = command :: arguments)
    {instruction : Instruction}
    (decodes : decodeLine (hosts 0) command.text (arguments.map Word.text) =
      instruction)
    (instructionFits : instruction.Fits)
    {allowed : Shown → Prop}
    (means : instruction.exec drive fsFd =
      some (.next next nextFd (some allowed)))
    {shown : Shown}
    (shows : ∀ line, allowed line → line = shown) :
    ScriptPrints hosts (.ofWords words short :: rest) drive fsFd final
      (shown :: others) := by
  subst isLine decodes
  obtain ⟨fits, after, allAllowed, restMeans, holds, allShow⟩ := prints
  have isTokens := tokens_ofWords short (List.cons_ne_nil _ _)
  refine ⟨?_, after, allowed :: allAllowed, ?_, holds, ?_⟩
  · intro number line isAt name others isLine
    cases number with
    | zero =>
        cases isAt
        rw [isTokens] at isLine
        cases isLine
        exact instructionFits
    | succ number => exact fits number line isAt name others isLine
  · unfold execLines
    rw [isTokens]
    simp only [List.map_cons, means, restMeans]
    rfl
  · intro printed prints
    cases prints with
    | cons isShown isOthers =>
        rw [shows _ isShown, allShow _ isOthers]

/-- A call of a line that the store answers. -/
theorem scriptPrints_call
    {store kept after : Store}
    {answer : Answer}
    {command : Word}
    {arguments : List Word}
    {short : (joined (command :: arguments)).length < 1024}
    {made : Int → Call}
    {room : Nat}
    {fails : Int → Bool}
    {message : String}
    {opens : Bool}
    {shows : Reply → Shown}
    {shown : Shown}
    (decodes : decodeLine (hosts 0) command.text (arguments.map Word.text) =
      .call made room fails message opens shows)
    (countFits : ∀ fsFd, (made fsFd).CountFits)
    (executes : store.exec (made fsFd) = some (after, answer))
    (inRoom : answer.stored ≤ room)
    (passes : fails answer.result = false)
    (isShown : ∀ reply, answer.Allows reply → shows reply = shown)
    (prints : ∀ kept, ScriptPrints (fun number => hosts (number + 1)) rest
      (.mounted after kept) (if opens then answer.result else fsFd) final
      others) :
    ScriptPrints hosts (.ofWords (command :: arguments) short :: rest)
      (.mounted store kept) fsFd final (shown :: others) := by
  refine (prints (kept.keptBehind store (made fsFd))).cons rfl decodes countFits
    (by simp [Instruction.exec, executes, inRoom.not_gt, passes]; rfl) ?_
  rintro line ⟨reply, allows, rfl⟩
  exact isShown reply allows

end ScriptPrints

/-! ## The steps of the round trip -/

/-- `calloc` finds memory for a piece and the NUL behind it, and the word behind
`command_args` is spare. -/
structure ScriptHost.Serves (host : ScriptHost) : Prop where
  callocSucceeds : ∀ size, size ≤ 1001 → host.callocSucceeds size = true
  argsSpare : host.argsSpare = true

theorem ScriptHost.Serves.calloc_eq
    {host : ScriptHost}
    (serves : host.Serves)
    {size : Nat}
    (small : size ≤ 1001) :
    calloc host size = some (host.allocated size) :=
  if_pos ⟨by omega, serves.callocSucceeds size small⟩

/-- The bytes of words, one after the other. -/
def contentOf (words : List ShortWord) : List UInt8 :=
  words.flatMap fun word => word.text.bytes

/-- The drive is not mounted, and of the files of `start` only the one of this
name has changed.  It has this content. -/
def LeavesContent
    (start : Store)
    (name : CString)
    (content : List UInt8)
    (drive : Drive) : Prop :=
  ∃ after, drive = .unmounted after ∧
    (∃ file, after.files name = some file ∧ file.HasContent content) ∧
    ∀ other, other ≠ name → after.files other = start.files other

section Steps

variable {host : ScriptHost} {hosts : Nat → ScriptHost}
  {store start kept : Store} {name : CString} {content : List UInt8}
  {offset total : Nat}

theorem ShortWord.length_ne_zero (word : ShortWord) :
    word.text.length ≠ 0 := by
  intro empty
  exact word.nonempty (List.length_eq_zero_iff.mp empty)

theorem ShortWord.length_le_intMax (word : ShortWord) :
    word.text.length ≤ intMax :=
  word.short.trans (by decide)

/-- The end of the script. -/
theorem scriptPrints_closing
    (holds : store.Holds start name content offset total) :
    ScriptPrints hosts
      [closeLine, umountLine]
      (.mounted store kept) 0 (LeavesContent start name content)
      [.successful "CLOSE", .successful "UMOUNT"] := by
  obtain ⟨after, closes, has, others⟩ := holds.exec_close
  have unmounts : ∀ (hosts : Nat → ScriptHost) kept,
      ScriptPrints hosts [umountLine] (.mounted after kept) 0
        (LeavesContent start name content) [.successful "UMOUNT"] := by
    intro hosts kept
    have decodes : decodeLine (hosts 0) umountWord.text
        (List.map Word.text []) = .umount := rfl
    have last := @scriptPrints_nil (fun number => hosts (number + 1))
      (.unmounted after) 0 (LeavesContent start name content)
      ⟨after, rfl, has, others⟩
    exact last.cons rfl decodes trivial rfl fun _ isShown => isShown
  exact scriptPrints_call rfl (fun _ => trivial) closes le_rfl rfl
    (fun _ _ => rfl) fun kept => unmounts _ kept

/-- The comparison behind a read, over the data and the NUL behind them. -/
theorem memcmpEq_of_filled
    {data : CString}
    {filled : Buffer}
    (isFilled : ∀ index, filled index =
      if index < data.length then data.byte index
      else host.allocated (data.length + 1) index) :
    memcmpEq data.byte filled (data.length + 1) = true := by
  unfold memcmpEq
  rw [List.all_eq_true]
  intro index member
  have inside := List.mem_range.mp member
  rw [isFilled, beq_iff_eq]
  split
  · rfl
  · have isEnd : index = data.length := by omega
    subst isEnd
    unfold ScriptHost.allocated CString.byte
    rw [if_pos (Nat.lt_succ_self _), List.getD_eq_getElem?_getD,
      List.getElem?_eq_none (show data.bytes.length ≤ data.length from le_rfl)]
    rfl

/-- What `READ` of data and their length stands for. -/
theorem decodeLine_read
    (serves : host.Serves)
    (data : ShortWord) :
    decodeLine host readWord.text
        [(Word.decimal data.text.length).text, dataWord.text, data.text] =
      .call
        (fun fsFd => .read fsFd (some (host.allocated (data.text.length + 1)))
          data.text.length)
        (data.text.length + 1) (fun count => count < 0) "read error" false
        fun reply =>
          if memcmpEq data.text.byte (reply.buffer.getD host.heap)
              (data.text.length + 1) then
            .compared reply.result data.text.length
          else .unexpected := by
  have isLength : atoi (Word.decimal data.text.length).text =
      data.text.length :=
    atoi_decimal (by have := data.short; omega)
  have isRead : decodeLine host readWord.text
        [(Word.decimal data.text.length).text, dataWord.text, data.text] =
      readInstruction host
        [(Word.decimal data.text.length).text, dataWord.text, data.text] :=
    if_neg (by simp [serves.argsSpare])
  have isRoom : sizeOfInt (int32 ((data.text.length : Int) + 1)) =
      data.text.length + 1 :=
    @sizeOfInt_int32 (data.text.length + 1) (by
      have := data.short
      simp only [intMax]
      omega)
  have isData : readData host (some dataWord.text) (some data.text) =
      .bytes data.text.byte data.text.length := rfl
  rw [isRead]
  unfold readInstruction
  simp only [List.getElem?_cons_zero, List.getElem?_cons_succ, isData, isLength,
    Int.toNat_natCast]
  rw [if_neg (by omega), isRoom,
    serves.calloc_eq (Nat.succ_le_succ data.short)]

/-- Everything behind the offset is read and compared. -/
theorem scriptPrints_reads
    (serves : ∀ number, (hosts number).Serves)
    {front : List UInt8}
    {read : List ShortWord}
    (holds : store.Holds start name (front ++ contentOf read) front.length total)
    (small : (front ++ contentOf read).length ≤ 2 ^ 16) :
    ScriptPrints hosts
      (read.map readLine ++
        [closeLine, umountLine])
      (.mounted store kept) 0 (LeavesContent start name (front ++ contentOf read))
      (read.map (fun data => .compared data.text.length data.text.length) ++
        [.successful "CLOSE", .successful "UMOUNT"]) := by
  induction read generalizing hosts front store kept with
  | nil => exact scriptPrints_closing holds
  | cons data rest inductionHypothesis =>
      have isPieces : front ++ contentOf (data :: rest) =
          (front ++ data.text.bytes) ++ contentOf rest := by
        simp [contentOf]
      have positive := data.length_ne_zero
      have inside : front.length < 2 ^ 16 := by
        rw [isPieces, List.length_append, List.length_append] at small
        change front.length + data.text.length + _ ≤ _ at small
        omega
      rw [isPieces] at holds small ⊢
      obtain ⟨after, answer, reads, result, stored, holds', fills⟩ :=
        holds.exec_read inside positive
        (by
          intro index isInside
          have inBytes : index < data.text.bytes.length := isInside
          rw [List.append_assoc, List.getElem?_append_right (by omega),
            Nat.add_sub_cancel_left, List.getElem?_append_left inBytes,
            CString.byte, List.getD_eq_getElem _ _ inBytes]
          exact List.getElem?_eq_getElem inBytes)
        ((hosts 0).allocated (data.text.length + 1))
      refine scriptPrints_call (decodeLine_read (serves 0) data)
        (fun _ => data.length_le_intMax) reads (by omega) ?_ ?_ fun kept => ?_
      · rw [result]
        exact decide_eq_false (by omega)
      · intro reply allows
        obtain ⟨filled, isBuffer, isFilled⟩ := fills reply allows
        rw [isBuffer, Option.getD_some, if_pos (memcmpEq_of_filled isFilled),
          allows.result, result]
      · have isLength : front.length + data.text.length =
            (front ++ data.text.bytes).length := List.length_append.symm
        rw [isLength] at holds'
        exact inductionHypothesis (fun number => serves (number + 1)) holds'
          small

/-- The pieces are written, and what comes behind them goes on with their
content. -/
theorem scriptPrints_writes
    (serves : ∀ number, (hosts number).Serves)
    {front : List UInt8}
    {written : List ShortWord}
    {rest : List ScriptLine}
    {final : Drive → Prop}
    {others : List Shown}
    (holds : store.Holds start name front front.length total)
    (fits : (front ++ contentOf written).length ≤ total)
    (small : total ≤ 2 ^ 16)
    (prints : ∀ hosts : Nat → ScriptHost, (∀ number, (hosts number).Serves) →
      ∀ after kept,
        after.Holds start name (front ++ contentOf written)
            (front ++ contentOf written).length total →
          ScriptPrints hosts rest (.mounted after kept) 0 final others) :
    ScriptPrints hosts (written.map writeLine ++ rest) (.mounted store kept) 0
      final (written.map (fun data => .wrote data.text.length) ++ others) := by
  induction written generalizing hosts front store kept with
  | nil =>
      have isFront : front ++ contentOf [] = front := List.append_nil front
      rw [isFront] at prints
      exact prints hosts serves store kept holds
  | cons data more inductionHypothesis =>
      have isPieces : front ++ contentOf (data :: more) =
          (front ++ data.text.bytes) ++ contentOf more := by
        simp [contentOf]
      have positive := data.length_ne_zero
      rw [isPieces] at fits prints
      have inside : front.length + data.text.length ≤ total := by
        rw [List.length_append, List.length_append] at fits
        change front.length + data.text.length + _ ≤ _ at fits
        omega
      obtain ⟨after, writes, holds'⟩ := holds.exec_write (by omega) positive
        inside
      refine scriptPrints_call rfl (fun _ => data.length_le_intMax) writes le_rfl
        (decide_eq_false (Int.not_lt.mpr (Int.natCast_nonneg _)))
        (fun reply allows => ?_) fun kept => ?_
      · rw [allows.result]
      · exact inductionHypothesis (fun number => serves (number + 1)) holds' fits
          prints

/-- Back to the start, and everything is read. -/
theorem scriptPrints_seek
    (serves : ∀ number, (hosts number).Serves)
    {read : List ShortWord}
    (holds : store.Holds start name (contentOf read) offset total)
    (small : (contentOf read).length ≤ 2 ^ 16) :
    ScriptPrints hosts
      (rewindLine ::
        (read.map readLine ++
          [closeLine, umountLine]))
      (.mounted store kept) 0 (LeavesContent start name (contentOf read))
      (.successful "SEEK" ::
        (read.map (fun data => .compared data.text.length data.text.length) ++
          [.successful "CLOSE", .successful "UMOUNT"])) := by
  obtain ⟨after, seeks, holds'⟩ := holds.exec_lseek (by omega) (Nat.zero_le _)
  exact scriptPrints_call rfl (fun _ => trivial) seeks le_rfl rfl
    (fun _ _ => rfl) fun kept => @scriptPrints_reads _ _ _ _ _ _
      (fun number => serves (number + 1)) [] _ holds' small

end Steps

/-- From a drive with this store on, the script prints what it has to. -/
theorem scriptPrints_roundTrip
    {hosts : Nat → ScriptHost}
    (serves : ∀ number, (hosts number).Serves)
    {store : Store}
    (guarded : store.guarded = true)
    {name : ShortWord}
    (admits : store.Admits name.text)
    {written read : List ShortWord}
    (same : contentOf written = contentOf read)
    (fits : (contentOf written).length ≤ blockSize * store.freeBlocks)
    (small : (contentOf written).length ≤ 2 ^ 16) :
    ScriptPrints hosts (roundTrip name written read)
      (.unmounted store.restarted) (-1)
      (LeavesContent store name.text (contentOf written))
      (roundTripShown written read) := by
  let created : Store :=
    { store.setFile name.text (some .empty) with
      freeEntries := store.freeEntries - 1 }
  have isFile : created.files name.text = some .empty :=
    Function.update_self ..
  have opened : (created.opened name.text).Holds store name.text [] 0
      (contentOf written).length :=
    Store.opened_holds isFile StoredFile.empty_hasContent
      (fun other different => Function.update_of_ne different _ _)
      (fits.trans (Nat.mul_le_mul_left _ (Nat.le_add_left _ _)))
  have mounts : Instruction.mount.exec (.unmounted store.restarted) (-1) =
      some (.next (.mounted store.restarted store.restarted) (-1)
        (some fun line => line = .successful "MOUNT")) :=
    if_pos guarded
  have decodes : decodeLine (hosts 0) mountWord.text (List.map Word.text []) =
      .mount := rfl
  refine ScriptPrints.cons ?_ rfl decodes trivial mounts fun _ isShown => isShown
  refine scriptPrints_call rfl (fun _ => trivial) (Store.exec_create admits)
    le_rfl rfl (fun _ _ => rfl) fun kept => ?_
  refine scriptPrints_call rfl (fun _ => trivial) (Store.exec_open isFile)
    le_rfl rfl (fun _ _ => rfl) fun kept => ?_
  refine @scriptPrints_writes _ _ _ _ _ _ (fun number => serves (number + 3)) []
    _ _ _ _ opened le_rfl small fun hosts serves after kept holds => ?_
  rw [List.nil_append, same] at holds
  rw [same] at small ⊢
  exact scriptPrints_seek serves holds small

/-- A process that runs a script which comes to its end. -/
theorem HoldsStore.prints_script
    {sb : SuperBlock}
    {diskname : String}
    {files : String → Option Image}
    {store : Store}
    (holds : HoldsStore sb diskname files store)
    {hosts : Nat → Host}
    (reliable : ∀ number, (hosts number).Reliable)
    {scriptHosts : Nat → ScriptHost}
    {lines : List ScriptLine}
    {final : Drive → Prop}
    {shown : List Shown}
    (prints : ScriptPrints scriptHosts lines (.unmounted store) (-1) final shown) :
    ∃ files' bound drive,
      Computes
        (fun fuel => runProcess
          (threadFsScript scriptHosts diskname (some lines)) fuel hosts files)
        bound (files', (.finished, shown)) ∧
      HoldsStore sb diskname files' drive.atExit ∧ final drive := by
  obtain ⟨fits, drive, allowed, means, isFinal, onlyShown⟩ := prints
  have does := holds.scriptDoes reliable fits
  rw [means] at does
  obtain ⟨files', ⟨ended, printed⟩, bound, computes, holds', rfl, allows⟩ := does
  obtain rfl := onlyShown printed allows
  exact ⟨files', bound, drive, computes, holds', isFinal⟩

/-- On a disk with room for a file of this name and this content, and with memory
for its pieces, a script writes the file in any pieces and reads it in any
others, all of them no longer than a line.  Every read is compared as correct,
and behind the process the file is on the disk beside the others. -/
theorem threadFsScript_roundTrip
    {sb : SuperBlock}
    {diskname : String}
    {files : String → Option Image}
    {store : Store}
    (holds : HoldsStore sb diskname files store)
    (guarded : store.guarded = true)
    {hosts : Nat → Host}
    (reliable : ∀ number, (hosts number).Reliable)
    {name : ShortWord}
    (admits : store.Admits name.text)
    {written read : List ShortWord}
    (same : contentOf written = contentOf read)
    (fits : (contentOf written).length ≤ blockSize * store.freeBlocks)
    (small : (contentOf written).length ≤ 2 ^ 16)
    {scriptHosts : Nat → ScriptHost}
    (scriptServes : ∀ number, (scriptHosts number).Serves) :
    ∃ files' bound after,
      Computes
        (fun fuel => runProcess
          (threadFsScript scriptHosts diskname
            (some (roundTrip name written read)))
          fuel hosts files)
        bound (files', (.finished, roundTripShown written read)) ∧
      HoldsStore sb diskname files' after ∧
      (∃ file, after.files name.text = some file ∧
        file.HasContent (contentOf written)) ∧
      ∀ other, other ≠ name.text → after.files other = store.files other := by
  obtain ⟨files', bound, drive, computes, holds', after, rfl, has, others⟩ :=
    holds.restarted.prints_script reliable
      (@scriptPrints_roundTrip _ scriptServes _ guarded _ admits _ _ same fits
        small)
  exact ⟨files', bound, after.restarted, computes, holds', has, others⟩

theorem plainHost_serves : plainHost.Serves :=
  ⟨fun _ _ => rfl, rfl⟩

/-- `a` -/
def shortA : ShortWord :=
  ⟨wordA, by decide⟩

/-- `DATA` and `READ` -/
def writtenWords : List ShortWord :=
  [⟨dataWord, by decide⟩, ⟨readWord, by decide⟩]

/-- `DATAR` and `EAD` -/
def readWords : List ShortWord :=
  [⟨.ofSource ['D', 'A', 'T', 'A', 'R'] (by decide), by decide⟩,
    ⟨.ofSource ['E', 'A', 'D'] (by decide), by decide⟩]

/-- Eight bytes are written in two pieces and read in two others. -/
theorem threadFsScript_roundTrip_twoPieces :
    ∃ sb files' bound after,
      Computes
        (fun fuel => runProcess
          (threadFsScript (fun _ => plainHost) "disk.fs"
            (some (roundTrip shortA writtenWords readWords)))
          fuel (fun _ => .reliable) fun _ => some (freshImage 100 50 1))
        bound (files', (.finished, roundTripShown writtenWords readWords)) ∧
      HoldsStore sb "disk.fs" files' after ∧
      (∃ file, after.files nameA = some file ∧
        file.HasContent (contentOf writtenWords)) ∧
      ∀ other, other ≠ nameA →
        after.files other = (emptyStore 49).files other := by
  obtain ⟨sb, holds⟩ := @freshImage_holdsStore 100 50 (by decide) (by decide)
    (by decide)
  have same : contentOf writtenWords = contentOf readWords := by decide
  exact ⟨sb, @threadFsScript_roundTrip sb "disk.fs" _ (emptyStore 49) holds rfl _
    (fun _ => Host.reliable_reliable) shortA (emptyStore_admits 49) _ _ same
    (by decide) (by decide) _ fun _ => plainHost_serves⟩

end MsFat
