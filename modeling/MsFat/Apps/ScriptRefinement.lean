import MsFat.Apps.Refinement
import MsFat.Apps.ScriptLines
import MsFat.Apps.ScriptMeaning

/-!
# Scripts do what they mean

The interpreter of `test_fs` goes from line to line as the meaning of the script
does.  Whatever way a script comes to its end, the disk is unmounted, apart from
a `MOUNT` that fails and a crash.
-/

namespace MsFat

/-! ## Counts -/

/-- The files of the host have sizes that an `int` can hold. -/
def ScriptHost.Fits (host : ScriptHost) : Prop :=
  ∀ name, (host.hostFile name).size ≤ intMax

/-- An `int` can hold the size of the data. -/
def ScriptData.Fits : ScriptData → Prop
  | .bytes _ size => size ≤ intMax
  | _ => True

theorem CString.length_ofBytes_le (bytes : List UInt8) :
    (CString.ofBytes bytes).length ≤ bytes.length :=
  (List.takeWhile_sublist _).length_le

/-- What lies between two separators is a part of the list. -/
theorem sublist_of_mem_splitOnP
    {α : Type}
    {separates : α → Bool}
    {piece list : List α}
    (member : piece ∈ list.splitOnP separates) :
    piece.Sublist list := by
  induction list generalizing piece with
  | nil =>
      rw [List.splitOnP_nil, List.mem_singleton] at member
      exact member ▸ List.nil_sublist []
  | cons head tail inductionHypothesis =>
      rw [List.splitOnP_cons_eq_if_modifyHead] at member
      split at member
      · cases member with
        | head => exact List.nil_sublist _
        | tail _ member => exact (inductionHypothesis member).cons head
      · cases isSplit : tail.splitOnP separates with
        | nil => exact absurd isSplit (List.splitOnP_ne_nil _ _)
        | cons first others =>
            rw [isSplit] at member inductionHypothesis
            cases member with
            | head => exact (inductionHypothesis List.mem_cons_self).cons_cons head
            | tail _ member =>
                exact (inductionHypothesis
                  (List.mem_cons_of_mem _ member)).cons head

/-- No token is longer than the line. -/
theorem tokens_length_le
    {line token : CString}
    (member : token ∈ tokens line) :
    token.length ≤ line.length := by
  unfold tokens at member
  obtain ⟨piece, isPiece, rfl⟩ := List.mem_map.mp member
  have part := sublist_of_mem_splitOnP (List.mem_filter.mp isPiece).1
  exact (CString.length_ofBytes_le piece).trans part.length_le

theorem atoi_le (string : CString) : atoi string ≤ intMax := by
  have bound : ∀ value, int32 value ≤ intMax := by
    intro value
    have := Int.bmod_lt (x := value) (show 0 < 2 ^ 32 by decide)
    unfold int32
    simp only [intMax] at *
    omega
  unfold atoi
  dsimp only
  split
  · exact bound _
  · split
    · exact bound _
    · exact bound _

section Decoding

variable {host : ScriptHost} {source description : Option CString}

/-- A size that an `int` can hold stays as it is in an `int` and in a `size_t`. -/
theorem sizeOfInt_int32
    {size : Nat}
    (fits : size ≤ intMax) :
    sizeOfInt (int32 size) = size := by
  simp only [intMax] at fits
  rw [int32_of_range (by omega) (by omega)]
  unfold sizeOfInt
  omega

/-- A token of a line that a buffer of 1024 bytes has held. -/
theorem fits_textData
    (short : ∀ text, description = some text → text.length < 1024) :
    (textData description).Fits := by
  cases description with
  | none => trivial
  | some text => exact (short text rfl).le.trans (by decide)

/-- Data of a host file of this size fit. -/
theorem fits_fileData
    {data : HostFile → ScriptData}
    (fits : ∀ name, (data (host.hostFile name)).Fits) :
    (fileData host description data).Fits := by
  unfold fileData
  split
  · trivial
  · split
    · trivial
    · split
      · trivial
      · split
        · trivial
        · exact fits _

theorem fits_writeData
    (hostFits : host.Fits)
    (short : ∀ text, description = some text → text.length < 1024) :
    (writeData host source description).Fits := by
  unfold writeData
  split
  · trivial
  · split
    · exact fits_textData short
    · split
      · refine fits_fileData fun name => ?_
        change sizeOfInt (int32 (host.hostFile name).size) ≤ intMax
        rw [sizeOfInt_int32 (hostFits name)]
        exact hostFits name
      · trivial

/-- The counts of a command fit, as the tokens and the host files do. -/
theorem fits_decodeCommand
    (hostFits : host.Fits)
    (command : CString)
    {arguments : List CString}
    (short : ∀ argument ∈ arguments, argument.length < 1024) :
    (decodeCommand host command arguments).Fits := by
  have shortAt : ∀ {index : Nat} text,
      arguments[index]? = some text → text.length < 1024 :=
    fun text isText => short text (List.mem_of_getElem? isText)
  unfold decodeCommand
  repeat' split
  -- Only `WRITE` and `READ` have a count.
  all_goals first | trivial | exact fun _ => trivial | skip
  · unfold writeInstruction
    have dataFits := @fits_writeData host arguments[0]? arguments[1]? hostFits
      shortAt
    split
    · trivial
    · trivial
    · rename_i data size isData
      rw [isData] at dataFits
      exact fun _ => dataFits
  · unfold readInstruction
    split
    · trivial
    · rename_i length isLength
      split
      · trivial
      · trivial
      · split
        · trivial
        · exact fun _ => Int.toNat_le.mpr (atoi_le length)

theorem fits_decodeLine
    (hostFits : host.Fits)
    (command : CString)
    {arguments : List CString}
    (short : ∀ argument ∈ arguments, argument.length < 1024) :
    (decodeLine host command arguments).Fits := by
  unfold decodeLine
  split
  · trivial
  · exact fits_decodeCommand hostFits command short

end Decoding

/-! ## Lines -/

namespace Client

variable {sb : SuperBlock} {diskname : String} {drive : Drive} {α : Type}
  {rest : Reply → Client α} {post : Drive → α → Prop}

/-- A call that the drive refuses. -/
theorem ensures_refused
    {call : ApiCall}
    (refuses : Drive.exec sb diskname drive call = drive.refused)
    (follows : ∀ reply : Reply, reply.Refused →
      (rest reply).Ensures (Drive.exec sb diskname) drive post) :
    (Program.call call >>= rest).Ensures (Drive.exec sb diskname) drive post :=
  Program.ensures_call_bind.mpr ⟨_, _, refuses, follows⟩

/-- Behind `fs_umount`, whatever it returns, the drive is not mounted. -/
theorem ensures_fsUmount_any
    (sound : drive.Sound)
    (follows : ∀ reply : Reply,
      (rest reply).Ensures (Drive.exec sb diskname) drive.umount post) :
    (fsUmount >>= rest).Ensures (Drive.exec sb diskname) drive post := by
  cases drive with
  | unmounted store => exact ensures_refused rfl fun reply _ => follows reply
  | mounted store kept => exact ensures_fsUmount fun reply _ => follows reply
  | broken kept => exact sound.elim

end Client

/-- The ends of a script that may leave the drive mounted. -/
def ScriptEnd.Abrupt : ScriptEnd → Prop
  | .finished => False
  | .died message => message = "Cannot mount disk"
  | .crashed => True

/-- Behind `fs_umount` no drive is mounted. -/
theorem Drive.Sound.umount
    {drive : Drive}
    (sound : drive.Sound) :
    ∃ store, drive.umount = .unmounted store := by
  cases drive with
  | unmounted store => exact ⟨store, rfl⟩
  | mounted store kept => exact ⟨store, rfl⟩
  | broken kept => exact sound.elim

/-- The turn of the interpreter is one that the meaning of the line allows, with
this drive behind it.  Unless the script stops abruptly, the drive is not mounted
then. -/
inductive LineMeaning.Allows : LineMeaning → Drive → Turn → Prop
  | next
      {drive : Drive}
      {fsFd : Int}
      {registers : Registers}
      {allowed : Option (Shown → Prop)}
      {shown : Option Shown}
      (sound : drive.Sound)
      (isMounted : registers.mounted = drive.isMounted)
      (isFd : registers.fsFd = fsFd)
      (shows : List.Forall₂ (fun allowed line => allowed line) allowed.toList
        shown.toList) :
      Allows (.next drive fsFd allowed) drive (.next registers shown)
  | stop
      {drive : Drive}
      {ended : ScriptEnd}
      (orderly : ¬ended.Abrupt → ∃ store, drive = .unmounted store) :
      Allows (.stop drive ended) drive (.stop ended)

namespace Instruction

variable {sb : SuperBlock} {diskname : String} {drive : Drive}
  {registers : Registers}

/-- The line does what this says. -/
def Does
    (instruction : Instruction)
    (sb : SuperBlock)
    (diskname : String)
    (drive : Drive)
    (registers : Registers)
    (meaning : Option LineMeaning) : Prop :=
  (instruction.run diskname registers).HasMeaning (Drive.exec sb diskname)
    Drive.Stuck drive LineMeaning.Allows meaning

/-- `MOUNT` -/
theorem mount_does
    (sound : drive.Sound) :
    Instruction.mount.Does sb diskname drive registers
      (Instruction.mount.exec drive registers.fsFd) := by
  cases drive with
  | broken kept => exact sound.elim
  | unmounted store =>
      cases guarded : store.guarded with
      | true =>
          simp only [exec, guarded]
          refine Client.ensures_fsMount guarded fun reply mounted => ?_
          rw [if_neg (not_not.mpr mounted)]
          exact .next trivial rfl rfl (.cons rfl .nil)
      | false =>
          simp only [exec, guarded]
          refine Client.ensures_fsMount_broken guarded fun reply failed => ?_
          rw [if_pos (by rw [failed]; decide)]
          exact .stop fun orderly => absurd rfl orderly
  | mounted store kept =>
      refine Client.ensures_refused rfl fun reply refused => ?_
      rw [if_pos (by rw [refused.result]; decide)]
      exact .stop fun orderly => absurd rfl orderly

/-- `UMOUNT` -/
theorem umount_does
    (sound : drive.Sound)
    (isMounted : registers.mounted = drive.isMounted) :
    Instruction.umount.Does sb diskname drive registers
      (Instruction.umount.exec drive registers.fsFd) := by
  unfold Does run
  cases drive with
  | broken kept => exact sound.elim
  | unmounted store =>
      dsimp only
      rw [if_neg (by rw [isMounted]; exact Bool.false_ne_true)]
      exact .next trivial rfl rfl (.cons rfl .nil)
  | mounted store kept =>
      dsimp only
      rw [if_pos (by rw [isMounted]; rfl)]
      refine Client.ensures_fsUmount fun reply unmounted => ?_
      rw [if_neg (not_not.mpr unmounted)]
      exact .next trivial rfl rfl (.cons rfl .nil)

section Calls

variable {made : Int → Call} {room : Nat} {fails : Int → Bool}
  {message : String} {opens : Bool} {shows : Reply → Shown}

/-- A call with nothing mounted is refused. -/
theorem call_does_unmounted
    {store : Store}
    (isMounted : registers.mounted = false) :
    (Instruction.call made room fails message opens shows).Does sb diskname
      (.unmounted store) registers
      ((Instruction.call made room fails message opens shows).exec
        (.unmounted store) registers.fsFd) := by
  by_cases failed : fails (-1) = true
  · simp only [exec, failed, if_true]
    refine Client.ensures_refused rfl fun reply refused => ?_
    rw [refused.storesNothing, if_neg Bool.false_ne_true, refused.result,
      if_pos failed]
    exact Client.ensures_fsUmount_any trivial fun _ => .stop fun _ => ⟨_, rfl⟩
  · simp only [exec, failed, Bool.false_eq_true, if_false]
    refine Client.ensures_refused rfl fun reply refused => ?_
    rw [refused.storesNothing, if_neg Bool.false_ne_true, refused.result,
      if_neg failed]
    exact .next trivial isMounted rfl (.cons ⟨reply, refused, rfl⟩ .nil)

/-- A call with a store mounted gets the answer of the store, if there is
one. -/
theorem call_does_mounted
    {store kept : Store}
    (fits : ∀ fsFd, (made fsFd).CountFits)
    (isMounted : registers.mounted = true) :
    (Instruction.call made room fails message opens shows).Does sb diskname
      (.mounted store kept) registers
      ((Instruction.call made room fails message opens shows).exec
        (.mounted store kept) registers.fsFd) := by
  cases answers : store.exec (made registers.fsFd) with
  | none =>
      simp only [exec, answers]
      exact .inl ⟨fits _, answers⟩
  | some done =>
      obtain ⟨after, answer⟩ := done
      by_cases behind : room < answer.stored
      · simp only [exec, answers, behind, if_true]
        refine Client.ensures_file (fits _) answers fun reply allows => ?_
        rw [allows.stores, if_pos (decide_eq_true behind)]
        exact .stop fun orderly => absurd trivial orderly
      · have inRoom : ¬decide (room < answer.stored) = true :=
          mt of_decide_eq_true behind
        by_cases failed : fails answer.result = true
        · simp only [exec, answers, behind, failed, if_true, if_false]
          refine Client.ensures_file (fits _) answers fun reply allows => ?_
          rw [allows.stores, if_neg inRoom, allows.result, if_pos failed]
          exact Client.ensures_fsUmount fun _ _ => .stop fun _ => ⟨_, rfl⟩
        · simp only [exec, answers, behind, failed, Bool.false_eq_true,
            if_false]
          refine Client.ensures_file (fits _) answers fun reply allows => ?_
          rw [allows.stores, if_neg inRoom, allows.result, if_neg failed]
          exact .next trivial isMounted rfl (.cons ⟨reply, allows, rfl⟩ .nil)

end Calls

/-- A line of a script does what it means. -/
theorem run_does
    {instruction : Instruction}
    (fits : instruction.Fits)
    (sound : drive.Sound)
    (isMounted : registers.mounted = drive.isMounted) :
    instruction.Does sb diskname drive registers
      (instruction.exec drive registers.fsFd) := by
  cases instruction with
  | mount => exact mount_does sound
  | umount => exact umount_does sound isMounted
  | call made room fails message opens shows =>
      cases drive with
      | broken kept => exact sound.elim
      | unmounted store => exact call_does_unmounted isMounted
      | mounted store kept => exact call_does_mounted fits isMounted
  | die message =>
      exact Client.ensures_fsUmount_any sound fun _ => .stop fun _ => sound.umount
  | crash => exact .stop fun orderly => absurd trivial orderly
  | nothing => exact .next sound isMounted rfl .nil

end Instruction

/-! ## Scripts -/

/-- The lines of the script fit, each with the host it meets. -/
def ScriptFits
    (hosts : Nat → ScriptHost)
    (lines : List ScriptLine) : Prop :=
  ∀ number line, lines[number]? = some line →
    ∀ command arguments, tokens line.text = command :: arguments →
      (decodeLine (hosts number) command arguments).Fits

theorem scriptFits_of_hosts
    {hosts : Nat → ScriptHost}
    (fits : ∀ number, (hosts number).Fits)
    (lines : List ScriptLine) :
    ScriptFits hosts lines := by
  intro number line _ command arguments isLine
  refine fits_decodeLine (fits number) command fun argument member => ?_
  have isToken : argument ∈ tokens line.text :=
    isLine ▸ List.mem_cons_of_mem _ member
  exact (tokens_length_le isToken).trans_lt line.short

section Scripts

variable {sb : SuperBlock} {diskname : String} {drive : Drive}
  {hosts : Nat → ScriptHost} {lines : List ScriptLine} {registers : Registers}

/-- The end of a script leaves the drive unmounted. -/
theorem finishScript_ensures
    (sound : drive.Sound)
    (isMounted : registers.mounted = drive.isMounted) :
    (finishScript registers).Ensures (Drive.exec sb diskname) drive
      fun after ended => after = drive.umount ∧ ended = (.finished, []) := by
  unfold finishScript
  cases drive with
  | broken kept => exact sound.elim
  | unmounted store =>
      rw [if_neg (by rw [isMounted]; exact Bool.false_ne_true)]
      exact ⟨rfl, rfl⟩
  | mounted store kept =>
      rw [if_pos (by rw [isMounted]; rfl)]
      refine Client.ensures_fsUmount fun reply unmounted => ?_
      rw [if_neg (not_not.mpr unmounted)]
      exact ⟨rfl, rfl⟩

/-- A script has come to an end that its meaning allows, with this drive behind
it.  Unless it has stopped abruptly, the drive is not mounted. -/
structure ScriptAllows
    (meaning : Drive × ScriptEnd × List (Shown → Prop))
    (after : Drive)
    (ended : ScriptEnd × List Shown) : Prop where
  isDrive : after = meaning.1
  isEnd : ended.1 = meaning.2.1
  shows : List.Forall₂ (fun allowed line => allowed line) meaning.2.2 ended.2
  orderly : ¬ended.1.Abrupt → ∃ store, after = .unmounted store

/-- The end of a script that is not stopped. -/
theorem finishScript_does
    (sound : drive.Sound)
    (isMounted : registers.mounted = drive.isMounted) :
    (finishScript registers).HasMeaning (Drive.exec sb diskname) Drive.Stuck
      drive ScriptAllows (some (drive.umount, .finished, [])) := by
  refine Program.Ensures.mono (finishScript_ensures sound isMounted) ?_
  rintro after ended ⟨rfl, rfl⟩
  exact ⟨rfl, rfl, .nil, fun _ => sound.umount⟩

/-- What the lines behind a line mean, once it has its own meaning. -/
def LineMeaning.before
    (hosts : Nat → ScriptHost)
    (rest : List ScriptLine) :
    LineMeaning → Option (Drive × ScriptEnd × List (Shown → Prop))
  | .stop drive ended => some (drive, ended, [])
  | .next drive fsFd allowed =>
      (execLines rest hosts drive fsFd).map fun meaning =>
        (meaning.1, meaning.2.1, allowed.toList ++ meaning.2.2)

theorem execLines_cons
    {line : ScriptLine}
    {rest : List ScriptLine}
    {command : CString}
    {arguments : List CString}
    (isLine : tokens line.text = command :: arguments)
    (fsFd : Int) :
    execLines (line :: rest) hosts drive fsFd =
      ((decodeLine (hosts 0) command arguments).exec drive fsFd).bind
        (LineMeaning.before (fun number => hosts (number + 1)) rest) := by
  unfold execLines
  rw [isLine]
  dsimp only
  cases (decodeLine (hosts 0) command arguments).exec drive fsFd with
  | none => rfl
  | some meaning =>
      cases meaning with
      | next drive fsFd allowed => rfl
      | stop drive ended => rfl

/-- The lines of a script do what they mean, one after the other. -/
theorem runLines_does
    (fits : ScriptFits hosts lines)
    (sound : drive.Sound)
    (isMounted : registers.mounted = drive.isMounted) :
    (runLines diskname lines hosts registers).HasMeaning
      (Drive.exec sb diskname) Drive.Stuck drive ScriptAllows
      (execLines lines hosts drive registers.fsFd) := by
  induction lines generalizing hosts drive registers with
  | nil => exact finishScript_does sound isMounted
  | cons line rest inductionHypothesis =>
      have restFits : ScriptFits (fun number => hosts (number + 1)) rest :=
        fun number line isLine => fits (number + 1) line isLine
      cases isLine : tokens line.text with
      | nil =>
          unfold runLines execLines
          rw [isLine]
          exact finishScript_does sound isMounted
      | cons command arguments =>
          have lineFits := fits 0 line rfl command arguments isLine
          rw [execLines_cons isLine]
          unfold runLines
          rw [isLine]
          refine Program.HasMeaning.bind
            (Instruction.run_does lineFits sound isMounted) ?_
          intro meaning middle turn allows
          cases allows with
          | stop orderly => exact ⟨rfl, rfl, .nil, orderly⟩
          | next sound' isMounted' isFd shows =>
              subst isFd
              unfold LineMeaning.before
              dsimp only
              rw [Option.map_eq_bind]
              refine Program.HasMeaning.bind
                (inductionHypothesis restFits sound' isMounted') ?_
              rintro others after ended ⟨isDrive, isEnd, othersShow, orderly⟩
              exact ⟨isDrive, isEnd, List.rel_append shows othersShow, orderly⟩

end Scripts

/-- The process that runs a script does what the script means, or does not end
if it means nothing. -/
def ScriptDoes
    (sb : SuperBlock)
    (diskname : String)
    (files : String → Option Image)
    (hosts : Nat → Host)
    (scriptHosts : Nat → ScriptHost)
    (lines : List ScriptLine) :
    Option (Drive × ScriptEnd × List (Shown → Prop)) → Prop
  | none =>
      ¬Terminates fun fuel =>
        runProcess (threadFsScript scriptHosts diskname (some lines)) fuel hosts
          files
  | some meaning =>
      ∃ files' ended bound,
        Computes
          (fun fuel => runProcess
            (threadFsScript scriptHosts diskname (some lines)) fuel hosts files)
          bound (files', ended) ∧
        HoldsStore sb diskname files' meaning.1.atExit ∧
        ended.1 = meaning.2.1 ∧
        List.Forall₂ (fun allowed line => allowed line) meaning.2.2 ended.2

section Processes

variable {sb : SuperBlock} {diskname : String}
  {files : String → Option Image} {store : Store}
  {hosts : Nat → Host} {scriptHosts : Nat → ScriptHost}
  {lines : List ScriptLine}

/-- The process of a script that means something. -/
theorem HoldsStore.runs_script
    (holds : HoldsStore sb diskname files store)
    (reliable : ∀ number, (hosts number).Reliable)
    (fits : ScriptFits scriptHosts lines)
    {meaning : Drive × ScriptEnd × List (Shown → Prop)}
    (means : execLines lines scriptHosts (.unmounted store) (-1) =
      some meaning) :
    ∃ files' ended bound,
      Computes
        (fun fuel => runProcess
          (threadFsScript scriptHosts diskname (some lines)) fuel hosts files)
        bound (files', ended) ∧
      HoldsStore sb diskname files' meaning.1.atExit ∧
      ScriptAllows meaning meaning.1 ended := by
  have does := @runLines_does sb diskname (.unmounted store) scriptHosts lines
    { mounted := false, fsFd := -1 } fits trivial rfl
  dsimp only at does
  rw [means] at does
  obtain ⟨files', ended, bound, drive, computes, holds', allows⟩ :=
    holds.runs reliable does
  obtain rfl := allows.isDrive
  exact ⟨files', ended, bound, computes, holds', allows⟩

theorem HoldsStore.scriptDoes
    (holds : HoldsStore sb diskname files store)
    (reliable : ∀ number, (hosts number).Reliable)
    (fits : ScriptFits scriptHosts lines) :
    ScriptDoes sb diskname files hosts scriptHosts lines
      (execLines lines scriptHosts (.unmounted store) (-1)) := by
  cases means : execLines lines scriptHosts (.unmounted store) (-1) with
  | none =>
      have does := @runLines_does sb diskname (.unmounted store) scriptHosts
        lines { mounted := false, fsFd := -1 } fits trivial rfl
      dsimp only at does
      rw [means] at does
      exact holds.hangs reliable does
  | some meaning =>
      obtain ⟨files', ended, bound, computes, holds', allows⟩ :=
        holds.runs_script reliable fits means
      exact ⟨files', ended, bound, computes, holds', allows.isEnd, allows.shows⟩

end Processes

/-- A host with one and the same file under every name. -/
def plainHost : ScriptHost where
  hostFile := fun _ => twoBlockFile
  callocSucceeds := fun _ => true
  heap := fun _ => 0
  argsSpare := true

theorem plainHost_fits : plainHost.Fits :=
  fun _ => show (5000 : Nat) ≤ intMax by decide

/-- `a` -/
def wordA : Word where
  text := nameA
  nonempty := by decide
  noTab := by decide
  oneLine := by decide

/-- A file is created and written, what has been written is read, and nothing is
closed or unmounted. -/
def unclosedScript : List ScriptLine :=
  [mountLine, .ofWords [createWord, wordA] (by decide),
    .ofWords [openWord, wordA] (by decide),
    .ofWords [writeWord, dataWord, createWord] (by decide), rewindLine,
    .ofWords [readWord, .decimal 6, dataWord, createWord] (by decide)]

/-- Whatever commands a script consists of and wherever it stops, what its calls
have done is on the disk, unless a `MOUNT` has failed or the process has
crashed. -/
theorem threadFsScript_saves
    {sb : SuperBlock}
    {diskname : String}
    {files : String → Option Image}
    {store : Store}
    (holds : HoldsStore sb diskname files store)
    {hosts : Nat → Host}
    (reliable : ∀ number, (hosts number).Reliable)
    {scriptHosts : Nat → ScriptHost}
    (fits : ∀ number, (scriptHosts number).Fits)
    {lines : List ScriptLine}
    {fuel : Nat}
    {files' : String → Option Image}
    {ended : ScriptEnd × List Shown}
    (returns : runProcess (threadFsScript scriptHosts diskname (some lines))
      fuel hosts files = .ok (files', ended))
    (orderly : ¬ended.1.Abrupt) :
    ∃ after allowed,
      execLines lines scriptHosts (.unmounted store) (-1) =
        some (.unmounted after, ended.1, allowed) ∧
      HoldsStore sb diskname files' after.restarted := by
  cases means : execLines lines scriptHosts (.unmounted store) (-1) with
  | none =>
      have does := holds.scriptDoes reliable (scriptFits_of_hosts fits lines)
      rw [means] at does
      exact absurd ⟨fuel, _, returns⟩ does
  | some meaning =>
      obtain ⟨_, _, bound, computes, holds', allows⟩ :=
        holds.runs_script reliable (scriptFits_of_hosts fits lines) means
      cases computes.only fuel _ returns
      obtain ⟨after, isAfter⟩ := allows.orderly orderly
      rw [isAfter] at holds'
      obtain ⟨drive, ends, allowed⟩ := meaning
      cases isAfter
      rw [allows.isEnd]
      exact ⟨after, allowed, rfl, holds'⟩

/-- The file that has been created and written is on the disk. -/
theorem threadFsScript_saves_unclosedScript :
    ∃ sb fuel files' ended after allowed,
      runProcess (threadFsScript (fun _ => plainHost) "disk.fs"
          (some unclosedScript)) fuel
          (fun _ => .reliable) (fun _ => some (freshImage 100 50 1)) =
        .ok (files', ended) ∧
      execLines unclosedScript (fun _ => plainHost)
          (.unmounted (emptyStore 49)) (-1) =
        some (.unmounted after, ended.1, allowed) ∧
      HoldsStore sb "disk.fs" files' after.restarted := by
  obtain ⟨sb, holds⟩ := @freshImage_holdsStore 100 50 (by decide) (by decide)
    (by decide)
  obtain ⟨files', ended, bound, computes, _, isEnd, _⟩ : ScriptDoes sb
      "disk.fs" (fun _ => some (freshImage 100 50 1)) (fun _ => .reliable)
      (fun _ => plainHost) unclosedScript (some _) :=
    holds.scriptDoes (fun _ => Host.reliable_reliable)
      (scriptFits_of_hosts (fun _ => plainHost_fits) unclosedScript)
  have returns := computes.enough bound le_rfl
  obtain ⟨after, allowed, means, holds'⟩ := threadFsScript_saves holds
    (fun _ => Host.reliable_reliable) (fun _ => plainHost_fits) returns
    (by rw [isEnd]; exact id)
  exact ⟨sb, bound, files', ended, after, allowed, returns, means, holds'⟩

end MsFat
