import Mathlib.Data.List.TakeWhile
import MsFat.Apps.Commands

/-!
# Scripts of `test_fs`

`thread_fs_script` reads commands from a file, one a line, and makes the calls
they stand for in one process.  The arguments of a command are separated by
tabs.

A store behind the end of an array crashes the process, like a null pointer that
is followed.  Only the pointer that a line of four words stores behind
`command_args` may find a word that nothing else lies in.
-/

namespace MsFat

/-! ## Strings -/

/-- The bytes of a word of the source. -/
def ascii (word : List Char) : List UInt8 :=
  word.map fun character => UInt8.ofNat character.toNat

/-- `strcmp` with a word of the source gives 0. -/
def CString.equals (string : CString) (word : List Char) : Bool :=
  string.bytes == ascii word

/-- The string at the start of some bytes. -/
def CString.ofBytes (bytes : List UInt8) : CString where
  bytes := bytes.takeWhile fun byte => byte != 0
  nonzero := by
    intro byte member
    simpa using List.mem_takeWhile_imp member

/-- A line as it stands in `line_buffer` behind `fgets`, without the newline. -/
structure ScriptLine where
  text : CString
  oneLine : 10 ∉ text.bytes
  short : text.length < 1024

/-- The tokens that `strtok` finds between tabs. -/
def tokens (line : CString) : List CString :=
  ((line.bytes.splitOnP fun byte => byte == 9).filter fun token =>
    !token.isEmpty).map CString.ofBytes

/-- The number in front of the first byte that is no digit. -/
def digits (value : Nat) : List UInt8 → Nat
  | [] => value
  | byte :: rest =>
      if 48 ≤ byte ∧ byte ≤ 57 then
        digits (10 * value + (byte.toNat - 48)) rest
      else value

/-- `atoi`: the conversion of `strtol` to `int`. -/
def atoi (string : CString) : Int :=
  let bytes := string.bytes.dropWhile fun byte =>
    byte == 32 || (9 ≤ byte && byte ≤ 13)
  if bytes.head? = some 45 then
    int32 (max (-(digits 0 bytes.tail : Int)) (-(2 ^ 63)))
  else if bytes.head? = some 43 then
    int32 (min (digits 0 bytes.tail) (2 ^ 63 - 1))
  else int32 (min (digits 0 bytes) (2 ^ 63 - 1))

/-- Conversion of an `int` to `size_t`. -/
def sizeOfInt (value : Int) : Nat :=
  (value % 2 ^ 64).toNat

/-! ## Data -/

/-- The host that a line of a script meets: its files, the sizes for which
`calloc` finds memory, what lies behind a buffer from `calloc`, and whether the
word behind `command_args` is spare. -/
structure ScriptHost where
  hostFile : CString → HostFile
  callocSucceeds : Nat → Bool
  heap : Buffer
  argsSpare : Bool

/-- A buffer of so many bytes that `calloc` has returned. -/
def ScriptHost.allocated (host : ScriptHost) (size : Nat) : Buffer :=
  fun position => if position < size then 0 else host.heap position

/-- `calloc` of so many bytes: no object is larger than `PTRDIFF_MAX`. -/
def calloc (host : ScriptHost) (size : Nat) : Option Buffer :=
  if size < 2 ^ 63 ∧ host.callocSucceeds size then some (host.allocated size)
  else none

/-- The data of a `WRITE` or a `READ`: so many bytes, or none, and the process
unmounts the disk and dies, or it crashes. -/
inductive ScriptData
  | bytes (data : Buffer) (size : Nat)
  | missing (message : String)
  | crash

/-- `data_description` as the data themselves. -/
def textData : Option CString → ScriptData
  | none => .crash
  | some text => .bytes text.byte text.length

/-- `data_description` as the name of a host file. -/
def fileData
    (host : ScriptHost)
    (description : Option CString)
    (data : HostFile → ScriptData) : ScriptData :=
  match description with
  | none => .missing "open"
  | some name =>
      if !(host.hostFile name).opens then .missing "open"
      else if !(host.hostFile name).fstatSucceeds then .missing "fstat"
      else if !(host.hostFile name).isRegular then
        .missing "Not a regular file: %s\n"
      else data (host.hostFile name)

/-- The data of a `WRITE`. -/
def writeData
    (host : ScriptHost)
    (source description : Option CString) : ScriptData :=
  match source with
  | none => .crash
  | some source =>
      if source.equals ['D', 'A', 'T', 'A'] then textData description
      else if source.equals ['F', 'I', 'L', 'E'] then
        fileData host description fun hostFile =>
          .bytes hostFile.bytes (sizeOfInt (int32 hostFile.size))
      else .missing "Could not find data to write"

/-- A host file that is read to a buffer which is one byte longer. -/
def loadData (host : ScriptHost) (hostFile : HostFile) : ScriptData :=
  let dataSize := int32 hostFile.size
  match calloc host (sizeOfInt (int32 (dataSize + 1))) with
  | none =>
      if dataSize = 0 then .missing "Could not find data to write" else .crash
  | some data =>
      -- `fread` takes the size as a `size_t`, and the `assert` behind it fails.
      if dataSize < 0 then .crash
      else
        .bytes (fun position =>
            if position < dataSize.toNat then hostFile.bytes position
            else data position)
          dataSize.toNat

/-- The data that a `READ` expects. -/
def readData
    (host : ScriptHost)
    (source description : Option CString) : ScriptData :=
  match source with
  | none => .crash
  | some source =>
      if source.equals ['D', 'A', 'T', 'A'] then textData description
      else if source.equals ['F', 'I', 'L', 'E'] then
        fileData host description (loadData host)
      else .missing "Invalid data description"

/-! ## Commands -/

/-- A line that a script has printed. -/
inductive Shown
  /-- `%s successful.` -/
  | successful (command : String)
  /-- `Wrote %d bytes to file.` -/
  | wrote (count : Int)
  /-- `Read %d bytes from file. Compared %d correct.` -/
  | compared (count : Int) (dataSize : Nat)
  /-- `Read unexpected data!` -/
  | unexpected

/-- What a line of a script stands for. -/
inductive Instruction
  | mount
  | umount
  /-- A call, which may use `fs_fd` and may be given a buffer of so many bytes.
  If the result fails, the process unmounts the disk and dies; otherwise it may
  become `fs_fd`. -/
  | call
      (made : Int → Call)
      (room : Nat)
      (fails : Int → Bool)
      (message : String)
      (opens : Bool)
      (shows : Reply → Shown)
  /-- The process unmounts the disk and dies. -/
  | die (message : String)
  /-- A null pointer is followed, or there is a store behind an array. -/
  | crash
  /-- No command of this name. -/
  | nothing

/-- `memcmp` over so many bytes gives 0. -/
def memcmpEq (left right : Buffer) (count : Nat) : Bool :=
  (List.range count).all fun position => left position == right position

/-- What the code between `WRITE` and `READ` does. -/
def writeInstruction
    (host : ScriptHost)
    (arguments : List CString) : Instruction :=
  match writeData host arguments[0]? arguments[1]? with
  | .crash => .crash
  | .missing message => .die message
  | .bytes data size =>
      .call (fun fsFd => .write fsFd (some data) size) 0 (fun count => count < 0)
        "write error" false fun reply => .wrote reply.result

/-- What the code behind `READ` does.  The 1 is added to the length as an
`int`. -/
def readInstruction
    (host : ScriptHost)
    (arguments : List CString) : Instruction :=
  match arguments[0]? with
  | none => .crash
  | some length =>
      match readData host arguments[1]? arguments[2]? with
      | .crash => .crash
      | .missing message => .die message
      | .bytes data size =>
          if atoi length < 0 then .die "invalid data read length"
          else
            let room := sizeOfInt (int32 (atoi length + 1))
            .call
              (fun fsFd => .read fsFd (calloc host room) (atoi length).toNat)
              room (fun count => count < 0) "read error" false fun reply =>
                if memcmpEq data (reply.buffer.getD host.heap) (size + 1) then
                  .compared reply.result size
                else .unexpected

/-- The command of a line and its arguments. -/
def decodeCommand
    (host : ScriptHost)
    (command : CString)
    (arguments : List CString) : Instruction :=
  if command.equals ['M', 'O', 'U', 'N', 'T'] then .mount
  else if command.equals ['U', 'M', 'O', 'U', 'N', 'T'] then .umount
  else if command.equals ['C', 'R', 'E', 'A', 'T', 'E'] then
    .call (fun _ => .create arguments[0]?) 0 (fun result => result != 0)
      "Cannot create file" false fun _ => .successful "CREATE"
  else if command.equals ['D', 'E', 'L', 'E', 'T', 'E'] then
    .call (fun _ => .delete arguments[0]?) 0 (fun result => result != 0)
      "Cannot delete file" false fun _ => .successful "DELETE"
  else if command.equals ['O', 'P', 'E', 'N'] then
    .call (fun _ => .open arguments[0]?) 0 (fun fsFd => fsFd < 0)
      "Cannot open file" true fun _ => .successful "OPEN"
  else if command.equals ['C', 'L', 'O', 'S', 'E'] then
    .call (fun fsFd => .close fsFd) 0 (fun result => result != 0)
      "Cannot close file" false fun _ => .successful "CLOSE"
  else if command.equals ['S', 'E', 'E', 'K'] then
    match arguments[0]? with
    | none => .crash
    | some offset =>
        .call (fun fsFd => .lseek fsFd (sizeOfInt (atoi offset))) 0
          (fun result => result != 0) "Cannot seek to position" false
          fun _ => .successful "SEEK"
  else if command.equals ['W', 'R', 'I', 'T', 'E'] then
    writeInstruction host arguments
  else if command.equals ['R', 'E', 'A', 'D'] then
    readInstruction host arguments
  else .nothing

/-- A line that has been cut into words.  Of more than four of them the others are
left, and the pointer to the fifth one, or a null pointer, is stored behind
`command_args`. -/
def decodeLine
    (host : ScriptHost)
    (command : CString)
    (arguments : List CString) : Instruction :=
  if 3 ≤ arguments.length ∧ !host.argsSpare then .crash
  else decodeCommand host command arguments

/-! ## The interpreter -/

/-- How a script has come to its end. -/
inductive ScriptEnd
  | finished
  | died (message : String)
  | crashed

/-- `mounted` and `fs_fd` -/
structure Registers where
  mounted : Bool
  fsFd : Int

/-- What comes behind a line. -/
inductive Turn
  | next (registers : Registers) (shown : Option Shown)
  | stop (ended : ScriptEnd)

/-- The calls that a line stands for. -/
def Instruction.run
    (instruction : Instruction)
    (diskname : String)
    (registers : Registers) : Client Turn :=
  match instruction with
  | .mount => do
      let mounted ← Client.fsMount diskname
      if mounted.result ≠ 0 then return .stop (.died "Cannot mount disk")
      return .next { registers with mounted := true } (some (.successful "MOUNT"))
  | .umount =>
      if registers.mounted then do
        let unmounted ← Client.fsUmount
        if unmounted.result ≠ 0 then return .stop (.died "Cannot unmount")
        return .next { registers with mounted := false }
          (some (.successful "UMOUNT"))
      else
        return .next { registers with mounted := false }
          (some (.successful "UMOUNT"))
  | .call made room fails message opens shows => do
      let reply ← Client.file (made registers.fsFd)
      -- The bytes of a read are stored one behind the other.
      if reply.stores room then return .stop .crashed
      else if fails reply.result then
        let _ ← Client.fsUmount
        return .stop (.died message)
      else
        return .next
          { registers with
            fsFd := if opens then reply.result else registers.fsFd }
          (some (shows reply))
  | .die message => do
      let _ ← Client.fsUmount
      return .stop (.died message)
  | .crash => return .stop .crashed
  | .nothing => return .next registers none

/-- What comes behind the last line. -/
def finishScript (registers : Registers) : Client (ScriptEnd × List Shown) :=
  if registers.mounted then do
    let unmounted ← Client.fsUmount
    if unmounted.result ≠ 0 then
      return (.died "Cannot unmount diskname", [])
    return (.finished, [])
  else return (.finished, [])

/-- The loop over the lines, each with the host it meets.  A line without a
command ends it. -/
def runLines
    (diskname : String) :
    List ScriptLine → (Nat → ScriptHost) → Registers →
      Client (ScriptEnd × List Shown)
  | [], _, registers => finishScript registers
  | line :: rest, hosts, registers =>
      match tokens line.text with
      | [] => finishScript registers
      | command :: arguments => do
          let instruction := decodeLine (hosts 0) command arguments
          match ← instruction.run diskname registers with
          | .stop ended => return (ended, [])
          | .next registers shown =>
              let (ended, others) ← runLines diskname rest
                (fun number => hosts (number + 1)) registers
              return (ended, shown.toList ++ others)

/-- `thread_fs_script`, which is given the lines of the script, if there is such
a file. -/
def threadFsScript
    (hosts : Nat → ScriptHost)
    (diskname : String)
    (script : Option (List ScriptLine)) : Client (ScriptEnd × List Shown) :=
  match script with
  | none => return (.died "fopen", [])
  | some lines => runLines diskname lines hosts { mounted := false, fsFd := -1 }

end MsFat
