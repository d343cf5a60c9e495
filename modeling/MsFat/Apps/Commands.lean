import MsFat.Library.Programs
import MsFat.Replies

/-!
# The commands of `test_fs`

Each command of `test_fs.c` mounts the disk, makes its calls and unmounts the
disk again, all in a process of its own.  `die` prints a message and ends the
process.  The checks of the number of arguments are left out.
-/

namespace MsFat

/-- What a command has printed when its process ends. -/
inductive Printed
  /-- The message of `die`. -/
  | died (message : String)
  /-- `Empty file` -/
  | emptyFile
  /-- `Size of file '%s' is %d bytes` -/
  | fileSize (filename : CString) (stat : Int)
  /-- `Read file '%s' (%d/%d bytes)`, and the content of the file. -/
  | content (filename : CString) (read stat : Int) (bytes : List UInt8)
  /-- `Removed file '%s'` -/
  | removed (filename : CString)
  /-- `Wrote file '%s' (%d/%zu bytes)` -/
  | wrote (filename : CString) (written : Int) (size : Nat)
  /-- The lines of `fs_ls`. -/
  | lines (lines : List LsLine)
  /-- The lines of `fs_info`. -/
  | info (info : Option FsInfo)

/-- A file of the host computer, as `open`, `fstat` and `mmap` show it.  A file
that holds bytes is mapped.  An empty one is not, but `MAP_FAILED` is not the null
pointer that the code looks for, and no byte is read behind it. -/
structure HostFile where
  opens : Bool
  fstatSucceeds : Bool
  isRegular : Bool
  bytes : Buffer
  size : Nat

/-- A client of the interface. -/
abbrev Client (α : Type) :=
  Program ApiCall Reply α

namespace Client

/-- `fs_mount` -/
def fsMount (diskname : String) : Client Reply :=
  .call (.mount (some diskname))

/-- `fs_umount` -/
def fsUmount : Client Reply :=
  .call .umount

/-- A call on files. -/
def file (call : Call) : Client Reply :=
  .call (.file call)

/-- `fs_umount` and `die` -/
def unmountAndDie (message : String) : Client Printed := do
  let _ ← fsUmount
  return .died message

/-- `thread_fs_stat` -/
def threadFsStat (diskname : String) (filename : CString) : Client Printed := do
  let mounted ← fsMount diskname
  if mounted.result ≠ 0 then return .died "Cannot mount diskname"
  let opened ← file (.open (some filename))
  if opened.result < 0 then unmountAndDie "Cannot open file"
  else
    let stat ← file (.stat opened.result)
    if stat.result < 0 then
      let _ ← file (.close opened.result)
      unmountAndDie "Cannot stat file"
    else if stat.result = 0 then
      let _ ← file (.close opened.result)
      let _ ← fsUmount
      return .emptyFile
    else
      let closed ← file (.close opened.result)
      if closed.result ≠ 0 then unmountAndDie "Cannot close file"
      else
        let unmounted ← fsUmount
        if unmounted.result ≠ 0 then return .died "cannot unmount diskname"
        return .fileSize filename stat.result

/-- `thread_fs_cat`, which is given the memory that `malloc` returns.  Behind an
empty file the disk stays mounted. -/
def threadFsCat
    (diskname : String)
    (filename : CString)
    (memory : Option Buffer) : Client Printed := do
  let mounted ← fsMount diskname
  if mounted.result ≠ 0 then return .died "Cannot mount diskname"
  let opened ← file (.open (some filename))
  if opened.result < 0 then unmountAndDie "Cannot open file"
  else
    let stat ← file (.stat opened.result)
    if stat.result < 0 then unmountAndDie "Cannot stat file"
    else if stat.result = 0 then return .emptyFile
    else
      match memory with
      | none => unmountAndDie "Cannot malloc"
      | some buf =>
          let read ← file (.read opened.result (some buf) stat.result.toNat)
          let closed ← file (.close opened.result)
          if closed.result ≠ 0 then unmountAndDie "Cannot close file"
          else
            let unmounted ← fsUmount
            if unmounted.result ≠ 0 then return .died "cannot unmount diskname"
            return .content filename read.result stat.result
              ((List.range stat.result.toNat).map (read.buffer.getD buf))

/-- `thread_fs_rm` -/
def threadFsRm (diskname : String) (filename : CString) : Client Printed := do
  let mounted ← fsMount diskname
  if mounted.result ≠ 0 then return .died "Cannot mount diskname"
  let deleted ← file (.delete (some filename))
  if deleted.result ≠ 0 then unmountAndDie "Cannot delete file"
  else
    let unmounted ← fsUmount
    if unmounted.result ≠ 0 then return .died "Cannot unmount diskname"
    return .removed filename

/-- `thread_fs_add`, which is given the host file of this name.  The pointer from
`mmap` is never null. -/
def threadFsAdd
    (diskname : String)
    (filename : CString)
    (hostFile : HostFile) : Client Printed := do
  if !hostFile.opens then return .died "open"
  if !hostFile.fstatSucceeds then return .died "fstat"
  if !hostFile.isRegular then return .died "Not a regular file: %s\n"
  let mounted ← fsMount diskname
  if mounted.result ≠ 0 then return .died "Cannot mount diskname"
  let created ← file (.create (some filename))
  if created.result ≠ 0 then unmountAndDie "Cannot create file"
  else
    let opened ← file (.open (some filename))
    if opened.result < 0 then unmountAndDie "Cannot open file"
    else
      let written ← file
        (.write opened.result (some hostFile.bytes) hostFile.size)
      let closed ← file (.close opened.result)
      if closed.result ≠ 0 then unmountAndDie "Cannot close file"
      else
        let unmounted ← fsUmount
        if unmounted.result ≠ 0 then return .died "Cannot unmount diskname"
        return .wrote filename written.result hostFile.size

/-- `thread_fs_ls` -/
def threadFsLs (diskname : String) : Client Printed := do
  let mounted ← fsMount diskname
  if mounted.result ≠ 0 then return .died "Cannot mount diskname"
  let listed ← Program.call ApiCall.ls
  let unmounted ← fsUmount
  if unmounted.result ≠ 0 then return .died "Cannot unmount diskname"
  return .lines listed.lines

/-- `thread_fs_info` -/
def threadFsInfo (diskname : String) : Client Printed := do
  let mounted ← fsMount diskname
  if mounted.result ≠ 0 then return .died "Cannot mount diskname"
  let informed ← Program.call ApiCall.info
  let unmounted ← fsUmount
  if unmounted.result ≠ 0 then return .died "Cannot unmount diskname"
  return .info informed.info

end Client

/-- The commands that `main` of `test_fs.c` runs on a disk, apart from
`script`. -/
inductive Command
  | info
  | ls
  | add (filename : CString) (hostFile : HostFile)
  | rm (filename : CString)
  | cat (filename : CString) (memory : Option Buffer)
  | stat (filename : CString)

/-- The function behind a command. -/
def Command.client (command : Command) (diskname : String) : Client Printed :=
  match command with
  | .info => Client.threadFsInfo diskname
  | .ls => Client.threadFsLs diskname
  | .add filename hostFile => Client.threadFsAdd diskname filename hostFile
  | .rm filename => Client.threadFsRm diskname filename
  | .cat filename memory => Client.threadFsCat diskname filename memory
  | .stat filename => Client.threadFsStat diskname filename

end MsFat
