import MsFat.Apps.Rules
import MsFat.Apps.Script

/-!
# What scripts mean

On a drive, a script leaves a drive and prints something, and comes to its end in
one of three ways.  Here it is said without any calls of the interface: a line
is a step from a drive and an `fs_fd` to the next ones.
-/

namespace MsFat

namespace Drive

/-- A file system is mounted. -/
def isMounted : Drive → Bool
  | .mounted _ _ => true
  | _ => false

/-- The drive behind an `fs_umount`, whether it succeeds or not. -/
def umount : Drive → Drive
  | .mounted store _ => .unmounted store
  | drive => drive

/-- No `fs_mount` has failed on a file system that cannot be mounted. -/
def Sound : Drive → Prop
  | .broken _ => False
  | _ => True

end Drive

/-! ## Lines -/

/-- What a line of a script leaves: a drive, an `fs_fd` and the lines it may
print, or a drive and the end of the script. -/
inductive LineMeaning
  | next (drive : Drive) (fsFd : Int) (allowed : Option (Shown → Prop))
  | stop (drive : Drive) (ended : ScriptEnd)

/-- What an instruction means.  A call that does not return means nothing. -/
def Instruction.exec
    (instruction : Instruction)
    (drive : Drive)
    (fsFd : Int) : Option LineMeaning :=
  match instruction with
  | .mount =>
      match drive with
      | .unmounted store =>
          if store.guarded then
            some (.next (.mounted store.closed store.restarted) fsFd
              (some fun line => line = .successful "MOUNT"))
          else
            some (.stop (.broken store.restarted) (.died "Cannot mount disk"))
      | drive => some (.stop drive (.died "Cannot mount disk"))
  | .umount =>
      some (.next drive.umount fsFd
        (some fun line => line = .successful "UMOUNT"))
  | .call made room fails message opens shows =>
      match drive with
      | .mounted store kept =>
          match store.exec (made fsFd) with
          | none => none
          | some (after, answer) =>
              if room < answer.stored then
                some (.stop
                  (.mounted after (kept.keptBehind store (made fsFd))) .crashed)
              else if fails answer.result then
                some (.stop (.unmounted after) (.died message))
              else
                some (.next
                  (.mounted after (kept.keptBehind store (made fsFd)))
                  (if opens then answer.result else fsFd)
                  (some fun line => ∃ reply, answer.Allows reply ∧
                    line = shows reply))
      | drive =>
          if fails (-1) then some (.stop drive (.died message))
          else
            some (.next drive (if opens then -1 else fsFd)
              (some fun line => ∃ reply : Reply, reply.Refused ∧
                line = shows reply))
  | .die message => some (.stop drive.umount (.died message))
  | .crash => some (.stop drive .crashed)
  | .nothing => some (.next drive fsFd none)

/-- What the lines of a script mean. -/
def execLines :
    List ScriptLine → (Nat → ScriptHost) → Drive → Int →
      Option (Drive × ScriptEnd × List (Shown → Prop))
  | [], _, drive, _ => some (drive.umount, .finished, [])
  | line :: rest, hosts, drive, fsFd =>
      match tokens line.text with
      | [] => some (drive.umount, .finished, [])
      | command :: arguments =>
          match (decodeLine (hosts 0) command arguments).exec drive fsFd with
          | none => none
          | some (.stop drive ended) => some (drive, ended, [])
          | some (.next drive fsFd allowed) =>
              (execLines rest (fun number => hosts (number + 1)) drive
                fsFd).map fun meaning =>
                  (meaning.1, meaning.2.1, allowed.toList ++ meaning.2.2)

/-! ## Counts -/

/-- The counts of the instruction are such that an `int` can hold them. -/
def Instruction.Fits : Instruction → Prop
  | .call made _ _ _ _ _ => ∀ fsFd, (made fsFd).CountFits
  | _ => True

end MsFat
