import MsFat.Apps.Refinement

/-!
# Sequences of commands

What holds of a disk over any number of commands: a file stays as it was added
until it is removed, and the disk can be mounted until a file of two or more
blocks is removed.
-/

namespace MsFat

variable {sb : SuperBlock} {store : Store} {name : CString}

/-! ## One command -/

namespace Command

/-- Everything that a command can do to a store. -/
theorem exec_cases (command : Command) (sb : SuperBlock) (store : Store) :
    (command.exec sb store).1 = store ∨
      (∃ filename hostFile, command = .add filename hostFile ∧
        store.guarded = true ∧ store.Admits filename ∧
        (command.exec sb store).1 = store.added filename hostFile) ∨
      ∃ filename file, command = .rm filename ∧ store.guarded = true ∧
        store.files filename = some file ∧
        (command.exec sb store).1 = store.removed filename file := by
  cases guarded : store.guarded with
  | false =>
      left
      cases command with
      | add filename hostFile =>
          simp only [exec, guarded]
          cases hostFile.failure with
          | some message => rfl
          | none => rfl
      | _ =>
          simp only [exec, guarded]
          rfl
  | true =>
      cases command with
      | info =>
          left
          simp only [exec, guarded]
          rfl
      | ls =>
          left
          simp only [exec, guarded]
          rfl
      | add filename hostFile =>
          simp only [exec, guarded]
          cases hostFile.failure with
          | some message => exact .inl rfl
          | none =>
              by_cases admits : store.Admits filename
              · right
                left
                exact ⟨filename, hostFile, rfl, trivial, admits,
                  by simp [admits]⟩
              · left
                simp [admits, Store.dies]
      | rm filename =>
          simp only [exec, guarded]
          cases isFile : store.files filename with
          | none => exact .inl rfl
          | some file =>
              exact .inr (.inr ⟨filename, file, rfl, trivial, isFile, rfl⟩)
      | cat filename memory =>
          left
          simp only [exec, guarded]
          cases store.files filename with
          | none => rfl
          | some file =>
              simp only [Bool.not_true, Bool.false_eq_true, if_false]
              split
              · rfl
              · split
                · rfl
                · cases memory with
                  | none => rfl
                  | some buf => rfl
      | stat filename =>
          left
          simp only [exec, guarded]
          cases store.files filename with
          | none => rfl
          | some file =>
              simp only [Bool.not_true, Bool.false_eq_true, if_false]
              split
              · rfl
              · split
                · rfl
                · rfl

/-- Until it is removed, a file stays the same. -/
theorem exec_file
    {command : Command}
    {file : StoredFile}
    (isFile : store.files name = some file)
    (notRemoved : command ≠ .rm name) :
    (command.exec sb store).1.files name = some file := by
  rcases command.exec_cases sb store with
    same | ⟨filename, hostFile, _, _, admits, adds⟩ |
      ⟨filename, other, rfl, _, _, removes⟩
  · rw [same]
    exact isFile
  · rw [adds]
    refine (Function.update_of_ne ?_ ..).trans isFile
    rintro rfl
    have fresh := admits.2.2.1
    rw [isFile] at fresh
    exact nomatch fresh
  · rw [removes]
    refine (Function.update_of_ne ?_ ..).trans isFile
    rintro rfl
    exact notRemoved rfl

/-- The command removes a file of two or more blocks. -/
def RemovesLong (command : Command) (store : Store) : Prop :=
  ∃ filename file, command = .rm filename ∧
    store.files filename = some file ∧ 2 ≤ file.blocks

/-- A file of a disk that can be mounted is removed. -/
theorem exec_rm
    {filename : CString}
    {file : StoredFile}
    (guarded : store.guarded = true)
    (isFile : store.files filename = some file) :
    (Command.rm filename).exec sb store =
      (store.removed filename file, fun printed =>
        printed = .removed filename) := by
  simp [exec, guarded, isFile]

/-- A host file is added. -/
theorem exec_add
    {hostFile : HostFile}
    (guarded : store.guarded = true)
    (admits : store.Admits name)
    (usable : hostFile.failure = none) :
    (Command.add name hostFile).exec sb store =
      (store.added name hostFile, fun printed =>
        printed = .wrote name (store.fitting hostFile) hostFile.size) := by
  simp [exec, guarded, usable, admits]

/-- A disk that can be mounted can be mounted behind the command as well, unless
the command removes a file of two or more blocks. -/
theorem exec_guarded_iff
    {command : Command}
    (guarded : store.guarded = true) :
    (command.exec sb store).1.guarded = true ↔ ¬command.RemovesLong store := by
  constructor
  · rintro stillGuarded ⟨filename, file, rfl, isFile, long⟩
    rw [exec_rm guarded isFile] at stillGuarded
    have short : file.blocks ≤ 1 := of_decide_eq_true stillGuarded
    omega
  · intro notLong
    rcases command.exec_cases sb store with
      same | ⟨filename, hostFile, _, _, _, adds⟩ |
        ⟨filename, file, isRm, _, isFile, removes⟩
    · rw [same]
      exact guarded
    · rw [adds]
      exact guarded
    · rw [removes]
      apply decide_eq_true
      by_contra long
      exact notLong ⟨filename, file, isRm, isFile, by omega⟩

/-- The message of a command on a disk that cannot be mounted. -/
def deadMessage : Command → String
  | .add _ hostFile => hostFile.failure.getD "Cannot mount diskname"
  | _ => "Cannot mount diskname"

/-- A disk that cannot be mounted stays as it is, and every command dies. -/
theorem exec_of_unguarded
    (command : Command)
    (sb : SuperBlock)
    (unguarded : store.guarded = false) :
    command.exec sb store = store.dies command.deadMessage := by
  cases command with
  | add filename hostFile =>
      simp only [exec, deadMessage, unguarded]
      cases hostFile.failure with
      | some message => rfl
      | none => rfl
  | _ =>
      simp only [exec, unguarded]
      rfl

end Command

/-! ## Many commands -/

/-- One more command at the end. -/
theorem execCommands_concat
    (sb : SuperBlock)
    (commands : List Command)
    (command : Command)
    (store : Store) :
    execCommands sb (commands ++ [command]) store =
      ((command.exec sb (execCommands sb commands store).1).1,
        (execCommands sb commands store).2 ++
          [(command.exec sb (execCommands sb commands store).1).2]) := by
  induction commands generalizing store with
  | nil => rfl
  | cons first rest inductionHypothesis =>
      simp only [List.cons_append, execCommands, inductionHypothesis]

/-- Until it is removed, a file stays the same. -/
theorem execCommands_file
    {commands : List Command}
    {file : StoredFile}
    (isFile : store.files name = some file)
    (notRemoved : ∀ command ∈ commands, command ≠ .rm name) :
    (execCommands sb commands store).1.files name = some file := by
  induction commands generalizing store with
  | nil => exact isFile
  | cons command rest inductionHypothesis =>
      refine inductionHypothesis
        (Command.exec_file isFile (notRemoved _ List.mem_cons_self)) ?_
      exact fun other member => notRemoved other (List.mem_cons_of_mem _ member)

/-- One of the commands is to remove a file of two or more blocks. -/
def RemovesLong (sb : SuperBlock) : List Command → Store → Prop
  | [], _ => False
  | command :: rest, store =>
      command.RemovesLong store ∨
        RemovesLong sb rest (command.exec sb store).1

/-- Once a disk cannot be mounted, every command dies. -/
theorem execCommands_of_unguarded
    (commands : List Command)
    (unguarded : store.guarded = false) :
    execCommands sb commands store =
      (store, commands.map fun command printed =>
        printed = .died command.deadMessage) := by
  induction commands with
  | nil => rfl
  | cons command rest inductionHypothesis =>
      rw [execCommands, command.exec_of_unguarded sb unguarded]
      simp only [Store.dies, inductionHypothesis, List.map_cons]

/-- A disk that can be mounted can be mounted behind the commands as well, unless
one of them removes a file of two or more blocks. -/
theorem execCommands_guarded_iff
    {commands : List Command}
    (guarded : store.guarded = true) :
    (execCommands sb commands store).1.guarded = true ↔
      ¬RemovesLong sb commands store := by
  induction commands generalizing store with
  | nil => exact iff_of_true guarded id
  | cons command rest inductionHypothesis =>
      change (execCommands sb rest (command.exec sb store).1).1.guarded = true ↔
        ¬(command.RemovesLong store ∨ _)
      have one := @Command.exec_guarded_iff sb store command guarded
      cases still : (command.exec sb store).1.guarded with
      | false =>
          have removes : command.RemovesLong store := by
            by_contra notLong
            rw [still] at one
            exact nomatch one.mpr notLong
          rw [execCommands_of_unguarded rest still, still]
          exact iff_of_false nofun fun none => none (.inl removes)
      | true =>
          rw [inductionHypothesis still, not_or]
          exact (and_iff_right (one.mp still)).symm

/-! ## On the disk -/

variable {diskname : String} {files : String → Option Image}

/-- A disk can be mounted if its store is guarded, and only then. -/
theorem HoldsStore.mounts_iff
    (holds : HoldsStore sb diskname files store)
    {host : Host}
    (reliable : host.Reliable) :
    (∃ session : Session, fsMount host (State.initial files) (some diskname) =
      .ok (session.toState, 0)) ↔ store.guarded = true := by
  cases holds with
  | unmounted keeps _ isDisk represents =>
      rw [← isDisk]
      change _ ↔ store.closed.guarded = true
      rw [represents.guarded_iff]
      constructor
      · rintro ⟨session, mounts⟩
        by_contra unguarded
        rw [keeps.mount_fails unguarded reliable] at mounts
        exact absurd (Prod.mk.inj (Except.ok.inj mounts)).2 (by decide)
      · exact fun firstEntry => ⟨_, keeps.mounts firstEntry reliable⟩

/-- Behind every sequence of commands the disk can be mounted exactly if none of
them has removed a file of two or more blocks. -/
theorem mounts_iff_of_runCommands
    (holds : HoldsStore sb diskname files store)
    (guarded : store.guarded = true)
    {commands : List ((Nat → Host) × Command)}
    (reliable : ∀ made ∈ commands, ∀ number, (made.1 number).Reliable)
    (fits : ∀ made ∈ commands, made.2.Fits)
    {host : Host}
    (hostReliable : host.Reliable) :
    ∃ files' printed bound,
      Computes (fun fuel => runCommands diskname fuel commands files) bound
        (files', printed) ∧
      ((∃ session : Session, fsMount host (State.initial files')
          (some diskname) = .ok (session.toState, 0)) ↔
        ¬RemovesLong sb (commands.map Prod.snd) store) := by
  obtain ⟨files', printed, bound, computes, holds', _⟩ :=
    holds.restarted.runs_commands reliable fits
  refine ⟨files', printed, bound, computes, ?_⟩
  rw [holds'.mounts_iff hostReliable]
  exact execCommands_guarded_iff guarded

theorem emptyStore_admits (freeBlocks : Nat) :
    (emptyStore freeBlocks).Admits nameA :=
  ⟨by decide, by decide, rfl, Nat.zero_lt_succ _⟩

theorem twoBlockFile_blocks :
    ((emptyStore 49).addedFile twoBlockFile).blocks = 2 := rfl

/-- A file of two blocks is added to a fresh disk. -/
theorem exec_add_twoBlockFile (sb : SuperBlock) :
    ((Command.add nameA twoBlockFile).exec sb (emptyStore 49)).1 =
      (emptyStore 49).added nameA twoBlockFile := by
  rw [Command.exec_add rfl (emptyStore_admits 49) rfl]

theorem added_twoBlockFile :
    ((emptyStore 49).added nameA twoBlockFile).files nameA =
      some ((emptyStore 49).addedFile twoBlockFile) := by
  simp [Store.added, Store.setFile]

/-- A fresh disk cannot be mounted any more behind a file of two blocks. -/
theorem mounts_iff_of_runCommands_twoBlockFile :
    ∃ sb files' printed bound,
      Computes
        (fun fuel => runCommands "disk.fs" fuel
          (onReliable [.add nameA twoBlockFile, .rm nameA])
          fun _ => some (freshImage 100 50 1))
        bound (files', printed) ∧
      RemovesLong sb [.add nameA twoBlockFile, .rm nameA] (emptyStore 49) ∧
      ((∃ session : Session, fsMount .reliable (State.initial files')
          (some "disk.fs") = .ok (session.toState, 0)) ↔
        ¬RemovesLong sb [.add nameA twoBlockFile, .rm nameA]
          (emptyStore 49)) := by
  obtain ⟨sb, holds⟩ := @freshImage_holdsStore 100 50 (by decide) (by decide)
    (by decide)
  obtain ⟨files', printed, bound, computes, mounts⟩ :=
    mounts_iff_of_runCommands holds rfl
      (onReliable_reliable [.add nameA twoBlockFile, .rm nameA])
      (by simp [onReliable, Command.Fits, twoBlockFile, intMax])
      Host.reliable_reliable
  refine ⟨sb, files', printed, bound, computes, .inr (.inl ?_), mounts⟩
  rw [exec_add_twoBlockFile]
  exact ⟨nameA, _, rfl, added_twoBlockFile, twoBlockFile_blocks.ge⟩

/-- Once a file of two or more blocks has been removed, every later command dies
and leaves the disk as it is. -/
theorem runCommands_of_removesLong
    (holds : HoldsStore sb diskname files store)
    (guarded : store.guarded = true)
    {file : StoredFile}
    (isFile : store.files name = some file)
    (long : 2 ≤ file.blocks)
    {hosts : Nat → Host}
    (reliable : ∀ number, (hosts number).Reliable)
    {later : List ((Nat → Host) × Command)}
    (laterReliable : ∀ made ∈ later, ∀ number, (made.1 number).Reliable)
    (fits : ∀ made ∈ later, made.2.Fits) :
    ∃ files' bound,
      Computes
        (fun fuel =>
          runCommands diskname fuel ((hosts, .rm name) :: later) files)
        bound
        (files', .removed name :: later.map fun made =>
          .died made.2.deadMessage) ∧
      HoldsStore sb diskname files' (store.removed name file).restarted := by
  obtain ⟨middle, printed, bound, computes, holdsMiddle, allowed⟩ :=
    holds.restarted.runs_command reliable (show (Command.rm name).Fits from trivial)
  rw [Command.exec_rm guarded isFile] at holdsMiddle allowed
  have unguarded : (store.removed name file).guarded = false :=
    decide_eq_false (by omega)
  obtain ⟨files', others, bound', computes', holdsLast, allowedAll⟩ :=
    holdsMiddle.runs_commands laterReliable fits
  rw [execCommands_of_unguarded _ unguarded] at holdsLast allowedAll
  have dead : List.Forall₂ (fun line other => line = other)
      (later.map fun made => Printed.died made.2.deadMessage) others := by
    rw [List.forall₂_map_left_iff, List.forall₂_map_left_iff] at allowedAll
    rw [List.forall₂_map_left_iff]
    exact allowedAll.imp fun _ _ line => line.symm
  rw [List.forall₂_eq_eq_eq] at dead
  cases allowed
  subst dead
  exact ⟨files', max bound bound', computes.andThen (computes'.bind rfl),
    holdsLast⟩

/-- A second file cannot be added any more. -/
theorem runCommands_of_removesLong_twoBlockFile :
    ∃ sb files middle bound,
      Computes
        (fun fuel => runCommands "disk.fs" fuel
          ((fun _ => .reliable, .rm nameA) ::
            onReliable [.add nameA twoBlockFile]) files)
        bound
        (middle, [.removed nameA, .died "Cannot mount diskname"]) ∧
      HoldsStore sb "disk.fs" middle
        (((emptyStore 49).added nameA twoBlockFile).removed nameA
          ((emptyStore 49).addedFile twoBlockFile)).restarted := by
  obtain ⟨sb, holds⟩ := @freshImage_holdsStore 100 50 (by decide) (by decide)
    (by decide)
  obtain ⟨files, _, _, _, holdsAdded, _⟩ :=
    holds.restarted.runs_command (fun _ => Host.reliable_reliable)
      (show (Command.add nameA twoBlockFile).Fits by
        simp [Command.Fits, twoBlockFile, intMax])
  have holdsTwo : HoldsStore sb "disk.fs" files
      ((emptyStore 49).added nameA twoBlockFile).restarted := by
    rw [← exec_add_twoBlockFile sb]
    exact holdsAdded
  obtain ⟨middle, bound, removes⟩ :=
    runCommands_of_removesLong holdsTwo rfl added_twoBlockFile
      twoBlockFile_blocks.ge (fun _ => Host.reliable_reliable)
      (onReliable_reliable [.add nameA twoBlockFile])
      (by simp [onReliable, Command.Fits, twoBlockFile, intMax])
  exact ⟨sb, files, middle, bound, removes⟩

end MsFat
