import MsFat.Drive.Start

/-!
# Processes that end without unmounting

Whatever a process has done to a mounted disk, and however the host has failed
it, if the process ends without `fs_umount` then the next process mounts the FAT
and the root directory of the last mount, and finds the bytes of every file that
was neither written nor deleted.
-/

namespace MsFat

/-- A run of calls changes nothing in front of the data blocks. -/
theorem sameFront_of_run
    {guard : State → Event → Prop}
    {session after : Session}
    {events : List Event}
    (run : Run (EffectStep guard) session events after) :
    session.SameFront after := by
  refine run.relation (fun _ => True) Session.SameFront.refl
    (fun _ _ _ => .trans) ?_ trivial
  intro _ _ _ _ step
  exact ⟨trivial, step.effect.sameFront⟩

/-- A process has mounted a disk and ends at any time, however its calls have
gone.  The next mount gives the volume of the first one, and every file that the
calls have spared is the same. -/
theorem remounts_at_exit
    {host again : Host}
    {files : String → Option Image}
    {diskname : String}
    {mounted : Session}
    {events : List Event}
    {after : State}
    (mounts : fsMount host (State.initial files) (some diskname) =
      .ok (mounted.toState, 0))
    (layout : OneFatLayout mounted.sb)
    (succeeds : host.IoSucceeds)
    (wellFormed : mounted.WellFormed)
    (run : Run Step mounted.toState events after)
    (reliable : again.Reliable) :
    ∃ remounted : Session,
      fsMount again (State.initial after.atExit) (some diskname) =
          .ok (remounted.toState, 0) ∧
        remounted.toVolume = mounted.toVolume ∧
        ∀ slot, mounted.InUse slot →
          Run (Guarded Step (SparesFile slot)) mounted.toState events after →
            mounted.SameFile slot remounted := by
  obtain ⟨formatted, holds, firstEntry⟩ :=
    Session.holds_of_mount mounts layout succeeds
  have unguarded : Run (Guarded Step fun _ _ => True) mounted.toState events
      after := run.mono fun _ _ _ step => ⟨step, trivial⟩
  obtain ⟨last, rfl, _, effects⟩ := run_effects unguarded rfl wellFormed
  have front := sameFront_of_run effects
  have lastFormatted := front.formatted formatted
  have keeps := Session.keeps_leaving lastFormatted front.sb.symm
    formatted.padding (front.holds layout rfl holds)
  have named : last.disk.diskname = diskname :=
    front.diskname.trans (Session.diskname_of_mount mounts)
  refine ⟨last.leaving mounted.toVolume, ?_, rfl, ?_⟩
  · rw [← named]
    exact keeps.mounts firstEntry reliable
  · intro slot used sparing
    obtain ⟨other, isOther, _, sparingEffects⟩ :=
      run_effects sparing rfl wellFormed
    cases Session.toState_injective isOther
    have same := sameFile_of_run sparingEffects used
    refine ⟨rfl, rfl, fun _ isChain => isChain, ?_⟩
    intro chain isChain position inside
    have unchanged := same.contents chain isChain position inside
    unfold Session.contents at unchanged ⊢
    rw [Session.place_of_sb same.sb] at unchanged
    exact unchanged

/-- A file is created, and the process ends. -/
theorem remounts_at_exit_created :
    ∃ (mounted : Session) (after : State),
      Run Step mounted.toState [⟨.reliable, .create (some nameA), 0⟩] after ∧
      ∃ remounted : Session,
        fsMount .reliable (State.initial after.atExit) (some "disk.fs") =
            .ok (remounted.toState, 0) ∧
          remounted.toVolume = mounted.toVolume ∧
          ∀ slot, mounted.InUse slot →
            Run (Guarded Step (SparesFile slot)) mounted.toState
                [⟨.reliable, .create (some nameA), 0⟩] after →
              mounted.SameFile slot remounted := by
  obtain ⟨mounted, mounts, layout, represents⟩ :=
    freshImage_represents (show 1 ≤ (50 : UInt16).toNat by decide) (by decide)
      (show (50 : UInt16).toNat + 3 ≤ (100 : UInt16).toNat by decide)
  obtain ⟨after, reply, bound, computes, _, allows⟩ :
      mounted.Answers .reliable (.create (some nameA)) (some (_, _)) :=
    represents.answers_exec Host.reliable_reliable.serves trivial
  have executes := Call.exec_of_answer (computes.enough bound (Nat.le_refl _))
  rw [allows.result] at executes
  have run : Run Step mounted.toState [⟨.reliable, .create (some nameA), 0⟩]
      after.toState := .cons ⟨trivial, bound, executes⟩ .nil
  exact ⟨mounted, after.toState, run, remounts_at_exit mounts layout
    Host.reliable_reliable.toIoSucceeds represents.wellFormed run
    Host.reliable_reliable⟩

end MsFat
