import MsFat.Deletion

/-!
# Lost blocks

Every data block is free, in the chain of a file, or lost.  No call takes a lost
block back into use, and only the deletion of a file of two or more blocks loses
any: all blocks of the file but the first one.  So a mount session loses the
blocks of one file at most.
-/

namespace MsFat
namespace Session

variable {session after : Session} {slot : Slot} {block : UInt16}

/-- The block is in the chain of the file. -/
def HasBlock (session : Session) (slot : Slot) (block : UInt16) : Prop :=
  session.InUse slot ∧ ∃ chain, session.FileChain slot chain ∧ block ∈ chain

/-- The block is neither free nor in the chain of a file. -/
structure Lost (session : Session) (block : UInt16) : Prop where
  isBlock : block ∈ blockIndices session.sb.numDataBlocks.toNat
  notFree : block ∉ freeBlocks session.fat
  unowned : ∀ slot, ¬session.HasBlock slot block

/-! ## Changes of one file -/

theorem hasBlock_iff
    {chain : List UInt16}
    (used : session.InUse slot)
    (isChain : session.FileChain slot chain) :
    session.HasBlock slot block ↔ block ∈ chain := by
  constructor
  · rintro ⟨_, other, isOther, member⟩
    rw [isChain.unique isOther]
    exact member
  · exact fun member => ⟨used, chain, isChain, member⟩

/-- A file whose chain is kept has the same blocks. -/
theorem hasBlock_congr
    (chains : session.ChainsOk)
    (inUse : after.InUse slot ↔ session.InUse slot)
    (kept : session.InUse slot → ∀ chain, session.FileChain slot chain →
      after.FileChain slot chain) :
    after.HasBlock slot block ↔ session.HasBlock slot block := by
  by_cases used : session.InUse slot
  · obtain ⟨chain, isChain⟩ := chains.chain slot used
    rw [hasBlock_iff used isChain,
      hasBlock_iff (inUse.mpr used) (kept used chain isChain)]
  · exact iff_of_false (fun has => used (inUse.mp has.1))
      fun has => used has.1

/-- A file that has come to have a block was the only one to have it. -/
theorem HasBlock.unique
    {other : Slot}
    (chains : session.ChainsOk)
    (has : session.HasBlock slot block)
    (hasOther : session.HasBlock other block) :
    other = slot := by
  by_contra different
  obtain ⟨used, chain, isChain, member⟩ := has
  obtain ⟨usedOther, otherChain, isOther, memberOther⟩ := hasOther
  exact chains.disjoint other slot otherChain chain different usedOther used
    isOther isChain memberOther member

/-- A FAT with the same free blocks and files with the same chains lose
nothing. -/
theorem lost_congr
    (sb : after.sb = session.sb)
    (free : block ∈ freeBlocks after.fat ↔ block ∈ freeBlocks session.fat)
    (owned : ∀ slot, after.HasBlock slot block ↔ session.HasBlock slot block) :
    after.Lost block ↔ session.Lost block := by
  constructor
  · rintro ⟨isBlock, notFree, unowned⟩
    rw [sb] at isBlock
    exact ⟨isBlock, free.not.mp notFree,
      fun slot => (owned slot).not.mp (unowned slot)⟩
  · rintro ⟨isBlock, notFree, unowned⟩
    rw [← sb] at isBlock
    exact ⟨isBlock, free.not.mpr notFree,
      fun slot => (owned slot).not.mpr (unowned slot)⟩

/-- A new file has no blocks. -/
theorem lost_created
    {name : CString}
    (chains : session.ChainsOk)
    (unused : ¬session.InUse slot) :
    (session.setFile slot (newFile (session.root slot) name)).Lost block ↔
      session.Lost block := by
  refine lost_congr rfl Iff.rfl fun other => ?_
  by_cases same : other = slot
  · subst same
    refine iff_of_false ?_ fun has => unused has.1
    rintro ⟨_, chain, isChain, member⟩
    have noBlocks : (session.setFile other
        (newFile (session.root other) name)).FileChain other [] := by
      unfold FileChain
      rw [setFile_root_self]
      exact FatChain.nil_iff.mpr rfl
    rw [isChain.unique noBlocks] at member
    simp at member
  · refine hasBlock_congr chains ?_ fun _ chain isChain => ?_
    · unfold InUse
      rw [setFile_root_of_ne same]
    · unfold FileChain
      rw [setFile_root_of_ne same]
      exact isChain

/-- A deletion loses all blocks of the file but the first one. -/
theorem lost_removed
    {chain : List UInt16}
    (chains : session.ChainsOk)
    (used : session.InUse slot)
    (isChain : session.FileChain slot chain) :
    (session.removed slot chain).Lost block ↔
      session.Lost block ∨ block ∈ chain.tail := by
  have fits := session.numDataBlocks_lt
  have others : ∀ other, other ≠ slot →
      ((session.removed slot chain).HasBlock other block ↔
        session.HasBlock other block) := by
    intro other different
    refine hasBlock_congr chains ?_ fun usedOther otherChain isOther => ?_
    · unfold InUse
      rw [removed_root_of_ne different]
    · exact fileChain_removed chains used usedOther different isChain isOther
  have gone : ¬(session.removed slot chain).HasBlock slot block :=
    fun has => not_inUse_removed slot chain has.1
  have free_iff : block ≠ 0 →
      (block ∈ freeBlocks (session.removed slot chain).fat ↔
        block ∈ freeBlocks session.fat ∨ chain.head? = some block) := by
    intro nonzero
    change block ∈ freeBlocks (freedFat session.fat chain) ↔ _
    simp only [mem_freeBlocks fits, nonzero, ne_eq, not_false_eq_true, true_and]
    exact fatNext_freedFat_eq_zero_iff isChain nonzero
  constructor
  · rintro ⟨isBlock, notFree, unowned⟩
    have nonzero := ((mem_blockIndices fits).mp isBlock).1
    rw [free_iff nonzero, not_or] at notFree
    by_cases member : block ∈ chain
    · right
      cases chain with
      | nil => exact nomatch member
      | cons first rest =>
          rcases List.mem_cons.mp member with rfl | inRest
          · exact absurd rfl notFree.2
          · exact inRest
    · refine .inl ⟨isBlock, notFree.1, fun other has => ?_⟩
      by_cases same : other = slot
      · subst same
        exact member ((hasBlock_iff used isChain).mp has)
      · exact unowned other ((others other same).mpr has)
  · rintro (⟨isBlock, notFree, unowned⟩ | inTail)
    · have nonzero := ((mem_blockIndices fits).mp isBlock).1
      refine ⟨isBlock, ?_, fun other has => ?_⟩
      · rw [free_iff nonzero, not_or]
        refine ⟨notFree, fun isFirst => unowned slot ?_⟩
        exact (hasBlock_iff used isChain).mpr (List.mem_of_head? isFirst)
      · by_cases same : other = slot
        · subst same
          exact gone has
        · exact unowned other ((others other same).mp has)
    · have member := List.mem_of_mem_tail inTail
      have nonzero := isChain.ne_zero block member
      refine ⟨(mem_blockIndices fits).mpr ⟨nonzero, isChain.lt_count member⟩,
        ?_, fun other has => ?_⟩
      · rw [free_iff nonzero, not_or]
        refine ⟨fun free => ?_, fun isFirst => ?_⟩
        · exact isChain.entry_ne_zero member ((mem_freeBlocks fits).mp free).2
        · have distinct := isChain.nodup
          cases chain with
          | nil => exact nomatch isFirst
          | cons first rest =>
              cases isFirst
              exact (List.nodup_cons.mp distinct).1 inTail
      · by_cases same : other = slot
        · subst same
          exact gone has
        · exact same (HasBlock.unique chains
            ((hasBlock_iff used isChain).mpr member)
            ((others other same).mp has))

/-- The blocks that a write takes are free ones. -/
theorem lost_setChain
    {chain : List UInt16}
    {missing : Nat}
    {fat' : Fat session.sb.numDataBlocks.toNat}
    {firstIndex' : UInt16}
    {allocated : Int}
    (chains : session.ChainsOk)
    (used : session.InUse slot)
    (isChain : session.FileChain slot chain)
    (grown : Grown session.fat chain missing fat' firstIndex' allocated) :
    (session.setChain slot fat' firstIndex').Lost block ↔
      session.Lost block := by
  have inUse := session.setChain_inUse slot fat' firstIndex'
  have others : ∀ other, other ≠ slot →
      ((session.setChain slot fat' firstIndex').HasBlock other block ↔
        session.HasBlock other block) := by
    intro other different
    exact hasBlock_congr chains (inUse other) fun usedOther _ isOther =>
      fileChain_setChain_of_ne chains used usedOther different isChain isOther
        grown
  have own : (session.setChain slot fat' firstIndex').HasBlock slot block ↔
      session.HasBlock slot block ∨
        block ∈ (freeBlocks session.fat).take missing := by
    rw [hasBlock_iff ((inUse slot).mpr used) (fileChain_setChain grown),
      hasBlock_iff used isChain, List.mem_append]
  have free_iff : block ∈ freeBlocks session.fat ↔
      block ∈ (freeBlocks session.fat).take missing ∨
        block ∈ freeBlocks (session.setChain slot fat' firstIndex').fat := by
    have parts := List.take_append_drop missing (freeBlocks session.fat)
    change _ ↔ _ ∨ block ∈ freeBlocks fat'
    rw [grown.free, ← List.mem_append, parts]
  constructor
  · rintro ⟨isBlock, notFree, unowned⟩
    refine ⟨isBlock, fun free => ?_, fun other has => ?_⟩
    · rcases free_iff.mp free with taken | left
      · exact unowned slot (own.mpr (.inr taken))
      · exact notFree left
    · by_cases same : other = slot
      · subst same
        exact unowned other (own.mpr (.inl has))
      · exact unowned other ((others other same).mpr has)
  · rintro ⟨isBlock, notFree, unowned⟩
    refine ⟨isBlock, fun left => notFree (free_iff.mpr (.inr left)),
      fun other has => ?_⟩
    by_cases same : other = slot
    · subst same
      rcases own.mp has with had | taken
      · exact unowned other had
      · exact notFree (free_iff.mpr (.inl taken))
    · exact unowned other ((others other same).mp has)

end Session

/-! ## Runs -/

/-- The call deletes the file at this entry, with two or more blocks in this
chain. -/
structure Session.DeletesLong
    (session : Session)
    (event : Event)
    (slot : Slot)
    (chain : List UInt16) : Prop where
  call : ∃ name, event.call = .delete (some name) ∧ ValidName name ∧
    session.findMatchingFilename name = some slot ∧ session.isOpen name = false
  isChain : session.FileChain slot chain
  long : 2 ≤ chain.length

theorem Session.Idle.sparesLong
    {session : Session}
    {event : Event}
    (idle : session.Idle event) :
    SparesLong session.toState event := by
  intro current name same call long
  cases Session.toState_injective same
  obtain ⟨valid, closed, slot, _, found, _, _⟩ := long
  rw [idle.delete name slot call valid found] at closed
  exact absurd closed (by simp)

/-- A call that deletes no file of two or more blocks loses no block; one that
does loses all blocks of the file but the first one. -/
theorem Effect.lost_cases
    {session after : Session}
    {event : Event}
    (wellFormed : session.WellFormed)
    (effect : Effect session event after) :
    (SparesLong session.toState event ∧
        ∀ block, after.Lost block ↔ session.Lost block) ∨
      ∃ slot chain, session.DeletesLong event slot chain ∧
        session.ZeroEnds ∧ ¬after.ZeroEnds ∧
        ∀ block, after.Lost block ↔ session.Lost block ∨ block ∈ chain.tail := by
  have zeroEnds_iff := effect.zeroEnds_iff
  have chains := wellFormed.chains
  have kept := @Session.lost_congr
  cases effect with
  | unchanged idle => exact .inl ⟨idle.sparesLong, fun _ => Iff.rfl⟩
  | created call valid fresh empty _ =>
      exact .inl ⟨.of_call (by rw [call]; nofun), fun _ =>
        Session.lost_created chains
          (Session.findEmptyRootEntry_eq_some empty)⟩
  | opened call _ _ _ _ =>
      exact .inl ⟨.of_call (by rw [call]; nofun), fun _ =>
        kept rfl Iff.rfl fun _ => Iff.rfl⟩
  | closed call _ _ =>
      exact .inl ⟨.of_call (by rw [call]; nofun), fun _ =>
        kept rfl Iff.rfl fun _ => Iff.rfl⟩
  | sought call _ _ _ =>
      exact .inl ⟨.of_call (by rw [call]; nofun), fun _ =>
        kept rfl Iff.rfl fun _ => Iff.rfl⟩
  | read call _ _ =>
      exact .inl ⟨.of_call (by rw [call]; nofun), fun _ =>
        kept rfl Iff.rfl fun _ => Iff.rfl⟩
  | wrote call isOpen _ isChain grown written =>
      refine .inl ⟨.of_call (by rw [call]; nofun), fun block => ?_⟩
      have used := wellFormed.descriptors _ _ isOpen
      rw [← Session.lost_setChain chains used isChain grown]
      generalize event.result = result at written
      cases written with
      | short _ => exact kept rfl Iff.rfl fun _ => Iff.rfl
      | hostFailed _ _ _ _ => exact kept rfl Iff.rfl fun _ => Iff.rfl
      | complete _ =>
          refine Session.lost_congr rfl Iff.rfl fun slot => ?_
          unfold Session.HasBlock Session.InUse
          simp only [Session.finishWrite_filename,
            Session.finishWrite_fileChain_iff]
          exact Iff.rfl
  | @deleted name slot chain call valid found closed isChain ends _ =>
      have used := Session.inUse_of_found valid found
      have lost := fun block =>
        @Session.lost_removed session slot block chain chains used isChain
      by_cases short : chain.length ≤ 1
      · refine .inl ⟨?_, fun block => ?_⟩
        · intro current other same otherCall long
          cases Session.toState_injective same
          cases call.symm.trans otherCall
          obtain ⟨_, _, _, otherChain, otherFound, isOther, isLong⟩ := long
          cases found.symm.trans otherFound
          rw [isOther.unique isChain] at isLong
          omega
        have noTail : chain.tail = [] := by
          rw [← List.length_eq_zero_iff, List.length_tail]
          omega
        rw [lost, noTail]
        simp
      · right
        have long : session.DeletesLong event slot chain :=
          ⟨⟨name, call, valid, found, closed⟩, isChain, by omega⟩
        refine ⟨slot, chain, long, ends.resolve_left short, ?_, lost⟩
        rw [zeroEnds_iff]
        rintro ⟨_, spares⟩
        exact spares session name rfl call
          ⟨valid, closed, slot, chain, found, isChain, by omega⟩

/-- Once entry 0 of the FAT is cleared, no call loses any block. -/
theorem lost_of_not_zeroEnds
    {guard : State → Event → Prop}
    {session after : Session}
    {events : List Event}
    (run : Run (EffectStep guard) session events after)
    (cleared : ¬session.ZeroEnds)
    (block : UInt16) :
    after.Lost block ↔ session.Lost block := by
  induction run with
  | nil => exact Iff.rfl
  | cons first _ inductionHypothesis =>
      have stillCleared := fun ends =>
        cleared (first.effect.zeroEnds_iff.mp ends).1
      rw [inductionHypothesis stillCleared]
      rcases first.effect.lost_cases first.wellFormed with
        ⟨_, kept⟩ | ⟨_, _, _, ends, _⟩
      · exact kept block
      · exact absurd ends cleared

/-- Some call of the run deletes a file with this chain of two or more
blocks. -/
def RunDeletesLong
    (session : Session)
    (events : List Event)
    (chain : List UInt16) : Prop :=
  ∃ early event late, events = early ++ event :: late ∧
    ∃ (middle : Session) (slot : Slot),
      Run Step session.toState early middle.toState ∧
      middle.DeletesLong event slot chain

/-- If no call of a run deletes a file of two or more blocks, it loses no block
of the disk; otherwise it loses the blocks of one such file, all but the first
one. -/
theorem lost_of_run
    {session : Session}
    {events : List Event}
    {state : State}
    (wellFormed : session.WellFormed)
    (run : Run Step session.toState events state) :
    ∃ after : Session, state = after.toState ∧
      ((Run (Guarded Step SparesLong) session.toState events state ∧
          ∀ block, after.Lost block ↔ session.Lost block) ∨
        ∃ chain, RunDeletesLong session events chain ∧
          ∀ block, after.Lost block ↔
            session.Lost block ∨ block ∈ chain.tail) := by
  generalize beforeEq : session.toState = before at run
  induction run generalizing session with
  | nil =>
      subst beforeEq
      exact ⟨session, rfl, .inl ⟨.nil, fun _ => Iff.rfl⟩⟩
  | @cons _ middleState last event later first rest inductionHypothesis =>
      subst beforeEq
      obtain ⟨middle, rfl, effect⟩ := step_effect wellFormed first
      have wellFormedMiddle := effect.wellFormed wellFormed
      rcases effect.lost_cases wellFormed with
        ⟨spares, kept⟩ | ⟨slot, chain, deletes, _, cleared, lost⟩
      · obtain ⟨after, rfl, ⟨sparing, keptLater⟩ | ⟨chain, deleted, lost⟩⟩ :=
          inductionHypothesis wellFormedMiddle rfl
        · refine ⟨after, rfl, .inl ⟨.cons ⟨first, spares⟩ sparing, fun block => ?_⟩⟩
          rw [keptLater, kept]
        · refine ⟨after, rfl, .inr ⟨chain, ?_, fun block => ?_⟩⟩
          · obtain ⟨early, deletion, late, rfl, before, slot, run, deletes⟩ :=
              deleted
            exact ⟨event :: early, deletion, late, rfl, before, slot,
              .cons first run, deletes⟩
          · rw [lost, kept]
      · have guarded : Run (Guarded Step fun _ _ => True) middle.toState later
            last := rest.mono fun _ _ _ step => ⟨step, trivial⟩
        obtain ⟨after, rfl, _, effects⟩ :=
          run_effects guarded rfl wellFormedMiddle
        refine ⟨after, rfl, .inr ⟨chain, ?_, fun block => ?_⟩⟩
        · exact ⟨[], event, later, rfl, session, slot, .nil, deletes⟩
        · rw [lost_of_not_zeroEnds effects cleared, lost]

/-- The deletion of `a`, which has the blocks 1 and 2. -/
theorem lost_of_run_twoLongFiles :
    ∃ after : Session, (twoLongFiles.removed 0 [1, 2]).toState = after.toState ∧
      ((Run (Guarded Step SparesLong) twoLongFiles.toState
            [⟨.reliable, .delete (some nameA), 0⟩]
            (twoLongFiles.removed 0 [1, 2]).toState ∧
          ∀ block, after.Lost block ↔ twoLongFiles.Lost block) ∨
        ∃ chain, RunDeletesLong twoLongFiles
            [⟨.reliable, .delete (some nameA), 0⟩] chain ∧
          ∀ block, after.Lost block ↔
            twoLongFiles.Lost block ∨ block ∈ chain.tail) :=
  lost_of_run twoLongFiles_wellFormed twoLongFiles_delete

end MsFat
