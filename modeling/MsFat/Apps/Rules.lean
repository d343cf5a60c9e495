import MsFat.Apps.Meaning

/-!
# Rules for clients

How a client steps through the calls of the drive.  Every rule is about one call
and the program behind it.
-/

namespace MsFat

namespace Client

variable {sb : SuperBlock} {diskname : String} {store kept : Store}
  {α : Type} {rest : Reply → Client α} {post : Drive → α → Prop}

/-- A store that is guarded is mounted. -/
theorem ensures_fsMount
    (guarded : store.guarded = true)
    (follows : ∀ reply : Reply, reply.result = 0 →
      (rest reply).Ensures (Drive.exec sb diskname)
        (.mounted store.closed store.restarted) post) :
    (fsMount diskname >>= rest).Ensures (Drive.exec sb diskname)
      (.unmounted store) post := by
  refine Program.ensures_call_bind.mpr ⟨_, _, ?_, follows⟩
  simp [Drive.exec, Drive.execUnmounted, guarded]

/-- Another one breaks the drive. -/
theorem ensures_fsMount_broken
    (unguarded : store.guarded = false)
    (follows : ∀ reply : Reply, reply.result = -1 →
      (rest reply).Ensures (Drive.exec sb diskname) (.broken store.restarted)
        post) :
    (fsMount diskname >>= rest).Ensures (Drive.exec sb diskname)
      (.unmounted store) post := by
  refine Program.ensures_call_bind.mpr ⟨.broken store.restarted, Reply.Refused,
    ?_, fun reply refused => follows reply refused.result⟩
  simp [Drive.exec, Drive.execUnmounted, unguarded, Drive.refused]

theorem ensures_fsUmount
    (follows : ∀ reply : Reply, reply.result = 0 →
      (rest reply).Ensures (Drive.exec sb diskname) (.unmounted store) post) :
    (fsUmount >>= rest).Ensures (Drive.exec sb diskname)
      (.mounted store kept) post :=
  Program.ensures_call_bind.mpr ⟨_, _, rfl, follows⟩

/-- A call on files that the store answers. -/
theorem ensures_file
    {call : Call}
    {after : Store}
    {answer : Answer}
    (countFits : call.CountFits)
    (answers : store.exec call = some (after, answer))
    (follows : ∀ reply, answer.Allows reply →
      (rest reply).Ensures (Drive.exec sb diskname)
        (.mounted after (kept.keptBehind store call)) post) :
    (file call >>= rest).Ensures (Drive.exec sb diskname)
      (.mounted store kept) post := by
  refine Program.ensures_call_bind.mpr ⟨_, _, ?_, follows⟩
  simp [Drive.exec, Drive.execMounted, countFits, answers]

theorem ensures_unmountAndDie
    {message : String}
    {post : Drive → Printed → Prop}
    (dies : post (.unmounted store) (.died message)) :
    (unmountAndDie message).Ensures (Drive.exec sb diskname)
      (.mounted store kept) post :=
  ensures_fsUmount fun _ _ => dies

end Client
end MsFat
