import Mathlib.Data.List.Basic
import Mathlib.Data.List.Nodup

/-!
# Linked lists threaded through a table

A table gives every cell the cell that follows it.  A list of cells is threaded
through the table when it starts at a given head, every cell is followed by the
next one, and the last cell is followed by a stop mark.  The stop mark itself
as the head stands for the empty list.

The threaded list is a function of the head.  So it never visits a cell twice,
and a change of the table away from its cells leaves it as it was.
-/

namespace MsFat
namespace LinkedTable

variable {ι : Type*} {next next' : ι → Option ι} {stop : ι}

/-- The cells `nodes` form the list threaded through `next` from `head` to
`stop`. -/
def Links (next : ι → Option ι) (stop : ι) : ι → List ι → Prop
  | head, [] => head = stop
  | head, node :: nodes =>
      head = node ∧ node ≠ stop ∧
        ∃ follower, next node = some follower ∧ Links next stop follower nodes

@[simp] theorem links_nil {head : ι} :
    Links next stop head [] ↔ head = stop := Iff.rfl

@[simp] theorem links_cons {head node : ι} {nodes : List ι} :
    Links next stop head (node :: nodes) ↔
      head = node ∧ node ≠ stop ∧
        ∃ follower, next node = some follower ∧
          Links next stop follower nodes := Iff.rfl

instance decidableLinks [DecidableEq ι] (next : ι → Option ι) (stop : ι) :
    ∀ head nodes, Decidable (Links next stop head nodes)
  | head, [] => inferInstanceAs (Decidable (head = stop))
  | head, node :: nodes =>
      match follows : next node with
      | none => isFalse (by simp [follows])
      | some follower =>
          haveI := decidableLinks next stop follower nodes
          decidable_of_iff
            (head = node ∧ node ≠ stop ∧ Links next stop follower nodes)
            (by simp [follows])

/-- The head determines the threaded list. -/
theorem Links.unique
    {head : ι}
    {left right : List ι}
    (leftLinks : Links next stop head left)
    (rightLinks : Links next stop head right) :
    left = right := by
  induction left generalizing head right with
  | nil =>
      cases right with
      | nil => rfl
      | cons node nodes =>
          obtain ⟨headEq, notStop, _⟩ := rightLinks
          exact absurd (headEq.symm.trans leftLinks) notStop
  | cons node nodes inductionHypothesis =>
      obtain ⟨rfl, notStop, follower, followerEq, rest⟩ := leftLinks
      cases right with
      | nil => exact absurd rightLinks notStop
      | cons other others =>
          obtain ⟨rfl, _, otherFollower, otherEq, otherRest⟩ := rightLinks
          have same : otherFollower = follower :=
            Option.some.inj (otherEq.symm.trans followerEq)
          subst same
          rw [inductionHypothesis rest otherRest]

/-- A table that agrees on the cells of a list threads the same list. -/
theorem Links.congr
    {head : ι}
    {nodes : List ι}
    (links : Links next stop head nodes)
    (agrees : ∀ node ∈ nodes, next' node = next node) :
    Links next' stop head nodes := by
  induction nodes generalizing head with
  | nil => exact links
  | cons node nodes inductionHypothesis =>
      obtain ⟨headEq, notStop, follower, followerEq, rest⟩ := links
      refine ⟨headEq, notStop, follower, ?_, ?_⟩
      · rw [agrees node (by simp), followerEq]
      · exact inductionHypothesis rest fun cell member =>
          agrees cell (by simp [member])

/-- The head of a nonempty threaded list is its first cell. -/
theorem Links.head_eq
    {head : ι}
    {nodes : List ι}
    (links : Links next stop head nodes) :
    head = nodes.headD stop := by
  cases nodes with
  | nil => exact links
  | cons node nodes => exact links.1

/-- Two tables through which the same list is threaded agree on its cells. -/
theorem Links.next_eq
    {head head' : ι}
    {nodes : List ι}
    (links : Links next stop head nodes)
    (links' : Links next' stop head' nodes) :
    ∀ node ∈ nodes, next' node = next node := by
  induction nodes generalizing head head' with
  | nil => simp
  | cons node nodes inductionHypothesis =>
      obtain ⟨_, _, follower, followerEq, rest⟩ := links
      obtain ⟨_, _, follower', followerEq', rest'⟩ := links'
      intro cell member
      rcases List.mem_cons.mp member with rfl | later
      · rw [followerEq, followerEq', rest.head_eq, rest'.head_eq]
      · exact inductionHypothesis rest rest' cell later

theorem Links.ne_stop
    {head : ι}
    {nodes : List ι}
    (links : Links next stop head nodes) :
    ∀ node ∈ nodes, node ≠ stop := by
  induction nodes generalizing head with
  | nil => simp
  | cons node nodes inductionHypothesis =>
      obtain ⟨_, notStop, _, _, rest⟩ := links
      intro cell member
      rcases List.mem_cons.mp member with rfl | later
      · exact notStop
      · exact inductionHypothesis rest cell later

/-- Every suffix of a threaded list is threaded from its own first cell. -/
theorem Links.suffix
    {head node : ι}
    {front back : List ι}
    (links : Links next stop head (front ++ node :: back)) :
    Links next stop node (node :: back) := by
  induction front generalizing head with
  | nil =>
      obtain ⟨_, notStop, rest⟩ := links
      exact ⟨rfl, notStop, rest⟩
  | cons first front inductionHypothesis =>
      obtain ⟨_, _, _, _, rest⟩ := links
      exact inductionHypothesis rest

/-- A threaded list never visits a cell twice: the two suffixes that start at
the repeated cell would have to be equal. -/
theorem Links.nodup
    {head : ι}
    {nodes : List ι}
    (links : Links next stop head nodes) :
    nodes.Nodup := by
  induction nodes generalizing head with
  | nil => exact List.nodup_nil
  | cons node nodes inductionHypothesis =>
      have rest := links
      obtain ⟨rfl, _, follower, _, followerLinks⟩ := rest
      refine List.nodup_cons.mpr ⟨?_, inductionHypothesis followerLinks⟩
      intro repeated
      obtain ⟨front, back, split⟩ := List.append_of_mem repeated
      rw [split] at followerLinks
      have equal := links.unique followerLinks.suffix
      have lengths := congrArg List.length equal
      rw [split] at lengths
      simp at lengths
      omega

/-- The entry of a cell of a threaded list is the next cell of the list or the
stop mark. -/
theorem Links.follower_mem
    {head : ι}
    {nodes : List ι}
    (links : Links next stop head nodes) :
    ∀ node ∈ nodes, next node = some stop ∨
      ∃ follower ∈ nodes, next node = some follower := by
  induction nodes generalizing head with
  | nil => simp
  | cons node nodes inductionHypothesis =>
      obtain ⟨_, _, follower, followerEq, rest⟩ := links
      intro cell member
      rcases List.mem_cons.mp member with rfl | later
      · cases nodes with
        | nil =>
            left
            rw [followerEq, links_nil.mp rest]
        | cons second others =>
            right
            exact ⟨follower, by simp [rest.1], followerEq⟩
      · rcases inductionHypothesis rest cell later with atEnd | ⟨other, there, eq⟩
        · exact Or.inl atEnd
        · exact Or.inr ⟨other, by simp [there], eq⟩

/-- The last cell of a threaded list is followed by the stop mark. -/
theorem Links.last_eq
    {head last : ι}
    {front : List ι}
    (links : Links next stop head (front ++ [last])) :
    next last = some stop := by
  obtain ⟨_, _, follower, followerEq, rest⟩ := links.suffix
  rw [followerEq, links_nil.mp rest]

/-- Hanging one fresh cell behind the last cell appends it to the threaded
list. -/
theorem Links.snoc
    {head last fresh : ι}
    {front : List ι}
    (links : Links next stop head (front ++ [last]))
    (agrees : ∀ cell ∈ front, next' cell = next cell)
    (atLast : next' last = some fresh)
    (freshNotStop : fresh ≠ stop)
    (atFresh : next' fresh = some stop) :
    Links next' stop head (front ++ [last] ++ [fresh]) := by
  induction front generalizing head with
  | nil =>
      obtain ⟨headEq, notStop, _⟩ := links
      exact ⟨headEq, notStop, fresh, atLast, rfl, freshNotStop, stop, atFresh, rfl⟩
  | cons first front inductionHypothesis =>
      obtain ⟨headEq, notStop, follower, followerEq, rest⟩ := links
      refine ⟨headEq, notStop, follower, ?_, ?_⟩
      · rw [agrees first (by simp), followerEq]
      · exact inductionHypothesis rest fun cell member =>
          agrees cell (by simp [member])

/-- One cell followed by the stop mark is a threaded list. -/
theorem links_singleton
    {cell : ι}
    (notStop : cell ≠ stop)
    (atCell : next cell = some stop) :
    Links next stop cell [cell] :=
  ⟨rfl, notStop, stop, atCell, rfl⟩

/-! ## Lists that come to an end -/

/-- Following the table from the head comes to the stop mark. -/
def Ends (next : ι → Option ι) (stop head : ι) : Prop :=
  ∃ nodes, Links next stop head nodes

theorem Ends.refl : Ends next stop stop := ⟨[], rfl⟩

theorem Ends.cons
    {node follower : ι}
    (notStop : node ≠ stop)
    (follows : next node = some follower)
    (ends : Ends next stop follower) :
    Ends next stop node := by
  obtain ⟨nodes, links⟩ := ends
  exact ⟨node :: nodes, rfl, notStop, follower, follows, links⟩

/-- If the list ends from every cell whose entry has changed, it ends from every
head it has ended from before: the first changed cell on the way is one of
these. -/
theorem Ends.of_changed
    {head : ι}
    (changed : ∀ node, next' node ≠ next node → Ends next' stop node)
    (ends : Ends next stop head) :
    Ends next' stop head := by
  obtain ⟨nodes, links⟩ := ends
  induction nodes generalizing head with
  | nil =>
      rw [links_nil] at links
      rw [links]
      exact .refl
  | cons node nodes inductionHypothesis =>
      obtain ⟨rfl, notStop, follower, followerEq, rest⟩ := links
      by_cases same : next' head = next head
      · exact .cons notStop (same.trans followerEq) (inductionHypothesis rest)
      · exact changed head same

end LinkedTable
end MsFat
