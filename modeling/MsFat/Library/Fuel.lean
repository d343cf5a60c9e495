/-!
# Computations that are given fuel

An unbounded loop is modelled by a function of a fuel argument that fails when
the fuel runs out.  `Computes` says all there is to say about such a function
that comes to an end: from some amount of fuel on it gives the result, and with
less fuel it gives no other one.
-/

namespace MsFat

universe u v

variable {ε : Type u} {α β : Type v}

/-- With `bound` fuel or more `run` gives `result`, and it never gives another
result. -/
structure Computes
    (run : Nat → Except ε α)
    (bound : Nat)
    (result : α) : Prop where
  /-- Enough fuel gives the result. -/
  enough : ∀ fuel, bound ≤ fuel → run fuel = .ok result
  /-- No amount of fuel gives another result. -/
  only : ∀ fuel other, run fuel = .ok other → other = result

/-- Some amount of fuel gives a result. -/
def Terminates (run : Nat → Except ε α) : Prop :=
  ∃ fuel result, run fuel = .ok result

namespace Computes

/-- A function that ignores its fuel computes its value. -/
theorem const
    {run : Nat → Except ε α}
    {result : α}
    (always : ∀ fuel, run fuel = .ok result) :
    Computes run 0 result where
  enough := fun fuel _ => always fuel
  only := fun fuel _ gives =>
    (Except.ok.inj ((always fuel).symm.trans gives)).symm

/-- A function computes one result only. -/
theorem unique
    {run : Nat → Except ε α}
    {bound bound' : Nat}
    {result result' : α}
    (computes : Computes run bound result)
    (computes' : Computes run bound' result') :
    result = result' :=
  computes'.only bound result (computes.enough bound (Nat.le_refl bound))

/-- A step that needs no fuel may follow a computation. -/
theorem bind
    {run : Nat → Except ε α}
    {rest : α → Except ε β}
    {bound : Nat}
    {middle : α}
    {result : β}
    (computes : Computes run bound middle)
    (follows : rest middle = .ok result) :
    Computes (fun fuel => run fuel >>= rest) bound result where
  enough := by
    intro fuel enoughFuel
    change run fuel >>= rest = _
    rw [computes.enough fuel enoughFuel]
    exact follows
  only := by
    intro fuel other gives
    change run fuel >>= rest = _ at gives
    cases first : run fuel with
    | error fault =>
        rw [first] at gives
        exact nomatch gives
    | ok found =>
        rw [first] at gives
        have same := computes.only fuel found first
        subst same
        exact Except.ok.inj (gives.symm.trans follows)

/-- A computation may follow another one with the same fuel. -/
theorem andThen
    {run : Nat → Except ε α}
    {rest : α → Nat → Except ε β}
    {bound bound' : Nat}
    {middle : α}
    {result : β}
    (computes : Computes run bound middle)
    (follows : Computes (rest middle) bound' result) :
    Computes (fun fuel => run fuel >>= fun value => rest value fuel)
      (max bound bound') result where
  enough := by
    intro fuel enoughFuel
    change run fuel >>= (fun value => rest value fuel) = _
    rw [computes.enough fuel (Nat.le_trans (Nat.le_max_left _ _) enoughFuel)]
    exact follows.enough fuel (Nat.le_trans (Nat.le_max_right _ _) enoughFuel)
  only := by
    intro fuel other gives
    change run fuel >>= (fun value => rest value fuel) = _ at gives
    cases first : run fuel with
    | error fault =>
        rw [first] at gives
        exact nomatch gives
    | ok found =>
        rw [first] at gives
        have same := computes.only fuel found first
        subst same
        exact follows.only fuel other gives

/-- A computation followed by one that does not end does not end. -/
theorem not_terminates_andThen
    {run : Nat → Except ε α}
    {rest : α → Nat → Except ε β}
    {bound : Nat}
    {middle : α}
    (computes : Computes run bound middle)
    (diverges : ¬Terminates (rest middle)) :
    ¬Terminates fun fuel => run fuel >>= fun value => rest value fuel := by
  rintro ⟨fuel, result, gives⟩
  change run fuel >>= (fun value => rest value fuel) = _ at gives
  cases first : run fuel with
  | error fault =>
      rw [first] at gives
      exact nomatch gives
  | ok found =>
      rw [first] at gives
      rw [computes.only fuel found first] at gives
      exact diverges ⟨fuel, result, gives⟩

/-- A computation ends. -/
theorem terminates
    {run : Nat → Except ε α}
    {bound : Nat}
    {result : α}
    (computes : Computes run bound result) :
    Terminates run :=
  ⟨bound, result, computes.enough bound (Nat.le_refl bound)⟩

/-- A larger bound is a bound as well. -/
theorem weaken
    {run : Nat → Except ε α}
    {bound larger : Nat}
    {result : α}
    (computes : Computes run bound result)
    (le : bound ≤ larger) :
    Computes run larger result where
  enough := fun fuel enoughFuel =>
    computes.enough fuel (Nat.le_trans le enoughFuel)
  only := computes.only

theorem congr
    {run other : Nat → Except ε α}
    {bound : Nat}
    {result : α}
    (computes : Computes run bound result)
    (same : ∀ fuel, other fuel = run fuel) :
    Computes other bound result where
  enough := fun fuel enoughFuel =>
    (same fuel).trans (computes.enough fuel enoughFuel)
  only := fun fuel found gives =>
    computes.only fuel found ((same fuel).symm.trans gives)

end Computes

/-- Nothing follows what does not end. -/
theorem Terminates.of_bind
    {run : Nat → Except ε α}
    {rest : Nat → α → Except ε β}
    (terminates : Terminates fun fuel => run fuel >>= rest fuel) :
    Terminates run := by
  obtain ⟨fuel, result, gives⟩ := terminates
  change run fuel >>= rest fuel = _ at gives
  cases first : run fuel with
  | error fault =>
      rw [first] at gives
      exact nomatch gives
  | ok found => exact ⟨fuel, found, first⟩

end MsFat
