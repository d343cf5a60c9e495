import MsFat.Library.Fuel

/-!
# Programs over a component

A program makes calls of a component, one after the other, and goes on with what
each call replies.  The component may be given by what it does, or by a
specification that says for some calls which replies they may give.

A component that meets a specification can be replaced by it: what every run of
a program over the specification ends with, the program ends with over the
component.
-/

namespace MsFat

universe u v w x

/-- A program that makes calls `κ`, is given replies `ρ` and ends with a
value. -/
inductive Program (κ : Type u) (ρ : Type v) (α : Type w)
  | done (value : α)
  | ask (call : κ) (next : ρ → Program κ ρ α)

namespace Program

variable {κ : Type u} {ρ : Type v}

/-- The second program goes on with the value of the first. -/
def bind {α β : Type w} :
    Program κ ρ α → (α → Program κ ρ β) → Program κ ρ β
  | .done value, rest => rest value
  | .ask call next, rest => .ask call fun reply => (next reply).bind rest

instance monadProgram : Monad (Program κ ρ) where
  pure := .done
  bind := bind

/-- The program that makes one call. -/
def call (call : κ) : Program κ ρ ρ :=
  .ask call .done

end Program

/-! ## Specifications -/

/-- For a state and a call, the state behind the call and the replies it may
give; or nothing, if the specification does not cover the call. -/
abbrev Specification (κ : Type u) (ρ : Type v) (τ : Type w) :=
  τ → κ → Option (τ × (ρ → Prop))

namespace Program

section Ensures

variable {κ : Type u} {ρ : Type v} {τ : Type x} {α β : Type w}
  {spec : Specification κ ρ τ}

/-- Over the specification, the program makes covered calls only, and whatever
they reply it ends with a state and a value that satisfy `post`. -/
def Ensures (spec : Specification κ ρ τ) :
    Program κ ρ α → τ → (τ → α → Prop) → Prop
  | .done value, state, post => post state value
  | .ask call next, state, post =>
      ∃ after allowed, spec state call = some (after, allowed) ∧
        ∀ reply, allowed reply → (next reply).Ensures spec after post

theorem Ensures.mono
    {program : Program κ ρ α}
    {state : τ}
    {post weaker : τ → α → Prop}
    (ensures : program.Ensures spec state post)
    (weakens : ∀ state value, post state value → weaker state value) :
    program.Ensures spec state weaker := by
  induction program generalizing state with
  | done value => exact weakens state value ensures
  | ask call next inductionHypothesis =>
      obtain ⟨after, allowed, covered, replies⟩ := ensures
      exact ⟨after, allowed, covered, fun reply isAllowed =>
        inductionHypothesis reply (replies reply isAllowed)⟩

/-- What the second program has to ensure is what the first one has to end
with. -/
theorem ensures_bind
    {program : Program κ ρ α}
    {rest : α → Program κ ρ β}
    {state : τ}
    {post : τ → β → Prop} :
    (program >>= rest).Ensures spec state post ↔
      program.Ensures spec state fun middle value =>
        (rest value).Ensures spec middle post := by
  induction program generalizing state with
  | done value => exact Iff.rfl
  | ask call next inductionHypothesis =>
      exact exists_congr fun after => exists_congr fun allowed =>
        and_congr_right fun _ => forall_congr' fun reply =>
          imp_congr_right fun _ => inductionHypothesis reply

end Ensures

/-- A call has to be covered, whatever it replies. -/
theorem ensures_call_bind
    {κ : Type u}
    {ρ β : Type v}
    {τ : Type x}
    {spec : Specification κ ρ τ}
    {call : κ}
    {rest : ρ → Program κ ρ β}
    {state : τ}
    {post : τ → β → Prop} :
    (Program.call call >>= rest).Ensures spec state post ↔
      ∃ after allowed, spec state call = some (after, allowed) ∧
        ∀ reply, allowed reply → (rest reply).Ensures spec after post :=
  Iff.rfl

/-! ## Programs that do not come to an end -/

section Hangs

variable {κ : Type u} {ρ : Type v} {τ : Type x} {α β : Type w}
  {spec : Specification κ ρ τ} {stuck : τ → κ → Prop}

/-- Over the specification, the program comes to a call that is stuck, whatever
the calls before it reply. -/
def Hangs (spec : Specification κ ρ τ) (stuck : τ → κ → Prop) :
    Program κ ρ α → τ → Prop
  | .done _, _ => False
  | .ask call next, state =>
      stuck state call ∨
        ∃ after allowed, spec state call = some (after, allowed) ∧
          ∀ reply, allowed reply → (next reply).Hangs spec stuck after

/-- Nothing follows a program that hangs. -/
theorem Hangs.bind
    {program : Program κ ρ α}
    {state : τ}
    (hangs : program.Hangs spec stuck state)
    (rest : α → Program κ ρ β) :
    (program >>= rest).Hangs spec stuck state := by
  induction program generalizing state with
  | done value => exact hangs.elim
  | ask call next inductionHypothesis =>
      cases hangs with
      | inl isStuck => exact .inl isStuck
      | inr replies =>
          obtain ⟨after, allowed, covered, hangs⟩ := replies
          exact .inr ⟨after, allowed, covered, fun reply isAllowed =>
            inductionHypothesis reply (hangs reply isAllowed)⟩

/-- A program hangs if it hangs behind what its first part ensures. -/
theorem Ensures.hangs
    {program : Program κ ρ α}
    {rest : α → Program κ ρ β}
    {state : τ}
    (ensures : program.Ensures spec state fun middle value =>
      (rest value).Hangs spec stuck middle) :
    (program >>= rest).Hangs spec stuck state := by
  induction program generalizing state with
  | done value => exact ensures
  | ask call next inductionHypothesis =>
      obtain ⟨after, allowed, covered, replies⟩ := ensures
      exact .inr ⟨after, allowed, covered, fun reply isAllowed =>
        inductionHypothesis reply (replies reply isAllowed)⟩

end Hangs

/-! ## Programs with a meaning -/

section HasMeaning

universe y

variable {κ : Type u} {ρ : Type v} {τ : Type x} {α β : Type w} {μ ν : Type y}
  {spec : Specification κ ρ τ} {stuck : τ → κ → Prop}

/-- The program ends as its meaning allows, or hangs if it means nothing. -/
def HasMeaning
    (spec : Specification κ ρ τ)
    (stuck : τ → κ → Prop)
    (program : Program κ ρ α)
    (state : τ)
    (allows : μ → τ → α → Prop) : Option μ → Prop
  | none => program.Hangs spec stuck state
  | some meaning => program.Ensures spec state (allows meaning)

/-- What comes behind a program has a meaning behind everything that the meaning
of the program allows. -/
theorem HasMeaning.bind
    {program : Program κ ρ α}
    {rest : α → Program κ ρ β}
    {state : τ}
    {allows : μ → τ → α → Prop}
    {allowsRest : ν → τ → β → Prop}
    {first : Option μ}
    {next : μ → Option ν}
    (hasMeaning : program.HasMeaning spec stuck state allows first)
    (follows : ∀ meaning middle value, allows meaning middle value →
      (rest value).HasMeaning spec stuck middle allowsRest (next meaning)) :
    (program >>= rest).HasMeaning spec stuck state allowsRest
      (first.bind next) := by
  cases first with
  | none => exact Hangs.bind hasMeaning rest
  | some meaning =>
      have restFollows := follows meaning
      change Program.HasMeaning _ _ _ _ _ (next meaning)
      cases isNext : next meaning with
      | none =>
          rw [isNext] at restFollows
          exact Ensures.hangs (Ensures.mono hasMeaning restFollows)
      | some restMeaning =>
          rw [isNext] at restFollows
          exact ensures_bind.mpr (Ensures.mono hasMeaning restFollows)

end HasMeaning

/-! ## Components -/

section Run

variable {κ : Type u} {η : Type w} {ε : Type x} {ρ σ τ α β : Type v}

/-- The program over a component that does `perform`.  Every call takes one of
the given environments. -/
def run
    (perform : η → κ → Nat → σ → Except ε (σ × ρ))
    (fuel : Nat) :
    Program κ ρ α → (Nat → η) → σ → Except ε (σ × α)
  | .done value, _, state => .ok (state, value)
  | .ask call next, environments, state => do
      let (state, reply) ← perform (environments 0) call fuel state
      (next reply).run perform fuel (fun number => environments (number + 1))
        state

/-- The component gives every covered call an allowed reply and keeps to the
states of the specification, in the environments that are suitable. -/
def Meets
    (perform : η → κ → Nat → σ → Except ε (σ × ρ))
    (suitable : η → Prop)
    (represents : σ → τ → Prop)
    (spec : Specification κ ρ τ) : Prop :=
  ∀ environment call state image after allowed,
    suitable environment → represents state image →
    spec image call = some (after, allowed) →
      ∃ state' reply bound,
        Computes (fun fuel => perform environment call fuel state) bound
          (state', reply) ∧
        represents state' after ∧ allowed reply

/-- What a program ensures over the specification holds at its end over a
component that meets it, and it comes to its end there. -/
theorem Meets.run
    {perform : η → κ → Nat → σ → Except ε (σ × ρ)}
    {suitable : η → Prop}
    {represents : σ → τ → Prop}
    {spec : Specification κ ρ τ}
    (meets : Meets perform suitable represents spec)
    {program : Program κ ρ α}
    {environments : Nat → η}
    (allSuitable : ∀ number, suitable (environments number))
    {state : σ}
    {image : τ}
    {post : τ → α → Prop}
    (represented : represents state image)
    (ensures : program.Ensures spec image post) :
    ∃ state' value bound image',
      Computes
        (fun fuel => program.run perform fuel environments state) bound
        (state', value) ∧
      represents state' image' ∧ post image' value := by
  induction program generalizing environments state image with
  | done value =>
      exact ⟨state, value, 0, image, .const fun _ => rfl, represented, ensures⟩
  | ask call next inductionHypothesis =>
      obtain ⟨after, allowed, covered, replies⟩ := ensures
      obtain ⟨middle, reply, first, computes, representedMiddle, isAllowed⟩ :=
        meets _ call state image after allowed (allSuitable 0) represented
          covered
      obtain ⟨state', value, second, image', rest, representedLast, holds⟩ :=
        @inductionHypothesis reply (fun number => environments (number + 1))
          (fun number => allSuitable (number + 1)) middle after
          representedMiddle (replies reply isAllowed)
      exact ⟨state', value, max first second, image',
        computes.andThen rest, representedLast, holds⟩

/-- If the component does not return from calls that are stuck, a program that
hangs over the specification does not come to its end. -/
theorem Meets.not_terminates
    {perform : η → κ → Nat → σ → Except ε (σ × ρ)}
    {suitable : η → Prop}
    {represents : σ → τ → Prop}
    {spec : Specification κ ρ τ}
    {stuck : τ → κ → Prop}
    (meets : Meets perform suitable represents spec)
    (never : ∀ environment call state image,
      suitable environment → represents state image → stuck image call →
        ¬Terminates fun fuel => perform environment call fuel state)
    {program : Program κ ρ α}
    {environments : Nat → η}
    (allSuitable : ∀ number, suitable (environments number))
    {state : σ}
    {image : τ}
    (represented : represents state image)
    (hangs : program.Hangs spec stuck image) :
    ¬Terminates fun fuel => program.run perform fuel environments state := by
  induction program generalizing environments state image with
  | done value => exact hangs.elim
  | ask call next inductionHypothesis =>
      cases hangs with
      | inl isStuck =>
          intro terminates
          exact never _ call state image (allSuitable 0) represented isStuck
            terminates.of_bind
      | inr replies =>
          obtain ⟨after, allowed, covered, hangs⟩ := replies
          obtain ⟨middle, reply, bound, computes, representedMiddle,
            isAllowed⟩ :=
            meets _ call state image after allowed (allSuitable 0) represented
              covered
          exact computes.not_terminates_andThen
            (@inductionHypothesis reply (fun number => environments (number + 1))
              (fun number => allSuitable (number + 1)) middle after
              representedMiddle (hangs reply isAllowed))

end Run

end Program
end MsFat
