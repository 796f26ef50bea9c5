import Mathlib.Logic.Relation

/-!
# Guarded runs of a partial step function

In a system `step : State → Action → Option State`, `none` means that the action is not enabled. A
guard is a condition on the state before a step and on its action. `Reaches` has the states that
finitely many guarded steps lead to, and `execute` replays a schedule, so that a concrete run can
be evaluated. `Always` guards nothing.
-/

namespace Runs

universe u v
variable {State : Type u} {Action : Type v}

def Always (_ : State) (_ : Action) : Prop := True

instance (state : State) (action : Action) : Decidable (Always state action) :=
  inferInstanceAs (Decidable True)

/-- One step whose action meets the guard in the state it starts from. -/
def GuardedStep (step : State → Action → Option State)
    (guard : State → Action → Prop) (before after : State) : Prop :=
  ∃ action, guard before action ∧ step before action = some after

def Reaches (step : State → Action → Option State)
    (guard : State → Action → Prop) : State → State → Prop :=
  Relation.ReflTransGen (GuardedStep step guard)

/-- Replays a schedule; `none` as soon as an action is not enabled or breaks the
guard. -/
def execute (step : State → Action → Option State)
    (guard : State → Action → Prop) [∀ s a, Decidable (guard s a)] :
    List Action → State → Option State
  | [], state => some state
  | action :: rest, state =>
    if guard state action then
      match step state action with
      | none => none
      | some next => execute step guard rest next
    else none

variable {first middle last : State}

section
variable {step : State → Action → Option State} {guard : State → Action → Prop}

theorem Reaches.refl (state : State) : Reaches step guard state state :=
  Relation.ReflTransGen.refl

theorem Reaches.trans (before : Reaches step guard first middle)
    (after : Reaches step guard middle last) : Reaches step guard first last :=
  Relation.ReflTransGen.trans before after

theorem Reaches.snoc {action : Action} (run : Reaches step guard first middle)
    (allowed : guard middle action) (taken : step middle action = some last) :
    Reaches step guard first last :=
  Relation.ReflTransGen.tail run ⟨action, allowed, taken⟩

section
variable (run : Reaches step guard first last)
include run

/-- The invariant rule: what holds at the start and is kept by every guarded
step holds wherever a guarded run leads. -/
theorem Reaches.invariant (inv : State → Prop) (initial : inv first)
    (kept : ∀ before action after, inv before → guard before action →
      step before action = some after → inv after) : inv last := by
  induction run with
  | refl => exact initial
  | tail _ last ih =>
    obtain ⟨action, allowed, taken⟩ := last
    exact kept _ action _ ih allowed taken

theorem Reaches.mono {weaker : State → Action → Prop}
    (implies : ∀ state action, guard state action → weaker state action) :
    Reaches step weaker first last := by
  induction run with
  | refl => exact Reaches.refl _
  | tail _ last ih =>
    obtain ⟨action, allowed, taken⟩ := last
    exact ih.snoc (implies _ action allowed) taken

theorem Reaches.always : Reaches step Always first last :=
  run.mono fun _ _ _ => trivial

end

variable (schedule : List Action)

theorem reaches_of_execute [∀ s a, Decidable (guard s a)] (first last : State)
    (replayed : execute step guard schedule first = some last) : Reaches step guard first last := by
  induction schedule generalizing first with
  | nil =>
    simp only [execute, Option.some.injEq] at replayed
    subst last
    exact Reaches.refl first
  | cons action rest ih =>
    simp only [execute] at replayed
    split at replayed
    · rename_i allowed
      cases taken : step first action with
      | none => simp [taken] at replayed
      | some next =>
        rw [taken] at replayed
        exact Reaches.trans ((Reaches.refl first).snoc allowed taken)
          (ih next replayed)
    · contradiction

/-- A replay that ends where these facts hold shows that such a state is reached. -/
theorem exists_reaches [∀ s a, Decidable (guard s a)] {facts : State → Prop}
    (replayed : ∃ last ∈ execute step guard schedule first, facts last) :
    ∃ last, Reaches step guard first last ∧ facts last := by
  obtain ⟨last, run, holds⟩ := replayed
  exact ⟨last, reaches_of_execute schedule first last run, holds⟩

/-- The progress rule: where every state short of the goal has a step that comes
closer to it, the goal can be reached. -/
theorem reaches_of_measure (inv goal : State → Prop) (measure : State → Nat)
    (next : ∀ state, inv state → ¬ goal state → ∃ action after, guard state action ∧
      step state action = some after ∧ inv after ∧ (goal after ∨ measure after < measure state))
    (first : State) (holds : inv first) : ∃ last, Reaches step guard first last ∧ goal last := by
  induction bound : measure first using Nat.strongRecOn generalizing first with
  | ind n ih =>
    by_cases done : goal first
    · exact ⟨first, Reaches.refl first, done⟩
    · obtain ⟨action, after, allowed, taken, kept, closer⟩ := next first holds done
      have path := (Reaches.refl first).snoc allowed taken
      rcases closer with done | less
      · exact ⟨after, path, done⟩
      · obtain ⟨last, rest, done⟩ := ih _ (bound ▸ less) after kept rfl
        exact ⟨last, path.trans rest, done⟩

/-- However the guarded steps are scheduled, they lead to the goal: short of it one of them
is enabled, and after each of them this holds again. -/
inductive Inevitable (step : State → Action → Option State) (guard : State → Action → Prop)
    (goal : State → Prop) : State → Prop
  | here {state : State} (done : goal state) : Inevitable step guard goal state
  | ahead {state : State}
      (enabled : ∃ action after, guard state action ∧ step state action = some after)
      (every : ∀ action after, guard state action → step state action = some after →
        Inevitable step guard goal after) : Inevitable step guard goal state

theorem inevitable_of_measure (inv goal : State → Prop) (measure : State → Nat)
    (enabled : ∀ state, inv state → ¬ goal state →
      ∃ action after, guard state action ∧ step state action = some after)
    (closer : ∀ state action after, inv state → ¬ goal state → guard state action →
      step state action = some after →
        goal after ∨ inv after ∧ measure after < measure state)
    (first : State) (holds : inv first) : Inevitable step guard goal first := by
  induction bound : measure first using Nat.strongRecOn generalizing first with
  | ind n ih =>
    by_cases done : goal first
    · exact .here done
    · refine .ahead (enabled first holds done) ?_
      intro action after allowed taken
      rcases closer first action after holds done allowed taken with reached | ⟨kept, less⟩
      · exact .here reached
      · exact ih _ (bound ▸ less) after kept rfl

end

end Runs
