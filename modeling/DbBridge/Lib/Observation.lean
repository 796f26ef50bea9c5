import Mathlib.Tactic.Common

/-!
# Results an observer cannot tell apart

An observer sees the value of a computation that succeeds and, of one that fails,
only `view err`. Two computations are the same to it when their results agree under
that view. The rules below carry this through sequencing and into the answer made
from a result.
-/

namespace Observation

universe u v w
variable {ε : Type u} {ω : Type v} {α β : Type w} {view : ε → ω}

def Same (view : ε → ω) (first second : Except ε α) : Prop :=
  first.mapError view = second.mapError view

def answer {γ : Type*} (failure : ε → γ) (value : α → γ) : Except ε α → γ
  | .error err => failure err
  | .ok result => value result

namespace Same

theorem refl (result : Except ε α) : Same view result result := Eq.refl _

theorem errors {first second : ε} (same : view first = view second) :
    Same (α := α) view (.error first) (.error second) := by
  simp [Same, Except.mapError, same]

section
variable {first second : Except ε α} (same : Same view first second)
include same

/-- Results that are the same are both errors or both one value. -/
theorem cases : (∃ err err', first = .error err ∧ second = .error err' ∧ view err = view err') ∨
      ∃ value, first = .ok value ∧ second = .ok value := by
  cases first with
  | error err =>
    cases second with
    | error err' =>
      simp only [Same, Except.mapError, Except.error.injEq] at same
      exact .inl ⟨err, err', rfl, rfl, same⟩
    | ok => simp [Same, Except.mapError] at same
  | ok value =>
    cases second with
    | error => simp [Same, Except.mapError] at same
    | ok =>
      simp only [Same, Except.mapError, Except.ok.injEq] at same
      exact .inr ⟨value, rfl, by rw [same]⟩

/-- What follows a step is compared only on the values that the step can return. -/
theorem bind {next other : α → Except ε β}
    (rest : ∀ value, first = .ok value → Same view (next value) (other value)) :
    Same view (first >>= next) (second >>= other) := by
  rcases same.cases with ⟨_, _, rfl, rfl, equal⟩ | ⟨value, rfl, rfl⟩
  · exact errors equal
  · exact rest value rfl

theorem answer {γ : Type*} {failure : ε → γ} {value : α → γ}
    (shows : ∀ err err', view err = view err' → failure err = failure err') :
    Observation.answer failure value first = Observation.answer failure value second := by
  rcases same.cases with ⟨err, err', rfl, rfl, equal⟩ | ⟨_, rfl, rfl⟩
  · exact shows err err' equal
  · rfl

end

end Same

end Observation
