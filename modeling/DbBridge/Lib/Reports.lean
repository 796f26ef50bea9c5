import Mathlib.Order.Basic
import DbBridge.Lib.Writes

/-!
# Programs that report while they write

A `Reports` program is a `Writes` program that also reports values of a type `κ` on its
way, some of them because it has come to its end (`final`). Nothing comes back from a
report, so `erase`, which leaves the reports out, keeps what the program does. `Rises` says
of a program that its reports never go down, from a bound on.
-/

inductive Reports (κ ε ρ : Type) where
  | done (result : ρ)
  | write (bytes : List UInt8) (next : Nat → Option ε → Reports κ ε ρ)
  | tell (final : Bool) (report : κ) (next : Reports κ ε ρ)

namespace Reports

variable {κ ε ρ σ : Type}

def bind : Reports κ ε ρ → (ρ → Reports κ ε σ) → Reports κ ε σ
  | .done result, f => f result
  | .write bytes next, f => .write bytes fun n err => (next n err).bind f
  | .tell final report next, f => .tell final report (next.bind f)

instance : Monad (Reports κ ε) where
  pure := Reports.done
  bind := Reports.bind

def lift : Writes ε ρ → Reports κ ε ρ
  | .done result => .done result
  | .write bytes next => .write bytes fun n err => lift (next n err)

def say (final : Bool) (report : κ) : Reports κ ε Unit := .tell final report (.done ())

/-! ## Leaving the reports out -/

def erase : Reports κ ε ρ → Writes ε ρ
  | .done result => .done result
  | .write bytes next => .write bytes fun n err => (next n err).erase
  | .tell _ _ next => next.erase

@[simp] theorem erase_lift (program : Writes ε ρ) :
    (lift program : Reports κ ε ρ).erase = program := by
  induction program with
  | done => rfl
  | write _ _ ih => simp only [lift, erase, ih]

@[simp] theorem erase_bind (program : Reports κ ε ρ) (rest : ρ → Reports κ ε σ) :
    (program >>= rest).erase = program.erase >>= fun result => (rest result).erase := by
  induction program with
  | done => rfl
  | write bytes next ih =>
    exact congrArg (Writes.write bytes) (funext fun n => funext fun err => ih n err)
  | tell _ _ _ ih => exact ih

/-- A report about the result, made once it is there. -/
theorem erase_bind_say (program : Reports κ ε ρ) (final : Bool) (report : ρ → κ) :
    (program >>= fun result => say final (report result) >>= fun _ => pure result).erase =
      program.erase := by
  induction program with
  | done => rfl
  | write bytes next ih =>
    exact congrArg (Writes.write bytes) (funext fun n => funext fun err => ih n err)
  | tell _ _ _ ih => exact ih

/-! ## Reports that do not go down -/

variable [LE κ]

/-- Every report is at least `low` and at least the one before it, and the result is in
`post` of the last of them. -/
def Rises (post : κ → ρ → Prop) : κ → Reports κ ε ρ → Prop
  | low, .done result => post low result
  | low, .write _ next => ∀ n err, (next n err).Rises post low
  | low, .tell _ report next => low ≤ report ∧ next.Rises post report

variable {rest : ρ → Reports κ ε σ} {after : κ → σ → Prop} {low : κ}

theorem Rises.bind {post : κ → ρ → Prop} {program : Reports κ ε ρ} (first : program.Rises post low)
    (second : ∀ low result, post low result → (rest result).Rises after low) :
    (program >>= rest).Rises after low := by
  induction program generalizing low with
  | done result => exact second low result first
  | write _ _ ih => exact fun n err => ih n err (first n err)
  | tell _ _ _ ih => exact ⟨first.1, ih first.2⟩

variable {program : Writes ε ρ} {post : ρ → Prop}

theorem rises_lift {after : κ → ρ → Prop} (holds : program.Always post)
    (implies : ∀ result, post result → after low result) :
    (lift program : Reports κ ε ρ).Rises after low := by
  induction program with
  | done result => exact implies result holds
  | write _ _ ih => exact fun n err => ih n err (holds n err)

theorem rises_lift_bind (holds : program.Always post)
    (second : ∀ result, post result → (rest result).Rises after low) :
    (lift program >>= rest).Rises after low := by
  have first : (lift program : Reports κ ε ρ).Rises
      (fun last result => last = low ∧ post result) low :=
    rises_lift holds fun _ known => ⟨rfl, known⟩
  refine first.bind ?_
  intro last result known
  rw [known.1]
  exact second result known.2

end Reports
