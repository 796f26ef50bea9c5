import Mathlib.Data.List.AList

/-!
# Reading an updated table

A table is a function or an association list. What an updated table holds is either what the
update wrote or what was there before; the lemmas give the two cases, ready for `rcases`.
-/

namespace Tables

universe u v
variable {κ : Type u} {β : Type v} [DecidableEq κ] {key other : κ} {value seen : β}

theorem update_cases {table : κ → β} (read : Function.update table key value other = seen) :
    (other = key ∧ value = seen) ∨ (other ≠ key ∧ table other = seen) := by
  by_cases same : other = key
  · subst same
    exact .inl ⟨rfl, by rwa [Function.update_self] at read⟩
  · exact .inr ⟨same, by rwa [Function.update_of_ne same] at read⟩

theorem update_some_cases {table : κ → Option β}
    (read : Function.update table key (some value) other = some seen) :
    (other = key ∧ value = seen) ∨ (other ≠ key ∧ table other = some seen) :=
  (update_cases read).imp_left fun here => ⟨here.1, Option.some.inj here.2⟩

variable {table : AList fun _ : κ => β}

theorem insert_cases (read : (table.insert key value).lookup other = some seen) :
    (other = key ∧ value = seen) ∨ (other ≠ key ∧ table.lookup other = some seen) := by
  by_cases same : other = key
  · subst same
    rw [AList.lookup_insert] at read
    exact .inl ⟨rfl, Option.some.inj read⟩
  · exact .inr ⟨same, by rwa [AList.lookup_insert_ne same] at read⟩

theorem lookup_of_erase (read : (table.erase key).lookup other = some seen) :
    table.lookup other = some seen := by
  by_cases same : other = key
  · subst same
    rw [AList.lookup_erase] at read
    contradiction
  · rwa [AList.lookup_erase_ne same] at read

end Tables
