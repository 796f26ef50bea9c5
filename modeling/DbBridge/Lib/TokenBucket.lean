import Mathlib.Tactic.Linarith
import Mathlib.Tactic.Positivity

/-!
# Token buckets

A bucket holds at most `burst` tokens and is refilled at a constant rate; an event is
allowed if a token can be taken at that moment. Two buckets are `Alike` from a time on
if they have the same level at every later time: they then decide alike for ever.
-/

structure TokenBucket where
  rate : ℚ
  burst : ℕ
  rate_pos : 0 < rate
  burst_pos : 0 < burst

namespace TokenBucket

structure Fill where
  tokens : ℚ
  last : ℤ

variable (spec : TokenBucket)

def level (fill : Fill) (now : ℤ) : ℚ :=
  min (spec.burst : ℚ) (fill.tokens + spec.rate * (max 0 (now - fill.last) : ℤ))

def full (now : ℤ) : Fill := { tokens := spec.burst, last := now }

def allow (fill : Fill) (now : ℤ) : Bool × Fill :=
  if 1 ≤ spec.level fill now then (true, { tokens := spec.level fill now - 1, last := now })
  else (false, fill)

def decisions : List ℤ → Fill → List Bool
  | [], _ => []
  | now :: later, fill => (spec.allow fill now).1 :: decisions later (spec.allow fill now).2

def after : List ℤ → Fill → Fill
  | [], fill => fill
  | now :: later, fill => after later (spec.allow fill now).2

theorem decisions_append (first second : List ℤ) (fill : Fill) :
    spec.decisions (first ++ second) fill =
      spec.decisions first fill ++ spec.decisions second (spec.after first fill) := by
  induction first generalizing fill with
  | nil => rfl
  | cons _ _ ih => exact congrArg _ (ih _)

/-! ## Levels -/

theorem level_le_burst (fill : Fill) (now : ℤ) : spec.level fill now ≤ spec.burst :=
  min_le_left _ _

theorem level_full (since now : ℤ) : spec.level (spec.full since) now = spec.burst := by
  have gained : 0 ≤ spec.rate * (max 0 (now - since) : ℤ) :=
    mul_nonneg spec.rate_pos.le (by exact_mod_cast le_max_left 0 (now - since))
  exact min_eq_left (by simpa [full] using gained)

variable {fill : Fill} {now : ℤ}

/-- A bucket left alone long enough is full. -/
theorem level_of_idle {idle : ℤ} (tokens : 0 ≤ fill.tokens) (waited : fill.last + idle ≤ now)
    (enough : (spec.burst : ℚ) ≤ spec.rate * idle) : spec.level fill now = spec.burst := by
  have elapsed : (idle : ℚ) ≤ (max 0 (now - fill.last) : ℤ) := by
    exact_mod_cast le_trans (by omega) (le_max_right 0 (now - fill.last))
  have gained := mul_le_mul_of_nonneg_left elapsed spec.rate_pos.le
  exact min_eq_left (by linarith)

theorem allow_tokens_nonneg (tokens : 0 ≤ fill.tokens) (now : ℤ) :
    0 ≤ (spec.allow fill now).2.tokens := by
  unfold allow
  split
  · rename_i enough
    exact sub_nonneg.mpr enough
  · exact tokens

theorem allow_last_le (earlier : fill.last ≤ now) : (spec.allow fill now).2.last ≤ now := by
  unfold allow
  split
  · exact le_refl now
  · exact earlier

/-! ## Buckets that decide alike -/

def Alike (now : ℤ) (one other : Fill) : Prop :=
  ∀ later, now ≤ later → spec.level one later = spec.level other later

variable {spec}

theorem Alike.refl (now : ℤ) (fill : Fill) : spec.Alike now fill fill := fun _ _ => rfl

theorem Alike.mono {later : ℤ} {one other : Fill} (alike : spec.Alike now one other)
    (after : now ≤ later) : spec.Alike later one other :=
  fun time reached => alike time (le_trans after reached)

theorem Alike.allow {later : ℤ} {one other : Fill} (alike : spec.Alike now one other)
    (after : now ≤ later) :
    (spec.allow one later).1 = (spec.allow other later).1 ∧
      spec.Alike later (spec.allow one later).2 (spec.allow other later).2 := by
  unfold TokenBucket.allow
  rw [alike later after]
  split
  · exact ⟨rfl, Alike.refl _ _⟩
  · exact ⟨rfl, alike.mono after⟩

/-- A full bucket is full at every time. -/
theorem decisions_full (times : List ℤ) (since since' : ℤ) :
    spec.decisions times (spec.full since) = spec.decisions times (spec.full since') := by
  cases times with
  | nil => rfl
  | cons =>
    have enough : (1 : ℚ) ≤ spec.burst := by exact_mod_cast spec.burst_pos
    simp [decisions, TokenBucket.allow, level_full, enough]

/-! ## Many events at one time -/

theorem level_after_taking (enough : 1 ≤ spec.level fill now) :
    spec.level (spec.allow fill now).2 now = spec.level fill now - 1 := by
  have bounded := spec.level_le_burst fill now
  simp only [TokenBucket.allow, if_pos enough]
  have still : spec.level { tokens := spec.level fill now - 1, last := now } now =
      min (spec.burst : ℚ) (spec.level fill now - 1) := by simp [level]
  rw [still]
  exact min_eq_right (by linarith)

/-- At one time as many events pass as there are whole tokens. -/
theorem decisions_replicate_iff (now : ℤ) (count : ℕ) (fill : Fill)
    (tokens : 0 ≤ spec.level fill now) :
    spec.decisions (List.replicate count now) fill = List.replicate count true ↔
      (count : ℚ) ≤ spec.level fill now := by
  induction count generalizing fill with
  | zero => simpa [decisions] using tokens
  | succ count ih =>
    simp only [List.replicate_succ, decisions, List.cons.injEq]
    by_cases enough : 1 ≤ spec.level fill now
    · have next := level_after_taking enough
      rw [ih _ (by rw [next]; linarith), next]
      have passes : (spec.allow fill now).1 = true := by simp [allow, enough]
      push_cast
      constructor
      · rintro ⟨-, _⟩
        linarith
      · exact fun all => ⟨passes, by linarith⟩
    · have refused : (spec.allow fill now).1 = false := by simp [allow, enough]
      simp only [refused, Bool.false_eq_true, false_and, false_iff, not_le]
      push_cast
      have nonneg : (0 : ℚ) ≤ count := Nat.cast_nonneg count
      linarith [not_le.mp enough]

theorem after_replicate (now : ℤ) (count : ℕ) (fill : Fill)
    (enough : ((count + 1 : ℕ) : ℚ) ≤ spec.level fill now) :
    spec.after (List.replicate (count + 1) now) fill =
      { tokens := spec.level fill now - (count + 1 : ℕ), last := now } := by
  induction count generalizing fill with
  | zero =>
    have one : 1 ≤ spec.level fill now := by simpa using enough
    simp [after, allow, one]
  | succ count ih =>
    push_cast at enough
    have nonneg : (0 : ℚ) ≤ count := Nat.cast_nonneg count
    have one : 1 ≤ spec.level fill now := by linarith
    have next := level_after_taking one
    have rest := ih (spec.allow fill now).2 (by rw [next]; push_cast; linarith)
    rw [List.replicate_succ, after, rest, next]
    push_cast
    congr 1
    linarith

end TokenBucket
