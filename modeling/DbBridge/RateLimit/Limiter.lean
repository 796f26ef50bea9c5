import DbBridge.Domain.Models
import DbBridge.Lib.TokenBucket

/-!
# `internal/ratelimit`

One token bucket per key, dropped when it was not used for ten minutes. The buckets
of `golang.org/x/time/rate` are `TokenBucket`s with exact arithmetic; times are in
nanoseconds. `Tracks` relates the bucket of one key to a bucket that is never
dropped.
-/

namespace DbBridge.RateLimit

open Domain TokenBucket

def idleEviction : Duration := 10 * minute

structure Entry where
  limiter : Fill
  lastUse : Time

/-- `lastPurge` is `none` for the zero time. -/
structure Limiter where
  spec : TokenBucket
  entries : String → Option Entry := fun _ => none
  lastPurge : Option Time := none

/-- `New`; a nil limiter is `none`. -/
def new (rps : ℚ) (burst : Int) : Option Limiter :=
  if positive : 0 < rps then
    some { spec :=
      { rate := rps / second
        burst := if burst ≤ 0 then 1 else burst.toNat
        rate_pos := div_pos positive (by decide)
        burst_pos := by split <;> omega } }
  else none

namespace Limiter

variable (l : Limiter)

def purgeLocked (now : Time) : Limiter :=
  if l.lastPurge.any fun last => now - last < idleEviction then l
  else
    { l with
      lastPurge := some now
      entries := fun key => (l.entries key).filter fun e => now - e.lastUse ≤ idleEviction }

def bucket (now : Time) (key : String) : Fill :=
  ((l.entries key).map Entry.limiter).getD (l.spec.full now)

def allow (now : Time) (key : String) : Bool × Limiter :=
  let l := l.purgeLocked now
  let (allowed, fill) := l.spec.allow (l.bucket now key) now
  (allowed, { l with
    entries := Function.update l.entries key (some { limiter := fill, lastUse := now }) })

end Limiter

/-- `Allow` and its effect, with a nil limiter allowing everything. -/
def allow (l : Option Limiter) (now : Time) (key : String) : Bool × Option Limiter :=
  match l with
  | none => (true, none)
  | some l => ((l.allow now key).1, some (l.allow now key).2)

/-! ## One key against one bucket -/

namespace Limiter

variable {l : Limiter}

@[simp] theorem purgeLocked_spec (now : Time) : (l.purgeLocked now).spec = l.spec := by
  unfold purgeLocked
  split <;> rfl

@[simp] theorem allow_spec (now : Time) (key : String) : (l.allow now key).2.spec = l.spec :=
  purgeLocked_spec now

theorem level_bucket (key : String) (since since' now : Time) :
    l.spec.level (l.bucket since key) now = l.spec.level (l.bucket since' key) now := by
  cases found : l.entries key with
  | none => simp [bucket, found, level_full]
  | some => simp [bucket, found]

/-- From `now` on the bucket of the key, or a new one, is like `fill`. -/
structure Tracks (l : Limiter) (key : String) (now : Time) (fill : Fill) : Prop where
  tokens : 0 ≤ fill.tokens
  past : fill.last ≤ now
  alike : l.spec.Alike now (l.bucket now key) fill
  lastUse : ∀ e ∈ l.entries key, fill.last ≤ e.lastUse ∧ e.lastUse ≤ now

/-- A bucket that was not used for longer than `idleEviction` is full by then. -/
def Refills (spec : TokenBucket) : Prop :=
  (spec.burst : ℚ) ≤ spec.rate * (idleEviction + 1 : Int)

variable {key : String} {now later : Time} {fill : Fill}

theorem Tracks.mono (tracks : l.Tracks key now fill) (after : now ≤ later) :
    l.Tracks key later fill where
  tokens := tracks.tokens
  past := le_trans tracks.past after
  alike time reached :=
    (level_bucket key later now time).trans (tracks.alike time (le_trans after reached))
  lastUse e found := ⟨(tracks.lastUse e found).1, le_trans (tracks.lastUse e found).2 after⟩

theorem idle_since {last use now time idle : Int} (before : last ≤ use)
    (unused : ¬ now - use ≤ idle) (after : now ≤ time) : last + (idle + 1) ≤ time := by
  omega

section
variable (tracks : l.Tracks key now fill) (after : now ≤ later)
  (kept : Refills l.spec ∨ ∀ e ∈ l.entries key, later - e.lastUse ≤ idleEviction)
include tracks after kept

theorem Tracks.purge : (l.purgeLocked later).Tracks key later fill := by
  have tracks' := tracks.mono after
  unfold purgeLocked
  split
  · exact tracks'
  · refine ⟨tracks.tokens, tracks'.past, ?_, fun e member =>
      tracks'.lastUse e (Option.mem_filter_iff.mp member).1⟩
    have same := tracks'.alike
    cases found : l.entries key with
    | none =>
      simp only [bucket, found] at same ⊢
      exact same
    | some e =>
      by_cases recent : later - e.lastUse ≤ idleEviction
      · simp only [bucket, found, Option.filter_some, recent] at same ⊢
        exact same
      · have refills : Refills l.spec := kept.resolve_right fun all => recent (all e found)
        have used := (tracks.lastUse e found).1
        simp only [bucket, found, Option.filter_some, recent]
        intro time reached
        exact (l.spec.level_full later time).trans
          (l.spec.level_of_idle tracks.tokens (idle_since used recent reached) refills).symm

theorem Tracks.own : (l.allow later key).1 = (l.spec.allow fill later).1 ∧
      (l.allow later key).2.Tracks key later (l.spec.allow fill later).2 := by
  have purged := tracks.purge after kept
  have step := purged.alike.allow (le_refl later)
  have found : (l.allow later key).2.entries key = some
      { limiter := (l.spec.allow ((l.purgeLocked later).bucket later key) later).2
        lastUse := later } := by
    simp [Limiter.allow]
  rw [purgeLocked_spec] at step
  have past := l.spec.allow_last_le (le_trans tracks.past after)
  refine ⟨by simp [Limiter.allow, step.1], l.spec.allow_tokens_nonneg tracks.tokens later, past,
    ?_, ?_⟩
  · simp only [bucket, found, allow_spec]
    exact step.2
  · intro e member
    rw [found, Option.mem_some_iff] at member
    subst member
    exact ⟨past, le_refl later⟩

end

theorem Tracks.other {other : String} (tracks : l.Tracks key now fill) (after : now ≤ later)
    (refills : Refills l.spec) (different : key ≠ other) :
    (l.allow later other).2.Tracks key later fill := by
  have purged := tracks.purge after (.inl refills)
  have same : (l.allow later other).2.entries key = (l.purgeLocked later).entries key :=
    Function.update_of_ne different _ _
  refine ⟨purged.tokens, purged.past, ?_, fun e member => purged.lastUse e (same ▸ member)⟩
  have alike := purged.alike
  simp only [bucket, same, allow_spec, purgeLocked_spec] at alike ⊢
  exact alike

end Limiter

end DbBridge.RateLimit
