import DbBridge.RateLimit.Budget

/-!
# What eviction changes

A limiter that drops idle buckets against one that keeps them all. A dropped bucket comes
back full, so the two differ exactly when a bucket may be dropped before it is full.
-/

namespace DbBridge.RateLimit

open Domain TokenBucket List

def Limiter.allowKept (l : Limiter) (now : Time) (key : String) : Bool × Limiter :=
  let (allowed, fill) := l.spec.allow (l.bucket now key) now
  (allowed, { l with
    entries := Function.update l.entries key (some { limiter := fill, lastUse := now }) })

def decisions (allow : Limiter → Time → String → Bool × Limiter) :
    Limiter → List (Time × String) → List Bool
  | _, [] => []
  | l, (now, key) :: rest => (allow l now key).1 :: decisions allow (allow l now key).2 rest

def Ordered (calls : List (Time × String)) : Prop :=
  calls.Pairwise fun one other => one.1 ≤ other.1

/-! ## Buckets that are kept -/

variable (spec : TokenBucket)

namespace Limiter

variable {l kept : Limiter}

theorem allow_bucket (l : Limiter) (key : String) (since now : Time) :
    l.spec.allow (l.bucket now key) now = l.spec.allow (l.bucket since key) now := by
  cases found : l.entries key with
  | none =>
    have enough : (1 : ℚ) ≤ l.spec.burst := by exact_mod_cast l.spec.burst_pos
    simp [bucket, found, TokenBucket.allow, level_full, enough]
  | some => simp [bucket, found]

theorem allowKept_bucket (l : Limiter) (key other : String) (since now : Time) :
    (l.allowKept now key).2.bucket since other =
      if other = key then (l.spec.allow (l.bucket since key) now).2
      else l.bucket since other := by
  by_cases same : other = key
  · subst same
    rw [if_pos rfl, ← l.allow_bucket other since now]
    simp [allowKept, bucket]
  · simp [allowKept, bucket, same]

/-- Every bucket is like the one that was never dropped; `since` is when the first one could
have been made. -/
structure Agrees (since now : Time) (l kept : Limiter) : Prop where
  spec : kept.spec = l.spec
  tracks : ∀ key, l.Tracks key now (kept.bucket since key)

theorem Agrees.allow {since now later : Time} (agrees : Agrees since now l kept)
    (refills : Refills l.spec) (after : now ≤ later) (key : String) :
    (l.allow later key).1 = (kept.allowKept later key).1 ∧
      Agrees since later (l.allow later key).2 (kept.allowKept later key).2 := by
  obtain ⟨decision, own⟩ := (agrees.tracks key).own after (.inl refills)
  have bucket := kept.allow_bucket key since later
  rw [agrees.spec] at bucket
  refine ⟨?_, by simp [allowKept, agrees.spec], ?_⟩
  · rw [decision]
    simp only [allowKept, agrees.spec, bucket]
  · intro other
    rw [allowKept_bucket, agrees.spec]
    by_cases same : other = key
    · subst same
      rw [if_pos rfl]
      exact own
    · rw [if_neg same]
      exact (agrees.tracks other).other after refills same

theorem agrees_new (now : Time) :
    Agrees now now { spec := spec } { spec := spec } where
  spec := rfl
  tracks := fun _ => (current_of_none rfl (by simp)).tracks

end Limiter

theorem decisions_agree {since now : Time} {l kept : Limiter} (calls : List (Time × String))
    (agrees : Limiter.Agrees since now l kept) (refills : Limiter.Refills l.spec)
    (later : ∀ call ∈ calls, now ≤ call.1) (ordered : Ordered calls) :
    decisions Limiter.allow l calls = decisions Limiter.allowKept kept calls := by
  induction calls generalizing l kept now with
  | nil => rfl
  | cons call _ ih =>
    obtain ⟨_, key⟩ := call
    obtain ⟨first, others⟩ := pairwise_cons.mp ordered
    obtain ⟨decision, agrees'⟩ := agrees.allow refills (later _ (mem_cons_self ..)) key
    have further := ih agrees' (by rwa [Limiter.allow_spec]) first others
    simp only [decisions, decision, further]

/-! ## One key -/

variable (key : String)

theorem kept_decisions (since : Time) (times : List Time) (l : Limiter) :
    decisions Limiter.allowKept l (times.map fun time => (time, key)) =
      l.spec.decisions times (l.bucket since key) := by
  induction times generalizing l with
  | nil => rfl
  | cons time _ ih =>
    have first : (l.allowKept time key).1 = (l.spec.allow (l.bucket since key) time).1 :=
      congrArg Prod.fst (l.allow_bucket key since time)
    have bucket := l.allowKept_bucket key key since time
    rw [if_pos rfl] at bucket
    simp only [map_cons, decisions, TokenBucket.decisions, ih, bucket, first]
    rfl

theorem answers_eq_evicting (host : String) (origin : Origin) (times : List Time) (l : Limiter) :
    answers host (some l) (times.map fun time => ⟨time, .host origin⟩) =
      decisions Limiter.allow l (times.map fun time => (time, origin.key host)) := by
  induction times generalizing l with
  | nil => rfl
  | cons _ _ ih => simp only [map_cons, answers, allow, Caller.key, decisions, ih]

/-- Two bursts, one nanosecond more than `idleEviction` apart, pass a limiter that drops the
bucket in between. -/
theorem two_bursts_pass (host : String) (origin : Origin) :
    decisions Limiter.allow { spec := spec } ((replicate spec.burst 0 ++
        replicate spec.burst (0 + (idleEviction + 1))).map
          fun time => (time, origin.key host)) =
      replicate spec.burst true ++ replicate spec.burst true := by
  rw [← answers_eq_evicting, map_append, map_replicate, map_replicate]
  exact answers_dropped_bucket spec origin

theorem ordered_two_bursts :
    Ordered ((replicate spec.burst 0 ++
      replicate spec.burst (0 + (idleEviction + 1))).map fun time => (time, key)) := by
  rw [Ordered, pairwise_map, pairwise_append]
  refine ⟨pairwise_replicate.mpr (.inr (le_refl _)),
    pairwise_replicate.mpr (.inr (le_refl _)), ?_⟩
  intro early first late second
  rw [eq_of_mem_replicate first, eq_of_mem_replicate second]
  exact (by decide : (0 : Time) ≤ 0 + (idleEviction + 1))

/-- Eviction is invisible exactly when the bucket of a key that was idle for longer than
`idleEviction` is full. -/
theorem eviction_invisible_iff {rps : ℚ} (positive : 0 < rps) {burst : Int} (one : 1 ≤ burst) :
    (∀ l ∈ new rps burst, ∀ calls, Ordered calls →
        decisions Limiter.allow l calls = decisions Limiter.allowKept l calls) ↔
      (burst : ℚ) ≤ rps / second * (idleEviction + 1 : Int) := by
  obtain ⟨spec, made, refills⟩ := new_of_pos positive burst
  rw [max_eq_left one] at refills
  simp only [made, Option.mem_some_iff, forall_eq', ← refills]
  constructor
  · intro same
    have equal := same _ (ordered_two_bursts spec ((Origin.rest 0).key "h"))
    rw [two_bursts_pass, kept_decisions _ 0] at equal
    exact refills_of_two_bursts spec equal.symm
  · intro full calls ordered
    cases calls with
    | nil => rfl
    | cons call =>
      refine decisions_agree _ (Limiter.agrees_new spec call.1) full ?_ ordered
      intro later present
      rcases mem_cons.mp present with rfl | behind
      · exact le_refl _
      · exact (pairwise_cons.mp ordered).1 later behind

theorem default_eviction_invisible :
    (10 : ℚ) ≤ 5 / second * (idleEviction + 1 : Int) ∧
      ∀ l ∈ new 5 10, ∀ calls, Ordered calls →
        decisions Limiter.allow l calls = decisions Limiter.allowKept l calls := by
  have full : (10 : ℚ) ≤ 5 / second * (idleEviction + 1 : Int) := by
    have seconds : (second : ℚ) = 1000000000 := rfl
    have idle : ((idleEviction + 1 : Int) : ℚ) = 600000000001 := rfl
    rw [seconds, idle]
    norm_num
  exact ⟨full, (eviction_invisible_iff (by norm_num) (by decide)).mpr full⟩

/-- One request in twenty minutes: the second one, just after ten, gets a new bucket. -/
theorem slow_limiter_forgets :
    Ordered [(0, "k"), (idleEviction + 1, "k")] ∧
      ∃ l ∈ new (1 / 1200) 1,
        decisions Limiter.allow l [(0, "k"), (idleEviction + 1, "k")] = [true, true] ∧
        decisions Limiter.allowKept l [(0, "k"), (idleEviction + 1, "k")] = [true, false] := by
  have replayed : (new (1 / 1200) 1).map (fun l =>
      (decisions Limiter.allow l [(0, "k"), (idleEviction + 1, "k")],
        decisions Limiter.allowKept l [(0, "k"), (idleEviction + 1, "k")])) =
      some ([true, true], [true, false]) := by decide +kernel
  obtain ⟨l, made, both⟩ := Option.map_eq_some_iff.mp replayed
  obtain ⟨evicting, keeping⟩ := Prod.mk.inj both
  exact ⟨by simp [Ordered, idleEviction, minute, second, millisecond], l, made, evicting, keeping⟩

end DbBridge.RateLimit
