import DbBridge.RateLimit.ClientKeys

/-!
# The budget of one host

The answers to the requests of one host, over both transports and any ports, against
the decisions of one token bucket. Requests of other clients may come in between.
-/

namespace DbBridge.RateLimit

open Domain TokenBucket List

inductive Caller where
  | host (origin : Origin)
  | other (key : String)

def Caller.key (host : String) : Caller → String
  | .host origin => origin.key host
  | .other key => key

structure Request where
  time : Time
  caller : Caller

def answers (host : String) : Option Limiter → List Request → List Bool
  | _, [] => []
  | l, request :: rest =>
    let (allowed, l) := allow l request.time (request.caller.key host)
    match request.caller with
    | .host _ => allowed :: answers host l rest
    | .other _ => answers host l rest

def hostTimes : List Request → List Time
  | [] => []
  | request :: rest =>
    match request.caller with
    | .host _ => request.time :: hostTimes rest
    | .other _ => hostTimes rest

/-- The decisions of one bucket with the configured rate and burst; a rate that is not
positive is no limit. -/
def singleBucket (rps : ℚ) (burst : Int) (times : List Time) : List Bool :=
  match new rps burst with
  | none => times.map fun _ => true
  | some l => l.spec.decisions times (l.spec.full 0)

/-- Requests in the order of their times, those of the host from the given origins and
those of others under other keys. -/
structure Arrives (host : String) (origins : Set Origin) (requests : List Request) : Prop where
  ordered : requests.Pairwise fun one other => one.time ≤ other.time
  own : ∀ request ∈ requests, ∀ origin, request.caller = .host origin → origin ∈ origins
  others : ∀ request ∈ requests, ∀ key, request.caller = .other key →
    ∀ origin ∈ origins, origin.key host ≠ key

def OneKey (origins : Set Origin) : Prop :=
  (∀ origin ∈ origins, ∃ port, origin = .rest port) ∨
    ∃ port, ∀ origin ∈ origins, origin = .connect port

variable {host : String}

theorem oneKey_iff (plain : Unbracketed host.toList) (origins : Set Origin) :
    OneKey origins ↔ ∀ one ∈ origins, ∀ other ∈ origins, one.key host = other.key host := by
  constructor
  · rintro (rests | ⟨port, connects⟩) one member other member'
    · exact (key_eq_iff plain _ _).mpr (.inr (by
        obtain ⟨port, rfl⟩ := rests one member
        obtain ⟨port', rfl⟩ := rests other member'
        exact ⟨port, port', rfl, rfl⟩))
    · rw [connects one member, connects other member']
  · intro same
    by_cases rests : ∀ origin ∈ origins, ∃ port, origin = .rest port
    · exact .inl rests
    · push Not at rests
      obtain ⟨one, member, notRest⟩ := rests
      cases one with
      | rest port => exact absurd rfl (notRest port)
      | connect port =>
        refine .inr ⟨port, fun other member' => ?_⟩
        rcases (key_eq_iff plain _ _).mp (same _ member' _ member) with equal | ⟨_, _, -, rest⟩
        · exact equal
        · contradiction

/-! ## One key -/

theorem answers_unlimited (host : String) (requests : List Request) :
    answers host none requests = (hostTimes requests).map fun _ => true := by
  induction requests with
  | nil => rfl
  | cons request _ ih =>
    obtain ⟨_, caller⟩ := request
    cases caller <;> simp [answers, hostTimes, allow, ih]

/-- A run in which all requests of the host have one key. -/
theorem answers_eq_decisions {key : String} {l : Limiter} {now : Time} {fill : Fill}
    (requests : List Request) (tracks : l.Tracks key now fill) (refills : Limiter.Refills l.spec)
    (later : ∀ request ∈ requests, now ≤ request.time)
    (ordered : requests.Pairwise fun one other => one.time ≤ other.time)
    (own : ∀ request ∈ requests, ∀ origin, request.caller = .host origin → origin.key host = key)
    (others : ∀ request ∈ requests, ∀ other, request.caller = .other other → key ≠ other) :
    answers host (some l) requests = l.spec.decisions (hostTimes requests) fill := by
  induction requests generalizing l now fill with
  | nil => rfl
  | cons request rest ih =>
    obtain ⟨time, caller⟩ := request
    have after : now ≤ time := later _ (mem_cons_self ..)
    rw [pairwise_cons] at ordered
    have own' : ∀ request ∈ rest, ∀ origin, request.caller = .host origin →
        origin.key host = key := fun request member => own request (mem_cons_of_mem _ member)
    have others' : ∀ request ∈ rest, ∀ other, request.caller = .other other → key ≠ other :=
      fun request member => others request (mem_cons_of_mem _ member)
    cases caller with
    | host origin =>
      have same : origin.key host = key := own _ (mem_cons_self ..) origin rfl
      obtain ⟨decision, tracks'⟩ := tracks.own after (.inl refills)
      have further := ih tracks' (by rwa [Limiter.allow_spec]) ordered.1 ordered.2 own' others'
      rw [Limiter.allow_spec] at further
      simp only [answers, hostTimes, allow, Caller.key, same, decisions, decision, further]
    | other foreign =>
      have different := others _ (mem_cons_self ..) foreign rfl
      have tracks' := tracks.other after refills different
      have further := ih tracks' (by rwa [Limiter.allow_spec]) ordered.1 ordered.2 own' others'
      rw [Limiter.allow_spec] at further
      simp only [answers, hostTimes, allow, Caller.key, further]

/-! ## Many requests at one time -/

def afterAll (host : String) : Option Limiter → List Request → Option Limiter
  | l, [] => l
  | l, request :: rest =>
    afterAll host (allow l request.time (request.caller.key host)).2 rest

theorem answers_append (host : String) (l : Option Limiter) (first second : List Request) :
    answers host l (first ++ second) =
      answers host l first ++ answers host (afterAll host l first) second := by
  induction first generalizing l with
  | nil => rfl
  | cons request _ ih =>
    obtain ⟨_, caller⟩ := request
    cases caller <;> simp [answers, afterAll, ih]

def burstAt (count : Nat) (time : Time) (origin : Origin) : List Request :=
  List.replicate count ⟨time, .host origin⟩

theorem hostTimes_burstAt (count : Nat) (time : Time) (origin : Origin) (rest : List Request) :
    hostTimes (burstAt count time origin ++ rest) = replicate count time ++ hostTimes rest := by
  induction count with
  | zero => rfl
  | succ _ ih => exact congrArg (time :: ·) ih

namespace Limiter

structure Current (l : Limiter) (key : String) (now : Time) (fill : Fill) : Prop where
  tracks : l.Tracks key now fill
  lastUse : ∀ e ∈ l.entries key, e.lastUse = now
  lastPurge : ∀ last ∈ l.lastPurge, last = now

variable {l : Limiter} {key : String} {now : Time} {fill : Fill}

theorem purgeLocked_lastPurge (recent : ∀ last ∈ l.lastPurge, last = now) :
    ∀ last ∈ (l.purgeLocked now).lastPurge, last = now := by
  unfold purgeLocked
  split
  · exact recent
  · intro last member
    exact (Option.mem_some_iff.mp member).symm

theorem Current.allow (current : l.Current key now fill) :
    (l.allow now key).1 = (l.spec.allow fill now).1 ∧
      (l.allow now key).2.Current key now (l.spec.allow fill now).2 := by
  have kept : ∀ e ∈ l.entries key, now - e.lastUse ≤ idleEviction := by
    intro e member
    rw [current.lastUse e member]
    simp [idleEviction, minute, second, millisecond]
  obtain ⟨decision, tracks⟩ := current.tracks.own (le_refl now) (.inr kept)
  refine ⟨decision, tracks, ?_, purgeLocked_lastPurge current.lastPurge⟩
  intro e member
  simp only [Limiter.allow, Function.update_self, Option.mem_some_iff] at member
  rw [← member]

theorem allow_entries_none {other : String} (different : other ≠ key)
    (none : l.entries other = none) : (l.allow now key).2.entries other = Option.none := by
  have swept : (l.purgeLocked now).entries other = Option.none := by
    unfold purgeLocked
    split
    · exact none
    · simp [none]
  exact (Function.update_of_ne different _ _).trans swept

theorem current_of_none (none : l.entries key = none)
    (lastPurge : ∀ last ∈ l.lastPurge, last = now) : l.Current key now (l.spec.full now) where
  tracks :=
    { tokens := Nat.cast_nonneg _
      past := le_refl now
      alike := by simpa [bucket, none] using Alike.refl _ _
      lastUse := by simp [none] }
  lastUse := by simp [none]
  lastPurge := lastPurge

theorem purgeLocked_idem (l : Limiter) (now : Time) :
    (l.purgeLocked now).purgeLocked now = l.purgeLocked now := by
  by_cases recent : l.lastPurge.any fun last => now - last < idleEviction
  · have kept : l.purgeLocked now = l := if_pos recent
    rw [kept, kept]
  · have swept : (l.purgeLocked now).lastPurge = some now := by simp [purgeLocked, recent]
    rw [purgeLocked, if_pos]
    rw [swept]
    simp [idleEviction, minute, second, millisecond]

theorem allow_purged (l : Limiter) (now : Time) (key : String) :
    (l.purgeLocked now).allow now key = l.allow now key := by
  simp only [Limiter.allow, purgeLocked_idem]

theorem long_idle (now idle : Int) : idle < now + (idle + 1) - now := by
  omega

theorem Current.dropped (current : l.Current key now fill) :
    (l.purgeLocked (now + (idleEviction + 1))).Current key (now + (idleEviction + 1))
      (l.spec.full (now + (idleEviction + 1))) := by
  have long := long_idle now idleEviction
  have due : ¬ l.lastPurge.any fun last => now + (idleEviction + 1) - last < idleEviction := by
    intro recent
    obtain ⟨last, member, less⟩ := (Option.any_eq_true _ _).mp recent
    rw [current.lastPurge last member, decide_eq_true_eq] at less
    exact absurd less (Int.not_lt.mpr (Int.le_of_lt long))
  have none : (l.purgeLocked (now + (idleEviction + 1))).entries key = none := by
    simp only [purgeLocked, if_neg due, Option.filter_eq_none_iff, decide_eq_true_eq]
    intro e member
    rw [current.lastUse e member]
    exact Int.not_le.mpr long
  have purged : ∀ last ∈ (l.purgeLocked (now + (idleEviction + 1))).lastPurge,
      last = now + (idleEviction + 1) := by
    simp [purgeLocked, if_neg due]
  simpa only [purgeLocked_spec] using current_of_none none purged

end Limiter

theorem answers_burstAt {origin : Origin} {l : Limiter} {now : Time} {fill : Fill}
    (current : l.Current (origin.key host) now fill) (count : Nat) :
    answers host (some l) (burstAt count now origin) =
        l.spec.decisions (replicate count now) fill ∧
      ∃ l', afterAll host (some l) (burstAt count now origin) = some l' ∧ l'.spec = l.spec ∧
        l'.Current (origin.key host) now (l.spec.after (replicate count now) fill) ∧
        ∀ other, other ≠ origin.key host → l.entries other = none → l'.entries other = none := by
  induction count generalizing l fill with
  | zero => exact ⟨rfl, l, rfl, rfl, current, fun _ _ none => none⟩
  | succ _ ih =>
    obtain ⟨decision, current'⟩ := current.allow
    obtain ⟨further, l', after, spec, last, none⟩ := ih current'
    rw [Limiter.allow_spec] at further spec last
    refine ⟨?_, l', after, spec, last, fun other different empty =>
      none other different (Limiter.allow_entries_none different empty)⟩
    simp only [burstAt, replicate_succ, answers, allow, Caller.key, decisions, decision]
    exact congrArg _ further

theorem answers_burstAt_purged (host : String) (l : Limiter) (count : Nat) (now : Time)
    (origin : Origin) :
    answers host (some (l.purgeLocked now)) (burstAt count now origin) =
      answers host (some l) (burstAt count now origin) := by
  cases count with
  | zero => rfl
  | succ =>
    simp only [burstAt, replicate_succ, answers, allow, Caller.key, Limiter.allow_purged]

/-! ## Two ways to get more -/

variable {other one : Origin}

section
variable (spec : TokenBucket)

theorem full_burst_passes (now : Time) :
    spec.decisions (replicate spec.burst now) (spec.full now) = replicate spec.burst true := by
  have level := spec.level_full now now
  rw [decisions_replicate_iff now spec.burst _ (by rw [level]; positivity), level]

theorem full_burst_empties (now : Time) :
    spec.after (replicate spec.burst now) (spec.full now) = { tokens := 0, last := now } := by
  obtain ⟨count, burst⟩ := Nat.exists_eq_succ_of_ne_zero (Nat.ne_of_gt spec.burst_pos)
  have level := spec.level_full now now
  rw [burst, after_replicate now count _ (by rw [level, burst]), level, burst]
  simp

theorem answers_two_keys (different : other.key host ≠ one.key host) :
    answers host (some { spec := spec }) (burstAt spec.burst 0 one ++ burstAt 1 0 other) =
      replicate spec.burst true ++ [true] := by
  have start : ({ spec := spec } : Limiter).Current (one.key host) 0 (spec.full 0) :=
    Limiter.current_of_none rfl (by simp)
  obtain ⟨first, l, after, _, current, none⟩ := answers_burstAt start spec.burst
  have second := (answers_burstAt
    (Limiter.current_of_none (none _ different rfl) current.lastPurge) 1).1
  have passes : l.spec.decisions (replicate 1 0) (l.spec.full 0) = replicate 1 true := by
    have enough : (1 : ℚ) ≤ l.spec.burst := by exact_mod_cast l.spec.burst_pos
    rw [decisions_replicate_iff 0 1 _ (by rw [level_full]; positivity), level_full]
    exact_mod_cast enough
  rw [answers_append, first, after, second, full_burst_passes, passes]
  rfl

theorem answers_dropped_bucket (origin : Origin) :
    answers host (some { spec := spec })
        (burstAt spec.burst 0 origin ++ burstAt spec.burst (0 + (idleEviction + 1)) origin) =
      replicate spec.burst true ++ replicate spec.burst true := by
  have start : ({ spec := spec } : Limiter).Current (origin.key host) 0 (spec.full 0) :=
    Limiter.current_of_none rfl (by simp)
  obtain ⟨first, _, after, same, current, -⟩ := answers_burstAt start spec.burst
  have second := (answers_burstAt current.dropped spec.burst).1
  rw [Limiter.purgeLocked_spec, same, full_burst_passes] at second
  rw [answers_append, first, after, full_burst_passes, ← second, answers_burstAt_purged]

end

variable {origins : Set Origin}

theorem arrives_bursts (member : one ∈ origins) (member' : other ∈ origins) (count count' : Nat)
    {time time' : Time} (later : time ≤ time') :
    Arrives host origins (burstAt count time one ++ burstAt count' time' other) := by
  have either : ∀ request ∈ burstAt count time one ++ burstAt count' time' other,
      request = ⟨time, .host one⟩ ∨ request = ⟨time', .host other⟩ := by
    intro request present
    exact (mem_append.mp present).imp eq_of_mem_replicate eq_of_mem_replicate
  refine ⟨?_, ?_, ?_⟩
  · refine pairwise_append.mpr ⟨pairwise_replicate.mpr (.inr (le_refl _)),
      pairwise_replicate.mpr (.inr (le_refl _)), ?_⟩
    intro request first request' second
    rw [eq_of_mem_replicate first, eq_of_mem_replicate second]
    exact later
  · intro request present origin own
    rcases either request present with rfl | rfl <;> cases own <;> assumption
  · intro request present key foreign
    rcases either request present with rfl | rfl <;> cases foreign

theorem oneKey_of_single (plain : Unbracketed host.toList) (spec : TokenBucket)
    (single : ∀ requests, Arrives host origins requests →
      answers host (some { spec := spec }) requests =
      spec.decisions (hostTimes requests) (spec.full 0)) : OneKey origins := by
  rw [oneKey_iff plain]
  by_contra mixed
  push Not at mixed
  obtain ⟨_, member, _, member', different⟩ := mixed
  have equal := single _ (arrives_bursts member member' spec.burst 1 (le_refl (0 : Time)))
  rw [answers_two_keys spec different.symm, hostTimes_burstAt] at equal
  have all : spec.decisions (replicate (spec.burst + 1) 0) (spec.full 0) =
      replicate (spec.burst + 1) true := by
    rw [replicate_succ', replicate_succ', equal]
    rfl
  rw [decisions_replicate_iff 0 _ _ (by rw [level_full]; positivity), level_full] at all
  exact absurd all (by push_cast; linarith)

theorem refills_of_two_bursts (spec : TokenBucket)
    (passed : spec.decisions (replicate spec.burst 0 ++
        replicate spec.burst (0 + (idleEviction + 1))) (spec.full 0) =
      replicate spec.burst true ++ replicate spec.burst true) : Limiter.Refills spec := by
  rw [decisions_append, full_burst_passes, full_burst_empties] at passed
  have elapsed : max 0 (0 + (idleEviction + 1) - 0) = idleEviction + 1 := by decide
  have level : spec.level { tokens := 0, last := 0 } (0 + (idleEviction + 1)) =
      min (spec.burst : ℚ) (spec.rate * (idleEviction + 1 : Int)) := by
    rw [TokenBucket.level, elapsed, zero_add]
  have nonneg : (0 : ℚ) ≤ spec.rate * (idleEviction + 1 : Int) :=
    mul_nonneg spec.rate_pos.le (by decide)
  have passes := append_cancel_left passed
  rw [decisions_replicate_iff _ _ _ (by rw [level]; positivity), level] at passes
  exact le_trans passes (min_le_right _ _)

theorem refills_of_single (used : origins.Nonempty) (spec : TokenBucket)
    (single : ∀ requests, Arrives host origins requests →
      answers host (some { spec := spec }) requests =
      spec.decisions (hostTimes requests) (spec.full 0)) : Limiter.Refills spec := by
  obtain ⟨origin, member⟩ := used
  have equal := single _ (arrives_bursts member member spec.burst spec.burst
    (show (0 : Time) ≤ 0 + (idleEviction + 1) by decide))
  have times := hostTimes_burstAt spec.burst (0 + (idleEviction + 1)) origin []
  rw [append_nil] at times
  rw [answers_dropped_bucket, hostTimes_burstAt, times, hostTimes, append_nil] at equal
  exact refills_of_two_bursts spec equal.symm

theorem new_of_pos {rps : ℚ} (positive : 0 < rps) (burst : Int) :
    ∃ spec : TokenBucket, new rps burst = some { spec := spec } ∧
      (Limiter.Refills spec ↔
        ((max burst 1 : Int) : ℚ) ≤ rps / second * (idleEviction + 1 : Int)) := by
  refine ⟨_, dif_pos positive, ?_⟩
  have size : (((if burst ≤ 0 then 1 else burst.toNat : ℕ) : Int) : ℚ) = (max burst 1 : Int) := by
    congr 1
    split <;> omega
  rw [Limiter.Refills, ← size]
  rfl

theorem answers_of_oneKey (plain : Unbracketed host.toList) (used : origins.Nonempty)
    (oneKey : OneKey origins) {spec : TokenBucket} (full : Limiter.Refills spec)
    {requests : List Request} (arrives : Arrives host origins requests) :
    answers host (some { spec := spec }) requests =
      spec.decisions (hostTimes requests) (spec.full 0) := by
  rw [oneKey_iff plain] at oneKey
  obtain ⟨origin, member⟩ := used
  cases requests with
  | nil => rfl
  | cons request =>
    have start : ({ spec := spec } : Limiter).Current (origin.key host) request.time
        (spec.full request.time) := Limiter.current_of_none rfl (by simp)
    rw [decisions_full _ 0 request.time]
    refine answers_eq_decisions _ start.tracks full ?_ arrives.ordered ?_ ?_
    · intro later present
      rcases mem_cons.mp present with rfl | behind
      · exact le_refl _
      · exact (pairwise_cons.mp arrives.ordered).1 later behind
    · intro later present other own
      exact oneKey other (arrives.own later present other own) origin member
    · intro later present key foreign
      exact arrives.others later present key foreign origin member

/-- The answers to a host's requests are those of one token bucket exactly when there is
no limit, or all its requests have one key and a bucket is full again before it is
dropped. -/
theorem one_budget_iff {host : String} (plain : Unbracketed host.toList) (rps : ℚ) (burst : Int)
    (used : origins.Nonempty) :
    (∀ requests, Arrives host origins requests →
        answers host (new rps burst) requests = singleBucket rps burst (hostTimes requests)) ↔
      rps ≤ 0 ∨
        OneKey origins ∧ ((max burst 1 : Int) : ℚ) ≤ rps / second * (idleEviction + 1 : Int) := by
  by_cases positive : 0 < rps
  · obtain ⟨spec, made, refills⟩ := new_of_pos positive burst
    simp only [made, singleBucket, ← refills, not_le.mpr positive, false_or]
    constructor
    · exact fun single => ⟨oneKey_of_single plain spec single, refills_of_single used spec single⟩
    · rintro ⟨oneKey, full⟩ requests arrives
      exact answers_of_oneKey plain used oneKey full arrives
  · have unlimited : new rps burst = none := dif_neg positive
    simp only [unlimited, singleBucket, answers_unlimited, implies_true, not_lt.mp positive,
      true_or]

theorem rest_requests_share_a_budget :
    Unbracketed "10.0.0.1".toList ∧
      ∀ requests, Arrives "10.0.0.1" {.rest 40000, .rest 40001} requests →
        answers "10.0.0.1" (new 5 10) requests = singleBucket 5 10 (hostTimes requests) := by
  have plain : Unbracketed "10.0.0.1".toList := by
    unfold Unbracketed
    decide
  refine ⟨plain, (one_budget_iff plain 5 10 (Set.insert_nonempty _ _)).mpr (.inr ⟨?_, ?_⟩)⟩
  · refine .inl fun origin member => ?_
    rcases member with rfl | rfl
    · exact ⟨40000, rfl⟩
    · exact ⟨40001, rfl⟩
  · have seconds : (second : ℚ) = 1000000000 := rfl
    have idle : ((idleEviction + 1 : Int) : ℚ) = 600000000001 := rfl
    rw [seconds, idle]
    norm_num

def bothTransports : List Request := burstAt 1 0 (.rest 40000) ++ burstAt 1 0 (.connect 40000)

/-- With a burst of one, both are allowed. -/
theorem both_transports_exceed_the_budget :
    Arrives "10.0.0.1" {.rest 40000, .connect 40000} bothTransports ∧
      answers "10.0.0.1" (new 1 1) bothTransports = [true, true] ∧
      singleBucket 1 1 (hostTimes bothTransports) = [true, false] :=
  ⟨arrives_bursts (.inl rfl) (.inr rfl) 1 1 (le_refl 0), by decide +kernel,
    by decide +kernel⟩

end DbBridge.RateLimit
