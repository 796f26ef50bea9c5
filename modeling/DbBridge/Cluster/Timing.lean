import DbBridge.Cluster.Invariant
import DbBridge.Redis.Effects

/-!
# Durations that are derived from others

The tickers and the timing of garbage collection, derived from the configuration, and the
expirations, derived from the options of a query. All of them are `int64` in the
source: products and sums wrap around, divisions truncate.
-/

namespace DbBridge.Cluster

open Domain State Settings Runs

def Process.gcBudget (p : Process) : Duration := (wrap64 (p.gcPeriod * 3)).tdiv 4

/-! ## The configuration of a process -/

namespace Deployment

variable {env : Env} {guard : Deployment → Action → Prop} {d first last : Deployment} {pid : Nat}
  {given : Config} {pools : List String} {p : Process}

/-- A process collects garbage with the period of the configuration it was started with,
whatever it reloads later. -/
theorem started_gcPeriodDur (started : step env d (.start pid given pools) = some first)
    (run : Reaches (step env) guard first last) (found : last.procs pid = some p) :
    ∃ cfg, validate given = .ok cfg ∧ p.gcPeriodDur = cfg.inst.gcInterval := by
  obtain ⟨cfg, accepted, rfl⟩ : ∃ cfg, validate given = .ok cfg ∧
      first = d.setProc pid (Process.new cfg pools) := by
    cases step_move started with
    | started _ _ cfg _ _ accepted => exact ⟨cfg, accepted, rfl⟩
    | operated _ _ _ _ _ _ operated => cases operated
  obtain ⟨q, same, period⟩ := run.invariant
    (fun d => ∃ q, d.procs pid = some q ∧ q.gcPeriodDur = cfg.inst.gcInterval)
    ⟨_, setProc_procs_self .., rfl⟩ fun before action after ⟨q, known, period⟩ _ taken => by
      have move := step_move taken
      obtain ⟨next, present, _⟩ := move.continues pid q known
      exact ⟨next, present, (move.parts known present).gcPeriodDur.trans period⟩
  rw [found] at same
  cases same
  exact ⟨cfg, accepted, period⟩

end Deployment

/-! ## Garbage collection -/

/-- A pass ends before its lock expires, and the lock before the next tick. -/
def Process.GcOrdered (p : Process) : Prop :=
  0 < p.gcBudget ∧ p.gcBudget < p.gcLockTTL ∧ p.gcLockTTL < p.gcPeriod

/-- The same of the expiry that the lock gets in Redis, in whole milliseconds. -/
def Process.GcOrderedInRedis (p : Process) : Prop :=
  p.GcOrdered ∧ ∃ ttl, Redis.setNXExpire p.gcLockTTL = some (some ttl) ∧
    p.gcBudget < ttl ∧ ttl < p.gcPeriod

/-- The periods, in nanoseconds, for which whole milliseconds lie between the two: `k` of
them for a short period, and some for every period from 10.8 milliseconds on. -/
def LeavesMillisecond (period : Int) : Prop :=
  1000000 < period ∧ 3 * period < 4000000 ∨
  (∃ k : Int, 2 ≤ k ∧ k ≤ 8 ∧ 1200000 * k ≤ period ∧ 3 * period < 4000000 * k) ∨
  10800000 ≤ period

theorem Process.gcPeriod_pos (p : Process) : 0 < p.gcPeriod := by
  unfold gcPeriod
  split
  · assumption
  · decide

/-- Where five periods fit into an `int64`, only the truncation matters. -/
theorem gc_order_iff {period : Int} (positive : 0 < period) (small : period ≤ 1829088000000000000) :
    (0 < (wrap64 (period * 3)).tdiv 4 ∧
      (wrap64 (period * 3)).tdiv 4 < (wrap64 (period * 5)).tdiv 6 ∧
      (wrap64 (period * 5)).tdiv 6 < period) ↔ period = 5 ∨ period = 6 ∨ 9 ≤ period := by
  rw [wrap64_of_range (by omega) (by omega), wrap64_of_range (by omega) (by omega),
    Int.tdiv_eq_ediv_of_nonneg (by omega), Int.tdiv_eq_ediv_of_nonneg (by omega)]
  -- a twelfth of the period is what the two quotients differ by, before they are cut off
  by_cases long : 12 ≤ period
  · omega
  · have short : period = 1 ∨ period = 2 ∨ period = 3 ∨ period = 4 ∨ period = 5 ∨ period = 6 ∨
        period = 7 ∨ period = 8 ∨ period = 9 ∨ period = 10 ∨ period = 11 := by omega
    rcases short with
      rfl | rfl | rfl | rfl | rfl | rfl | rfl | rfl | rfl | rfl | rfl <;> decide

theorem wholeMilliseconds_cases (lock : Int) : ∃ k : Int,
    Redis.wholeMilliseconds lock = 1000000 * k ∧
      (k = 1 ∧ lock < 2000000 ∨ 2 ≤ k ∧ 1000000 * k ≤ lock ∧ lock < 1000000 * k + 1000000) := by
  change ∃ k : Int, (if lock < 1000000 then (1000000 : Int) else lock - lock % 1000000) = _ ∧ _
  split
  · exact ⟨1, by omega⟩
  · exact ⟨lock / 1000000, by omega⟩

theorem gc_order_in_redis_iff {period : Int} (positive : 0 < period)
    (small : period ≤ 1829088000000000000) :
    ((period = 5 ∨ period = 6 ∨ 9 ≤ period) ∧
      ∃ ttl, Redis.setNXExpire ((wrap64 (period * 5)).tdiv 6) = some (some ttl) ∧
        (wrap64 (period * 3)).tdiv 4 < ttl ∧ ttl < period) ↔ LeavesMillisecond period := by
  rw [wrap64_of_range (by omega) (by omega), wrap64_of_range (by omega) (by omega),
    Int.tdiv_eq_ediv_of_nonneg (by omega), Int.tdiv_eq_ediv_of_nonneg (by omega)]
  obtain ⟨k, whole, size⟩ := wholeMilliseconds_cases (period * 5 / 6)
  simp only [Redis.setNXExpire, whole, LeavesMillisecond]
  constructor
  · rintro ⟨_, ttl, set, later, earlier⟩
    obtain rfl : 1000000 * k = ttl := by
      split at set
      · simpa using set
      · split at set <;> cases set
    by_cases one : k = 1
    · exact .inl (by omega)
    · by_cases few : k ≤ 8
      · exact .inr (.inl ⟨k, by omega⟩)
      · exact .inr (.inr (by omega))
  · intro leaves
    have long : 1000000 < period := by
      rcases leaves with short | ⟨j, leaves⟩ | long <;> omega
    have lasts : 0 < period * 5 / 6 := by omega
    rw [if_pos lasts]
    refine ⟨.inr (.inr (by omega)), _, rfl, ?_⟩
    rcases leaves with short | ⟨j, leaves⟩ | long
    · omega
    · obtain rfl : k = j := by omega
      omega
    · by_cases nine : k ≤ 9 <;> omega

/-- The period for an interval as the file has it: zero and negative ones stand for a
minute. -/
theorem gcPeriod_cases {interval : Int} :
    (if (if interval = 0 then minute else interval) > 0 then
      (if interval = 0 then minute else interval) else minute) =
    if interval ≤ 0 then minute else interval := by
  have positive : minute > 0 := by decide
  by_cases zero : interval = 0
  · simp [zero, positive]
  · by_cases negative : interval ≤ 0
    · simp [zero, negative]
    · simp [zero, negative, Int.not_le.mp negative]

/-- In every later state of a process, the order holds unless the `gc_interval` it was
started with is one of six that are shorter than nine nanoseconds. In Redis, whose expiry
has whole milliseconds, it holds for fewer periods, and the lock then expires. -/
theorem gc_timing_ordered_iff {env : Env} {guard : Deployment → Action → Prop}
    {d first last : Deployment} {pid : Nat} {given : Config} {pools : List String} {p : Process}
    (started : Deployment.step env d (.start pid given pools) = some first)
    (run : Reaches (Deployment.step env) guard first last) (found : last.procs pid = some p) :
    (p.GcOrdered ↔ given.inst.gcInterval ≤ 0 ∨ given.inst.gcInterval = 5 ∨
      given.inst.gcInterval = 6 ∨ 9 ≤ given.inst.gcInterval) ∧
    (p.GcOrderedInRedis ↔
      given.inst.gcInterval ≤ 0 ∨ LeavesMillisecond given.inst.gcInterval) := by
  obtain ⟨cfg, accepted, captured⟩ := Deployment.started_gcPeriodDur started run found
  obtain ⟨rfl, small, _⟩ := validate_eq_ok accepted
  have period : p.gcPeriod =
      if given.inst.gcInterval ≤ 0 then minute else given.inst.gcInterval := by
    unfold Process.gcPeriod
    rw [captured]
    exact gcPeriod_cases
  have bounded : p.gcPeriod ≤ 58 * 365 * 24 * hour := by
    rw [Process.gcPeriod, captured]
    split
    · exact small
    · decide
  have ordered : p.GcOrdered ↔ _ := gc_order_iff p.gcPeriod_pos bounded
  have inRedis : p.GcOrderedInRedis ↔ LeavesMillisecond p.gcPeriod :=
    (and_congr_left' ordered).trans (gc_order_in_redis_iff p.gcPeriod_pos bounded)
  rw [ordered, inRedis, period]
  split
  · rename_i low
    exact ⟨iff_of_true (.inr (.inr (by decide))) (.inl low),
      iff_of_true (.inr (.inr (by decide))) (.inl low)⟩
  · rename_i high
    exact ⟨(or_iff_right high).symm, (or_iff_right high).symm⟩

theorem sample_gc_timing_ordered :
    ∃ first p, Deployment.step sampleEnv (.initial 1) (.start 1 (sampleConfig "a") ["db"]) =
      some first ∧ first.procs 1 = some p ∧ p.GcOrdered ∧ p.GcOrderedInRedis := by
  have started : Deployment.step sampleEnv (.initial 1) (.start 1 (sampleConfig "a") ["db"]) =
    some _ := rfl
  obtain ⟨ordered, inRedis⟩ :=
    gc_timing_ordered_iff started (Reaches.refl _ : Reaches _ Always _ _) rfl
  exact ⟨_, _, started, rfl, ordered.mpr (.inl (by decide)), inRedis.mpr (.inl (by decide))⟩

/-- An interval of one nanosecond is accepted, and the lock is then taken for ever. -/
theorem one_nanosecond_disables_gc :
    ∃ given cfg, validate given = .ok cfg ∧ given.inst.gcInterval = 1 ∧
      (Process.new cfg []).gcBudget = 0 ∧ (Process.new cfg []).gcLockTTL = 0 ∧
      Redis.setNXExpire (Process.new cfg []).gcLockTTL = some none := by
  refine ⟨{ sampleConfig "a" with inst := { (sampleConfig "a").inst with gcInterval := 1 } },
    _, rfl, rfl, ?_⟩
  decide

/-! ## What a configuration has to provide -/

/-- The tickers of the workers can be made, leases expire, and a request that leaves its
options open is accepted. -/
structure Process.Usable (p : Process) : Prop where
  heartbeatTicker : 0 < p.heartbeatTTL.tdiv 2
  reaperTicker : 0 < p.heartbeatTTL
  gcTicker : 0 < p.gcPeriod
  lease : ∃ ttl > 0, Redis.setExpire p.heartbeatTTL = .after ttl
  defaults : ∀ opts : QueryOptions, opts.timeout = 0 → opts.resultTTL = 0 → opts.mode = "" →
    opts.resultFormat = "" → (p.applyDefaults opts).validate = .ok ()

variable {ttl : Int}

theorem half_pos_iff : 0 < ttl.tdiv 2 ↔ 2 ≤ ttl := by
  rcases Int.le_total 0 ttl with nonneg | nonpos
  · rw [Int.tdiv_eq_ediv_of_nonneg nonneg]
    omega
  · have mirrored := Int.neg_tdiv ttl 2
    rw [Int.tdiv_eq_ediv_of_nonneg (by omega)] at mirrored
    omega

variable {opts : QueryOptions}

theorem applyDefaults_validate_iff (p : Process) (timeout : opts.timeout = 0)
    (ttl : opts.resultTTL = 0) (mode : opts.mode = "") (format : opts.resultFormat = "") :
    (p.applyDefaults opts).validate = .ok () ↔
      0 ≤ p.cfg.defaults.queryTimeout ∧ 0 ≤ p.cfg.defaults.resultTTL := by
  have filled : (p.applyDefaults opts).mode = "async" ∧
      (p.applyDefaults opts).resultFormat = "jsonl" := by
    simp [Process.applyDefaults, orDefault, mode, format]
  rw [QueryOptions.validate_eq_ok_iff, filled.1, filled.2]
  simp [Process.applyDefaults, orDefault, timeout, ttl, validModes, validResultFormats]

/-- An accepted configuration is usable exactly when its lease TTL has a half and its
defaults are not negative. -/
theorem accepted_config_usable_iff {given cfg : Config} (accepted : validate given = .ok cfg)
    {p : Process} (installed : p.cfg = cfg) :
    p.Usable ↔ (given.inst.heartbeatTTL = 0 ∨ 2 ≤ given.inst.heartbeatTTL) ∧
      0 ≤ given.defaults.queryTimeout ∧ 0 ≤ given.defaults.resultTTL := by
  obtain ⟨rfl, _, _⟩ := validate_eq_ok accepted
  have ttl : p.heartbeatTTL =
      if given.inst.heartbeatTTL = 0 then 5 * second else given.inst.heartbeatTTL := by
    rw [Process.heartbeatTTL, installed]
    rfl
  have timeout : p.cfg.defaults.queryTimeout = given.defaults.queryTimeout := by
    rw [installed]
    rfl
  have retention : p.cfg.defaults.resultTTL =
      if given.defaults.resultTTL = 0 then 24 * hour else given.defaults.resultTTL := by
    rw [installed]
    rfl
  have halves : 2 ≤ p.heartbeatTTL ↔
      given.inst.heartbeatTTL = 0 ∨ 2 ≤ given.inst.heartbeatTTL := by
    rw [ttl]
    split
    · rename_i zero
      exact iff_of_true (by decide) (.inl zero)
    · rename_i set
      exact (or_iff_right set).symm
  have keeps : 0 ≤ p.cfg.defaults.resultTTL ↔ 0 ≤ given.defaults.resultTTL := by
    rw [retention]
    split
    · rename_i zero
      exact iff_of_true (by decide) zero.ge
    · rfl
  constructor
  · intro usable
    have checked := (applyDefaults_validate_iff p rfl rfl rfl rfl).mp
      (usable.defaults {} rfl rfl rfl rfl)
    rw [timeout, keeps] at checked
    exact ⟨halves.mp (half_pos_iff.mp usable.heartbeatTicker), checked⟩
  · rintro ⟨ttl, defaults⟩
    have two := halves.mpr ttl
    have positive : 0 < p.heartbeatTTL := lt_of_lt_of_le (by decide) two
    rw [← timeout, ← keeps] at defaults
    exact {
      heartbeatTicker := half_pos_iff.mpr two
      reaperTicker := positive
      gcTicker := p.gcPeriod_pos
      lease := ⟨_, Redis.wholeMilliseconds_pos _, if_pos positive⟩
      defaults := fun opts timeout ttl mode format =>
        (applyDefaults_validate_iff p timeout ttl mode format).mpr defaults }

theorem sample_config_usable : (Process.new (withDefaults (sampleConfig "a")) []).Usable :=
  (@accepted_config_usable_iff (sampleConfig "a") _ rfl _ rfl).mpr (by decide)

/-- A lease TTL of one nanosecond and a negative one are accepted, and so are negative
defaults. -/
theorem unusable_configs_accepted :
    ∃ given cfg, validate given = .ok cfg ∧ (Process.new cfg []).heartbeatTTL.tdiv 2 = 0 ∧
      ((Process.new cfg []).applyDefaults {}).validate =
        .error (.validation "timeout_ms" "must not be negative") := by
  refine ⟨{ sampleConfig "a" with
      inst := { (sampleConfig "a").inst with heartbeatTTL := 1 }
      defaults := { queryTimeout := -1 } }, _, rfl, ?_, ?_⟩
  · decide
  · decide

/-! ## Expirations derived from the options of a query -/

/-- The claim of a key outlasts the retention, and so does the record in Redis. -/
structure Outlasts (opts : QueryOptions) : Prop where
  key_pos : 0 < idempotencySubmitTTL opts
  key : opts.resultTTL ≤ idempotencySubmitTTL opts
  record_pos : ∀ record : QueryRecord, record.options = opts → 0 < Redis.expiration record
  record : ∀ record : QueryRecord, record.options = opts →
    opts.resultTTL ≤ Redis.expiration record
  claim : ∀ (m : MetaStore) (now later : Time) (dbID key queryID other : String)
    (ttl : Duration), now ≤ later → later ≤ now + opts.resultTTL →
    (m.acquireIdempotency now dbID key queryID (idempotencySubmitTTL opts)).1.2 = true →
    ((m.acquireIdempotency now dbID key queryID
      (idempotencySubmitTTL opts)).2.acquireIdempotency later dbID key other ttl).1.2 = false

theorem day_later (nonneg : 0 ≤ ttl) (small : ttl < 2 ^ 63) :
    0 < wrap64 (ttl + 24 * hour) ↔ ttl + 24 * hour < 2 ^ 63 := by
  have day : (24 * hour : Int) = 86400000000000 := rfl
  rw [day]
  by_cases fits : ttl + 86400000000000 < 2 ^ 63
  · rw [wrap64_of_range (by omega) fits]
    omega
  · rw [wrap64_of_overflow (by omega) (by omega)]
    omega

theorem wrap64_day_later (nonneg : 0 ≤ ttl) (fits : ttl + 24 * hour < 2 ^ 63) :
    wrap64 (ttl + 24 * hour) = ttl + 24 * hour := by
  have day : (24 * hour : Int) = 86400000000000 := rfl
  rw [day] at fits ⊢
  exact wrap64_of_range (by omega) fits

/-- The expirations of accepted options are sound exactly when a day fits on top of the
retention. -/
theorem outlasts_iff (accepted : opts.validate = .ok ()) (int64 : opts.resultTTL < 2 ^ 63) :
    Outlasts opts ↔ opts.resultTTL + 24 * hour < 2 ^ 63 := by
  have nonneg := ((QueryOptions.validate_eq_ok_iff opts).mp accepted).2.2.2
  constructor
  · intro outlasts
    exact (day_later nonneg int64).mp outlasts.key_pos
  · intro fits
    have day : (0 : Int) ≤ 24 * hour := by decide
    have key : idempotencySubmitTTL opts = opts.resultTTL + 24 * hour :=
      wrap64_day_later nonneg fits
    have record (stored : QueryRecord) (same : stored.options = opts) :
        opts.resultTTL ≤ Redis.expiration stored ∧ 0 < Redis.expiration stored := by
      unfold Redis.expiration QueryRecord.retention
      rw [same]
      split
      · rename_i zero
        rw [zero]
        decide
      · rw [wrap64_day_later nonneg fits]
        exact ⟨Int.le_add_of_nonneg_right day,
          Int.add_pos_of_nonneg_of_pos nonneg (by decide)⟩
    refine ⟨?_, ?_, fun stored same => (record stored same).2,
      fun stored same => (record stored same).1, ?_⟩
    · rw [key]
      exact Int.add_pos_of_nonneg_of_pos nonneg (by decide)
    · rw [key]
      exact Int.le_add_of_nonneg_right day
    · intro m now later dbID name queryID other ttl _ within acquired
      rcases m.acquireIdempotency_cases now dbID name queryID _ with
        ⟨existing, held, answer⟩ | ⟨free, answer⟩
      · rw [answer] at acquired
        contradiction
      rw [answer]
      suffices before : later < now + idempotencySubmitTTL opts by
        simp [MetaStore.acquireIdempotency, MetaStore.holder, MetaStore.claim, before]
      rw [key]
      exact lt_of_le_of_lt within (Int.add_lt_add_left
        (Int.lt_add_of_pos_right _ (by decide)) now)

theorem day_of_retention_outlasts :
    Outlasts { mode := "async", resultFormat := "jsonl", resultTTL := 24 * hour } :=
  (outlasts_iff (by decide) (by decide)).mpr (by decide)

/-- With the longest retention there is, a key that was just claimed can be claimed again. -/
theorem longest_retention_expires_at_once :
    ∃ opts : QueryOptions, opts.validate = .ok () ∧ opts.resultTTL = 2 ^ 63 - 1 ∧
      idempotencySubmitTTL opts < 0 ∧
      (let claimed := MetaStore.empty.acquireIdempotency 1 "db" "k" "q"
        (idempotencySubmitTTL opts)
       claimed.1.2 = true ∧
         (claimed.2.acquireIdempotency 1 "db" "k" "r" (idempotencySubmitTTL opts)).1 =
           ("r", true)) :=
  ⟨{ mode := "async", resultFormat := "jsonl", resultTTL := 2 ^ 63 - 1 }, by decide, rfl,
    by decide +kernel⟩

end DbBridge.Cluster
