import DbBridge.Cluster.Registry

/-!
# Leases between two heartbeats

`heartbeatWorker` takes the period of its ticker from the lease TTL once, when it
starts, and the TTL it writes from the live configuration, at every tick. As long as
reloads keep the TTL above that period, a lease written at a tick outlives the next
tick.
-/

namespace DbBridge.Cluster

open Domain State Settings

variable {now : Time} {m after : MetaStore} {p next : Process} {choice : HeartChoice}

/-! ## The heartbeat worker -/

def Process.Timed (p : Process) : Prop :=
  p.heart ≠ .off → p.heartbeatPeriod < p.heartbeatTTL

/-- Half of a TTL is less than the TTL, if there is a ticker for it at all. -/
theorem half_lt {ttl : Int} (positive : 0 < ttl.tdiv 2) : ttl.tdiv 2 < ttl := by
  rcases le_total 0 ttl with nonneg | nonpos
  · rw [Int.tdiv_eq_ediv_of_nonneg nonneg] at positive ⊢
    omega
  · have mirrored := Int.neg_tdiv ttl 2
    rw [Int.tdiv_eq_ediv_of_nonneg (by omega)] at mirrored
    omega

theorem heartStep_timed (timed : p.Timed) (taken : heartStep now m p choice = some (after, next)) :
    next.Timed := by
  cases choice with
  | begin =>
    cases phase : p.heart with
    | off =>
      simp only [heartStep, phase] at taken
      split at taken
      · split at taken <;> cases taken
        · exact fun running => absurd rfl running
        · rename_i positive
          exact fun _ => half_lt (by simpa using positive)
      · contradiction
    | _ => simp [heartStep, phase] at taken
  | tick | write =>
    cases phase : p.heart with
    | off => simp [heartStep, phase] at taken
    | _ =>
      have faster := timed (by simp [phase])
      simp only [heartStep, phase] at taken
      (repeat' split at taken) <;>
        first
        | contradiction
        | (cases taken; exact fun _ => faster)

theorem heartStep_period (running : p.heart ≠ .off)
    (taken : heartStep now m p choice = some (after, next)) :
    next.heart ≠ .off ∧ next.heartbeatPeriod = p.heartbeatPeriod := by
  cases phase : p.heart with
  | off => exact absurd phase running
  | waiting | beat =>
    cases choice <;> simp only [heartStep, phase] at taken
    all_goals
      (repeat' split at taken) <;>
        first
        | contradiction
        | (cases taken; simp)

theorem heartStep_beat {nextTick : Time} {ids : List String}
    (taken : heartStep now m p choice = some (after, next)) (beat : next.heart = .beat nextTick ids)
    : ids = p.registry.activeReg.keys := by
  cases phase : p.heart <;> cases choice <;> simp only [heartStep, phase] at taken
  all_goals
    (repeat' split at taken) <;>
      first
      | contradiction
      | (cases taken; simp_all)

namespace Deployment

/-! ## The condition on a step -/

/-- A reload of a process whose ticker runs sets a TTL above the ticker's period. -/
def OutlivesTick (d : Deployment) : Action → Prop
  | .reload pid given _ =>
    ∀ p ∈ d.procs pid, p.heart ≠ .off →
      ∀ cfg ∈ (validate given).toOption, p.heartbeatPeriod < cfg.inst.heartbeatTTL
  | _ => True

def KeepsLease (d : Deployment) (action : Action) : Prop :=
  OutlivesTick d action ∧ NoRevival d action

instance (d : Deployment) (action : Action) : Decidable (OutlivesTick d action) := by
  unfold OutlivesTick
  split <;> infer_instance

instance (d : Deployment) (action : Action) : Decidable (KeepsLease d action) :=
  inferInstanceAs (Decidable (_ ∧ _))

section
variable {env : Env} {d after : Deployment} {action : Action}

/-! ## What a move does to a ticker -/

variable {before : Process} {pid : Nat}

section
variable (move : Move env d action after) (was : d.procs pid = some before)
  (present : after.procs pid = some next)
include move was present

theorem Move.heart_cases :
    (next.heart = before.heart ∧ next.heartbeatPeriod = before.heartbeatPeriod ∧
        (next.cfg = before.cfg ∨
          ∃ given pools, action = .reload pid given pools ∧ validate given = .ok next.cfg)) ∨
      ∃ choice store, action = .heart pid choice ∧
        heartStep d.now d.store before choice = some (store, next) := by
  have parts := move.parts was present
  rcases parts.heart with ⟨heart, period⟩ | taken
  · exact .inl ⟨heart, period, parts.cfg⟩
  · exact .inr taken

theorem Move.ticker (running : before.heart ≠ .off) :
    next.heart ≠ .off ∧ next.heartbeatPeriod = before.heartbeatPeriod := by
  rcases move.heart_cases was present with ⟨heart, period, _⟩ | ⟨_, _, _, taken⟩
  · exact ⟨heart ▸ running, period⟩
  · exact heartStep_period running taken

end

theorem Move.timed (move : Move env d action after) (guard : OutlivesTick d action)
    (was : d.procs pid = some before) (present : after.procs pid =
      some next) (timed : before.Timed) : next.Timed := by
  rcases move.heart_cases was present with
    ⟨heart, period, cfg | ⟨_, _, rfl, accepted⟩⟩ | ⟨_, _, _, taken⟩
  · rw [Process.Timed, Process.heartbeatTTL, heart, period, cfg]
    exact timed
  · rw [Process.Timed, heart, period]
    exact fun running => guard before was running next.cfg (by simp [accepted, Except.toOption])
  · exact heartStep_timed timed taken

/-! ## What holds in every state -/

/-- Running tickers are faster than the TTL, and every lease a process renews is that
of a query submitted to it. -/
structure Leasing (d : Deployment) : Prop where
  shape : Shape d
  inHand : InHand d
  entries : OwnEntries d
  timed : ∀ pid p, d.procs pid = some p → p.Timed
  beating : ∀ pid p nextTick ids, d.procs pid = some p → p.heart = .beat nextTick ids →
    ∀ queryID ∈ ids, SubmittedTo d pid queryID

theorem Leasing.initial (now : Time) : Leasing (initial now) where
  shape := Shape.initial now
  inHand := by simp [InHand, Deployment.initial]
  entries := by simp [OwnEntries, Deployment.initial]
  timed := by simp [Deployment.initial]
  beating := by simp [Deployment.initial]

theorem Leasing.beating_step (leasing : Leasing d) (move : Move env d action after) (pid : Nat)
    (next : Process) (nextTick : Time) (ids : List String)
    (present : after.procs pid = some next) (beat : next.heart = .beat nextTick ids) :
    ∀ queryID ∈ ids, SubmittedTo after pid queryID := by
  intro queryID member
  rcases move.origin pid next present with ⟨before, was, _⟩ | ⟨_, _, _, _, _, _, rfl⟩
  · refine SubmittedTo.step ?_ leasing.shape move
    rcases move.heart_cases was present with ⟨heart, _⟩ | ⟨_, _, _, taken⟩
    · exact leasing.beating pid before nextTick ids was (heart ▸ beat) queryID member
    · rw [heartStep_beat taken beat] at member
      exact leasing.entries pid before queryID was member
  · contradiction

theorem Leasing.step (leasing : Leasing d) (guard : KeepsLease d action)
    (move : Move env d action after) : Leasing after where
  shape := leasing.shape.step move
  inHand := leasing.inHand.step move fun _ => move.ended leasing.shape guard.2
  entries := leasing.entries.step leasing.shape move
  timed := by
    intro pid next present
    rcases move.origin pid next present with ⟨before, was, _⟩ | ⟨_, _, _, _, _, _, rfl⟩
    · exact move.timed guard.1 was present (leasing.timed pid before was)
    · exact fun running => absurd rfl running
  beating := leasing.beating_step move

theorem Reachable.leasing (reached : Reachable env KeepsLease d) : Leasing d := by
  obtain ⟨now, _, run⟩ := reached
  exact run.invariant Leasing (Leasing.initial now) fun _ _ _ holds guard taken =>
    holds.step guard (step_move taken)

theorem Leasing.renews (leasing : Leasing d) {queryIDs : List String}
    (renews : Renews d action pid queryIDs) : ∀ queryID ∈ queryIDs, SubmittedTo d pid queryID := by
  cases renews with
  | claimed _ _ s _ sub =>
    intro other member
    rw [List.mem_singleton.mp member]
    exact ⟨s, sub, rfl⟩
  | beat _ _ p nextTick _ found phase => exact leasing.beating pid p nextTick _ found phase

/-! ## One lease -/

def Covered (d : Deployment) (queryID : String) (until_ : Time) : Prop :=
  d.store.ended queryID = true ∨
    ∃ expiry, d.store.leases.lookup queryID = some expiry ∧ until_ ≤ expiry

theorem Covered.not_stale {queryID : String} {until_ : Time} (covered : Covered d queryID until_)
    (inTime : d.now ≤ until_) : queryID ∉ d.store.listStaleQueries d.now := by
  rw [MetaStore.mem_listStaleQueries_iff]
  rintro ⟨record, lookup, stale⟩
  obtain rfl := d.store.keyed queryID record lookup
  simp only [MetaStore.isStale, Bool.and_eq_true] at stale
  obtain ⟨active, lapsed⟩ := stale
  rcases covered with ended | ⟨_, lease, enough⟩
  · rw [MetaStore.ended, d.store.logged record.id record lookup, Option.any_some] at ended
    rw [(QueryState.isTerminal_eq_false_iff _).mpr (by simpa using active)] at ended
    contradiction
  · simp only [lease, decide_eq_true_eq] at lapsed
    exact absurd lapsed (not_lt.mpr (inTime.trans enough))

/-- A query of process `pid`, whose ticker runs with `period`, is covered up to
`start + period`, and `start` is past. -/
structure Held (pid : Nat) (queryID : String) (start : Time) (period : Duration)
    (d : Deployment) : Prop where
  leasing : Leasing d
  owner : SubmittedTo d pid queryID
  ticker : ∃ p, d.procs pid = some p ∧ p.heart ≠ .off ∧ p.heartbeatPeriod = period
  started : start ≤ d.now
  covered : Covered d queryID (start + period)

section
variable {queryID : String} {start : Time} {period : Duration}

section
variable (held : Held pid queryID start period d) (guard : KeepsLease d action)
  (move : Move env d action after)
include held guard move

/-- The cover survives every step: a renewal is one of the query's own process, with a
TTL above the period, and whoever takes the lease away has ended the query. -/
theorem Held.covered_step : Covered after queryID (start + period) := by
  have stays : d.store.ended queryID = true → Covered after queryID (start + period) :=
    fun ended => .inl (move.ended held.leasing.shape guard.2 ended)
  rcases held.covered with ended | ⟨expiry, lease, enough⟩
  · exact stays ended
  rcases move.effects held.leasing.shape with
    same | ⟨other, p, queryIDs, renews, found, renewed⟩ | ⟨record, _, written⟩ |
      ⟨dropped, drops, deleted⟩
  · exact .inr ⟨expiry, by rwa [same.leases], enough⟩
  · by_cases member : queryID ∈ queryIDs
    · obtain rfl := held.owner.unique (held.leasing.renews renews queryID member)
      obtain ⟨_, same, running, rfl⟩ := held.ticker
      rw [found] at same
      cases same
      have faster := held.leasing.timed other p found running
      refine .inr ⟨d.now + p.heartbeatTTL, ?_, Int.add_le_add held.started faster.le⟩
      rw [renewed, MetaStore.heartbeat_lookup, if_pos member]
    · exact .inr ⟨expiry, by rwa [renewed, MetaStore.heartbeat_lookup, if_neg member], enough⟩
  · by_cases over_ : queryID = record.id ∧ record.state.isTerminal = true
    · obtain ⟨rfl, terminal⟩ := over_
      left
      rw [written, MetaStore.ended, MetaStore.store_journal_self]
      exact terminal
    · refine .inr ⟨expiry, ?_, enough⟩
      rw [written, MetaStore.store_leases_lookup _ _ fun same => by simpa [same] using over_]
      exact lease
  · by_cases own : queryID = dropped
    · subst own
      obtain ⟨collector, _, p, _, _, found, phase⟩ := drops
      exact stays (held.leasing.inHand collector p queryID found (by rw [phase]; rfl))
    · exact .inr ⟨expiry, by rwa [deleted, MetaStore.deleteQuery_leases_of_ne _ own], enough⟩

theorem Held.step : Held pid queryID start period after where
  leasing := held.leasing.step guard move
  owner := held.owner.step held.leasing.shape move
  ticker := by
    obtain ⟨p, found, running, rfl⟩ := held.ticker
    obtain ⟨next, present, _⟩ := move.continues pid p found
    exact ⟨next, present, move.ticker found present running⟩
  started := held.started.trans move.now_le
  covered := held.covered_step guard move

end

end

end

/-! ## From one tick to the next -/

section
variable {env : Env} {d after : Deployment} {pid : Nat} {nextTick : Time} {ids : List String}

theorem Move.beat_store (move : Move env d (.heart pid (.write .ok)) after)
    (found : d.procs pid = some p) (beat : p.heart = .beat nextTick ids) :
    after.store = d.store.heartbeat d.now ids p.heartbeatTTL := by
  cases move with
  | heart _ _ _ _ _ same _ taken =>
    rw [found] at same
    cases same
    simp only [heartStep, beat, Option.some.injEq, Prod.mk.injEq] at taken
    exact taken.1.symm
  | operated _ _ _ _ _ _ operated => cases operated

theorem keepsLease_beat (d : Deployment) (pid : Nat) (reply : Reply) :
    KeepsLease d (.heart pid (.write reply)) :=
  ⟨trivial, by simp [NoRevival, putting?]⟩

theorem Leasing.held (leasing : Leasing d) (found : d.procs pid = some p)
    (beat : p.heart = .beat nextTick ids)
    (move : Move env d (.heart pid (.write .ok)) after) {queryID : String}
    (member : queryID ∈ ids) : Held pid queryID d.now p.heartbeatPeriod after where
  leasing := leasing.step (keepsLease_beat d pid .ok) move
  owner := (leasing.beating pid p nextTick ids found beat queryID member).step leasing.shape move
  ticker := by
    obtain ⟨next, present, _⟩ := move.continues pid p found
    exact ⟨next, present, move.ticker found present (by simp [beat])⟩
  started := move.now_le
  covered := by
    have faster := leasing.timed pid p found (by simp [beat])
    refine .inr ⟨d.now + p.heartbeatTTL, ?_, Int.add_le_add_left faster.le d.now⟩
    rw [move.beat_store found beat, MetaStore.heartbeat_lookup, if_pos member]

end

/-- The lease a beat writes is longer than the ticker's period, and until a period has
passed no instance finds a query of that beat among the stale ones, whatever the
deployment does in between. -/
theorem leases_do_not_lapse_between_ticks (env : Env) (d : Deployment)
    (reached : Reachable env KeepsLease d) (pid : Nat) (p : Process) (nextTick : Time)
    (ids : List String) (found : d.procs pid = some p) (beat : p.heart = .beat nextTick ids)
    (written : Deployment) (taken : step env d (.heart pid (.write .ok)) = some written) :
    ∃ ttl, p.heartbeatPeriod < ttl ∧
      ∀ queryID ∈ ids, written.store.leases.lookup queryID = some (d.now + ttl) ∧
        ∀ later, Runs.Reaches (step env) KeepsLease written later →
          later.now ≤ d.now + p.heartbeatPeriod →
          queryID ∉ later.store.listStaleQueries later.now := by
  have leasing := reached.leasing
  have move := step_move taken
  refine ⟨p.heartbeatTTL, leasing.timed pid p found (by simp [beat]), fun queryID member => ?_⟩
  constructor
  · rw [move.beat_store found beat, MetaStore.heartbeat_lookup, if_pos member]
  · intro later path inTime
    have held := path.invariant (Held pid queryID d.now p.heartbeatPeriod)
      (leasing.held found beat move member) fun _ _ _ holds guard taken =>
        holds.step guard (step_move taken)
    exact held.covered.not_stale inTime

/-- Process 1 starts its ticker while it executes `q`, with the default TTL of five
seconds, and reloads another TTL; at the first tick the worker is about to renew the
lease. -/
def beatAfterReload (ttl : Duration) : List Action :=
  runningQuery ++ [.heart 1 .begin,
    .reload 1 { sampleConfig "a" with
      inst := { id := "a", metaStore := "memory", heartbeatTTL := ttl } } ["db"],
    .tick 2500000000, .heart 1 .tick]

def heartView (d : Deployment) : Option (HeartPhase × Duration × List String) :=
  (d.procs 1).map fun p => (p.heart, p.heartbeatPeriod, p.registry.activeReg.keys)

/-- After a reload to six seconds the lease written at the first tick covers the next
two seconds. -/
theorem longer_lease_covers_the_tick :
    ∃ d written later, Reachable sampleEnv KeepsLease d ∧
      heartView d = some (.beat 5000000001 ["q"], 2500000000, ["q"]) ∧
      step sampleEnv d (.heart 1 (.write .ok)) = some written ∧
      Runs.Reaches (step sampleEnv) KeepsLease written later ∧
      later.now = d.now + 2000000000 ∧ "q" ∉ later.store.listStaleQueries later.now := by
  obtain ⟨d, reached, view, written, taken, later, waited, clock, clockLater⟩ :
      ∃ d, Reachable sampleEnv KeepsLease d ∧
        heartView d = some (.beat 5000000001 ["q"], 2500000000, ["q"]) ∧
        ∃ written ∈ step sampleEnv d (.heart 1 (.write .ok)),
          ∃ later ∈ Runs.execute (step sampleEnv) KeepsLease [.tick 2000000000] written,
            d.now = 2500000001 ∧ later.now = 4500000001 :=
    exists_reachable (beatAfterReload (6 * second)) (by decide +kernel)
  obtain ⟨p, found, fields⟩ := Option.map_eq_some_iff.mp view
  obtain ⟨beat, period, _⟩ := by simpa only [Prod.mk.injEq] using fields
  have path := Runs.reaches_of_execute _ _ _ waited
  obtain ⟨_, _, renewed⟩ := leases_do_not_lapse_between_ticks sampleEnv d reached 1 p _ _ found
    beat written taken
  refine ⟨d, written, later, reached, view, taken, path, by rw [clock, clockLater]; rfl, ?_⟩
  refine (renewed "q" (by simp)).2 later path ?_
  rw [clock, clockLater, period]
  decide

/-- Without the condition: after a reload to one second the worker still ticks every
two and a half, and `q`, which stays in the registry, is stale between two ticks. -/
theorem reload_makes_leases_lapse :
    ∃ d written later, Reachable sampleEnv Runs.Always d ∧
      heartView d = some (.beat 5000000001 ["q"], 2500000000, ["q"]) ∧
      step sampleEnv d (.heart 1 (.write .ok)) = some written ∧
      written.store.leases.lookup "q" = some (d.now + second) ∧
      Runs.Reaches (step sampleEnv) Runs.Always written later ∧
      heartView later = some (.waiting 5000000001, 2500000000, ["q"]) ∧
      later.now < 5000000001 ∧ "q" ∈ later.store.listStaleQueries later.now := by
  obtain ⟨d, reached, view, written, taken, lease, later, waited, facts⟩ :
      ∃ d, Reachable sampleEnv Runs.Always d ∧
        heartView d = some (.beat 5000000001 ["q"], 2500000000, ["q"]) ∧
        ∃ written ∈ step sampleEnv d (.heart 1 (.write .ok)),
          written.store.leases.lookup "q" = some (d.now + second) ∧
          ∃ later ∈ Runs.execute (step sampleEnv) Runs.Always [.tick 2000000000] written,
            decide (heartView later = some (.waiting 5000000001, 2500000000, ["q"]) ∧
              later.now < 5000000001 ∧ "q" ∈ later.store.listStaleQueries later.now) = true :=
    exists_reachable (beatAfterReload second) (by decide +kernel)
  exact ⟨d, written, later, reached, view, taken, lease, Runs.reaches_of_execute _ _ _ waited,
    of_decide_eq_true facts⟩

end Deployment

end DbBridge.Cluster
