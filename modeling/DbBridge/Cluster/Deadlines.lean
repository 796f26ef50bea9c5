import Mathlib.Data.Option.Basic
import DbBridge.Cluster.Writes

/-!
# The lease deadline of a stored record

`GetQuery` of the memory store adds whatever deadline stands in the lease table. A
terminal write takes the lease away, but a `Heartbeat` that was prepared before it puts
the lease back, and nothing removes a lease that ran out. So the deadline that a reader
sees depends on the order of the beats and the terminal writes, and on the clock.
-/

namespace DbBridge.Cluster

open Domain State

variable {action : Action} {queryIDs : List String} {queryID : String}

namespace Deployment

/-- The process whose `Heartbeat` takes effect in a step, and the queries it is for. -/
def renewing? (d : Deployment) : Action → Option (Process × List String)
  | .submission queryID reply => do
      guard (reply ≠ .failed)
      let s ← d.subs queryID
      let p ← d.procs s.pid
      match s.phase with
      | .lease _ => some (p, [queryID])
      | _ => none
  | .heart pid (.write reply) => do
      guard (reply ≠ .failed)
      let p ← d.procs pid
      match p.heart with
      | .beat _ queryIDs => some (p, queryIDs)
      | _ => none
  | _ => none

theorem Renews.renewing {d : Deployment} {pid : Nat} (renews : Renews d action pid queryIDs)
    {p : Process} (found : d.procs pid = some p) : d.renewing? action = some (p, queryIDs) := by
  cases renews with
  | claimed _ _ _ _ sub _ phase applied => simp [renewing?, applied, sub, found, phase]
  | beat _ _ _ _ _ same phase applied =>
    rw [found] at same
    cases same
    simp [renewing?, applied, found, phase]

def RenewsUnfinished (d : Deployment) (action : Action) : Prop :=
  ∀ beat ∈ d.renewing? action, ∀ queryID ∈ beat.2,
    ∀ record ∈ d.store.queries.lookup queryID, record.state.isTerminal = false

def Unleased (d : Deployment) : Prop :=
  ∀ queryID record, d.store.queries.lookup queryID = some record →
    record.state.isTerminal = true → d.store.leases.lookup queryID = none

def Bare (d : Deployment) : Prop :=
  ∀ queryID record, d.store.queries.lookup queryID = some record → record.leaseDeadline = 0

section
variable {env : Env} {d after : Deployment}

theorem Unleased.step (unleased : Unleased d) (shape : Shape d)
    (move : Move env d action after) (guard : RenewsUnfinished d action) : Unleased after := by
  intro queryID record lookup terminal
  rcases move.effects shape with
    same | ⟨_, _, _, renews, found, renewed⟩ | ⟨_, _, stored⟩ |
      ⟨dropped, _, deleted⟩
  · rw [same.queries] at lookup
    rw [same.leases]
    exact unleased queryID record lookup terminal
  · rw [renewed] at lookup ⊢
    rw [MetaStore.heartbeat_lookup, if_neg]
    · exact unleased queryID record lookup terminal
    · intro member
      have active := guard _ (renews.renewing found) queryID member record lookup
      rw [terminal] at active
      contradiction
  · rw [stored] at lookup ⊢
    rcases MetaStore.store_cases lookup with ⟨rfl, rfl⟩ | ⟨own, lookup⟩
    · simp only [MetaStore.store, if_pos terminal]
      exact AList.lookup_erase _ _
    · rw [MetaStore.store_leases_lookup _ _ fun same => absurd same own]
      exact unleased queryID record lookup terminal
  · rw [deleted] at lookup ⊢
    by_cases own : queryID = dropped
    · subst own
      exact AList.lookup_erase _ _
    · rw [MetaStore.deleteQuery_leases_of_ne _ own]
      exact unleased queryID record
        (Tables.lookup_of_erase lookup) terminal

section
variable (shape : Shape d) (move : Move env d action after)
include shape move

theorem Move.lease_origin {deadline : Time}
    (lease : after.store.leases.lookup queryID = some deadline) :
    d.store.leases.lookup queryID = some deadline ∨
      ∃ p queryIDs, d.renewing? action = some (p, queryIDs) ∧
        deadline = d.now + p.heartbeatTTL := by
  rcases move.effects shape with
    same | ⟨_, p, queryIDs, renews, found, renewed⟩ | ⟨_, _, stored⟩ |
      ⟨_, _, deleted⟩
  · exact .inl (same.leases ▸ lease)
  · rw [renewed, MetaStore.heartbeat_lookup] at lease
    split at lease
    · exact .inr ⟨p, queryIDs, renews.renewing found, (Option.some.inj lease).symm⟩
    · exact .inl lease
  · left
    rw [stored] at lease
    simp only [MetaStore.store] at lease
    split at lease
    · exact Tables.lookup_of_erase lease
    · exact lease
  · rw [deleted] at lease
    exact .inl (Tables.lookup_of_erase lease)

theorem Move.renewed {p : Process} (renewing : d.renewing? action = some (p, queryIDs)) :
    after.store = d.store.heartbeat d.now queryIDs p.heartbeatTTL := by
  cases move with
  | submission id reply s q _ sub found _ taken =>
    have own := (shape.sub id s sub).1
    cases phase : s.phase with
    | lease record =>
      simp only [submitStep, phase, Option.some.injEq] at taken
      rw [applySubmit_store, ← taken, own]
      cases reply with
      | failed => simp [renewing?] at renewing
      | ok | lost =>
        obtain ⟨rfl, rfl⟩ : q = p ∧ [id] = queryIDs := by
          simpa [renewing?, sub, found, phase] using renewing
        rfl
    | _ => simp [renewing?, sub, found, phase] at renewing
  | heart pid choice q _ _ found _ taken =>
    cases choice with
    | write reply =>
      cases phase : q.heart with
      | beat nextTick ids =>
        simp only [heartStep, phase, Option.some.injEq, Prod.mk.injEq] at taken
        rw [← taken.1]
        cases reply with
        | failed => simp [renewing?] at renewing
        | ok | lost =>
          obtain ⟨rfl, rfl⟩ : q = p ∧ ids = queryIDs := by
            simpa [renewing?, found, phase] using renewing
          rfl
      | _ => simp [renewing?, found, phase] at renewing
    | _ => simp [renewing?] at renewing
  | operated _ _ _ _ _ _ operated => cases operated <;> simp [renewing?] at renewing
  | _ => simp [renewing?] at renewing

end

theorem Bare.step (bare : Bare d) (shape : Shape d) (move : Move env d action after) :
    Bare after := by
  intro queryID record lookup
  rcases move.record_origin shape lookup with before | ⟨_, -, -, -, rfl⟩
  · exact bare queryID record before
  · rfl

theorem Bare.deadline (bare : Bare d) {record : QueryRecord}
    (read : d.store.getQuery queryID = some record) :
    (∃ stored, d.store.queries.lookup queryID = some stored ∧ stored.state = record.state) ∧
      (record.leaseDeadline = 0 ∨
        d.store.leases.lookup queryID = some record.leaseDeadline) := by
  unfold MetaStore.getQuery at read
  cases lookup : d.store.queries.lookup queryID with
  | none => simp [lookup] at read
  | some stored =>
    rw [lookup] at read
    cases lease : d.store.leases.lookup queryID with
    | none =>
      simp only [lease, Option.some.injEq] at read
      subst read
      exact ⟨⟨stored, rfl, rfl⟩, .inl (bare queryID stored lookup)⟩
    | some =>
      simp only [lease, Option.some.injEq] at read
      subst read
      exact ⟨⟨stored, rfl, rfl⟩, .inr rfl⟩

end

section
variable {env : Env} {d : Deployment}

theorem Reachable.bare {guard : Deployment → Action → Prop} (reached : Reachable env guard d) :
    Bare d :=
  reached.invariant Bare (by simp [Bare, Deployment.initial, MetaStore.empty])
    fun shape bare _ move => bare.step shape move

theorem Reachable.unleased (reached : Reachable env RenewsUnfinished d) : Unleased d :=
  reached.invariant Unleased (by simp [Unleased, Deployment.initial, MetaStore.empty])
    fun shape unleased guard move => unleased.step shape move guard

end

end Deployment

/-! ## Renewals in time -/

/-- A deployment with the last renewal of each lease: its instant and its TTL. -/
structure Beating where
  base : Deployment
  renewals : String → Option (Time × Duration)

namespace Beating

open Deployment

def initial (now : Time) : Beating := ⟨.initial now, fun _ => none⟩

def step (env : Env) (s : Beating) (action : Action) : Option Beating :=
  (s.base.step env action).map fun after =>
    { base := after
      renewals := fun queryID =>
        match s.base.renewing? action with
        | some (p, queryIDs) =>
          if queryID ∈ queryIDs then some (s.base.now, p.heartbeatTTL) else s.renewals queryID
        | none => s.renewals queryID }

/-- Leases are renewed for a positive time, and while time passes each lease that is held,
that is, not dropped, was renewed less than its TTL ago. -/
def BeatsInTime (s : Beating) (action : Action) : Prop :=
  (∀ beat ∈ s.base.renewing? action, 0 < beat.1.heartbeatTTL) ∧
    match action with
    | .tick elapsed => ∀ queryID ∈ s.base.store.leases.keys, ∀ renewal ∈ s.renewals queryID,
        s.base.now + elapsed < renewal.1 + renewal.2
    | _ => True

instance (s : Beating) (action : Action) : Decidable (BeatsInTime s action) := by
  unfold BeatsInTime
  split <;> infer_instance

structure Unlapsed (s : Beating) : Prop where
  shape : Shape s.base
  bare : Bare s.base
  ahead : ∀ queryID deadline, s.base.store.leases.lookup queryID = some deadline →
    s.base.now < deadline ∧
      ∃ at_ ttl, s.renewals queryID = some (at_, ttl) ∧ deadline = at_ + ttl

theorem Unlapsed.step {env : Env} {s after : Beating} (unlapsed : Unlapsed s)
    (inTime : BeatsInTime s action) (taken : s.step env action = some after) : Unlapsed after := by
  obtain ⟨d, moved, rfl⟩ := Option.map_eq_some_iff.mp taken
  have move := step_move moved
  refine ⟨unlapsed.shape.step move, unlapsed.bare.step unlapsed.shape move, ?_⟩
  intro queryID deadline lease
  dsimp only at lease ⊢
  cases renewing : s.base.renewing? action with
  | some beat =>
    obtain ⟨p, queryIDs⟩ := beat
    have still : d.now = s.base.now := by
      rcases move.now_cases with ⟨_, rfl, _⟩ | still
      · cases renewing
      · exact still
    rw [move.renewed unlapsed.shape renewing, MetaStore.heartbeat_lookup] at lease
    simp only
    split at lease
    · rename_i member
      cases lease
      rw [if_pos member, still]
      exact ⟨Int.lt_add_of_pos_right _ (inTime.1 _ renewing), _, _, rfl, rfl⟩
    · rename_i other
      rw [if_neg other, still]
      exact unlapsed.ahead queryID deadline lease
  | none =>
    have before : s.base.store.leases.lookup queryID = some deadline := by
      rcases move.lease_origin unlapsed.shape lease with before | ⟨_, _, renews, _⟩
      · exact before
      · rw [renewing] at renews
        contradiction
    obtain ⟨ahead, at_, ttl, renewal, rfl⟩ := unlapsed.ahead queryID deadline before
    refine ⟨?_, at_, ttl, renewal, rfl⟩
    rcases move.now_cases with ⟨_, rfl, later⟩ | still
    · rw [later]
      exact inTime.2 queryID (AList.mem_keys.mp (AList.lookup_isSome.mp (by simp [before])))
        _ renewal
    · rw [still]
      exact ahead

theorem unlapsed_of_reaches {env : Env} {now : Time} {s : Beating}
    (run : Runs.Reaches (step env) BeatsInTime (initial now) s) : Unlapsed s :=
  run.invariant Unlapsed ⟨Shape.initial now, by simp [Bare, initial, Deployment.initial,
    MetaStore.empty], by simp [initial, Deployment.initial, MetaStore.empty]⟩
    fun _ _ _ unlapsed inTime taken => unlapsed.step inTime taken

end Beating

namespace Deployment

/-- A reader finds no deadline in a terminal record, in any run in which no beat renews the
lease of a query whose record is terminal, and no deadline of the past, in any run in
which each lease is renewed or dropped within its TTL. -/
theorem lease_deadline_of_read (env : Env) (queryID : String) (record : QueryRecord) :
    (∀ d, Reachable env RenewsUnfinished d → d.store.getQuery queryID = some record →
      record.state.isTerminal = true → record.leaseDeadline = 0) ∧
    ∀ now s, Runs.Reaches (Beating.step env) Beating.BeatsInTime (.initial now) s →
      s.base.store.getQuery queryID = some record → record.leaseDeadline ≠ 0 →
        s.base.now < record.leaseDeadline := by
  constructor
  · intro d reached read terminal
    obtain ⟨⟨stored, lookup, same⟩, deadline⟩ := reached.bare.deadline read
    rcases deadline with zero | lease
    · exact zero
    · rw [reached.unleased queryID stored lookup (same ▸ terminal)] at lease
      contradiction
  · intro now s run read nonzero
    have unlapsed := Beating.unlapsed_of_reaches run
    obtain ⟨-, deadline⟩ := unlapsed.bare.deadline read
    exact (unlapsed.ahead queryID _ (deadline.resolve_left nonzero)).1

instance (d : Deployment) (action : Action) : Decidable (RenewsUnfinished d action) :=
  inferInstanceAs (Decidable (∀ beat ∈ d.renewing? action, ∀ queryID ∈ beat.2,
    ∀ record ∈ d.store.queries.lookup queryID, record.state.isTerminal = false))

def leasedQuery : List Action :=
  startInstance 1 "a" ++
    .submit 1 none "q" "db" "SELECT 1" {} :: List.replicate 6 (.submission "q" .ok) ++
    [.execution "q" .go, .execution "q" (.persist .ok false)]

def snapshotTaken : List Action :=
  [.heart 1 .begin, .tick 2500000000, .heart 1 .tick]

/-- The beat comes before the query ends: the deadline read lies ahead, and is gone with
the terminal write. -/
theorem prompt_beat_keeps_deadlines :
    (∃ s record, Runs.Reaches (Beating.step sampleEnv) Beating.BeatsInTime (.initial 1) s ∧
      s.base.store.getQuery "q" = some record ∧ record.leaseDeadline ≠ 0 ∧
      s.base.now < record.leaseDeadline) ∧
    ∃ d record, Reachable sampleEnv RenewsUnfinished d ∧ d.store.getQuery "q" = some record ∧
      record.state = .succeeded ∧ record.leaseDeadline = 0 := by
  constructor
  · obtain ⟨s, run, record, read, nonzero⟩ :
        ∃ s, Runs.Reaches (Beating.step sampleEnv) Beating.BeatsInTime (.initial 1) s ∧
          ∃ record ∈ s.base.store.getQuery "q", record.leaseDeadline ≠ 0 :=
      Runs.exists_reaches (leasedQuery ++ snapshotTaken ++ [.heart 1 (.write .ok)])
        (by decide +kernel)
    exact ⟨s, record, run, read, nonzero,
      (lease_deadline_of_read sampleEnv "q" record).2 1 s run read nonzero⟩
  · obtain ⟨d, reached, record, read, succeeded⟩ : ∃ d, Reachable sampleEnv RenewsUnfinished d ∧
        ∃ record ∈ d.store.getQuery "q", record.state = .succeeded :=
      exists_reachable (leasedQuery ++ snapshotTaken ++ [.heart 1 (.write .ok)] ++ finishQuery)
        (by decide +kernel)
    exact ⟨d, record, reached, read, succeeded,
      (lease_deadline_of_read sampleEnv "q" record).1 d reached read (by rw [succeeded]; rfl)⟩

/-- The beat that was prepared before the query ended puts the lease back, and a lease
that ran out stays in the table. -/
theorem late_beat_revives_lease :
    (∃ d record, Reachable sampleEnv Runs.Always d ∧ d.store.getQuery "q" = some record ∧
      record.state.isTerminal = true ∧ record.leaseDeadline ≠ 0) ∧
    ∃ d record, Reachable sampleEnv Runs.Always d ∧ d.store.getQuery "q" = some record ∧
      record.leaseDeadline ≠ 0 ∧ record.leaseDeadline < d.now := by
  constructor
  · obtain ⟨d, reached, record, facts⟩ : ∃ d, Reachable sampleEnv Runs.Always d ∧
        ∃ record ∈ d.store.getQuery "q", record.state.isTerminal = true ∧
          record.leaseDeadline ≠ 0 :=
      exists_reachable (leasedQuery ++ snapshotTaken ++ finishQuery ++ [.heart 1 (.write .ok)])
        (by decide +kernel)
    exact ⟨d, record, reached, facts⟩
  · obtain ⟨d, reached, record, facts⟩ : ∃ d, Reachable sampleEnv Runs.Always d ∧
        ∃ record ∈ d.store.getQuery "q", record.leaseDeadline ≠ 0 ∧
          record.leaseDeadline < d.now :=
      exists_reachable (leasedQuery ++ [.tick 6000000000]) (by decide +kernel)
    exact ⟨d, record, reached, facts⟩

end Deployment

end DbBridge.Cluster
