import DbBridge.Cluster.Invariant

/-!
# What a step does to the store

A step of a deployment leaves records and leases alone, renews leases, writes one
record or deletes one. `Stores` names the writers with the line each of them is at
and the state it writes.
-/

namespace DbBridge.Cluster

open Domain State

namespace Deployment

variable {d : Deployment} {queryID : String} {record : QueryRecord} {action : Action} {env : Env}
  {after : Deployment}

/-! ## Who writes a record -/

/-- The writes of query records, with the program point that makes each and the state
it stores. -/
inductive Stores (d : Deployment) : Action → QueryRecord → Prop
  | admitted (reply : Reply) (s : Submission) (record : QueryRecord)
      (sub : d.subs record.id = some s) (phase : s.phase = .put record)
      (applied : reply ≠ .failed) (pending : record.state = .pending) :
      Stores d (.submission record.id reply) record
  | begun (reply : Reply) (giveUp : Bool) (run : Run) (attempt : Nat)
      (executed : d.runs run.record.id = some run)
      (phase : run.phase = .persistRunning attempt) (applied : reply ≠ .failed)
      (running : run.record.state = .running) :
      Stores d (.execution run.record.id (.persist reply giveUp)) run.record
  | progressed (reply : Reply) (run : Run) (snapshot current : QueryRecord)
      (executed : d.runs snapshot.id = some run)
      (writing : run.phase.writing? = some snapshot)
      (lookup : d.store.queries.lookup snapshot.id = some current)
      (unfinished : current.state = .running) (running : snapshot.state = .running) :
      Stores d (.execution snapshot.id (.progress reply)) snapshot
  | ended (reply : Reply) (giveUp : Bool) (run : Run) (attempt : Nat)
      (executed : d.runs run.record.id = some run)
      (phase : run.phase = .persistTerminal attempt) (applied : reply ≠ .failed)
      (verdict : isVerdict run.record.state) :
      Stores d (.execution run.record.id (.persist reply giveUp)) run.record
  | reaped (pid : Nat) (reply : Reply) (p : Process) (pass : ReapPass)
      (failed current : QueryRecord) (ids : List String) (found : d.procs pid = some p)
      (phase : p.reaper = .write pass failed ids)
      (lookup : d.store.queries.lookup failed.id = some current)
      (unfinished : current.state ∈ ownerLostExpected) (verdict : failed.state = .failed) :
      Stores d (.reaper pid (.written reply)) failed
  | marked (pid : Nat) (reply : Reply) (p : Process) (record : QueryRecord)
      (ids : List String) (found : d.procs pid = some p) (phase : p.gc = .mark record ids)
      (expired : record.state = .expired) : Stores d (.gc pid (.mark reply)) record

theorem Stores.submission_id {reply : Reply} (stores : Stores d (.submission queryID reply) record) :
    record.id = queryID := by
  cases stores
  rfl

theorem Stores.execution_id {choice : RunChoice}
    (stores : Stores d (.execution queryID choice) record) : record.id = queryID := by
  cases stores <;> rfl

def putting? (d : Deployment) : Action → Option (Nat × QueryRecord)
  | .submission queryID _ => do
      let s ← d.subs queryID
      match s.phase with
      | .put record => some (s.pid, record)
      | _ => none
  | .execution queryID (.persist _ _) => (d.runs queryID).map fun run => (run.pid, run.record)
  | .execution queryID (.progress _) => do
      let run ← d.runs queryID
      let snapshot ← run.phase.writing?
      some (run.pid, snapshot)
  | _ => none

theorem Stores.putting (stores : Stores d action record)
    (unfinished : record.state.isTerminal = false) :
    ∃ author, d.putting? action = some (author, record) := by
  cases stores with
  | admitted _ s _ sub phase => exact ⟨s.pid, by simp [putting?, sub, phase]⟩
  | begun _ _ run _ executed => exact ⟨run.pid, by simp [putting?, executed]⟩
  | progressed _ run _ _ executed writing =>
    exact ⟨run.pid, by simp [putting?, executed, writing]⟩
  | ended _ _ _ _ _ _ _ verdict =>
    rcases verdict with state | state | state <;> rw [state] at unfinished <;> contradiction
  | reaped _ _ _ _ _ _ _ _ _ _ _ state | marked _ _ _ _ _ _ _ state =>
    rw [state] at unfinished
    contradiction

def Drops (d : Deployment) (action : Action) (queryID : String) : Prop :=
  ∃ pid choice p ids, action = .gc pid choice ∧ d.procs pid = some p ∧ p.gc = .drop queryID ids

/-- A step of process `pid` renews the leases of `queryIDs`: the `Heartbeat` of a
submission, or the one of the heartbeat worker. -/
inductive Renews (d : Deployment) : Action → Nat → List String → Prop
  | claimed (queryID : String) (reply : Reply) (s : Submission) (record : QueryRecord)
      (sub : d.subs queryID = some s) (own : s.queryID = queryID)
      (phase : s.phase = .lease record) (applied : reply ≠ .failed) :
      Renews d (.submission queryID reply) s.pid [queryID]
  | beat (pid : Nat) (reply : Reply) (p : Process) (nextTick : Time) (queryIDs : List String)
      (found : d.procs pid = some p) (phase : p.heart = .beat nextTick queryIDs)
      (applied : reply ≠ .failed) : Renews d (.heart pid (.write reply)) pid queryIDs

section
variable (shape : Shape d) (move : Move env d action after)
include shape move

theorem Move.effects : Untouched d.store after.store ∨
      (∃ pid p queryIDs, Renews d action pid queryIDs ∧ d.procs pid = some p ∧
        after.store = d.store.heartbeat d.now queryIDs p.heartbeatTTL) ∨
      (∃ record, Stores d action record ∧ after.store = d.store.store record) ∨
      ∃ queryID, Drops d action queryID ∧ after.store = d.store.deleteQuery queryID := by
  cases move with
  | submission id reply s p _ sub found _ taken =>
    obtain ⟨own, _, _, sound⟩ := shape.sub id s sub
    rw [applySubmit_store]
    rcases submitStep_effects taken with
      same | ⟨record, phase, applied, renewed⟩ | ⟨record, phase, applied, written⟩
    · exact .inl same
    · rw [own] at renewed
      exact .inr (.inl ⟨s.pid, p, [id], .claimed id reply s record sub own phase applied, found,
        renewed⟩)
    · have carried : s.phase.record? = some record := by simp [phase, SubmitPhase.record?]
      obtain ⟨same, pending, _⟩ := sound.record carried
      obtain rfl : record.id = id := same.trans own
      exact .inr (.inr (.inl ⟨record, .admitted reply s record sub phase applied pending,
        written⟩))
  | execution id _ run _ _ executed _ _ taken =>
    obtain ⟨⟨rfl, state⟩, _⟩ := shape.run id run executed
    rcases runStep_records taken with
      same | ⟨attempt, reply, giveUp, phase, rfl, applied, written⟩ |
        ⟨reply, snapshot, current, rfl, writing, lookup, unfinished, written⟩
    · exact .inl same
    · refine .inr (.inr (.inl ⟨run.record, ?_, written⟩))
      rcases phase with phase | phase <;> rw [phase] at state
      · exact .begun reply giveUp run attempt executed phase applied state
      · exact .ended reply giveUp run attempt executed phase applied state
    · obtain ⟨own, running⟩ := state.writing writing
      rw [← own] at executed ⊢
      exact .inr (.inr (.inl ⟨snapshot, .progressed reply run snapshot current executed
        writing lookup unfinished running, written⟩))
  | reaper pid _ p _ _ found _ taken =>
    rcases reaperStep_records taken with
      same | ⟨pass, failed, ids, reply, current, phase, rfl, lookup, unfinished, written⟩
    · exact .inl same
    · have sound := (shape.workers pid p found).1
      rw [phase] at sound
      exact .inr (.inr (.inl ⟨failed, .reaped pid reply p pass failed current ids found
        phase lookup unfinished sound, written⟩))
  | gc pid choice p _ found _ taken =>
    rcases gcStep_records taken with
      same | ⟨record, ids, reply, phase, rfl, written⟩ | ⟨id, ids, phase, deleted⟩
    · exact .inl same
    · have sound := (shape.workers pid p found).2
      rw [phase] at sound
      exact .inr (.inr (.inl ⟨record, .marked pid reply p record ids found phase sound,
        written⟩))
    · exact .inr (.inr (.inr ⟨id, ⟨pid, choice, p, ids, rfl, found, phase⟩, deleted⟩))
  | heart pid _ p _ _ found _ taken =>
    rcases heartStep_effects taken with same | ⟨nextTick, ids, reply, phase, rfl, applied, renewed⟩
    · exact .inl same
    · exact .inr (.inl ⟨pid, p, ids, .beat pid reply p nextTick ids found phase applied, found,
        renewed⟩)
  | tick | started | rejected | submitted | countBegin | countLocal | countRemote
  | operated => exact .inl (Untouched.refl _)

theorem Move.records : SameRecords d.store after.store ∨
      (∃ record, Stores d action record ∧ after.store = d.store.store record) ∨
      ∃ queryID, Drops d action queryID ∧ after.store = d.store.deleteQuery queryID := by
  rcases move.effects shape with same | ⟨_, _, _, _, _, renewed⟩ | changed
  · exact .inl same.toSameRecords
  · left
    rw [renewed]
    exact d.store.heartbeat_sameRecords _ _ _
  · exact .inr changed

theorem Move.record_origin (lookup : after.store.queries.lookup queryID = some record) :
    d.store.queries.lookup queryID = some record ∨
      ∃ written, Stores d action written ∧ written.id = queryID ∧
        after.store = d.store.store written ∧ record = { written with leaseDeadline := 0 } := by
  rcases move.records shape with same | ⟨written, stores, stored⟩ | ⟨_, _, deleted⟩
  · exact .inl (same.queries ▸ lookup)
  · rw [stored] at lookup
    rcases MetaStore.store_cases lookup with ⟨rfl, rfl⟩ | ⟨_, lookup⟩
    · exact .inr ⟨written, stores, rfl, stored, rfl⟩
    · exact .inl lookup
  · rw [deleted] at lookup
    exact .inl (Tables.lookup_of_erase lookup)

theorem Move.journal (queryID : String) : after.store.journal queryID = d.store.journal queryID ∨
      ∃ record, record.id = queryID ∧ Stores d action record ∧
        after.store = d.store.store record ∧
        after.store.journal queryID = record.state :: d.store.journal queryID := by
  rcases move.records shape with same | ⟨record, stores, written⟩ | ⟨id, _, deleted⟩
  · exact .inl (congrFun same.journal queryID)
  · rw [written]
    by_cases same : queryID = record.id
    · subst same
      exact .inr ⟨record, rfl, stores, rfl, d.store.store_journal_self record⟩
    · exact .inl (d.store.store_journal_of_ne record same)
  · rw [deleted]
    exact .inl (congrFun (d.store.deleteQuery_journal id) queryID)

theorem Move.has_origin (stored : after.store.has queryID = true) :
    d.store.has queryID = true ∨ (d.runs queryID).isSome = true ∨
      (∃ reply s record, action = .submission queryID reply ∧ d.subs queryID = some s ∧
        s.phase = .put record ∧ reply ≠ .failed) ∨
      ∃ pid p record ids, d.procs pid = some p ∧ p.gc = .mark record ids ∧ record.id = queryID := by
  rcases move.records shape with same | ⟨record, stores, written⟩ | ⟨id, _, deleted⟩
  · exact .inl (same.has queryID ▸ stored)
  · rw [written, MetaStore.store_has_iff] at stored
    rcases stored with rfl | before
    · cases stores with
      | admitted reply s _ sub phase applied =>
        exact .inr (.inr (.inl ⟨reply, s, record, rfl, sub, phase, applied⟩))
      | begun _ _ _ _ executed | ended _ _ _ _ executed =>
        exact .inr (.inl (by rw [executed]; rfl))
      | progressed _ _ _ _ _ _ lookup | reaped _ _ _ _ _ _ _ _ _ lookup =>
        exact .inl (by simp [MetaStore.has, lookup])
      | marked pid _ p _ ids found phase =>
        exact .inr (.inr (.inr ⟨pid, p, record, ids, found, phase, rfl⟩))
    · exact .inl before
  · rw [deleted] at stored
    exact .inl (d.store.has_of_deleteQuery_has stored)

theorem Move.has_kept (stored : d.store.has queryID = true) (kept : ¬ Drops d action queryID) :
    after.store.has queryID = true := by
  rcases move.records shape with same | ⟨_, _, written⟩ | ⟨id, drops, deleted⟩
  · rwa [same.has queryID]
  · rw [written, MetaStore.store_has_iff]
    exact .inr stored
  · have ne : queryID ≠ id := by
      rintro rfl
      exact kept drops
    rwa [deleted, d.store.deleteQuery_has_of_ne ne]

end

def NoRevival (d : Deployment) (action : Action) : Prop :=
  ∀ write ∈ d.putting? action, write.2.state.isTerminal = false →
    d.store.ended write.2.id = false

instance (d : Deployment) (action : Action) : Decidable (NoRevival d action) :=
  inferInstanceAs (Decidable (∀ write ∈ d.putting? action, _ → _))

theorem Move.ended (shape : Shape d) (move : Move env d action after) (guard : NoRevival d action)
    (ended : d.store.ended queryID = true) : after.store.ended queryID = true := by
  rcases move.journal shape queryID with same | ⟨record, rfl, stores, _, grown⟩
  · rwa [MetaStore.ended, same]
  · cases terminal : record.state.isTerminal with
    | true => simp [MetaStore.ended, grown, terminal]
    | false =>
      obtain ⟨author, putting⟩ := stores.putting terminal
      rw [guard (author, record) putting terminal] at ended
      contradiction

end Deployment

end DbBridge.Cluster
