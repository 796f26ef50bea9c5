import DbBridge.Cluster.Process

/-!
# `SubmitQuery` and `resolveIdempotency`

A submission is a goroutine that passes through the points of `SubmitQuery` at
which it touches shared state. Between two points other goroutines of any
instance may act. A MetaStore call ends as its `Reply` says; a read that does not
answer `ok` has failed.
-/

namespace DbBridge.Cluster

open Domain State Authn

/-- A request is rejected for one of its fields or for its database, or it goes on with the
defaults filled in. -/
theorem admission_cases (env : Env) (p : Process) (dbID sql : String) (given : QueryOptions) :
    (∃ field reason, admission env p dbID sql given = .error (.validation field reason)) ∨
      (dbID ∉ p.pools ∧ admission env p dbID sql given = .error (.notFound "database" dbID)) ∨
      (admission env p dbID sql given = .ok (p.applyDefaults given) ∧
        (p.applyDefaults given).validate = .ok ()) := by
  by_cases known : dbID ∈ p.pools
  · cases valid : (p.applyDefaults given).validate with
    | error err =>
      left
      have field : ∃ field reason, err = .validation field reason := by
        unfold QueryOptions.validate at valid
        (repeat' split at valid) <;>
          first
          | exact ⟨_, _, (Except.error.inj valid).symm⟩
          | cases valid
      obtain ⟨field, reason, rfl⟩ := field
      exact ⟨field, reason, by simp [admission, known, valid, bind, Except.bind]⟩
    | ok =>
      simp only [admission, known, valid, bind, Except.bind, pure, Except.pure, throw, throwThe,
        MonadExceptOf.throw]
      (repeat' split) <;>
        first
        | exact .inl ⟨_, _, rfl⟩
        | exact .inr (.inr ⟨rfl, rfl⟩)
        | simp_all
  · exact .inr (.inl ⟨known, by
      simp [admission, known, bind, Except.bind, throw, throwThe, MonadExceptOf.throw]⟩)

theorem admission_eq_ok {env : Env} {p : Process} {dbID sql : String}
    {given opts : QueryOptions} (admitted : admission env p dbID sql given = .ok opts) :
    opts = p.applyDefaults given := by
  rcases admission_cases env p dbID sql given with
    ⟨_, _, rejected⟩ | ⟨_, rejected⟩ | ⟨filled, _⟩
  · rw [rejected] at admitted
    contradiction
  · rw [rejected] at admitted
    contradiction
  · rw [filled] at admitted
    exact (Except.ok.inj admitted).symm

/-- The point a submission has reached, with the variables live there. The last
four are the rollback: registry entry, slot, key, return. -/
inductive SubmitPhase where
  | acquire
  | lookup (existing : String)
  | reclaim (existing : String)
  | reacquire
  | relookup (existing : String)
  | ping
  | slot
  | admitting
  | put (record : QueryRecord)
  | lease (record : QueryRecord)
  | launch (record : QueryRecord)
  | waiting
  | dropEntry (err : SubmitError)
  | freeSlot (err : SubmitError)
  | freeKey (err : SubmitError)
  | returned (result : Except SubmitError QueryRecord)

/-- A call of `SubmitQuery` past its request checks. `opts` has the defaults
applied and `queryID` is the fresh UUID. -/
structure Submission where
  pid : Nat
  queryID : String
  dbID : String
  sql : String
  opts : QueryOptions
  caller : Option Identity
  phase : SubmitPhase

namespace Submission

def subject (s : Submission) : String := subjectFromContext s.caller

def idemKey (s : Submission) : String :=
  scopedIdempotencyKey s.subject s.opts.idempotencyKey

def storedKey (s : Submission) : String := MetaStore.fullKey s.dbID s.idemKey

def newRecord (s : Submission) (instanceID : String) (now : Time) : QueryRecord where
  id := s.queryID
  databaseID := s.dbID
  sql := s.sql
  options := s.opts
  state := .pending
  ownerInstanceID := instanceID
  createdAt := now
  idempotencyKey := s.opts.idempotencyKey
  subject := s.subject

/-- Where a submission begins: idempotency is resolved before the ping. -/
def firstPhase (opts : QueryOptions) : SubmitPhase :=
  if opts.idempotencyKey = "" then .ping else .acquire

end Submission

/-- What one step of a submission leaves behind; `launched` is the record handed
to a new `run` goroutine. -/
structure SubmitOutcome where
  store : MetaStore
  process : Process
  phase : SubmitPhase
  launched : Option QueryRecord := none

/-- `AcquireIdempotency`, at either of its two calls; `onExisting` is where a key
that is already held leads. -/
def acquireKey (now : Time) (m : MetaStore) (p : Process) (s : Submission)
    (reply : Reply) (onExisting : String → SubmitPhase) : SubmitOutcome :=
  let answer := m.acquireIdempotency now s.dbID s.idemKey s.queryID
    (idempotencySubmitTTL s.opts)
  { store := reply.apply m answer.2
    process := p
    phase :=
      if reply = .ok then
        if answer.1.2 then .ping else onExisting answer.1.1
      else .returned (.error (.internal "failed to process idempotency")) }

def lookupHolder (m : MetaStore) (s : Submission) (existing : String) : SubmitPhase :=
  match m.getQuery existing with
  | none => .reclaim existing
  | some record =>
    if authorizeSubject s.caller record.subject then .returned (.ok record)
    else .returned (.error (.notFound "query" existing))

/-- A `GetQuery` whose answer is the call's own; the source returns the store's
error as it is. -/
def readBack (m : MetaStore) (id : String) : SubmitPhase :=
  match m.getQuery id with
  | none => .returned (.error (.internal "query not found"))
  | some record => .returned (.ok record)

def unreadable : SubmitPhase := .returned (.error (.internal "failed to read query"))

def submitStep (now : Time) (m : MetaStore) (p : Process) (s : Submission)
    (reply : Reply) : Option SubmitOutcome :=
  match s.phase with
  | .acquire => some (acquireKey now m p s reply .lookup)
  | .lookup existing =>
    some ⟨m, p, if reply = .ok then lookupHolder m s existing else unreadable, none⟩
  | .reclaim existing =>
    some ⟨reply.apply m (m.releaseIdempotency s.dbID s.idemKey existing), p,
      if reply = .ok then .reacquire
      else .returned (.error (.internal "failed to reclaim idempotency key")), none⟩
  | .reacquire => some (acquireKey now m p s reply .relookup)
  -- the second read has no AuthorizeSubject
  | .relookup existing =>
    some ⟨m, p, if reply = .ok then readBack m existing else unreadable, none⟩
  | .ping =>
    some ⟨m, p, if reply = .ok then .slot
      else .freeKey (.unavailable ("database " ++ s.dbID)), none⟩
  | .slot =>
    match p.slots.acquire with
    | some slots => some ⟨m, { p with slots := slots }, .admitting, none⟩
    | none => some ⟨m, p, .freeKey
        (.resourceExhausted "too many concurrent queries on this instance"), none⟩
  | .admitting =>
    match p.registry.admitQuery s.queryID s.dbID with
    | .ok registry =>
      some ⟨m, { p with registry := registry },
        .put (s.newRecord p.instanceID now), none⟩
    | .error err => some ⟨m, p, .freeSlot err, none⟩
  | .put record =>
    some ⟨reply.apply m (m.putQuery record), p,
      if reply = .ok then .lease record
      else .dropEntry (.internal "failed to persist query state"), none⟩
  -- a lease that could not be claimed is only logged
  | .lease record =>
    some ⟨reply.apply m (m.heartbeat now [s.queryID] p.heartbeatTTL), p,
      .launch record, none⟩
  | .launch record =>
    some ⟨m, p, if s.opts.mode = "sync" then .waiting else .returned (.ok record),
      some record⟩
  -- the wait for the terminal event may end at any time: Watch can fail
  | .waiting => some ⟨m, p, if reply = .ok then readBack m s.queryID else unreadable, none⟩
  | .dropEntry err =>
    some ⟨m, { p with registry := p.registry.deregister s.queryID }, .freeSlot err, none⟩
  | .freeSlot err => some ⟨m, { p with slots := p.slots.release }, .freeKey err, none⟩
  | .freeKey err =>
    some ⟨if s.opts.idempotencyKey = "" then m
      else reply.apply m (m.releaseIdempotency s.dbID s.idemKey s.queryID), p,
      .returned (.error err), none⟩
  | .returned _ => none

end DbBridge.Cluster
