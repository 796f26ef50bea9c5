import DbBridge.Domain.Models
import DbBridge.Lib.Tables

/-!
# The MetaStore

The operations of `MemoryMetaStore`, each one atomic: the source takes the store's
mutex for the whole call. A map is an association list with distinct keys.

`journal` is a history variable. It lists, newest first, the states in which a
query's record has been stored, across deletions, and no operation reads it.
-/

namespace DbBridge.State

open Domain

abbrev Table (β : Type) := AList (fun _ : String => β)

/-- The two implementations differ, among the atomic operations, in what
`UpdateQuery` does with a record that is not there. -/
inductive Backend where
  | memory
  | redis
  deriving DecidableEq, Repr

/-- The last three fields hold of every store the operations can build: a record is
filed under its own ID, the newest entry of its journal is the state it is stored
in, and a key has an expiry exactly when it has an owner. -/
structure MetaStore where
  queries : Table QueryRecord
  idempotency : Table String
  idempExpires : Table Time
  leases : Table Time
  locks : Table Time
  journal : String → List QueryState
  keyed : ∀ id record, queries.lookup id = some record → record.id = id
  logged : ∀ id record, queries.lookup id = some record →
    (journal id).head? = some record.state
  paired : ∀ key, (idempotency.lookup key).isSome = (idempExpires.lookup key).isSome

namespace MetaStore

def empty : MetaStore where
  queries := ∅
  idempotency := ∅
  idempExpires := ∅
  leases := ∅
  locks := ∅
  journal := fun _ => []
  keyed := by simp
  logged := by simp
  paired := by simp

theorem insert_keyed (queries : Table QueryRecord) (record : QueryRecord)
    (keyed : ∀ id stored, queries.lookup id = some stored → stored.id = id) :
    ∀ id stored, (queries.insert record.id record).lookup id = some stored → stored.id = id := by
  intro id stored found
  rcases Tables.insert_cases found with ⟨rfl, rfl⟩ | ⟨_, found⟩
  · rfl
  · exact keyed id stored found

variable (m : MetaStore)

theorem insert_logged (record : QueryRecord) :
    ∀ id stored,
      (m.queries.insert record.id { record with leaseDeadline := 0 }).lookup id =
        some stored →
      (Function.update m.journal record.id (record.state :: m.journal record.id) id).head? =
        some stored.state := by
  intro id stored found
  rcases Tables.insert_cases found with ⟨rfl, rfl⟩ | ⟨same, found⟩
  · simp
  · rw [Function.update_of_ne same]
    exact m.logged id stored found

/-- `store`: the write under the lock. The lease deadline is never persisted and
a terminal record gives up its lease. -/
def store (m : MetaStore) (record : QueryRecord) : MetaStore :=
  { m with
    queries := m.queries.insert record.id { record with leaseDeadline := 0 }
    leases := if record.state.isTerminal then m.leases.erase record.id else m.leases
    journal := Function.update m.journal record.id
      (record.state :: m.journal record.id)
    keyed := insert_keyed m.queries { record with leaseDeadline := 0 } m.keyed
    logged := m.insert_logged record }

def putQuery (m : MetaStore) (record : QueryRecord) : MetaStore := m.store record

def getQuery (m : MetaStore) (id : String) : Option QueryRecord :=
  match m.queries.lookup id with
  | none => none
  | some record =>
    match m.leases.lookup id with
    | some expiry => some { record with leaseDeadline := expiry }
    | none => some record

/-- `UpdateQuery`; `none` is `ErrNotFound`. On Redis it is a plain `PutQuery`. -/
def updateQuery (backend : Backend) (m : MetaStore) (record : QueryRecord) :
    Option MetaStore :=
  match backend with
  | .redis => some (m.putQuery record)
  | .memory =>
    match m.queries.lookup record.id with
    | none => none
    | some _ => some (m.store record)

/-- `UpdateQueryIfState`; `none` is `ErrNotFound`, the flag says whether the
write happened. -/
def updateQueryIfState (m : MetaStore) (record : QueryRecord)
    (expected : List QueryState) : Option (Bool × MetaStore) :=
  match m.queries.lookup record.id with
  | none => none
  | some current =>
    if current.state ∈ expected then some (true, m.store record) else some (false, m)

def deleteQuery (m : MetaStore) (id : String) : MetaStore :=
  { m with
    queries := m.queries.erase id
    leases := m.leases.erase id
    keyed := fun other record found =>
      m.keyed other record (Tables.lookup_of_erase found)
    logged := fun other record found =>
      m.logged other record (Tables.lookup_of_erase found) }

/-! ## Idempotency keys -/

def fullKey (dbID key : String) : String := dbID ++ ":" ++ key

theorem claim_paired (key queryID : String) (expiry : Time) :
    ∀ other, ((m.idempotency.insert key queryID).lookup other).isSome =
      ((m.idempExpires.insert key expiry).lookup other).isSome := by
  intro other
  by_cases same : other = key
  · subst same
    simp
  · rw [AList.lookup_insert_ne same, AList.lookup_insert_ne same]
    exact m.paired other

def claim (m : MetaStore) (key queryID : String) (expiry : Time) : MetaStore :=
  { m with
    idempotency := m.idempotency.insert key queryID
    idempExpires := m.idempExpires.insert key expiry
    paired := m.claim_paired key queryID expiry }

/-- The query a key is held by: present and not past its expiry. -/
def holder (m : MetaStore) (now : Time) (key : String) : Option String :=
  match m.idempExpires.lookup key with
  | none => none
  | some expiry => if now < expiry then m.idempotency.lookup key else none

/-- `AcquireIdempotency`: the query ID the key now points at, and whether this
call acquired it. -/
def acquireIdempotency (m : MetaStore) (now : Time) (dbID key queryID : String)
    (ttl : Duration) : (String × Bool) × MetaStore :=
  match m.holder now (fullKey dbID key) with
  | some existing => ((existing, false), m)
  | none => ((queryID, true), m.claim (fullKey dbID key) queryID (now + ttl))

theorem free_paired (key : String) :
    ∀ other, ((m.idempotency.erase key).lookup other).isSome =
      ((m.idempExpires.erase key).lookup other).isSome := by
  intro other
  by_cases same : other = key
  · subst same
    simp
  · rw [AList.lookup_erase_ne same, AList.lookup_erase_ne same]
    exact m.paired other

def releaseIdempotency (m : MetaStore) (dbID key queryID : String) : MetaStore :=
  if m.idempotency.lookup (fullKey dbID key) = some queryID then
    { m with
      idempotency := m.idempotency.erase (fullKey dbID key)
      idempExpires := m.idempExpires.erase (fullKey dbID key)
      paired := m.free_paired (fullKey dbID key) }
  else m

theorem refresh_paired (key queryID : String) (expiry : Time)
    (owned : m.idempotency.lookup key = some queryID) :
    ∀ other, (m.idempotency.lookup other).isSome =
      ((m.idempExpires.insert key expiry).lookup other).isSome := by
  intro other
  by_cases same : other = key
  · subst same
    simp [owned]
  · rw [AList.lookup_insert_ne same]
    exact m.paired other

def refreshIdempotency (m : MetaStore) (now : Time) (dbID key queryID : String)
    (ttl : Duration) : MetaStore :=
  if ttl ≤ 0 then m
  else if owned : m.idempotency.lookup (fullKey dbID key) = some queryID then
    { m with
      idempExpires := m.idempExpires.insert (fullKey dbID key) (now + ttl)
      paired := m.refresh_paired (fullKey dbID key) queryID (now + ttl) owned }
  else m

/-! ## Leases, locks and listings -/

def heartbeat (m : MetaStore) (now : Time) (ownedQueryIDs : List String)
    (ttl : Duration) : MetaStore :=
  { m with
    leases := ownedQueryIDs.foldl (fun leases id => leases.insert id (now + ttl)) m.leases }

def tryLock (m : MetaStore) (now : Time) (name : String) (ttl : Duration) :
    Bool × MetaStore :=
  match m.locks.lookup name with
  | some expiry =>
    if now < expiry then (false, m)
    else (true, { m with locks := m.locks.insert name (now + ttl) })
  | none => (true, { m with locks := m.locks.insert name (now + ttl) })

def records (m : MetaStore) : List QueryRecord := m.queries.entries.map Sigma.snd

def inFlight (instanceID : String) (record : QueryRecord) : Bool :=
  record.ownerInstanceID = instanceID &&
    (record.state = .pending || record.state = .running)

def countInFlight (m : MetaStore) (instanceID : String) : Nat :=
  (m.records.filter (inFlight instanceID)).length

def listByInstance (m : MetaStore) (instanceID : String) : List String :=
  (m.records.filter fun record =>
    record.ownerInstanceID = instanceID && !record.state.isTerminal).map QueryRecord.id

def isExpired (now : Time) (record : QueryRecord) : Bool :=
  record.state.isTerminal && record.finishedAt ≠ 0 && record.retentionEnd < now

def listExpiredQueries (m : MetaStore) (now : Time) : List String :=
  (m.records.filter (isExpired now)).map QueryRecord.id

/-- The test of `ListStaleQueries` on one record: no lease, or one that ran out. -/
def isStale (m : MetaStore) (now : Time) (record : QueryRecord) : Bool :=
  (record.state = .pending || record.state = .running) &&
    match m.leases.lookup record.id with
    | none => true
    | some expiry => expiry < now

def listStaleQueries (m : MetaStore) (now : Time) : List String :=
  (m.records.filter (m.isStale now)).map QueryRecord.id

end MetaStore

end DbBridge.State
