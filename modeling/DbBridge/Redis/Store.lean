import DbBridge.Lib.Keyspace
import DbBridge.State.RedisKeys

/-!
# The Redis MetaStore

The operations of `RedisMetaStore` as programs of a client. A pipeline sends its
commands one by one and Redis may execute those of other clients in between; a
transaction is executed as a whole. A record is stored as JSON, which is taken to be
lossless; `LeaseDeadline` is not part of it.
-/

namespace DbBridge.State.Redis

open Domain Keyspace

inductive Data where
  | record (record : QueryRecord)
  | text (text : String)
  deriving DecidableEq

abbrev Client (ρ : Type) := Program Data ρ

/-- `ErrNotFound`, or an error with the context it is wrapped in. -/
inductive StoreError where
  | notFound
  | failed (context : String)
  deriving DecidableEq, Repr

/-! ## Durations

go-redis sends a duration in seconds or in milliseconds and cuts off what is below a
millisecond, but never sends a zero for a positive one. -/

def wholeMilliseconds (d : Duration) : Duration :=
  if d < millisecond then millisecond else d - d % millisecond

/-- The expiry of `client.Set`: `KeepTTL` is `-1`, and any other value that is not
positive asks for none. -/
def setExpire (expiration : Duration) : Expire :=
  if expiration > 0 then .after (wholeMilliseconds expiration)
  else if expiration = -1 then .keep
  else .never

/-- The expiry of `client.SetNX`; `none` is the error of Redis for a negative one. -/
def setNXExpire (expiration : Duration) : Option (Option Int) :=
  if expiration > 0 then some (some (wholeMilliseconds expiration))
  else if expiration = 0 ∨ expiration = -1 then some none
  else none

/-- `TTL` answers whole seconds, rounded. -/
def leaseSeconds (left : Duration) : Duration := ((left / millisecond + 500) / 1000) * second

/-! ## Records -/

def expiration (record : QueryRecord) : Duration := wrap64 (record.retention + 24 * hour)

def writeQuery (record : QueryRecord) : List (Write Data) :=
  .set (queryKey record.id) (.record { record with leaseDeadline := 0 })
      (setExpire (expiration record)) ::
    (if record.databaseID ≠ "" then [.sAdd databasesSeenKey record.databaseID] else []) ++
    if record.state.isTerminal then
      [.sRem (instanceQueriesKey record.ownerInstanceID) record.id, .del (leaseKey record.id)]
    else [.sAdd (instanceQueriesKey record.ownerInstanceID) record.id]

/-- A pipeline that fails in this context; `failed` says whether it already has. -/
def piped (context : String) (writes : List (Write Data)) (failed : Bool := false) :
    Client (Except StoreError Unit) :=
  .pipeline writes failed fun failed =>
    .done (if failed then .error (.failed context) else .ok ())

def putQuery (record : QueryRecord) : Client (Except StoreError Unit) :=
  piped "failed to put query in redis" (writeQuery record)

/-- `LeaseDeadline` from the time that the lease has left. -/
def withLease (now : Time) (record : QueryRecord) : Option (Option Duration) → QueryRecord
  | some (some left) =>
    if leaseSeconds left > 0 then { record with leaseDeadline := now + leaseSeconds left }
    else record
  | _ => record

def readQuery (now : Time) (get : Except WrongType (Option Data))
    (lease : Option (Option Duration)) : Except StoreError QueryRecord :=
  match get with
  | .error _ => .error (.failed "failed to get query from redis")
  | .ok none => .error .notFound
  | .ok (some (.text _)) => .error (.failed "failed to unmarshal query")
  | .ok (some (.record record)) => .ok (withLease now record lease)

def getQuery (now : Time) (id : String) : Client (Except StoreError QueryRecord) :=
  .read (.get (queryKey id)) fun get =>
    .read (.ttl (leaseKey id)) fun lease => .done (readQuery now get lease)

def updateQuery (record : QueryRecord) : Client (Except StoreError Unit) := putQuery record

/-- A transaction that was aborted is reported as not written. -/
def committed : Option Bool → Except StoreError Bool
  | none => .ok false
  | some true => .error (.failed "conditional query update failed")
  | some false => .ok true

def commit (record : QueryRecord) (seen : Token) : Client (Except StoreError Bool) :=
  .call (.exec (queryKey record.id) seen (writeQuery record)) fun answer =>
    .done (committed answer)

def commitIfState (record : QueryRecord) (expected : List QueryState) (seen : Token)
    (get : Except WrongType (Option Data)) : Client (Except StoreError Bool) :=
  match get with
  | .error _ | .ok (some (.text _)) =>
    .done (.error (.failed "conditional query update failed"))
  | .ok none => .done (.error .notFound)
  | .ok (some (.record current)) =>
    if current.state ∉ expected then .done (.ok false) else commit record seen

def updateQueryIfState (record : QueryRecord) (expected : List QueryState) :
    Client (Except StoreError Bool) :=
  .call (.watch (queryKey record.id)) fun seen =>
    .read (.get (queryKey record.id)) (commitIfState record expected seen)

/-- The commands of `DeleteQuery` after it has read the record, if it has. -/
def deletion (id : String) (read : Except StoreError QueryRecord) : List (Write Data) :=
  [.del (queryKey id), .del (leaseKey id)] ++
    match read with
    | .ok record => [.sRem (instanceQueriesKey record.ownerInstanceID) id]
    | .error _ => []

def deleteQuery (now : Time) (id : String) : Client (Except StoreError Unit) :=
  (getQuery now id).bind fun read => piped "redis delete query failed" (deletion id read)

/-! ## Idempotency keys -/

def acquireIdempotency (dbID key queryID : String) (ttl : Duration) :
    Client (Except StoreError (String × Bool)) :=
  match setNXExpire ttl with
  | none => .done (.error (.failed "redis setnx failed"))
  | some expire =>
    .call (.setNX (idempotencyKey dbID key) (.text queryID) expire) fun set =>
      if set then .done (.ok (queryID, true))
      else .read (.get (idempotencyKey dbID key)) fun get =>
        .done (match get with
          | .ok (some (.text value)) => .ok (value, false)
          | _ => .error (.failed "redis get existing idempotency failed"))

def releaseIdempotency (dbID key queryID : String) : Client (Except StoreError Unit) :=
  .call (.delIfEqual (idempotencyKey dbID key) (.text queryID)) fun failed =>
    .done (if failed then .error (.failed "redis release idempotency failed") else .ok ())

/-- The script is handed `ttl.Milliseconds()`. -/
def refreshIdempotency (dbID key queryID : String) (ttl : Duration) :
    Client (Except StoreError Unit) :=
  if ttl ≤ 0 then .done (.ok ())
  else .call (.expireIfEqual (idempotencyKey dbID key) (.text queryID)
      (ttl - ttl % millisecond)) fun failed =>
    .done (if failed then .error (.failed "redis refresh idempotency failed") else .ok ())

/-! ## Leases, locks and listings -/

def heartbeatWrites (instanceID : String) (ownedQueryIDs : List String) (ttl : Duration) :
    List (Write Data) :=
  .set (instanceKey instanceID) (.text "alive") (setExpire ttl) ::
    ownedQueryIDs.map fun id => .set (leaseKey id) (.text instanceID) (setExpire ttl)

def heartbeat (instanceID : String) (ownedQueryIDs : List String) (ttl : Duration) :
    Client (Except StoreError Unit) :=
  piped "redis heartbeat failed" (heartbeatWrites instanceID ownedQueryIDs ttl)

def tryLock (name : String) (ttl : Duration) : Client (Except StoreError Bool) :=
  match setNXExpire ttl with
  | none => .done (.error (.failed "redis try lock failed"))
  | some expire => .call (.setNX (lockKey name) (.text "held") expire) fun set => .done (.ok set)

def countInFlight (instanceID : String) : Client (Except StoreError Nat) :=
  .read (.sCard (instanceQueriesKey instanceID)) fun card =>
    .done (card.mapError fun _ => .failed "failed to get active query count from redis")

/-- The members of the set; Redis lists them in no particular order. -/
def listByInstance (instanceID : String) : Client (Except StoreError (Finset String)) :=
  .read (.sMembers (instanceQueriesKey instanceID)) fun members =>
    .done (members.mapError fun _ => .failed "failed to list queries by instance from redis")

/-- `scanQueries`: the IDs of the records, found under these keys, that `visit` keeps. A
key that cannot be read as a record is passed by. -/
def scanQueries {ρ : Type} (visit : QueryRecord → (Bool → Client ρ) → Client ρ)
    (next : List String → Client ρ) : List String → List String → Client ρ
  | [], kept => next kept
  | key :: rest, kept =>
    .read (.get key) fun get =>
      match get with
      | .ok (some (.record record)) => visit record fun keep =>
        scanQueries visit next rest (if keep then record.id :: kept else kept)
      | _ => scanQueries visit next rest kept

def scanned {ρ : Type} (visit : QueryRecord → (Bool → Client ρ) → Client ρ)
    (next : List String → Client ρ) : Client ρ :=
  .read (.scan "dbbridge:query:") fun keys => scanQueries visit next keys []

def visitExpired {ρ : Type} (now : Time) (record : QueryRecord) (keep : Bool → Client ρ) :
    Client ρ :=
  keep (MetaStore.isExpired now record)

def listExpiredQueries (now : Time) : Client (List String) := scanned (visitExpired now) .done

def visitStale {ρ : Type} (record : QueryRecord) (keep : Bool → Client ρ) : Client ρ :=
  if record.state = .pending ∨ record.state = .running then
    .read (.hasKey (leaseKey record.id)) fun present => keep (!present)
  else keep false

def listStaleQueries : Client (List String) := scanned visitStale .done

/-! ## Calls -/

inductive Call where
  | putQuery (record : QueryRecord)
  | getQuery (id : String)
  | updateQuery (record : QueryRecord)
  | updateQueryIfState (record : QueryRecord) (expected : List QueryState)
  | deleteQuery (id : String)
  | acquireIdempotency (dbID key queryID : String) (ttl : Duration)
  | releaseIdempotency (dbID key queryID : String)
  | refreshIdempotency (dbID key queryID : String) (ttl : Duration)
  | heartbeat (instanceID : String) (ownedQueryIDs : List String) (ttl : Duration)
  | tryLock (name : String) (ttl : Duration)
  | countInFlight (instanceID : String)
  | listByInstance (instanceID : String)
  | listExpiredQueries
  | listStaleQueries
  deriving DecidableEq

/-- What a call returns. A record is compared up to `LeaseDeadline`, a list as a set. -/
inductive Outcome where
  | ok
  | notFound
  | failed
  | record (record : QueryRecord)
  | flag (value : Bool)
  | claim (queryID : String) (acquired : Bool)
  | count (number : Nat)
  | ids (ids : Finset String)
  deriving DecidableEq

def Outcome.ofResult {ρ : Type} (value : ρ → Outcome) : Except StoreError ρ → Outcome
  | .error .notFound => .notFound
  | .error (.failed _) => .failed
  | .ok result => value result

def Outcome.ofRecord (record : QueryRecord) : Outcome :=
  .record { record with leaseDeadline := 0 }

def Call.program (now : Time) : Call → Client Outcome
  | putQuery record => (Redis.putQuery record).map (.ofResult fun _ => .ok)
  | getQuery id => (Redis.getQuery now id).map (.ofResult .ofRecord)
  | updateQuery record => (Redis.updateQuery record).map (.ofResult fun _ => .ok)
  | updateQueryIfState record expected =>
    (Redis.updateQueryIfState record expected).map (.ofResult .flag)
  | deleteQuery id => (Redis.deleteQuery now id).map (.ofResult fun _ => .ok)
  | acquireIdempotency dbID key queryID ttl =>
    (Redis.acquireIdempotency dbID key queryID ttl).map
      (.ofResult fun claim => .claim claim.1 claim.2)
  | releaseIdempotency dbID key queryID =>
    (Redis.releaseIdempotency dbID key queryID).map (.ofResult fun _ => .ok)
  | refreshIdempotency dbID key queryID ttl =>
    (Redis.refreshIdempotency dbID key queryID ttl).map (.ofResult fun _ => .ok)
  | heartbeat instanceID ownedQueryIDs ttl =>
    (Redis.heartbeat instanceID ownedQueryIDs ttl).map (.ofResult fun _ => .ok)
  | tryLock name ttl => (Redis.tryLock name ttl).map (.ofResult .flag)
  | countInFlight instanceID => (Redis.countInFlight instanceID).map (.ofResult .count)
  | listByInstance instanceID => (Redis.listByInstance instanceID).map (.ofResult .ids)
  | listExpiredQueries => (Redis.listExpiredQueries now).map fun ids => .ids ids.toFinset
  | listStaleQueries => Redis.listStaleQueries.map fun ids => .ids ids.toFinset

def activeQuery : QueryRecord := .sample .running

end DbBridge.State.Redis
