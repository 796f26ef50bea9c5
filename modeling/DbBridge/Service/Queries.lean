import DbBridge.Authn.Identity
import DbBridge.Watch.Hub

/-!
# The operations on one query

`internal/core/service`: what a caller gets who names a query. A content of the
MetaStore enters as what `GetQuery` finds under each ID, on either backend; the readers
of the result stores are kept abstract, since nothing here reads from one.
-/

namespace DbBridge.Service

open Domain Authn Watch

/-- The errors of `internal/core/domain`, `state.ErrNotFound`, any other error by its
text, and `fmt.Errorf("context: %w", err)`. -/
inductive CallError where
  | validation (field reason : String)
  | notFound (resource id : String)
  | draining
  | unavailable (resource : String)
  | resourceExhausted (reason : String)
  | errNotFound
  | other (text : String)
  | wrapped (context : String) (err : CallError)

namespace CallError

def text : CallError → String
  | validation field reason => "invalid " ++ field ++ ": " ++ reason
  | notFound resource id => resource ++ " " ++ id ++ " not found"
  | draining => "service is draining: new queries are not accepted"
  | unavailable resource => resource ++ " is unreachable"
  | resourceExhausted reason => "resource exhausted: " ++ reason
  | errNotFound => "query not found"
  | other text => text
  | wrapped context err => context ++ ": " ++ err.text

/-- The end of the chain that `errors.AsType` and `errors.Is` walk. -/
def cause : CallError → CallError
  | wrapped _ err => err.cause
  | err => err

end CallError

abbrev Content := String → Option QueryRecord

abbrev Storage (Reader : Type) := String → Option (ResultRef → Except CallError Reader)

/-- What the operations look at besides the MetaStore and the result stores. -/
structure Node where
  instanceID : String
  authRequired : Bool := true
  /-- The queries in `activeReg`. -/
  activeReg : String → Bool := fun _ => false
  /-- The error of `PublishControl` for a stop message that names this query. -/
  publishControl : String → Option CallError := fun _ => none
  hub : Hub := {}
  /-- The name of the next channel made. -/
  channel : Nat := 0

def getQuery (content : Content) (queryID : String) : Except CallError QueryRecord :=
  match content queryID with
  | none => .error .errNotFound
  | some record => .ok record

variable {Reader : Type}

def authorized (node : Node) (content : Content) (caller : Option Identity)
    (queryID : String) : Except CallError QueryRecord :=
  if node.authRequired && caller.isNone then .error (.notFound "query" queryID)
  else do
    let record ← getQuery content queryID
    if authorizeSubject caller record.subject then .ok record
    else .error (.notFound "query" queryID)

def getQueryStatus (node : Node) (content : Content) (caller : Option Identity)
    (queryID : String) : Except CallError QueryRecord :=
  authorized node content caller queryID

def getQueryStats (node : Node) (content : Content) (caller : Option Identity)
    (queryID : String) : Except CallError QueryStats := do
  let record ← authorized node content caller queryID
  .ok record.stats

inductive StopEffect where
  | finished
  | canceled
  | published

/-- `QueryManager.StopQuery`, which reads the record again. -/
def Node.stopQuery (node : Node) (content : Content) (queryID : String) :
    Except CallError StopEffect := do
  let record ← getQuery content queryID
  if record.state.isTerminal then .ok .finished
  else if record.ownerInstanceID = node.instanceID ∧ node.activeReg queryID = true then
    .ok .canceled
  else
    match node.publishControl queryID with
    | some err => .error err
    | none => .ok .published

def stopQuery (node : Node) (content : Content) (caller : Option Identity)
    (queryID : String) : Except CallError StopEffect := do
  let _ ← authorized node content caller queryID
  node.stopQuery content queryID

/-- The reader handed to the transport: the store's own, or `newSectionReadCloser`. -/
inductive Body (Reader : Type) where
  | whole (reader : Reader)
  | window (reader : Reader) (offset limit : Int)

def stateText : QueryState → String
  | .pending => "PENDING"
  | .running => "RUNNING"
  | .succeeded => "SUCCEEDED"
  | .failed => "FAILED"
  | .canceled => "CANCELED"
  | .expired => "EXPIRED"

/-- `GetStore` and `Reader`, with the context `DownloadResult` gives their errors. -/
def openResult (storage : Storage Reader) (ref : ResultRef) : Except CallError Reader :=
  match storage ref.backend with
  | none => .error (.wrapped "failed to load result storage"
      (.other ("storage: unknown storage backend \"" ++ ref.backend ++ "\"")))
  | some reader => (reader ref).mapError (.wrapped "failed to open result reader")

def downloadResult (node : Node) (content : Content) (storage : Storage Reader)
    (caller : Option Identity) (queryID : String) (offset limit : Int) :
    Except CallError (Body Reader × ResultRef) := do
  let record ← authorized node content caller queryID
  if record.state ≠ .succeeded then
    .error (.validation "query_id" ("query is in state " ++ stateText record.state ++
      ", results are only available for SUCCEEDED"))
  else
    match record.result with
    | none => .error (.notFound "result for query" queryID)
    | some ref => do
        let reader ← openResult storage ref
        if offset > 0 ∨ limit > 0 then .ok (.window reader offset limit, ref)
        else .ok (.whole reader, ref)

/-- `QueryManager.Watch`: the hub with the new subscription, and its channel. -/
def Node.watch (node : Node) (content : Content) (queryID : String) :
    Except CallError (Hub × Nat) := do
  let record ← getQuery content queryID
  .ok (node.hub.register node.channel
    { queryID := queryID, state := record.state, stats := record.stats, error := record.error },
    node.channel)

def watchQuery (node : Node) (content : Content) (caller : Option Identity)
    (queryID : String) : Except CallError (Hub × Nat) := do
  let _ ← authorized node content caller queryID
  node.watch content queryID

end DbBridge.Service
