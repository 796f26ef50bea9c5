import DbBridge.Transport.Rest

/-!
# The Connect handlers for one query

`internal/transport/grpcconnect`: `connectError`, the mappers to the protobuf messages
and the five RPCs that name a query.
-/

namespace DbBridge.Connect

open Domain Authn Service Watch
open Rest (milliseconds wholeSeconds errorCodeText)

/-! ## Messages -/

inductive ProtoState where
  | pending
  | running
  | succeeded
  | failed
  | canceled
  | expired

structure ProtoStats where
  rowsRead : Int
  bytesWritten : Int
  dbExecDurationMs : Int
  storageWriteDurationMs : Int
  totalDurationMs : Int

structure ProtoError where
  code : String
  message : String
  retryable : Bool

structure ProtoOptions where
  timeoutMs : Int
  mode : String
  resultTtlSeconds : Int
  idempotencyKey : String
  resultFormat : String
  storageBackend : String

structure ProtoRecord where
  id : String
  databaseId : String
  sql : String
  options : ProtoOptions
  state : ProtoState
  ownerInstanceId : String
  createdAtMs : Int
  startedAtMs : Int
  finishedAtMs : Int
  error : Option ProtoError
  stats : ProtoStats
  /-- `v1.ResultRef` has the fields of `ResultRef`. -/
  result : Option ResultRef
  idempotencyKey : String
  leaseDeadlineMs : Int
  subject : String

def unixEpoch : Time := 62135596800 * second

def unixMillis (t : Time) : Int := if t = 0 then 0 else (t - unixEpoch) / millisecond

def mapToProtoState : QueryState → ProtoState
  | .pending => .pending
  | .running => .running
  | .succeeded => .succeeded
  | .failed => .failed
  | .canceled => .canceled
  | .expired => .expired

def mapToProtoStats (s : QueryStats) : ProtoStats where
  rowsRead := s.rowsRead
  bytesWritten := s.bytesWritten
  dbExecDurationMs := milliseconds s.dbExecDuration
  storageWriteDurationMs := milliseconds s.storageWriteDuration
  totalDurationMs := milliseconds s.totalDuration

def mapToProtoError (err : QueryError) : ProtoError where
  code := errorCodeText err.code
  message := err.message
  retryable := err.retryable

def mapToProtoRecord (r : QueryRecord) : ProtoRecord where
  id := r.id
  databaseId := r.databaseID
  sql := r.sql
  options :=
    { timeoutMs := milliseconds r.options.timeout
      mode := r.options.mode
      resultTtlSeconds := wholeSeconds r.options.resultTTL
      idempotencyKey := r.options.idempotencyKey
      resultFormat := r.options.resultFormat
      storageBackend := r.options.storageBackend }
  state := mapToProtoState r.state
  ownerInstanceId := r.ownerInstanceID
  createdAtMs := unixMillis r.createdAt
  startedAtMs := unixMillis r.startedAt
  finishedAtMs := unixMillis r.finishedAt
  error := r.error.map mapToProtoError
  stats := mapToProtoStats r.stats
  result := r.result
  idempotencyKey := r.idempotencyKey
  leaseDeadlineMs := unixMillis r.leaseDeadline
  subject := r.subject

structure WatchQueryResponse where
  queryId : String
  state : ProtoState
  stats : ProtoStats
  error : Option ProtoError

def watchQueryResponse (ev : QueryEvent) : WatchQueryResponse where
  queryId := ev.queryID
  state := mapToProtoState ev.state
  stats := mapToProtoStats ev.stats
  error := ev.error.map mapToProtoError

/-! ## Errors -/

inductive Code where
  | invalidArgument
  | notFound
  | unavailable
  | resourceExhausted
  | internal

structure ConnectError where
  code : Code
  message : String

def connectError (err : CallError) : ConnectError :=
  match err.cause with
  | .validation _ _ => ⟨.invalidArgument, err.text⟩
  | .notFound _ _ | .errNotFound => ⟨.notFound, "not found"⟩
  | .draining | .unavailable _ => ⟨.unavailable, err.text⟩
  | .resourceExhausted _ => ⟨.resourceExhausted, err.text⟩
  | .other _ | .wrapped _ _ => ⟨.internal, "internal error"⟩

/-! ## Handlers -/

inductive Request where
  | status (queryId : String)
  | stop (queryId : String)
  | stats (queryId : String)
  | download (queryId : String) (offsetBytes limitBytes : Int)
  | watch (queryId : String)

/-- The message of a unary RPC, the reader a download is streamed from, or the hub and
channel a watch is streamed from, with the responses already in the channel. -/
inductive Response (Reader : Type) where
  | record (record : ProtoRecord)
  | stopped (queryId status : String)
  | stats (stats : ProtoStats)
  | chunks (body : Body Reader)
  | events (hub : Hub) (channel : Nat) (ready : List WatchQueryResponse)

variable {Reader : Type} (node : Node) (content : Content) (storage : Storage Reader)
  (caller : Option Identity)

/-- The handler of each RPC: the service call, then the response or `connectError`. -/
def serve : Request → Except ConnectError (Response Reader)
  | .status queryId => Observation.answer (.error ∘ connectError)
      (fun record => .ok (.record (mapToProtoRecord record)))
      (getQueryStatus node content caller queryId)
  | .stop queryId => Observation.answer (.error ∘ connectError)
      (fun _ => .ok (.stopped queryId "STOPPED"))
      (stopQuery node content caller queryId)
  | .stats queryId => Observation.answer (.error ∘ connectError)
      (fun stats => .ok (.stats (mapToProtoStats stats)))
      (getQueryStats node content caller queryId)
  | .download queryId offset limit => Observation.answer (.error ∘ connectError)
      (fun result => .ok (.chunks result.1))
      (downloadResult node content storage caller queryId offset limit)
  | .watch queryId => Observation.answer (.error ∘ connectError)
      (fun (hub, channel) => .ok (.events hub channel
        ((hub.channels channel).buffer.map watchQueryResponse)))
      (watchQuery node content caller queryId)

end DbBridge.Connect
