import DbBridge.Cluster.Provenance
import DbBridge.Transport.Connect

/-!
# Submissions over REST and Connect

`handleStartQuery` and `StartQuery` up to the call of the service. Both multiply integers of
the client into durations, in `int64`; what `SubmitQuery` makes of them is the `admission` of
a process, and a stored record keeps what was admitted.
-/

namespace DbBridge.Rest

open Domain Service

structure StartQueryOptions where
  timeoutMs : Int := 0
  mode : String := ""
  resultTTLSeconds : Int := 0
  resultFormat : String := ""
  storageBackend : String := ""

structure StartQueryPayload where
  databaseID : String
  sql : String
  options : StartQueryOptions := {}

/-- `handleStartQuery` up to the service call; `idemKey` is the header of that name. -/
def handleStartQuery (payload : StartQueryPayload) (idemKey : String) :
    Except CallError (String × String × QueryOptions) :=
  if payload.databaseID = "" then .error (.validation "database_id" "is required")
  else if payload.sql = "" then .error (.validation "sql" "is required")
  else .ok (payload.databaseID, payload.sql,
    { timeout := wrap64 (payload.options.timeoutMs * millisecond)
      mode := payload.options.mode
      resultTTL := wrap64 (payload.options.resultTTLSeconds * second)
      resultFormat := payload.options.resultFormat
      storageBackend := payload.options.storageBackend
      idempotencyKey := idemKey })

end DbBridge.Rest

namespace DbBridge.Connect

open Domain

structure StartQueryRequest where
  databaseId : String
  sql : String
  options : Option ProtoOptions

/-- `StartQuery` up to the service call. -/
def startQuery (msg : StartQueryRequest) : String × String × QueryOptions :=
  (msg.databaseId, msg.sql,
    match msg.options with
    | none => {}
    | some options =>
      { timeout := wrap64 (options.timeoutMs * millisecond)
        mode := options.mode
        resultTTL := wrap64 (options.resultTtlSeconds * second)
        idempotencyKey := options.idempotencyKey
        resultFormat := options.resultFormat
        storageBackend := options.storageBackend })

end DbBridge.Connect

namespace DbBridge.Transport

open Domain Cluster Service Settings
open Rest (milliseconds wholeSeconds)

def IsInt64 (value : Int) : Prop := -(2 ^ 63) ≤ value ∧ value < 2 ^ 63

instance (value : Int) : Decidable (IsInt64 value) := inferInstanceAs (Decidable (_ ∧ _))

inductive StartRequest where
  | rest (payload : Rest.StartQueryPayload) (idemKey : String)
  | connect (msg : Connect.StartQueryRequest)

namespace StartRequest

def timeoutMs : StartRequest → Int
  | rest payload _ => payload.options.timeoutMs
  | connect msg => (msg.options.map Connect.ProtoOptions.timeoutMs).getD 0

def resultTTLSeconds : StartRequest → Int
  | rest payload _ => payload.options.resultTTLSeconds
  | connect msg => (msg.options.map Connect.ProtoOptions.resultTtlSeconds).getD 0

def call : StartRequest → Except CallError (String × String × QueryOptions)
  | rest payload idemKey => Rest.handleStartQuery payload idemKey
  | connect msg => .ok (Connect.startQuery msg)

def Fits (r : StartRequest) : Prop :=
  IsInt64 (r.timeoutMs * millisecond) ∧ IsInt64 (r.resultTTLSeconds * second)

instance (r : StartRequest) : Decidable r.Fits :=
  inferInstanceAs (Decidable (_ ∧ _))

variable {given : QueryOptions} {r : StartRequest} {dbID sql : String}

/-- IEEE 754: a whole number below `2 ^ 53` is a `float64`. -/
def WholeFloats : Prop :=
  ∀ n : Int, n.natAbs < 2 ^ 53 → (Float.ofInt n + Float.ofInt 0 / 1e9).toInt64.toInt = n

/-- The options are those of the request, with the defaults where it has a zero; so are the
values that both transports show in an answer. -/
structure Exact (r : StartRequest) (defaults : DefaultsConfig) (stored : QueryOptions) : Prop where
  timeout : stored.timeout =
    if r.timeoutMs = 0 then defaults.queryTimeout else r.timeoutMs * millisecond
  resultTTL : stored.resultTTL =
    if r.resultTTLSeconds = 0 then defaults.resultTTL else r.resultTTLSeconds * second
  echoedTimeout : r.timeoutMs ≠ 0 → milliseconds stored.timeout = r.timeoutMs
  echoedTTL : WholeFloats → r.resultTTLSeconds ≠ 0 →
    wholeSeconds stored.resultTTL = r.resultTTLSeconds

variable {count : Int}

end StartRequest

/-! ## What a record keeps of its submission -/

open Cluster.Deployment

variable {env : Env} {guard : Deployment → Cluster.Action → Prop} {d : Deployment}

end DbBridge.Transport
