import DbBridge.Lib.Observation
import DbBridge.Service.Queries

/-!
# The REST handlers for one query

`internal/transport/rest`: the wire types, `classify`, and the handlers that name a query. A
response keeps the values that are encoded into its body.
-/

namespace DbBridge.Rest

open Domain Authn Service

/-! ## Wire types -/

structure QueryOptionsDTO where
  timeoutMs : Int
  mode : String
  resultTTLSeconds : Int
  idempotencyKey : String
  resultFormat : String
  storageBackend : String

structure QueryStatsDTO where
  rowsRead : Int
  bytesWritten : Int
  dbExecDurationMs : Int
  storageWriteDurationMs : Int
  totalDurationMs : Int

structure QueryErrorDTO where
  code : String
  message : String
  retryable : Bool

structure QueryRecordDTO where
  id : String
  databaseID : String
  sql : String
  options : QueryOptionsDTO
  state : String
  ownerInstanceID : String
  createdAt : Time
  startedAt : Option Time
  finishedAt : Option Time
  leaseDeadline : Option Time
  error : Option QueryErrorDTO
  stats : QueryStatsDTO
  /-- `resultRefDTO` has the fields of `ResultRef`. -/
  result : Option ResultRef
  idempotencyKey : String
  subject : String

def milliseconds (d : Duration) : Int := d.tdiv millisecond

/-- `int64(d.Seconds())`: whole and fractional seconds are added as `float64`, so a
fraction close to one may round up. -/
def wholeSeconds (d : Duration) : Int :=
  (Float.ofInt (d.tdiv second) + Float.ofInt (d.tmod second) / 1e9).toInt64.toInt

def optionalTime (t : Time) : Option Time := if t = 0 then none else some t

def errorCodeText : QueryErrorCode → String
  | .dbExecFailed => "DB_EXEC_FAILED"
  | .queryTimeout => "QUERY_TIMEOUT"
  | .storageInitFailed => "STORAGE_INIT_FAILED"
  | .storageWriterFailed => "STORAGE_WRITER_FAILED"
  | .storageFinalizeFailed => "STORAGE_FINALIZE_FAILED"
  | .streamEncodeFailed => "STREAM_ENCODE_FAILED"
  | .ownerLost => "OWNER_LOST"

def toOptionsDTO (o : QueryOptions) : QueryOptionsDTO where
  timeoutMs := milliseconds o.timeout
  mode := o.mode
  resultTTLSeconds := wholeSeconds o.resultTTL
  idempotencyKey := o.idempotencyKey
  resultFormat := o.resultFormat
  storageBackend := o.storageBackend

def toStatsDTO (s : QueryStats) : QueryStatsDTO where
  rowsRead := s.rowsRead
  bytesWritten := s.bytesWritten
  dbExecDurationMs := milliseconds s.dbExecDuration
  storageWriteDurationMs := milliseconds s.storageWriteDuration
  totalDurationMs := milliseconds s.totalDuration

def toRecordDTO (r : QueryRecord) : QueryRecordDTO where
  id := r.id
  databaseID := r.databaseID
  sql := r.sql
  options := toOptionsDTO r.options
  state := stateText r.state
  ownerInstanceID := r.ownerInstanceID
  createdAt := r.createdAt
  startedAt := optionalTime r.startedAt
  finishedAt := optionalTime r.finishedAt
  leaseDeadline := optionalTime r.leaseDeadline
  error := r.error.map fun err =>
    { code := errorCodeText err.code, message := err.message, retryable := err.retryable }
  stats := toStatsDTO r.stats
  result := r.result
  idempotencyKey := r.idempotencyKey
  subject := r.subject

/-! ## Errors -/

def classify (err : CallError) : Nat × String :=
  match err.cause with
  | .validation _ _ => (400, err.text)
  | .notFound _ _ | .errNotFound => (404, "not found")
  | .draining => (503, err.text)
  | .unavailable _ => (503, err.text)
  | .resourceExhausted _ => (429, err.text)
  | .other _ | .wrapped _ _ => (500, "internal error")

inductive ResponseBody (Reader : Type) where
  | error (message : String)
  | record (dto : QueryRecordDTO)
  | stats (dto : QueryStatsDTO)
  | stop (queryID status : String)
  | bytes (contentType : String) (body : Body Reader)

structure Response (Reader : Type) where
  status : Nat
  contentRange : Option String := none
  body : ResponseBody Reader

section
variable {Reader : Type}

def writeStatus (status : Nat) (message : String) : Response Reader :=
  { status := status, body := .error message }

def writeError (err : CallError) : Response Reader :=
  writeStatus (classify err).1 (classify err).2

def writeValidationError (field reason : String) : Response Reader :=
  writeError (.validation field reason)

/-! ## Arguments -/

def digits : List Char → Nat → Option Nat
  | [], value => some value
  | c :: rest, value =>
    if c.isDigit then digits rest (10 * value + (c.toNat - '0'.toNat)) else none

/-- `strconv.ParseInt(s, 10, 64)`, `none` for an error. -/
def parseInt (s : String) : Option Int := do
  let (negative, body) := match s.toList with
    | '-' :: rest => (true, rest)
    | '+' :: rest => (false, rest)
    | chars => (false, chars)
  if body = [] then none
  else
    let value ← digits body 0
    let signed : Int := if negative then -value else value
    if -(2 ^ 63) ≤ signed ∧ signed < 2 ^ 63 then some signed else none

def cutHyphen : List Char → Option (List Char × List Char)
  | [] => none
  | '-' :: rest => some ([], rest)
  | c :: rest => (cutHyphen rest).map fun parts => (c :: parts.1, parts.2)

/-- `parseByteRange`; the end is `-1` for an open range. -/
def parseByteRange (header : String) : Option (Int × Int) := do
  let spec ← header.toList.dropPrefix? "bytes=".toList
  let (first, last) ← cutHyphen spec
  let start ← parseInt (String.ofList first)
  if start < 0 then none
  else if last = [] then some (start, -1)
  else
    let stop ← parseInt (String.ofList last)
    if stop < start then none else some (start, stop)

/-! ## Handlers -/

/-- A request that names a query: the handler, its path parameter and the parts of the
request the handler reads. -/
inductive Request where
  | status (id : String)
  | stats (id : String)
  | stop (id : String)
  | result (id rangeHeader offset limit : String)

variable (node : Node) (content : Content) (storage : Storage Reader)
  (caller : Option Identity)

def handleGetQueryStatus (id : String) : Response Reader :=
  if id = "" then writeValidationError "id" "is required"
  else Observation.answer writeError
    (fun record => { status := 200, body := .record (toRecordDTO record) })
    (getQueryStatus node content caller id)

def handleStopQuery (id : String) : Response Reader :=
  if id = "" then writeValidationError "id" "is required"
  else Observation.answer writeError
    (fun _ => { status := 200, body := .stop id "STOPPED" })
    (stopQuery node content caller id)

def handleGetQueryStats (id : String) : Response Reader :=
  if id = "" then writeValidationError "id" "is required"
  else Observation.answer writeError
    (fun stats => { status := 200, body := .stats (toStatsDTO stats) })
    (getQueryStats node content caller id)

def contentType (ref : ResultRef) : String :=
  if ref.format = "csv" then "text/csv"
  else if ref.format = "jsonl" then "application/x-jsonlines"
  else "application/octet-stream"

/-- What is sent once the result is open; `range` is the range asked for, if any. -/
def sendResult (range : Option (Int × Int)) (result : Body Reader × ResultRef) :
    Response Reader :=
  match range with
  | none => { status := 200, body := .bytes (contentType result.2) result.1 }
  | some (start, last) =>
    let total := result.2.sizeBytes
    if total ≥ 0 ∧ start ≥ total then
      { writeStatus 416 "range not satisfiable" with
        contentRange := some ("bytes */" ++ toString total) }
    else
      let stop := if last < 0 ∨ last ≥ total then wrap64 (total - 1) else last
      { status := 206
        contentRange := some ("bytes " ++ toString start ++ "-" ++ toString stop ++ "/" ++
          toString total)
        body := .bytes (contentType result.2) result.1 }

def handleDownloadResult (id rangeHeader offset limit : String) : Response Reader :=
  let send (range : Option (Int × Int)) (offset limit : Int) : Response Reader :=
    Observation.answer writeError (sendResult range)
      (downloadResult node content storage caller id offset limit)
  -- A query parameter that is absent reads as the empty string.
  let parameter (text : String) : Option Int :=
    if text = "" then some 0 else (parseInt text).filter (0 ≤ ·)
  if id = "" then writeValidationError "id" "is required"
  else if rangeHeader ≠ "" then
    match parseByteRange rangeHeader with
    | none => writeStatus 416 "invalid Range header"
    | some (start, last) =>
      send (some (start, last)) start (if last ≥ 0 then wrap64 (last - start + 1) else 0)
  else
    match parameter offset, parameter limit with
    | none, _ => writeValidationError "offset" "must be a non-negative integer"
    | some _, none => writeValidationError "limit" "must be a non-negative integer"
    | some offset, some limit => send none offset limit

def serve : Request → Response Reader
  | .status id => handleGetQueryStatus node content caller id
  | .stats id => handleGetQueryStats node content caller id
  | .stop id => handleStopQuery node content caller id
  | .result id rangeHeader offset limit =>
    handleDownloadResult node content storage caller id rangeHeader offset limit

end

end DbBridge.Rest
