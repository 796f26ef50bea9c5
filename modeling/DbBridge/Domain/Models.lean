import Mathlib.Algebra.Ring.Int.Defs
import Mathlib.Algebra.Ring.Nat
import Mathlib.Data.Int.Order.Basic

/-!
# Domain data of dbbridge

The records, states and options of `internal/core/domain`. Instants and
durations are integers counting nanoseconds; the zero instant stands for Go's
zero `time.Time`. Durations are `int64` in the source, so arithmetic that can
leave that range goes through `wrap64`.
-/

namespace DbBridge.Domain

abbrev Time := Int
abbrev Duration := Int

/-- Two's complement wrap-around of Go's `int64` arithmetic. -/
def wrap64 (value : Int) : Int := Int.bmod value (2 ^ 64)

theorem wrap64_of_range {value : Int} (low : -(2 ^ 63) ≤ value) (high : value < 2 ^ 63) :
    wrap64 value = value := by
  unfold wrap64
  rw [Int.bmod_def]
  split <;> omega

/-- Up to one turn too far, the result is on the other side of zero. -/
theorem wrap64_of_overflow {value : Int} (low : 2 ^ 63 ≤ value) (high : value < 2 ^ 64) :
    wrap64 value = value - 2 ^ 64 := by
  unfold wrap64
  rw [Int.bmod_def]
  split <;> omega

def millisecond : Duration := 1000000
def second : Duration := 1000 * millisecond
def minute : Duration := 60 * second
def hour : Duration := 60 * minute

/-- An error: its text, and what `errors.Is` finds along the errors it wraps. -/
structure GoError where
  text : String := ""
  isCanceled : Bool := false
  isDeadlineExceeded : Bool := false
  deriving DecidableEq, Repr

def GoError.wrap (err : GoError) (context : String) : GoError :=
  { err with text := context ++ ": " ++ err.text }

inductive QueryState where
  | pending
  | running
  | succeeded
  | failed
  | canceled
  | expired
  deriving DecidableEq, Repr

namespace QueryState

def isTerminal : QueryState → Bool
  | succeeded | failed | canceled | expired => true
  | pending | running => false

def canTransitionTo (s next : QueryState) : Bool :=
  if s = next then true
  else
    match s with
    | pending => next = running || next = canceled || next = failed
    | running => next = succeeded || next = failed || next = canceled
    | succeeded | failed | canceled => next = expired
    | expired => false

variable (s : QueryState)

@[simp] theorem canTransitionTo_self : s.canTransitionTo s = true := by
  simp [canTransitionTo]

/-- A terminal state leads nowhere but to itself and to `EXPIRED`. -/
theorem canTransitionTo_of_isTerminal {s next : QueryState}
    (terminal : s.isTerminal = true) (legal : s.canTransitionTo next = true) :
    next = s ∨ next = expired := by
  revert terminal legal
  cases s <;> cases next <;> decide

/-- The states `UpdateQueryIfState` expects in `failOwnerLost`. -/
theorem isTerminal_eq_false_iff : s.isTerminal = false ↔ s = pending ∨ s = running := by
  cases s <;> decide

theorem canTransitionTo_expired_iff : s.canTransitionTo expired = true ↔ s.isTerminal = true := by
  cases s <;> decide

theorem canTransitionTo_failed_of_active {s : QueryState} (active : s.isTerminal = false) :
    s.canTransitionTo failed = true := by
  revert active
  cases s <;> decide

end QueryState

structure QueryOptions where
  timeout : Duration := 0
  mode : String := ""
  resultTTL : Duration := 0
  idempotencyKey : String := ""
  resultFormat : String := ""
  storageBackend : String := ""
  deriving DecidableEq, Repr

/-- The errors a submission can end with. `internal` covers the wrapped
MetaStore errors, whose text is only logged. -/
inductive SubmitError where
  | draining
  | validation (field reason : String)
  | notFound (resource id : String)
  | unavailable (resource : String)
  | resourceExhausted (reason : String)
  | internal (reason : String)
  deriving DecidableEq, Repr

def validModes : List String := ["async", "sync"]
def validResultFormats : List String := ["jsonl", "csv", "parquet"]

def QueryOptions.validate (o : QueryOptions) : Except SubmitError Unit :=
  if ¬ o.mode ∈ validModes then
    .error (.validation "mode" ("must be one of " ++ ", ".intercalate validModes))
  else if ¬ o.resultFormat ∈ validResultFormats then
    .error (.validation "result_format"
      ("must be one of " ++ ", ".intercalate validResultFormats))
  else if o.timeout < 0 then
    .error (.validation "timeout_ms" "must not be negative")
  else if o.resultTTL < 0 then
    .error (.validation "result_ttl_seconds" "must not be negative")
  else .ok ()

theorem QueryOptions.validate_eq_ok_iff (o : QueryOptions) :
    o.validate = .ok () ↔ o.mode ∈ validModes ∧ o.resultFormat ∈ validResultFormats ∧
      0 ≤ o.timeout ∧ 0 ≤ o.resultTTL := by
  unfold QueryOptions.validate
  by_cases mode : o.mode ∈ validModes
  · by_cases format : o.resultFormat ∈ validResultFormats
    · by_cases timeout : o.timeout < 0
      · simp [mode, format, timeout, Int.not_le.mpr timeout]
      · by_cases ttl : o.resultTTL < 0
        · simp [mode, format, timeout, ttl, Int.not_le.mpr ttl]
        · simp [mode, format, timeout, ttl, Int.not_lt.mp timeout, Int.not_lt.mp ttl]
    · simp [mode, format]
  · simp [mode]

inductive QueryErrorCode where
  | dbExecFailed
  | queryTimeout
  | storageInitFailed
  | storageWriterFailed
  | storageFinalizeFailed
  | streamEncodeFailed
  | ownerLost
  deriving DecidableEq, Repr

structure QueryError where
  code : QueryErrorCode
  message : String
  retryable : Bool
  deriving DecidableEq, Repr

def maxQueryErrorMessage : Nat := 512

/-- `NewQueryError`; every caller passes an ASCII text, for which the byte bound
is a bound on characters. -/
def newQueryError (code : QueryErrorCode) (message : String) (retryable : Bool) :
    QueryError :=
  if message.length > maxQueryErrorMessage then
    ⟨code, String.ofList (message.toList.take maxQueryErrorMessage) ++ "…", retryable⟩
  else ⟨code, message, retryable⟩

structure QueryStats where
  rowsRead : Int := 0
  bytesWritten : Int := 0
  dbExecDuration : Duration := 0
  storageWriteDuration : Duration := 0
  totalDuration : Duration := 0
  deriving DecidableEq, Repr

structure ResultRef where
  backend : String
  locator : String
  sizeBytes : Int := 0
  rowCount : Int := 0
  format : String
  checksum : String := ""
  deriving DecidableEq, Repr

structure QueryRecord where
  id : String
  databaseID : String
  sql : String
  options : QueryOptions
  state : QueryState
  ownerInstanceID : String
  createdAt : Time
  startedAt : Time := 0
  finishedAt : Time := 0
  error : Option QueryError := none
  stats : QueryStats := {}
  result : Option ResultRef := none
  idempotencyKey : String := ""
  leaseDeadline : Time := 0
  subject : String := ""
  deriving DecidableEq, Repr

/-- Retention fallback of `ListExpiredQueries` for a record without a TTL. -/
def QueryRecord.retention (record : QueryRecord) : Duration :=
  if record.options.resultTTL = 0 then 24 * hour else record.options.resultTTL

def QueryRecord.retentionEnd (record : QueryRecord) : Time :=
  record.finishedAt + record.retention

def QueryRecord.sample (state : QueryState) : QueryRecord where
  id := "q"
  databaseID := "db"
  sql := "SELECT 1"
  options := {}
  state := state
  ownerInstanceID := "a"
  createdAt := 1

end DbBridge.Domain
