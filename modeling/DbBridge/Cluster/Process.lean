import DbBridge.Authn.Identity
import DbBridge.Config.Validate
import DbBridge.SqlGuard.Scan
import DbBridge.State.Memory

/-!
# One instance of the query manager

The state of a `QueryManager` that its goroutines share: the in-flight registry
with its draining flag, the concurrency slots, the live configuration, and the
positions of the three background workers. A worker's position is the point in
its source loop it has reached, with the local variables that are live there.
-/

namespace DbBridge.Cluster

open Domain State Settings

/-- How a MetaStore call ended: it returned nil, it failed without an effect, or
its effect took place and the reply was an error. -/
inductive Reply where
  | ok
  | failed
  | lost
  deriving DecidableEq, Repr

def Reply.apply {α : Type} (reply : Reply) (before after : α) : α :=
  match reply with
  | .failed => before
  | .ok | .lost => after

/-! ## Registry and slots -/

/-- An entry of `activeReg`; the cancel function is left out, a cancellation
shows in the outcome of the execution. -/
structure ActiveQuery where
  dbID : String

structure Registry where
  activeReg : Table ActiveQuery := ∅
  draining : Bool := false

namespace Registry

def admitQuery (registry : Registry) (queryID dbID : String) : Except SubmitError Registry :=
  if registry.draining then .error .draining
  else .ok { registry with activeReg := registry.activeReg.insert queryID ⟨dbID⟩ }

def deregister (registry : Registry) (queryID : String) : Registry :=
  { registry with activeReg := registry.activeReg.erase queryID }

def drain (registry : Registry) : Registry := { registry with draining := true }

def size (registry : Registry) : Nat := registry.activeReg.entries.length

def activeForDB (registry : Registry) (dbID : String) : Nat :=
  (registry.activeReg.entries.filter fun entry => entry.2.dbID = dbID).length

theorem size_eq_zero_iff (registry : Registry) :
    registry.size = 0 ↔ registry.activeReg.keys = [] := by
  simp [size, AList.keys, List.keys]

theorem admitQuery_activeReg {registry admitted : Registry} {queryID dbID : String}
    (admission : registry.admitQuery queryID dbID = .ok admitted) :
    admitted.activeReg = registry.activeReg.insert queryID ⟨dbID⟩ := by
  unfold admitQuery at admission
  split at admission
  · contradiction
  · cases admission
    rfl

end Registry

/-- The buffered channel `slots`: capacity and occupancy, `none` when unlimited. -/
structure Slots where
  limit : Option Nat := none
  used : Nat := 0

def Slots.acquire (slots : Slots) : Option Slots :=
  match slots.limit with
  | none => some slots
  | some n => if slots.used < n then some { slots with used := slots.used + 1 } else none

def Slots.release (slots : Slots) : Slots :=
  match slots.limit with
  | none => slots
  | some _ => { slots with used := slots.used - 1 }

/-! ## Positions of the background workers -/

/-- The pass a list of IDs belongs to: `recoverOrphans` at startup, or
`reapStaleOwners` with the grace period it computed when the list arrived. -/
inductive ReapPass where
  | recoverOrphans
  | reapStaleOwners (grace : Duration)
  deriving DecidableEq, Repr

inductive ReaperPhase where
  | idle
  | listByInstance
  | listStale
  | loop (pass : ReapPass) (ids : List String)
  | fetch (pass : ReapPass) (id : String) (ids : List String)
  | judge (pass : ReapPass) (record : QueryRecord) (ids : List String)
  | write (pass : ReapPass) (failed : QueryRecord) (ids : List String)
  deriving DecidableEq, Repr

inductive GcPhase where
  | idle
  | list
  | loop (ids : List String)
  | mark (record : QueryRecord) (ids : List String)
  | dispose (record : QueryRecord) (ids : List String)
  | release (record : QueryRecord) (ids : List String)
  | drop (id : String) (ids : List String)

/-- `off` until the worker goroutine has built its ticker. -/
inductive HeartPhase where
  | off
  | waiting (nextTick : Time)
  | beat (nextTick : Time) (ids : List String)
  deriving DecidableEq, Repr

/-! ## The instance -/

/-- `pools` lists the database IDs that have an open pool. `ready` is set once
`NewQueryManager` has returned, `ctxDone` once `qm.ctx` is canceled, and `alive`
is cleared when the process dies. -/
structure Process where
  instanceID : String
  defaultStorage : String
  gcPeriodDur : Duration
  cfg : Config
  pools : List String
  heartbeatPeriod : Duration := 0
  registry : Registry := {}
  slots : Slots := {}
  ready : Bool := false
  ctxDone : Bool := false
  alive : Bool := true
  reaper : ReaperPhase := .listByInstance
  gc : GcPhase := .idle
  heart : HeartPhase := .off

namespace Process

/-- `NewQueryManager`, up to the point where `recoverOrphans` starts. -/
def new (cfg : Config) (pools : List String) : Process where
  instanceID := cfg.inst.id
  defaultStorage := cfg.inst.defaultStorage
  gcPeriodDur := cfg.inst.gcInterval
  cfg := cfg
  pools := pools
  slots :=
    { limit := if cfg.defaults.maxConcurrentQueries > 0 then
        some cfg.defaults.maxConcurrentQueries.toNat else none }

def heartbeatTTL (p : Process) : Duration := p.cfg.inst.heartbeatTTL

def gcInterval : Duration := minute

def gcPeriod (p : Process) : Duration :=
  if p.gcPeriodDur > 0 then p.gcPeriodDur else gcInterval

/-- Go's division truncates. -/
def gcLockTTL (p : Process) : Duration := (wrap64 (p.gcPeriod * 5)).tdiv 6

def gcLockName : String := "gc"

def grace (p : Process) : Duration := wrap64 (2 * p.heartbeatTTL)

def applyDefaults (p : Process) (opts : QueryOptions) : QueryOptions :=
  { opts with
    mode := orDefault "" "async" opts.mode
    resultTTL := orDefault 0 p.cfg.defaults.resultTTL opts.resultTTL
    timeout := orDefault 0 p.cfg.defaults.queryTimeout opts.timeout
    resultFormat := orDefault "" "jsonl" opts.resultFormat
    storageBackend := orDefault "" p.defaultStorage opts.storageBackend }

end Process

/-! ## What all instances share besides the MetaStore -/

/-- A registered result store: the formats it holds unchanged, `none` for a store
without a `FormatChecker`. -/
structure StoreInfo where
  formats : Option (List String) := none

def StoreInfo.supportsFormat (info : StoreInfo) (format : String) : Bool :=
  match info.formats with
  | none => true
  | some formats => formats.contains format

structure Env where
  backend : Backend
  tables : SqlGuard.UnicodeTables
  stores : Table StoreInfo

/-- The checks of `SubmitQuery` before its first side effect: the options with
their defaults, or the rejection. -/
def admission (env : Env) (p : Process) (dbID sql : String) (given : QueryOptions) :
    Except SubmitError QueryOptions := do
  if ¬ dbID ∈ p.pools then throw (.notFound "database" dbID)
  let opts := p.applyDefaults given
  opts.validate
  match env.stores.lookup opts.storageBackend with
  | none => throw (.validation "storage_backend" "unknown storage backend")
  | some info =>
    if ¬ info.supportsFormat opts.resultFormat then
      throw (.validation "result_format" ("storage backend \"" ++ opts.storageBackend ++
        "\" cannot store " ++ opts.resultFormat ++ " results unchanged"))
  if ¬ p.cfg.defaults.allowWrites then
    match SqlGuard.readOnly env.tables sql.toList with
    | some reason => throw (.validation "sql" reason)
    | none => pure ()
  return opts

def idempotencySubmitTTL (opts : QueryOptions) : Duration :=
  wrap64 (opts.resultTTL + 24 * hour)

def scopedIdempotencyKey (subject key : String) : String := subject ++ "\x00" ++ key

end DbBridge.Cluster
