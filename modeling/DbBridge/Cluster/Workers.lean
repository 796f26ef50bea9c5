import DbBridge.Cluster.Run

/-!
# The background workers

`reapStaleOwners`, `recoverOrphans` and `failOwnerLost`; `collectGarbage` and
`collectQuery`; `heartbeatWorker`. The listings iterate over a Go map, so the
order of the IDs is part of the choice.
-/

namespace DbBridge.Cluster

open Domain State

/-! ## Owner reaper -/

inductive ReapChoice where
  | begin
  | listed (reply : Reply) (ids : List String)
  | next
  | fetched (reply : Reply)
  | written (reply : Reply)
  deriving DecidableEq, Repr

def ownerLost (record : QueryRecord) (now : Time) : QueryRecord :=
  { record with
    state := .failed
    finishedAt := now
    error := some (newQueryError .ownerLost "owner instance lost before query completion"
      true) }

/-- The states in which `failOwnerLost` may overwrite a record. -/
def ownerLostExpected : List QueryState := [.pending, .running]

/-- The tests of a pass on the record it read; `true` leads to `failOwnerLost`. -/
def ReapPass.condemns (pass : ReapPass) (p : Process) (now : Time) (record : QueryRecord) :
    Bool :=
  match pass with
  | .recoverOrphans => !record.state.isTerminal
  | .reapStaleOwners grace =>
    record.ownerInstanceID ≠ p.instanceID && !(now - record.createdAt < grace)

/-- `reapStaleOwners` skips what runs here; `recoverOrphans` makes no such test. -/
def ReapPass.skips (pass : ReapPass) (p : Process) (id : String) : Bool :=
  match pass with
  | .recoverOrphans => false
  | .reapStaleOwners _ => (p.registry.activeReg.lookup id).isSome

def failOwnerLost (m : MetaStore) (failed : QueryRecord) (reply : Reply) : MetaStore :=
  match m.updateQueryIfState failed ownerLostExpected with
  | none => m
  | some (_, after) => reply.apply m after

/-- The end of a pass. After `recoverOrphans` the workers start. -/
def Process.endPass (p : Process) : Process := { p with reaper := .idle, ready := true }

def reaperStep (now : Time) (m : MetaStore) (p : Process) (choice : ReapChoice) :
    Option (MetaStore × Process) :=
  match p.reaper, choice with
  | .idle, .begin => if p.ready then some (m, { p with reaper := .listStale }) else none
  | .listByInstance, .listed reply ids =>
    if reply ≠ .ok then some (m, p.endPass)
    else if ids.Perm (m.listByInstance p.instanceID) then
      some (m, { p with reaper := .loop .recoverOrphans ids })
    else none
  | .listStale, .listed reply ids =>
    if reply ≠ .ok then some (m, p.endPass)
    else if ids.Perm (m.listStaleQueries now) then
      some (m, { p with reaper := .loop (.reapStaleOwners p.grace) ids })
    else none
  | .loop _ [], .next => some (m, p.endPass)
  | .loop pass (id :: ids), .next =>
    some (m, { p with
      reaper := if pass.skips p id then .loop pass ids else .fetch pass id ids })
  | .fetch pass id ids, .fetched reply =>
    some (m, { p with
      reaper := match reply, m.getQuery id with
        | .ok, some record => .judge pass record ids
        | _, _ => .loop pass ids })
  | .judge pass record ids, .next =>
    some (m, { p with
      reaper := if pass.condemns p now record then .write pass (ownerLost record now) ids
        else .loop pass ids })
  | .write pass failed ids, .written reply =>
    some (failOwnerLost m failed reply, { p with reaper := .loop pass ids })
  | _, _ => none

/-! ## Garbage collection -/

inductive GcChoice where
  | begin (reply : Reply)
  | listed (reply : Reply) (ids : List String)
  | collect (reply : Reply)
  | stop
  | mark (reply : Reply)
  | dispose (deleted : Bool)
  | release (reply : Reply)
  | drop (reply : Reply)

structure GcOutcome where
  store : MetaStore
  process : Process
  objects : List ObjectName

def collectRead (m : MetaStore) (id : String) (ids : List String) : GcPhase :=
  match m.getQuery id with
  | none => .loop ids
  | some record =>
    if record.state = .expired then .dispose record ids
    else if record.state.canTransitionTo .expired then
      .mark { record with state := .expired } ids
    else .loop ids

def gcStep (env : Env) (now : Time) (m : MetaStore) (p : Process)
    (objects : List ObjectName) (choice : GcChoice) : Option GcOutcome :=
  match p.gc, choice with
  | .idle, .begin reply =>
    if p.ready then
      let answer := m.tryLock now Process.gcLockName p.gcLockTTL
      some ⟨reply.apply m answer.2,
        { p with gc := if reply = .ok ∧ answer.1 then .list else .idle }, objects⟩
    else none
  | .list, .listed reply ids =>
    if reply ≠ .ok then some ⟨m, { p with gc := .idle }, objects⟩
    else if ids.Perm (m.listExpiredQueries now) then
      some ⟨m, { p with gc := .loop ids }, objects⟩
    else none
  -- the budget can run out before any ID, and the list ends
  | .loop _, .stop => some ⟨m, { p with gc := .idle }, objects⟩
  | .loop (id :: ids), .collect reply =>
    some ⟨m, { p with gc := if reply = .ok then collectRead m id ids else .loop ids },
      objects⟩
  | .mark record ids, .mark reply =>
    match m.updateQuery env.backend record with
    | none => some ⟨m, { p with gc := .loop ids }, objects⟩
    | some after =>
      some ⟨reply.apply m after,
        { p with gc := if reply = .ok then .dispose record ids else .loop ids }, objects⟩
  | .dispose record ids, .dispose deleted =>
    match record.result with
    | none => some ⟨m, { p with gc := .release record ids }, objects⟩
    | some ref =>
      if (env.stores.lookup ref.backend).isSome ∧ deleted then
        some ⟨m, { p with gc := .release record ids },
          objects.filter (· ≠ objectName ref)⟩
      else some ⟨m, { p with gc := .loop ids }, objects⟩
  | .release record ids, .release reply =>
    some ⟨if record.idempotencyKey = "" then m
        else reply.apply m (m.releaseIdempotency record.databaseID
          (scopedIdempotencyKey record.subject record.idempotencyKey) record.id),
      { p with gc := .drop record.id ids }, objects⟩
  | .drop id ids, .drop reply =>
    some ⟨reply.apply m (m.deleteQuery id), { p with gc := .loop ids }, objects⟩
  | _, _ => none

/-! ## Heartbeats -/

inductive HeartChoice where
  | begin
  | tick
  | write (reply : Reply)
  deriving DecidableEq, Repr

/-- The ticker's period is computed once; the TTL of each write is read from the
configuration in force. `time.NewTicker` panics on a period that is not
positive. -/
def heartStep (now : Time) (m : MetaStore) (p : Process) (choice : HeartChoice) :
    Option (MetaStore × Process) :=
  match p.heart, choice with
  | .off, .begin =>
    if p.ready then
      let period := p.heartbeatTTL.tdiv 2
      if period ≤ 0 then some (m, { p with alive := false })
      else some (m, { p with heartbeatPeriod := period, heart := .waiting (now + period) })
    else none
  | .waiting nextTick, .tick =>
    if nextTick ≤ now then
      some (m, { p with
        heart := .beat (nextTick + p.heartbeatPeriod) p.registry.activeReg.keys })
    else none
  | .beat nextTick ids, .write reply =>
    some (reply.apply m (m.heartbeat now ids p.heartbeatTTL),
      { p with heart := .waiting nextTick })
  | _, _ => none

end DbBridge.Cluster
