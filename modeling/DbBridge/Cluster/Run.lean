import DbBridge.Cluster.Process

/-!
# `run`, `progressReporter`, `complete` and `persist`

The goroutine that executes one query. `record` is the goroutine's own copy, the
one every check of the state machine looks at; the MetaStore sees it only through
`persist` and the progress writes.
-/

namespace DbBridge.Cluster

open Domain State

/-! ## Verdicts -/

inductive CtxErr where
  | canceled
  | deadlineExceeded
  deriving DecidableEq, Repr

def backendErrorMessage : QueryErrorCode → String
  | .dbExecFailed => "the database driver failed to execute the query"
  | .storageInitFailed => "the result storage backend failed to initialize"
  | .storageWriterFailed => "the result storage backend failed to open a writer"
  | .streamEncodeFailed => "encoding the result stream failed"
  | .storageFinalizeFailed => "the result storage backend failed to finalize the result"
  | _ => "the query failed"

def terminalFor (ctxErr : Option CtxErr) (err : GoError) (fallback : QueryErrorCode) :
    QueryState × Option QueryError :=
  if err.isCanceled ∨ ctxErr = some .canceled then (.canceled, none)
  else if err.isDeadlineExceeded ∨ ctxErr = some .deadlineExceeded then
    (.failed, some (newQueryError .queryTimeout "query exceeded its timeout" true))
  else (.failed, some (newQueryError fallback (backendErrorMessage fallback) false))

/-! ## Positions -/

/-- The goroutine behind `progressReporter`: its one-place mailbox, the snapshot
it is writing, and whether it has returned after a refused write (`lost`). `last` is
`none` for the zero time. -/
structure Reporter where
  mailbox : Option QueryRecord := none
  writing : Option QueryRecord := none
  lost : Bool := false
  last : Option Time := none
  deriving DecidableEq, Repr

/-- `stopReporting` returns once this holds: the queue is empty and no write is
in flight, or the goroutine is gone. -/
def Reporter.drained (reporter : Reporter) : Bool :=
  reporter.lost || (reporter.mailbox.isNone && reporter.writing.isNone)

def progressPersistInterval : Duration := 2 * second

def terminalPersistAttempts : Nat := 5

structure Encoded where
  rows : Int
  bytes : Int
  err : Option GoError
  deriving DecidableEq, Repr

inductive RunPhase where
  | start
  | persistRunning (attempt : Nat)
  | exec (dbStart : Time)
  | openWriter (dbDur : Duration)
  | stream (dbDur : Duration) (storeStart : Time) (ref : ResultRef) (reporter : Reporter)
  | stopping (dbDur : Duration) (storeStart : Time) (ref : ResultRef)
      (reporter : Reporter) (encoded : Encoded)
  | closing (dbDur : Duration) (storeStart : Time) (ref : ResultRef) (encoded : Encoded)
  | discard (dbDur storeDur : Duration) (ref : ResultRef) (err : GoError)
      (fallback : QueryErrorCode)
  | persistTerminal (attempt : Nat)
  | refreshKey
  | deregister
  | freeSlot
  | done
  deriving DecidableEq, Repr

structure Run where
  pid : Nat
  record : QueryRecord
  startTime : Time := 0
  phase : RunPhase := .start

/-- How the step at hand goes, where that is not determined by the state: the
replies of the store, the driver and the result store, the reads of the context,
and which of two goroutines moves. `emitted` is the count of bytes in the last report of
`EncodeStream`, which it defers once it has the columns. -/
inductive RunChoice where
  | go
  | persist (reply : Reply) (giveUp : Bool)
  | exec (err : Option GoError) (ctxErr : Option CtxErr)
  | storeMissing
  | writerFailed
  | opened (ref : ResultRef)
  | report (rows bytes : Int)
  | take
  | progress (reply : Reply)
  | encoded (result : Encoded) (emitted : Option Int)
  | close (err : Option GoError) (checksum : String)
  | discarded (deleted : Bool) (ctxErr : Option CtxErr)
  | refresh (reply : Reply)
  deriving DecidableEq, Repr

abbrev ObjectName := String × String

def objectName (ref : ResultRef) : ObjectName := (ref.backend, ref.locator)

structure RunOutcome where
  store : MetaStore
  process : Process
  objects : List ObjectName
  run : Run

/-! ## Steps -/

/-- One attempt of `persist`: the store after it, and the number of the next
attempt, `none` when `persist` returns. It returns early only when `qm.ctx` is
done. -/
def persistAttempt (m : MetaStore) (record : QueryRecord) (ctxDone : Bool)
    (attempt : Nat) (reply : Reply) (giveUp : Bool) : MetaStore × Option Nat :=
  (reply.apply m (m.putQuery record),
    if reply = .ok ∨ terminalPersistAttempts ≤ attempt ∨ (giveUp ∧ ctxDone) then none
    else some (attempt + 1))

/-- `complete` up to its `persist`; a refused transition returns from `run`. -/
def complete (now : Time) (run : Run) (next : QueryState) : Run :=
  if run.record.state.canTransitionTo next then
    { run with
      record := { run.record with state := next, finishedAt := now }
      phase := .persistTerminal 1 }
  else { run with phase := .deregister }

def finishRun (now : Time) (run : Run) (next : QueryState) (qErr : Option QueryError)
    (dbDur storeDur : Duration) : Run :=
  let stats := run.record.stats
  complete now
    { run with
      record := { run.record with
        error := qErr
        stats := { stats with
          dbExecDuration := dbDur
          storageWriteDuration := storeDur
          totalDuration :=
            if stats.totalDuration = 0 then now - run.record.createdAt
            else stats.totalDuration } } }
    next

/-- The branches of `run` after `writer.Close`, without `deletePartial`. -/
def afterClose (now : Time) (run : Run) (dbDur storeDur : Duration) (ref : ResultRef)
    (encoded : Encoded) (closeErr : Option GoError) (checksum : String) : Run :=
  match encoded.err, closeErr with
  | some err, _ => { run with phase := .discard dbDur storeDur ref err .streamEncodeFailed }
  | none, some err =>
    { run with phase := .discard dbDur storeDur ref err .storageFinalizeFailed }
  | none, none =>
    finishRun now
      { run with
        record := { run.record with
          result := some { ref with
            sizeBytes := encoded.bytes
            rowCount := encoded.rows
            checksum := "sha256:" ++ checksum }
          stats := { run.record.stats with
            rowsRead := encoded.rows
            bytesWritten := encoded.bytes
            totalDuration := now - run.startTime } } }
      .succeeded none dbDur storeDur

/-- `report`: throttled, and dropped when the mailbox is full. -/
def report (now : Time) (record : QueryRecord) (reporter : Reporter) (rows bytes : Int) :
    QueryRecord × Reporter :=
  if reporter.lost || reporter.last.any fun last => now - last < progressPersistInterval then
    (record, reporter)
  else
    let updated := { record with
      stats := { record.stats with
        rowsRead := rows
        bytesWritten := bytes
        totalDuration := now - record.createdAt } }
    (updated, { reporter with
      last := some now
      mailbox := some (reporter.mailbox.getD updated) })

def Reporter.take (reporter : Reporter) : Option Reporter :=
  match reporter.lost, reporter.writing, reporter.mailbox with
  | false, none, some snapshot =>
    some { reporter with mailbox := none, writing := some snapshot }
  | _, _, _ => none

def Reporter.progress (m : MetaStore) (reporter : Reporter) (reply : Reply) :
    Option (MetaStore × Reporter) :=
  match reporter.writing with
  | none => none
  | some snapshot =>
    match m.updateQueryIfState snapshot [.running] with
    | none => some (m, { reporter with writing := none })
    | some (written, after) =>
      some (reply.apply m after,
        { reporter with writing := none, lost := reply = .ok && !written })

def afterPersist (record : QueryRecord) : RunPhase :=
  if record.idempotencyKey ≠ "" ∧ record.options.resultTTL > 0 then .refreshKey
  else .deregister

def runStep (now : Time) (m : MetaStore) (p : Process) (objects : List ObjectName)
    (run : Run) (choice : RunChoice) : Option RunOutcome :=
  match run.phase, choice with
  | .start, .go =>
    if run.record.state.canTransitionTo .running then
      some ⟨m, p, objects, { run with
        startTime := now
        record := { run.record with state := .running, startedAt := now }
        phase := .persistRunning 1 }⟩
    else some ⟨m, p, objects, { run with startTime := now, phase := .deregister }⟩
  | .persistRunning attempt, .persist reply giveUp =>
    let answer := persistAttempt m run.record p.ctxDone attempt reply giveUp
    some ⟨answer.1, p, objects, { run with
      phase := match answer.2 with
        | some next => .persistRunning next
        | none => .exec now }⟩
  | .exec dbStart, .exec err ctxErr =>
    match err with
    | none => some ⟨m, p, objects, { run with phase := .openWriter (now - dbStart) }⟩
    | some err =>
      let verdict := terminalFor ctxErr err .dbExecFailed
      some ⟨m, p, objects,
        finishRun now run verdict.1 verdict.2 (now - dbStart) 0⟩
  | .openWriter dbDur, .storeMissing =>
    some ⟨m, p, objects, finishRun now run .failed (some (newQueryError
      .storageInitFailed (backendErrorMessage .storageInitFailed) false)) dbDur 0⟩
  | .openWriter dbDur, .writerFailed =>
    some ⟨m, p, objects, finishRun now run .failed (some (newQueryError
      .storageWriterFailed (backendErrorMessage .storageWriterFailed) false)) dbDur 0⟩
  | .openWriter dbDur, .opened ref =>
    some ⟨m, p, objectName ref :: objects, { run with phase := .stream dbDur now ref {} }⟩
  | .stream dbDur storeStart ref reporter, .report rows bytes =>
    let answer := report now run.record reporter rows bytes
    some ⟨m, p, objects, { run with
      record := answer.1, phase := .stream dbDur storeStart ref answer.2 }⟩
  | .stream dbDur storeStart ref reporter, .take =>
    reporter.take.map fun next =>
      ⟨m, p, objects, { run with phase := .stream dbDur storeStart ref next }⟩
  | .stream dbDur storeStart ref reporter, .progress reply =>
    (reporter.progress m reply).map fun answer =>
      ⟨answer.1, p, objects, { run with phase := .stream dbDur storeStart ref answer.2 }⟩
  | .stream dbDur storeStart ref reporter, .encoded result (some bytes) =>
    let answer := report now run.record reporter result.rows bytes
    some ⟨m, p, objects, { run with
      record := answer.1, phase := .stopping dbDur storeStart ref answer.2 result }⟩
  -- Columns failed, so nothing was reported
  | .stream dbDur storeStart ref reporter, .encoded result none =>
    if reporter = {} ∧ result.err.isSome then
      some ⟨m, p, objects, { run with phase := .stopping dbDur storeStart ref {} result }⟩
    else none
  -- stopReporting closes the mailbox; the goroutine still empties it
  | .stopping dbDur storeStart ref reporter encoded, .take =>
    reporter.take.map fun next =>
      ⟨m, p, objects, { run with phase := .stopping dbDur storeStart ref next encoded }⟩
  | .stopping dbDur storeStart ref reporter encoded, .progress reply =>
    (reporter.progress m reply).map fun answer =>
      ⟨answer.1, p, objects, { run with
        phase := .stopping dbDur storeStart ref answer.2 encoded }⟩
  | .stopping dbDur storeStart ref reporter encoded, .go =>
    if reporter.drained then
      some ⟨m, p, objects, { run with phase := .closing dbDur storeStart ref encoded }⟩
    else none
  | .closing dbDur storeStart ref encoded, .close err checksum =>
    some ⟨m, p, objects,
      afterClose now run dbDur (now - storeStart) ref encoded err checksum⟩
  -- deletePartial, whose error is only logged, and then the verdict
  | .discard dbDur storeDur ref err fallback, .discarded deleted ctxErr =>
    let verdict := terminalFor ctxErr err fallback
    some ⟨m, p, if deleted then objects.filter (· ≠ objectName ref) else objects,
      finishRun now run verdict.1 verdict.2 dbDur storeDur⟩
  | .persistTerminal attempt, .persist reply giveUp =>
    let answer := persistAttempt m run.record p.ctxDone attempt reply giveUp
    some ⟨answer.1, p, objects, { run with
      phase := match answer.2 with
        | some next => .persistTerminal next
        | none => afterPersist run.record }⟩
  | .refreshKey, .refresh reply =>
    some ⟨reply.apply m (m.refreshIdempotency now run.record.databaseID
        (scopedIdempotencyKey run.record.subject run.record.idempotencyKey)
        run.record.id run.record.options.resultTTL),
      p, objects, { run with phase := .deregister }⟩
  | .deregister, .go =>
    some ⟨m, { p with registry := p.registry.deregister run.record.id }, objects,
      { run with phase := .freeSlot }⟩
  | .freeSlot, .go =>
    some ⟨m, { p with slots := p.slots.release }, objects, { run with phase := .done }⟩
  | _, _ => none

end DbBridge.Cluster
