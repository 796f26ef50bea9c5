import DbBridge.Cluster.System
import DbBridge.State.Keys

/-!
# The transitions of a submission and of an execution

`SubmitMove` and `RunMove` list what one step of `SubmitQuery` and of `run` can be, with the
outcome written out. The proofs about their variables go by cases on these; `submitStep_move`
and `runStep_move` are where the step functions are opened.
-/

namespace DbBridge.Cluster

open Authn Domain State

/-! ## Submissions -/

inductive SubmitMove (now : Time) (m : MetaStore) (p : Process) (s : Submission) :
    Reply → SubmitOutcome → Prop
  | found (existing : String) (phase : s.phase = .acquire)
      (held : m.holder now s.storedKey = some existing) :
      SubmitMove now m p s .ok ⟨m, p, .lookup existing, none⟩
  | foundAgain (existing : String) (phase : s.phase = .reacquire)
      (held : m.holder now s.storedKey = some existing) :
      SubmitMove now m p s .ok ⟨m, p, .relookup existing, none⟩
  | claimed (phase : s.phase = .acquire ∨ s.phase = .reacquire)
      (free : m.holder now s.storedKey = none) :
      SubmitMove now m p s .ok
        ⟨m.claim s.storedKey s.queryID (now + idempotencySubmitTTL s.opts), p, .ping, none⟩
  | unclaimed (reply : Reply) (err : SubmitError) (store : MetaStore)
      (phase : s.phase = .acquire ∨ s.phase = .reacquire) (failed : reply ≠ .ok)
      (stored : store = m ∨ reply = .lost ∧ m.holder now s.storedKey = none ∧
        store = m.claim s.storedKey s.queryID (now + idempotencySubmitTTL s.opts)) :
      SubmitMove now m p s reply ⟨store, p, .returned (.error err), none⟩
  | missing (existing : String) (phase : s.phase = .lookup existing)
      (absent : m.getQuery existing = none) :
      SubmitMove now m p s .ok ⟨m, p, .reclaim existing, none⟩
  | replied (reply : Reply) (id : String) (result : Except SubmitError QueryRecord)
      (phase : s.phase = .lookup id ∨ s.phase = .relookup id ∨ s.phase = .waiting ∧ id = s.queryID)
      (read : ∀ record, result = .ok record → m.getQuery id = some record ∧
        (s.phase = .lookup id → authorizeSubject s.caller record.subject = true)) :
      SubmitMove now m p s reply ⟨m, p, .returned result, none⟩
  | reclaimed (existing : String) (phase : s.phase = .reclaim existing) :
      SubmitMove now m p s .ok
        ⟨m.releaseIdempotency s.dbID s.idemKey existing, p, .reacquire, none⟩
  | unreclaimed (reply : Reply) (existing : String) (err : SubmitError)
      (phase : s.phase = .reclaim existing) (failed : reply ≠ .ok) :
      SubmitMove now m p s reply ⟨reply.apply m (m.releaseIdempotency s.dbID s.idemKey existing),
        p, .returned (.error err), none⟩
  | pinged (phase : s.phase = .ping) : SubmitMove now m p s .ok ⟨m, p, .slot, none⟩
  | unreachable (reply : Reply) (err : SubmitError) (phase : s.phase = .ping)
      (failed : reply ≠ .ok) : SubmitMove now m p s reply ⟨m, p, .freeKey err, none⟩
  | seated (reply : Reply) (slots : Slots) (phase : s.phase = .slot)
      (acquired : p.slots.acquire = some slots) :
      SubmitMove now m p s reply ⟨m, { p with slots := slots }, .admitting, none⟩
  | crowded (reply : Reply) (err : SubmitError) (phase : s.phase = .slot)
      (full : p.slots.acquire = none) : SubmitMove now m p s reply ⟨m, p, .freeKey err, none⟩
  | admitted (reply : Reply) (registry : Registry) (phase : s.phase = .admitting)
      (listed : p.registry.admitQuery s.queryID s.dbID = .ok registry) :
      SubmitMove now m p s reply
        ⟨m, { p with registry := registry }, .put (s.newRecord p.instanceID now), none⟩
  | turnedAway (reply : Reply) (err : SubmitError) (phase : s.phase = .admitting)
      (refused : p.registry.admitQuery s.queryID s.dbID = .error err) :
      SubmitMove now m p s reply ⟨m, p, .freeSlot err, none⟩
  | put (record : QueryRecord) (phase : s.phase = .put record) :
      SubmitMove now m p s .ok ⟨m.store record, p, .lease record, none⟩
  | unput (reply : Reply) (record : QueryRecord) (err : SubmitError)
      (phase : s.phase = .put record) (failed : reply ≠ .ok) :
      SubmitMove now m p s reply ⟨reply.apply m (m.store record), p, .dropEntry err, none⟩
  | leased (reply : Reply) (record : QueryRecord) (phase : s.phase = .lease record) :
      SubmitMove now m p s reply
        ⟨reply.apply m (m.heartbeat now [s.queryID] p.heartbeatTTL), p, .launch record, none⟩
  | launched (reply : Reply) (record : QueryRecord) (next : SubmitPhase)
      (phase : s.phase = .launch record)
      (continues : next = .waiting ∨ next = .returned (.ok record)) :
      SubmitMove now m p s reply ⟨m, p, next, some record⟩
  | dropped (reply : Reply) (err : SubmitError) (phase : s.phase = .dropEntry err) :
      SubmitMove now m p s reply
        ⟨m, { p with registry := p.registry.deregister s.queryID }, .freeSlot err, none⟩
  | unseated (reply : Reply) (err : SubmitError) (phase : s.phase = .freeSlot err) :
      SubmitMove now m p s reply ⟨m, { p with slots := p.slots.release }, .freeKey err, none⟩
  | ended (reply : Reply) (err : SubmitError) (phase : s.phase = .freeKey err) :
      SubmitMove now m p s reply ⟨if s.opts.idempotencyKey = "" then m
        else reply.apply m (m.releaseIdempotency s.dbID s.idemKey s.queryID),
        p, .returned (.error err), none⟩

section
variable {now : Time} {m : MetaStore} {p : Process} {s : Submission} {reply : Reply}
  {out : SubmitOutcome}

theorem acquireKey_move {onExisting : String → SubmitPhase}
    (phase : s.phase = .acquire ∨ s.phase = .reacquire)
    (found : ∀ existing, m.holder now s.storedKey = some existing →
      SubmitMove now m p s .ok ⟨m, p, onExisting existing, none⟩) :
    SubmitMove now m p s reply (acquireKey now m p s reply onExisting) := by
  rcases m.acquireIdempotency_cases now s.dbID s.idemKey s.queryID
      (idempotencySubmitTTL s.opts) with ⟨existing, held, answer⟩ | ⟨free, answer⟩
  · cases reply with
    | ok => simpa [acquireKey, answer, Reply.apply] using found existing held
    | failed | lost =>
      simp only [acquireKey, answer]
      exact .unclaimed _ _ _ phase (by simp) (.inl rfl)
  · cases reply with
    | ok =>
      simp only [acquireKey, answer]
      exact .claimed phase free
    | failed => exact .unclaimed _ _ _ phase (by simp) (.inl rfl)
    | lost =>
      simp only [acquireKey, answer]
      exact .unclaimed _ _ _ phase (by simp) (.inr ⟨rfl, free, rfl⟩)

theorem readBack_move {id : String}
    (phase : s.phase = .relookup id ∨ s.phase = .waiting ∧ id = s.queryID) :
    SubmitMove now m p s reply
      ⟨m, p, if reply = .ok then readBack m id else unreadable, none⟩ := by
  have notLookup : s.phase ≠ .lookup id := by
    rcases phase with phase | ⟨phase, _⟩ <;> simp [phase]
  simp only [readBack, unreadable]
  (repeat' split) <;> refine .replied reply id _ (.inr phase) ?_ <;> intro record returned <;>
    cases returned
  rename_i found
  exact ⟨found, fun here => absurd here notLookup⟩

theorem submitStep_move (taken : submitStep now m p s reply = some out) :
    SubmitMove now m p s reply out := by
  cases phase : s.phase <;> simp only [submitStep, phase, Option.some.injEq] at taken
  case slot =>
    split at taken <;> cases taken
    · exact .seated reply _ phase (by assumption)
    · exact .crowded reply _ phase (by assumption)
  case admitting =>
    split at taken <;> cases taken
    · exact .admitted reply _ phase (by assumption)
    · exact .turnedAway reply _ phase (by assumption)
  case returned => contradiction
  all_goals subst taken
  case acquire => exact acquireKey_move (.inl phase) fun existing => .found existing phase
  case reacquire => exact acquireKey_move (.inr phase) fun existing => .foundAgain existing phase
  case lookup existing =>
    simp only [lookupHolder, unreadable]
    split
    · rename_i answered
      subst answered
      cases found : m.getQuery existing with
      | none => exact .missing existing phase found
      | some =>
        dsimp only
        split <;> refine .replied .ok existing _ (.inl phase) ?_ <;> intro returned same <;>
          cases same
        exact ⟨found, fun _ => by assumption⟩
    · exact .replied reply existing _ (.inl phase) (by simp)
  case relookup existing => exact readBack_move (.inl phase)
  case waiting => exact readBack_move (.inr ⟨phase, rfl⟩)
  case lease record => exact .leased reply record phase
  case launch record =>
    exact .launched reply record _ phase (by split <;> simp)
  case dropEntry err => exact .dropped reply err phase
  case freeSlot err => exact .unseated reply err phase
  case freeKey err => exact .ended reply err phase
  case reclaim existing =>
    cases reply with
    | ok => exact .reclaimed existing phase
    | failed | lost => exact .unreclaimed _ existing _ phase (by simp)
  case ping =>
    cases reply with
    | ok => exact .pinged phase
    | failed | lost => exact .unreachable _ _ phase (by simp)
  case put record =>
    cases reply with
    | ok => exact .put record phase
    | failed | lost => exact .unput _ record _ phase (by simp)

end

/-! ## Executions -/

def RunPhase.reporter? : RunPhase → Option Reporter
  | .stream _ _ _ reporter | .stopping _ _ _ reporter _ => some reporter
  | _ => none

def RunPhase.withReporter (next : Reporter) : RunPhase → RunPhase
  | .stream dbDur storeStart ref _ => .stream dbDur storeStart ref next
  | .stopping dbDur storeStart ref _ encoded => .stopping dbDur storeStart ref next encoded
  | phase => phase

def givesUp (attempt : Nat) (giveUp ctxDone : Bool) : Bool :=
  terminalPersistAttempts ≤ attempt || giveUp && ctxDone

inductive RunMove (now : Time) (m : MetaStore) (p : Process) (objects : List ObjectName)
    (run : Run) : RunChoice → RunOutcome → Prop
  | started (phase : run.phase = .start)
      (allowed : run.record.state.canTransitionTo .running = true) :
      RunMove now m p objects run .go ⟨m, p, objects, { run with
        startTime := now
        record := { run.record with state := .running, startedAt := now }
        phase := .persistRunning 1 }⟩
  | refused (phase : run.phase = .start)
      (forbidden : ¬ run.record.state.canTransitionTo .running = true) :
      RunMove now m p objects run .go
        ⟨m, p, objects, { run with startTime := now, phase := .deregister }⟩
  | begun (attempt : Nat) (reply : Reply) (giveUp : Bool) (next : RunPhase)
      (phase : run.phase = .persistRunning attempt)
      (continues : next = .exec now ∨ reply ≠ .ok ∧ next = .persistRunning (attempt + 1)) :
      RunMove now m p objects run (.persist reply giveUp)
        ⟨reply.apply m (m.putQuery run.record), p, objects, { run with phase := next }⟩
  | executed (dbStart : Time) (ctxErr : Option CtxErr) (phase : run.phase = .exec dbStart) :
      RunMove now m p objects run (.exec none ctxErr)
        ⟨m, p, objects, { run with phase := .openWriter (now - dbStart) }⟩
  | execFailed (dbStart : Time) (err : GoError) (ctxErr : Option CtxErr)
      (phase : run.phase = .exec dbStart) :
      RunMove now m p objects run (.exec (some err) ctxErr)
        ⟨m, p, objects, finishRun now run (terminalFor ctxErr err .dbExecFailed).1
          (terminalFor ctxErr err .dbExecFailed).2 (now - dbStart) 0⟩
  | storeFailed (dbDur : Duration) (choice : RunChoice) (code : QueryErrorCode)
      (phase : run.phase = .openWriter dbDur) (fault : ∀ ref, choice ≠ .opened ref) :
      RunMove now m p objects run choice
        ⟨m, p, objects, finishRun now run .failed
          (some (newQueryError code (backendErrorMessage code) false)) dbDur 0⟩
  | opened (dbDur : Duration) (ref : ResultRef) (phase : run.phase = .openWriter dbDur) :
      RunMove now m p objects run (.opened ref)
        ⟨m, p, objectName ref :: objects, { run with phase := .stream dbDur now ref {} }⟩
  | reported (dbDur : Duration) (storeStart : Time) (ref : ResultRef) (reporter : Reporter)
      (rows bytes : Int) (phase : run.phase = .stream dbDur storeStart ref reporter) :
      RunMove now m p objects run (.report rows bytes)
        ⟨m, p, objects, { run with
          record := (report now run.record reporter rows bytes).1
          phase := .stream dbDur storeStart ref (report now run.record reporter rows bytes).2 }⟩
  | took (reporter next : Reporter) (point : RunPhase)
      (reporting : run.phase.reporter? = some reporter) (taken : reporter.take = some next)
      (stays : point = run.phase.withReporter next) :
      RunMove now m p objects run .take ⟨m, p, objects, { run with phase := point }⟩
  | progressed (reporter next : Reporter) (reply : Reply) (after : MetaStore)
      (point : RunPhase) (reporting : run.phase.reporter? = some reporter)
      (written : reporter.progress m reply = some (after, next))
      (stays : point = run.phase.withReporter next) :
      RunMove now m p objects run (.progress reply)
        ⟨after, p, objects, { run with phase := point }⟩
  | encoded (dbDur : Duration) (storeStart : Time) (ref : ResultRef) (reporter : Reporter)
      (result : Encoded) (bytes : Int) (phase : run.phase = .stream dbDur storeStart ref reporter) :
      RunMove now m p objects run (.encoded result (some bytes))
        ⟨m, p, objects, { run with
          record := (report now run.record reporter result.rows bytes).1
          phase := .stopping dbDur storeStart ref
            (report now run.record reporter result.rows bytes).2 result }⟩
  | unread (dbDur : Duration) (storeStart : Time) (ref : ResultRef) (result : Encoded)
      (failed : result.err.isSome = true) (phase : run.phase = .stream dbDur storeStart ref {}) :
      RunMove now m p objects run (.encoded result none)
        ⟨m, p, objects, { run with phase := .stopping dbDur storeStart ref {} result }⟩
  | stopped (dbDur : Duration) (storeStart : Time) (ref : ResultRef) (reporter : Reporter)
      (result : Encoded) (phase : run.phase = .stopping dbDur storeStart ref reporter result)
      (drained : reporter.drained = true) :
      RunMove now m p objects run .go
        ⟨m, p, objects, { run with phase := .closing dbDur storeStart ref result }⟩
  | closed (dbDur : Duration) (storeStart : Time) (ref : ResultRef) (result : Encoded)
      (err : Option GoError) (checksum : String)
      (phase : run.phase = .closing dbDur storeStart ref result) :
      RunMove now m p objects run (.close err checksum)
        ⟨m, p, objects, afterClose now run dbDur (now - storeStart) ref result err checksum⟩
  | discarded (dbDur storeDur : Duration) (ref : ResultRef) (err : GoError)
      (fallback : QueryErrorCode) (deleted : Bool) (ctxErr : Option CtxErr)
      (phase : run.phase = .discard dbDur storeDur ref err fallback) :
      RunMove now m p objects run (.discarded deleted ctxErr)
        ⟨m, p, if deleted then objects.filter (· ≠ objectName ref) else objects,
          finishRun now run (terminalFor ctxErr err fallback).1
            (terminalFor ctxErr err fallback).2 dbDur storeDur⟩
  | ended (attempt : Nat) (reply : Reply) (giveUp : Bool) (next : RunPhase)
      (phase : run.phase = .persistTerminal attempt)
      (continues : next = afterPersist run.record ∧
          (reply = .ok ∨ givesUp attempt giveUp p.ctxDone = true) ∨
        reply ≠ .ok ∧ next = .persistTerminal (attempt + 1)) :
      RunMove now m p objects run (.persist reply giveUp)
        ⟨reply.apply m (m.putQuery run.record), p, objects, { run with phase := next }⟩
  | refreshed (reply : Reply) (phase : run.phase = .refreshKey) :
      RunMove now m p objects run (.refresh reply)
        ⟨reply.apply m (m.refreshIdempotency now run.record.databaseID
            (scopedIdempotencyKey run.record.subject run.record.idempotencyKey)
            run.record.id run.record.options.resultTTL),
          p, objects, { run with phase := .deregister }⟩
  | deregistered (phase : run.phase = .deregister) :
      RunMove now m p objects run .go
        ⟨m, { p with registry := p.registry.deregister run.record.id }, objects,
          { run with phase := .freeSlot }⟩
  | freed (phase : run.phase = .freeSlot) :
      RunMove now m p objects run .go
        ⟨m, { p with slots := p.slots.release }, objects, { run with phase := .done }⟩

theorem persistAttempt_next (m : MetaStore) (record : QueryRecord) (ctxDone : Bool)
    (attempt : Nat) (reply : Reply) (giveUp : Bool) :
    ((persistAttempt m record ctxDone attempt reply giveUp).2 = none ∧
        (reply = .ok ∨ givesUp attempt giveUp ctxDone = true)) ∨
      reply ≠ .ok ∧
        (persistAttempt m record ctxDone attempt reply giveUp).2 = some (attempt + 1) := by
  unfold persistAttempt givesUp
  dsimp only
  split
  · rename_i ends
    refine .inl ⟨rfl, ?_⟩
    simpa using ends
  · rename_i goesOn
    exact .inr ⟨fun ok => goesOn (.inl ok), rfl⟩

theorem runStep_move {now : Time} {m : MetaStore} {p : Process} {objects : List ObjectName}
    {run : Run} {choice : RunChoice} {out : RunOutcome}
    (taken : runStep now m p objects run choice = some out) :
    RunMove now m p objects run choice out := by
  unfold runStep at taken
  split at taken
  case h_1 phase =>
    split at taken <;> cases taken
    · rename_i allowed
      exact .started phase allowed
    · rename_i forbidden
      exact .refused phase forbidden
  case h_2 attempt reply giveUp phase =>
    cases taken
    refine .begun attempt reply giveUp _ phase ?_
    rcases persistAttempt_next m run.record p.ctxDone attempt reply giveUp with
      ⟨ended, _⟩ | ⟨failed, again⟩
    · exact .inl (by simp only [ended])
    · exact .inr ⟨failed, by simp only [again]⟩
  case h_3 dbStart err ctxErr phase =>
    split at taken <;> cases taken
    · exact .executed dbStart ctxErr phase
    · exact .execFailed dbStart _ ctxErr phase
  case h_4 dbDur phase | h_5 dbDur phase =>
    cases taken
    exact .storeFailed dbDur _ _ phase (by simp)
  case h_6 dbDur ref phase =>
    cases taken
    exact .opened dbDur ref phase
  case h_7 dbDur storeStart ref reporter rows bytes phase =>
    cases taken
    exact .reported dbDur storeStart ref reporter rows bytes phase
  case h_8 reporter phase | h_12 reporter _ phase =>
    obtain ⟨next, moved, rfl⟩ := Option.map_eq_some_iff.mp taken
    exact .took reporter next _ (by rw [phase]; rfl) moved (by rw [phase]; rfl)
  case h_9 reporter reply phase | h_13 reporter _ reply phase =>
    obtain ⟨⟨after, next⟩, written, rfl⟩ := Option.map_eq_some_iff.mp taken
    exact .progressed reporter next reply after _ (by rw [phase]; rfl) written (by rw [phase]; rfl)
  case h_10 dbDur storeStart ref reporter result bytes phase =>
    cases taken
    exact .encoded dbDur storeStart ref reporter result bytes phase
  case h_11 dbDur storeStart ref reporter result phase =>
    split at taken <;> cases taken
    rename_i unread
    obtain ⟨rfl, failed⟩ := unread
    exact .unread dbDur storeStart ref result failed phase
  case h_14 dbDur storeStart ref reporter result phase =>
    split at taken <;> cases taken
    rename_i drained
    exact .stopped dbDur storeStart ref reporter result phase drained
  case h_15 dbDur storeStart ref result err checksum phase =>
    cases taken
    exact .closed dbDur storeStart ref result err checksum phase
  case h_16 dbDur storeDur ref err fallback deleted ctxErr phase =>
    cases taken
    exact .discarded dbDur storeDur ref err fallback deleted ctxErr phase
  case h_17 attempt reply giveUp phase =>
    cases taken
    refine .ended attempt reply giveUp _ phase ?_
    rcases persistAttempt_next m run.record p.ctxDone attempt reply giveUp with
      ⟨ended, why⟩ | ⟨failed, again⟩
    · exact .inl ⟨by simp only [ended], why⟩
    · exact .inr ⟨failed, by simp only [again]⟩
  case h_18 reply phase =>
    cases taken
    exact .refreshed reply phase
  case h_19 phase =>
    cases taken
    exact .deregistered phase
  case h_20 phase =>
    cases taken
    exact .freed phase
  case h_21 => contradiction

/-! ## Snapshots -/

def Reporter.Holds (reporter : Reporter) (snapshot : QueryRecord) : Prop :=
  reporter.mailbox = some snapshot ∨ reporter.writing = some snapshot

variable {snapshot : QueryRecord} {reporter : Reporter}

theorem report_holds {now : Time} {record : QueryRecord} {rows bytes : Int}
    (held : (report now record reporter rows bytes).2.Holds snapshot) :
    reporter.Holds snapshot ∨ snapshot = (report now record reporter rows bytes).1 := by
  unfold report at held ⊢
  split at held
  · exact .inl held
  · rename_i sends
    rw [if_neg sends]
    rcases held with mailbox | writing
    · cases waiting : reporter.mailbox with
      | none =>
        simp only [waiting, Option.getD_none, Option.some.injEq] at mailbox
        exact .inr mailbox.symm
      | some =>
        simp only [waiting, Option.getD_some, Option.some.injEq] at mailbox
        exact .inl (.inl (mailbox ▸ waiting))
    · exact .inl (.inr writing)

theorem Reporter.take_holds {next : Reporter} (taken : reporter.take = some next)
    (held : next.Holds snapshot) : reporter.Holds snapshot := by
  unfold Reporter.take at taken
  split at taken <;> cases taken
  rename_i first _ _ mailbox
  rcases held with impossible | writing
  · contradiction
  · exact .inl (writing ▸ mailbox)

theorem Reporter.progress_holds {m after : MetaStore} {next : Reporter} {reply : Reply}
    (written : reporter.progress m reply = some (after, next)) (held : next.Holds snapshot) :
    reporter.Holds snapshot := by
  have rest : next.mailbox = reporter.mailbox ∧ next.writing = none := by
    unfold Reporter.progress at written
    (repeat' split at written) <;> cases written <;> exact ⟨rfl, rfl⟩
  rcases held with mailbox | writing
  · exact .inl (rest.1 ▸ mailbox)
  · rw [rest.2] at writing
    contradiction

def RunPhase.Holds (phase : RunPhase) (snapshot : QueryRecord) : Prop :=
  ∃ reporter, phase.reporter? = some reporter ∧ reporter.Holds snapshot

variable {phase : RunPhase}

theorem RunPhase.not_holds (silent : phase.reporter? = none) (snapshot : QueryRecord) :
    ¬ phase.Holds snapshot := by
  rintro ⟨reporter, reporting, _⟩
  rw [silent] at reporting
  contradiction

theorem RunPhase.withReporter_reporter? (reporting : phase.reporter? = some reporter)
    (next : Reporter) : (phase.withReporter next).reporter? = some next := by
  cases phase <;> first | rfl | contradiction

@[simp] theorem finishRun_result (now : Time) (run : Run) (next : QueryState)
    (qErr : Option QueryError) (dbDur storeDur : Duration) :
    (finishRun now run next qErr dbDur storeDur).record.result = run.record.result := by
  unfold finishRun complete
  dsimp only
  split <;> rfl

@[simp] theorem finishRun_reporter? (now : Time) (run : Run) (next : QueryState)
    (qErr : Option QueryError) (dbDur storeDur : Duration) :
    (finishRun now run next qErr dbDur storeDur).phase.reporter? = none := by
  unfold finishRun complete
  dsimp only
  split <;> rfl

@[simp] theorem afterClose_reporter? (now : Time) (run : Run) (dbDur storeDur : Duration)
    (ref : ResultRef) (encoded : Encoded) (closeErr : Option GoError) (checksum : String) :
    (afterClose now run dbDur storeDur ref encoded closeErr checksum).phase.reporter? = none := by
  unfold afterClose
  split <;> first | rfl | exact finishRun_reporter? ..

theorem afterPersist_reporter? (record : QueryRecord) : (afterPersist record).reporter? = none := by
  unfold afterPersist
  split <;> rfl

section
variable {now : Time} {m : MetaStore} {p : Process} {objects : List ObjectName} {run : Run}
  {choice : RunChoice} {out : RunOutcome}

theorem RunMove.holds (move : RunMove now m p objects run choice out)
    (held : out.run.phase.Holds snapshot) :
    run.phase.Holds snapshot ∨
      snapshot = out.run.record ∧ ∃ reporter rows bytes, run.phase.reporter? = some reporter ∧
        out.run.record = (report now run.record reporter rows bytes).1 := by
  cases move with
  | reported _ _ _ reporter _ _ phase | encoded _ _ _ reporter _ _ phase =>
    have reporting : run.phase.reporter? = some reporter := by rw [phase]; rfl
    obtain ⟨_, same, held⟩ := held
    cases same
    rcases report_holds held with before | copied
    · exact .inl ⟨reporter, reporting, before⟩
    · exact .inr ⟨copied, reporter, _, _, reporting, rfl⟩
  | took reporter _ _ reporting taken stays =>
    subst stays
    obtain ⟨_, same, held⟩ := held
    rw [RunPhase.withReporter_reporter? reporting] at same
    cases same
    exact .inl ⟨reporter, reporting, Reporter.take_holds taken held⟩
  | progressed reporter _ _ _ _ reporting written stays =>
    subst stays
    obtain ⟨_, same, held⟩ := held
    rw [RunPhase.withReporter_reporter? reporting] at same
    cases same
    exact .inl ⟨reporter, reporting, Reporter.progress_holds written held⟩
  | opened | unread =>
    obtain ⟨_, same, held⟩ := held
    cases same
    rcases held with impossible | impossible <;> contradiction
  | begun _ _ _ _ _ continues =>
    refine absurd held (RunPhase.not_holds ?_ snapshot)
    rcases continues with rfl | ⟨_, rfl⟩ <;> rfl
  | ended _ _ _ _ _ continues =>
    refine absurd held (RunPhase.not_holds ?_ snapshot)
    rcases continues with ⟨rfl, _⟩ | ⟨_, rfl⟩
    · exact afterPersist_reporter? run.record
    · rfl
  | execFailed | storeFailed | discarded | closed =>
    exact absurd held (RunPhase.not_holds (by simp) snapshot)
  | started | refused | executed | stopped | refreshed | deregistered | freed =>
    exact absurd held (RunPhase.not_holds rfl snapshot)

end

end DbBridge.Cluster
