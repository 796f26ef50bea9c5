import DbBridge.Cluster.Provenance

/-!
# Every stored record is well-formed

The fields of a stored record fit its state, whoever wrote it and whatever it had read
before. The one writer whose own test does not ensure this is `failOwnerLost`, called
by `reapStaleOwners` with a record that may have ended with a result meanwhile. It is
saved by its conditional write: once a result is stored, the query's execution is past
its verdict, and nobody stores the query as unfinished again.
-/

namespace DbBridge.Domain

structure QueryRecord.Blank (record : QueryRecord) : Prop where
  result : record.result = none
  error : record.error = none
  finishedAt : record.finishedAt = 0

structure QueryRecord.WellFormed (record : QueryRecord) : Prop where
  unfinished : record.state = .pending ∨ record.state = .running →
    record.result = none ∧ record.error = none ∧ record.finishedAt = 0
  succeeded : record.state = .succeeded → record.result.isSome = true ∧ record.error = none
  failed : record.state = .failed → record.error.isSome = true ∧ record.result = none
  canceled : record.state = .canceled → record.result = none ∧ record.error = none
  terminal : record.state.isTerminal = true → record.finishedAt ≠ 0

variable {record : QueryRecord}

theorem QueryRecord.Blank.wellFormed (blank : record.Blank)
    (unfinished : record.state = .pending ∨ record.state = .running) : record.WellFormed := by
  refine ⟨fun _ => ⟨blank.result, blank.error, blank.finishedAt⟩, ?_, ?_, ?_, ?_⟩ <;>
    rcases unfinished with state | state <;> simp [state, QueryState.isTerminal]

inductive Verdict (record : QueryRecord) : QueryState → Option QueryError → Prop
  | succeeded (result : record.result.isSome = true) : Verdict record .succeeded none
  | failed (err : QueryError) (result : record.result = none) :
      Verdict record .failed (some err)
  | canceled (result : record.result = none) : Verdict record .canceled none

theorem Verdict.wellFormed {ended : QueryRecord} {next : QueryState} {qErr : Option QueryError}
    (verdict : Verdict record next qErr) (state : ended.state = next) (error : ended.error = qErr)
    (result : ended.result = record.result) (finished : ended.finishedAt ≠ 0) :
    ended.WellFormed := by
  cases verdict with
  | succeeded found =>
    exact ⟨by simp [state], fun _ => ⟨by rw [result]; exact found, error⟩, by simp [state],
      by simp [state], fun _ => finished⟩
  | failed _ none_ =>
    exact ⟨by simp [state], by simp [state],
      fun _ => ⟨by rw [error]; rfl, result.trans none_⟩, by simp [state], fun _ => finished⟩
  | canceled none_ =>
    exact ⟨by simp [state], by simp [state], by simp [state],
      fun _ => ⟨result.trans none_, error⟩, fun _ => finished⟩

end DbBridge.Domain

namespace DbBridge.Cluster

open Domain State

/-! ## Executions -/

def RunPhase.late : RunPhase → Bool
  | .persistTerminal _ | .refreshKey | .deregister | .freeSlot | .done => true
  | _ => false

variable {phase : RunPhase}

theorem RunPhase.not_late_of_writing {snapshot : QueryRecord}
    (writing : phase.writing? = some snapshot) : phase.late = false := by
  cases phase <;> first | rfl | contradiction

theorem RunPhase.not_late_of_reporter {reporter : Reporter}
    (reporting : phase.reporter? = some reporter) : phase.late = false := by
  cases phase <;> first | rfl | contradiction

theorem finishRun_late (now : Time) (run : Run) (next : QueryState)
    (qErr : Option QueryError) (dbDur storeDur : Duration) :
    (finishRun now run next qErr dbDur storeDur).phase.late = true := by
  unfold finishRun complete
  dsimp only
  split <;> rfl

theorem afterPersist_late (record : QueryRecord) : (afterPersist record).late = true := by
  unfold afterPersist
  split <;> rfl

/-- What is on the record of an execution, and on the snapshots of its reporter. -/
structure Run.Formed (run : Run) : Prop where
  early : run.phase.late = false → run.record.Blank
  ending : ∀ attempt, run.phase = .persistTerminal attempt → run.record.WellFormed
  snapshots : ∀ snapshot, run.phase.Holds snapshot → snapshot.Blank

theorem terminalFor_verdict (ctxErr : Option CtxErr) (err : GoError) (fallback : QueryErrorCode)
    {record : QueryRecord} (result : record.result = none) :
    Verdict record (terminalFor ctxErr err fallback).1 (terminalFor ctxErr err fallback).2 := by
  unfold terminalFor
  split
  · exact .canceled result
  · split <;> exact .failed _ result

variable {now : Time}

theorem finishRun_formed (clock : 0 < now) {run : Run} {next : QueryState}
    {qErr : Option QueryError} (verdict : Verdict run.record next qErr)
    (dbDur storeDur : Duration) : (finishRun now run next qErr dbDur storeDur).Formed where
  early := by simp [finishRun_late]
  ending := by
    unfold finishRun complete
    dsimp only
    intro attempt phase
    split
    · exact verdict.wellFormed rfl rfl rfl (ne_of_gt clock)
    · rename_i refused
      rw [if_neg refused] at phase
      contradiction
  snapshots := fun snapshot held => absurd held (RunPhase.not_holds (by simp) snapshot)

theorem report_blank {record : QueryRecord} (blank : record.Blank) (reporter : Reporter)
    (rows bytes : Int) : (report now record reporter rows bytes).1.Blank := by
  unfold report
  split <;> exact ⟨blank.result, blank.error, blank.finishedAt⟩

section
variable {m : MetaStore} {p : Process} {objects : List ObjectName} {run : Run}
  {choice : RunChoice} {out : RunOutcome}

section
variable (move : RunMove now m p objects run choice out)
include move

theorem RunMove.late (late : run.phase.late = true) :
    out.run.phase.late = true ∧ out.run.record = run.record := by
  cases move with
  | ended _ _ _ _ _ continues =>
    rcases continues with ⟨rfl, _⟩ | ⟨_, rfl⟩
    · exact ⟨afterPersist_late run.record, rfl⟩
    · exact ⟨rfl, rfl⟩
  | refused | refreshed | deregistered | freed => exact ⟨rfl, rfl⟩
  | took _ _ _ reporting | progressed _ _ _ _ _ reporting =>
    rw [RunPhase.not_late_of_reporter reporting] at late
    contradiction
  | started phase | begun _ _ _ _ phase | executed _ _ phase | execFailed _ _ _ phase
  | storeFailed _ _ _ phase | opened _ _ phase | reported _ _ _ _ _ _ phase
  | encoded _ _ _ _ _ _ phase | unread _ _ _ _ _ phase | stopped _ _ _ _ _ phase
  | closed _ _ _ _ _ _ phase | discarded _ _ _ _ _ _ _ phase =>
    rw [phase] at late
    contradiction

theorem RunMove.blank (blank : run.record.Blank) (early : out.run.phase.late = false) :
    out.run.record.Blank := by
  cases move with
  | started => exact ⟨blank.result, blank.error, blank.finishedAt⟩
  | reported | encoded => exact report_blank blank _ _ _
  | execFailed | storeFailed | discarded =>
    rw [finishRun_late] at early
    contradiction
  | closed _ _ _ result err =>
    cases failed : result.err with
    | some =>
      simp only [afterClose, failed]
      exact blank
    | none =>
      cases err with
      | some =>
        simp only [afterClose, failed]
        exact blank
      | none =>
        simp only [afterClose, failed, finishRun_late] at early
        contradiction
  | refused | begun | executed | opened | took | progressed | unread | stopped | ended
  | refreshed | deregistered | freed => exact blank

theorem RunMove.ending (clock : 0 < now) (formed : run.Formed) {attempt : Nat}
    (phase : out.run.phase = .persistTerminal attempt) : out.run.record.WellFormed := by
  cases move with
  | storeFailed _ _ _ before =>
    have blank := formed.early (by rw [before]; rfl)
    exact (finishRun_formed clock (.failed _ blank.result) _ _).ending _ phase
  | execFailed _ _ _ before | discarded _ _ _ _ _ _ _ before =>
    have blank := formed.early (by rw [before]; rfl)
    exact (finishRun_formed clock (terminalFor_verdict _ _ _ blank.result) _ _).ending _ phase
  | closed =>
    revert phase
    dsimp only [afterClose]
    split
    · intro phase
      contradiction
    · intro phase
      contradiction
    · intro phase
      exact (finishRun_formed clock (.succeeded rfl) _ _).ending _ phase
  | ended before _ _ _ was => exact formed.ending before was
  | took _ next point reporting _ stays | progressed _ next _ _ point reporting _ stays =>
    have early := RunPhase.not_late_of_reporter
      (RunPhase.withReporter_reporter? reporting next)
    rw [← stays, show point = .persistTerminal attempt from phase] at early
    contradiction
  | begun _ _ _ _ _ continues =>
    rcases continues with rfl | ⟨_, rfl⟩ <;> contradiction
  | started | refused | executed | opened | reported | encoded | unread | stopped | refreshed
  | deregistered | freed => contradiction

theorem RunMove.formed (clock : 0 < now) (formed : run.Formed) : out.run.Formed where
  early := by
    intro early
    have before : run.phase.late = false := by
      cases late : run.phase.late with
      | false => rfl
      | true =>
        rw [(move.late late).1] at early
        contradiction
    exact move.blank (formed.early before) early
  ending := fun _ phase => move.ending clock formed phase
  snapshots := by
    intro snapshot held
    rcases move.holds held with earlier | ⟨rfl, _, _, _, reporting, copied⟩
    · exact formed.snapshots snapshot earlier
    · rw [copied]
      exact report_blank (formed.early (RunPhase.not_late_of_reporter reporting)) _ _ _

end

end

namespace Deployment

/-! ## Queries past their verdict -/

/-- The execution of the query is past its verdict with the result `ref`, and the record
of the query, if there is one, is stored as terminal. -/
structure Concluded (d : Deployment) (queryID : String) (ref : ResultRef) : Prop where
  late : ∃ run, d.runs queryID = some run ∧ run.phase.late = true ∧
    run.record.result = some ref
  ended : ∀ record, d.store.queries.lookup queryID = some record →
    record.state.isTerminal = true

section
variable {env : Env} {d after : Deployment} {action : Action} {ref : ResultRef} {queryID : String}
  {record : QueryRecord}

section
variable (shape : Shape d)
include shape

theorem Move.late (move : Move env d action after)
    (late : ∃ run, d.runs queryID = some run ∧ run.phase.late = true ∧ run.record.result = some ref) :
    ∃ run, after.runs queryID = some run ∧ run.phase.late = true ∧
      run.record.result = some ref := by
  obtain ⟨run, executed, late, result⟩ := late
  rcases move.run_next shape executed with same | ⟨_, _, out, _, _, _, taken, rfl⟩
  · exact ⟨run, same, late, result⟩
  · obtain ⟨still, record⟩ := (runStep_move taken).late late
    exact ⟨out.run, by simp [applyRun, setRun], still, record ▸ result⟩

theorem Concluded.stores (concluded : Concluded d record.id ref) (stores : Stores d action record) :
    record.state.isTerminal = true ∧
      ∀ author, d.putting? action = some (author, record) → record.result = some ref := by
  obtain ⟨_, executed, late, result⟩ := concluded.late
  cases stores with
  | admitted _ _ _ sub phase =>
    rw [shape.no_run sub (by rw [phase]; rfl)] at executed
    contradiction
  | begun _ _ _ _ known phase =>
    rw [known] at executed
    cases executed
    rw [phase] at late
    contradiction
  | progressed _ _ _ _ known writing =>
    rw [known] at executed
    cases executed
    rw [RunPhase.not_late_of_writing writing] at late
    contradiction
  | ended _ _ _ _ known _ _ verdict =>
    rw [known] at executed
    cases executed
    exact ⟨by rcases verdict with state | state | state <;> rw [state] <;> rfl, fun _ _ => result⟩
  | reaped _ _ _ _ _ _ _ _ _ _ _ state | marked _ _ _ _ _ _ _ state =>
    exact ⟨by rw [state]; rfl, fun _ putting => by contradiction⟩

theorem Concluded.step (concluded : Concluded d queryID ref) (move : Move env d action after) :
    Concluded after queryID ref where
  late := move.late shape concluded.late
  ended := by
    intro record lookup
    rcases move.record_origin shape lookup with known | ⟨_, stores, rfl, _, rfl⟩
    · exact concluded.ended record known
    · exact (concluded.stores shape stores).1

end

theorem Concluded.not_reaped (concluded : Concluded d queryID ref) {current : QueryRecord}
    (lookup : d.store.queries.lookup queryID = some current)
    (unfinished : current.state ∈ ownerLostExpected) : False := by
  have ended := concluded.ended current lookup
  simp only [ownerLostExpected, List.mem_cons, List.not_mem_nil, or_false] at unfinished
  rcases unfinished with state | state <;> rw [state] at ended <;> contradiction

/-! ## The invariant -/

/-- A record with a result belongs to a query past its verdict with that result. -/
def ResultKept (d : Deployment) (record : QueryRecord) : Prop :=
  ∀ ref, record.result = some ref → Concluded d record.id ref

structure Formed (d : Deployment) : Prop where
  shape : Shape d
  clock : 0 < d.now
  stored : ∀ id record, d.store.queries.lookup id = some record →
    record.WellFormed ∧ ResultKept d record
  running : ∀ queryID run, d.runs queryID = some run → run.Formed
  reaping : ∀ pid p record, d.procs pid = some p → p.reaper.hand? = some record →
    ResultKept d record
  judged : ∀ pid p pass failed ids, d.procs pid = some p → p.reaper = .write pass failed ids →
    failed.error.isSome = true ∧ failed.finishedAt ≠ 0
  collecting : ∀ pid p record, d.procs pid = some p → p.gc.hand? = some record →
    record.finishedAt ≠ 0 ∧ ResultKept d record

theorem ResultKept.step (shape : Shape d) (kept : ResultKept d record)
    (move : Move env d action after) : ResultKept after record :=
  fun ref result => (kept ref result).step shape move

theorem Formed.read (formed : Formed d) {id : String} (found : d.store.getQuery id = some record) :
    record.WellFormed ∧ ResultKept d record := by
  obtain ⟨stored, _, lookup, rfl⟩ := d.store.getQuery_eq_some found
  obtain ⟨wellFormed, kept⟩ := formed.stored id stored lookup
  exact ⟨⟨wellFormed.unfinished, wellFormed.succeeded, wellFormed.failed, wellFormed.canceled,
    wellFormed.terminal⟩, kept⟩

theorem Formed.stores (formed : Formed d) (stores : Stores d action record) : record.WellFormed := by
  cases stores with
  | admitted _ s _ sub phase _ pending =>
    obtain ⟨_, p, _, sound⟩ := formed.shape.sub _ s sub
    obtain ⟨_, built⟩ := sound record (by rw [phase]; rfl)
    have blank : record.Blank := by
      rw [built]
      exact ⟨rfl, rfl, rfl⟩
    exact blank.wellFormed (.inl pending)
  | begun _ _ run _ executed phase _ state =>
    exact ((formed.running _ run executed).early (by rw [phase]; rfl)).wellFormed (.inr state)
  | progressed _ run _ _ executed writing _ _ state =>
    exact ((formed.running _ run executed).snapshots _
      (RunPhase.holds_of_writing writing)).wellFormed (.inr state)
  | ended _ _ run attempt executed phase => exact (formed.running _ run executed).ending attempt phase
  | reaped pid _ p pass _ _ ids found phase lookup unfinished verdict =>
    obtain ⟨error, finished⟩ := formed.judged pid p pass record ids found phase
    have kept := formed.reaping pid p record found (by rw [phase]; rfl)
    have none_ : record.result = none := by
      cases result : record.result with
      | none => rfl
      | some ref => exact ((kept ref result).not_reaped lookup unfinished).elim
    exact ⟨by simp [verdict], by simp [verdict], fun _ => ⟨error, none_⟩, by simp [verdict],
      fun _ => finished⟩
  | marked pid _ p _ _ found phase expired =>
    obtain ⟨finished, _⟩ := formed.collecting pid p record found (by rw [phase]; rfl)
    exact ⟨by simp [expired], by simp [expired], by simp [expired], by simp [expired],
      fun _ => finished⟩

section
variable (formed : Formed d) (move : Move env d action after)
include formed move

theorem Formed.stores_result (stores : Stores d action record)
    (stored : after.store = d.store.store record) : ResultKept after record := by
  intro ref result
  have ends : record.state.isTerminal = true → ∀ found,
      after.store.queries.lookup record.id = some found → found.state.isTerminal = true := by
    intro terminal found lookup
    rw [stored, MetaStore.store_lookup_self] at lookup
    cases lookup
    exact terminal
  cases stores with
  | ended _ _ run _ executed phase _ verdict =>
    refine ⟨move.late formed.shape ⟨run, executed, by rw [phase]; rfl, result⟩, ends ?_⟩
    rcases verdict with state | state | state <;> rw [state] <;> rfl
  | reaped pid _ p _ _ _ _ found phase =>
    exact (formed.reaping pid p record found (by rw [phase]; rfl) ref result).step
      formed.shape move
  | marked pid _ p _ _ found phase =>
    exact ((formed.collecting pid p record found (by rw [phase]; rfl)).2 ref result).step
      formed.shape move
  | admitted reply s record sub phase applied pending =>
    have unfinished := (formed.stores
      (.admitted reply s record sub phase applied pending)).unfinished (.inl pending)
    simp [unfinished.1] at result
  | begun reply giveUp run attempt executed phase applied state =>
    have unfinished := (formed.stores
      (.begun reply giveUp run attempt executed phase applied state)).unfinished (.inr state)
    simp [unfinished.1] at result
  | progressed _ run _ _ executed writing =>
    have blank := (formed.running _ run executed).snapshots _ (RunPhase.holds_of_writing writing)
    simp [blank.result] at result

theorem Formed.stored_step (id : String) (record : QueryRecord)
    (lookup : after.store.queries.lookup id = some record) :
    record.WellFormed ∧ ResultKept after record := by
  rcases move.record_origin formed.shape lookup with known | ⟨_, stores, _, stored, rfl⟩
  · obtain ⟨wellFormed, kept⟩ := formed.stored id record known
    exact ⟨wellFormed, kept.step formed.shape move⟩
  · have wellFormed := formed.stores stores
    have result := formed.stores_result move stores stored
    exact ⟨⟨wellFormed.unfinished, wellFormed.succeeded, wellFormed.failed,
      wellFormed.canceled, wellFormed.terminal⟩, result⟩

theorem Formed.running_step (queryID : String) (run : Run)
    (executed : after.runs queryID = some run) : run.Formed := by
  rcases move.run_origin formed.shape executed with
    same | ⟨_, s, record, _, sub, phase, rfl⟩ | ⟨_, before, p, _, _, known, _, taken, rfl⟩
  · exact formed.running queryID run same
  · obtain ⟨_, p, _, sound⟩ := formed.shape.sub queryID s sub
    obtain ⟨_, rfl⟩ := sound record (by rw [phase]; rfl)
    exact ⟨fun _ => ⟨rfl, rfl, rfl⟩, fun _ impossible => by contradiction,
      fun snapshot held => absurd held (RunPhase.not_holds rfl snapshot)⟩
  · exact (runStep_move taken).formed formed.clock (formed.running queryID before known)

theorem Formed.reaping_step (pid : Nat) (next : Process) (record : QueryRecord)
    (present : after.procs pid = some next) (hand : next.reaper.hand? = some record) :
    ResultKept after record := by
  refine ResultKept.step formed.shape ?_ move
  rcases move.reaper_hand present hand with
    ⟨before, found, same⟩ | ⟨_, _, _, read⟩ | ⟨before, _, read, _, found, phase, _, rfl⟩
  · exact formed.reaping pid before record found (same ▸ hand)
  · exact (formed.read read).2
  · exact formed.reaping pid before read found (by rw [phase]; rfl)

theorem Formed.step : Formed after where
  shape := formed.shape.step move
  clock := lt_of_lt_of_le formed.clock move.now_le
  stored := formed.stored_step move
  running := formed.running_step move
  reaping := formed.reaping_step move
  judged := by
    intro pid next pass failed ids present phase
    rcases move.reaper_hand present (by rw [phase]; rfl) with
      ⟨before, found, same⟩ | ⟨_, _, judging, _⟩ | ⟨before, _, read, _, _, _, _, rfl⟩
    · exact formed.judged pid before pass failed ids found (same ▸ phase)
    · rw [phase] at judging
      contradiction
    · exact ⟨rfl, ne_of_gt formed.clock⟩
  collecting := by
    intro pid next record present hand
    rcases move.gc_hand present hand with ⟨before, found, earlier⟩ | ⟨read, found, ended, rfl⟩
    · obtain ⟨finished, kept⟩ := formed.collecting pid before record found earlier
      exact ⟨finished, kept.step formed.shape move⟩
    · obtain ⟨wellFormed, kept⟩ := formed.read found
      exact ⟨wellFormed.terminal ended, ResultKept.step formed.shape kept move⟩

end

theorem Formed.initial (clock : 0 < now) : Formed (initial now) where
  shape := Shape.initial now
  clock := clock
  stored := by simp [Deployment.initial, MetaStore.empty]
  running := by simp [Deployment.initial]
  reaping := by simp [Deployment.initial]
  judged := by simp [Deployment.initial]
  collecting := by simp [Deployment.initial]

theorem Reachable.formed {guard : Deployment → Action → Prop}
    (reached : Reachable env guard d) : Formed d := by
  obtain ⟨_, positive, run⟩ := reached
  exact run.invariant Formed (Formed.initial positive) fun _ _ _ formed _ taken =>
    formed.step (step_move taken)

end

/-- In every state a deployment can reach, every stored record is well-formed. -/
theorem stored_records_are_wellFormed (env : Env) (d : Deployment)
    (reached : Reachable env Runs.Always d) (queryID : String) (record : QueryRecord)
    (stored : d.store.queries.lookup queryID = some record) : record.WellFormed :=
  (reached.formed.stored queryID record stored).1

/-- `q` ends after the reaper of process 2 has listed it as stale and before the reaper
reads it; the reaper then tries to store its verdict. -/
def reapSucceeded : List Action :=
  [.tick 20000000000, .reaper 2 .begin, .reaper 2 (.listed .ok ["q"]), .reaper 2 .next] ++
    finishQuery ++ [.reaper 2 (.fetched .ok), .reaper 2 .next, .reaper 2 (.written .ok)]

/-- A reaper that condemns a query with a result leaves its record as it is. -/
theorem condemned_success_stays_wellFormed :
    ∃ d record, Reachable sampleEnv Runs.Always d ∧
      d.store.queries.lookup "q" = some record ∧ record.state = .succeeded ∧ record.WellFormed := by
  obtain ⟨d, reached, record, stored, succeeded⟩ : ∃ d, Reachable sampleEnv Runs.Always d ∧
      ∃ record ∈ d.store.queries.lookup "q", record.state = .succeeded :=
    exists_reachable (runningQuery ++ reapSucceeded) (by decide +kernel)
  exact ⟨d, record, reached, stored, succeeded,
    stored_records_are_wellFormed sampleEnv d reached "q" record stored⟩

end Deployment

end DbBridge.Cluster
