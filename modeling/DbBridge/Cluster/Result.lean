import DbBridge.Cluster.Writes
import DbBridge.Storage.Accounting

/-!
# What `SUCCEEDED` says about the result

The replies that `run` gets from `EncodeStream` and from `Close` are tied here to the
row stream and to the store's writer behind them. A query is stored as `SUCCEEDED`
only with the description of a result that was read to its end and taken whole.
-/

namespace DbBridge.Cluster

open Domain State Storage

/-! ## One query's stream, writer and hasher -/

def hexDigit (n : Nat) : Char := Nat.digitChar (n % 16)

def hexEncode (bytes : List UInt8) : String :=
  String.ofList (bytes.flatMap fun byte => [hexDigit (byte.toNat / 16), hexDigit byte.toNat])

structure Job (Value : Type) where
  codec : Codec Value
  parquet : Parquet Value
  stream : RowStream Value
  writer : ResultWriter
  sha256 : List UInt8 → List UInt8

namespace Job

variable {Value : Type} (job : Job Value) (format : String)

/-- `EncodeStream` over `io.MultiWriter(writer, hasher)`. -/
def outcome : Encoding Value × Pipe :=
  (encodeStream job.codec job.parquet format job.stream).run (multiWrite job.writer) {}

def encoded : Encoded where
  rows := (job.outcome format).1.rows
  bytes := (job.outcome format).1.bytes
  err := (job.outcome format).1.err

def calls : List WriteCall := (job.outcome format).2.calls

def closeErr : Option GoError := job.writer.close (job.calls format)

def checksum : String := hexEncode (job.sha256 (job.outcome format).2.hashed)

/-- The stream was read to its end, every write and `Close` went well, and `ref`
gives the rows of the stream and the size and the checksum of the accepted bytes. -/
structure Describes (ref : ResultRef) : Prop where
  returned : (job.encoded format).err = none
  read : ReadToEnd job.stream.events (job.outcome format).1.left ref.rowCount
  ended : job.stream.err (job.outcome format).1.left = none
  whole : ∀ call ∈ job.calls format, call.n = call.bytes.length ∧ call.err = none
  closed : job.closeErr format = none
  size : ref.sizeBytes = ((accepted (job.calls format)).length : Int)
  checksum : ref.checksum = "sha256:" ++ hexEncode (job.sha256 (accepted (job.calls format)))

variable {job format}

theorem describes (reports : job.parquet.Reports) (clear : (job.encoded format).err = none)
    (closed : job.closeErr format = none) (ref : ResultRef) :
    job.Describes format { ref with
      sizeBytes := (job.encoded format).bytes
      rowCount := (job.encoded format).rows
      checksum := "sha256:" ++ job.checksum format } := by
  have empty : Pipe.Took [] {} := ⟨by simp, rfl, rfl⟩
  rcases Writes.run_of_ensures (multiWrite_took job.writer)
      (encodeStream_ensures job.codec reports format job.stream) empty with
    failed | ⟨sent, account, whole, same, hashed⟩
  · exact absurd clear failed
  · obtain ⟨read, ended, total⟩ := account clear
    refine ⟨clear, read, ended, whole, closed, ?_, ?_⟩
    · show (job.outcome format).1.bytes = _
      rw [calls, outcome, same]
      exact total
    · show "sha256:" ++ hexEncode (job.sha256 (job.outcome format).2.hashed) = _
      rw [calls, outcome, same, hashed]

end Job

/-! ## One step of an execution -/

def Job.Answers {Value : Type} (job : Job Value) (format : String) : RunChoice → Prop
  | .encoded result _ => result = job.encoded format
  | .close err checksum => err = job.closeErr format ∧ checksum = job.checksum format
  | _ => True

instance {Value : Type} (job : Job Value) (format : String) (choice : RunChoice) :
    Decidable (job.Answers format choice) := by
  unfold Job.Answers
  split <;> infer_instance

def RunPhase.encoded? : RunPhase → Option Encoded
  | .stopping _ _ _ _ encoded | .closing _ _ _ encoded => some encoded
  | _ => none

theorem finishRun_record (now : Time) (run : Run) (next : QueryState)
    (qErr : Option QueryError) (dbDur storeDur : Duration) :
    (finishRun now run next qErr dbDur storeDur).record.options = run.record.options ∧
      (finishRun now run next qErr dbDur storeDur).record.result = run.record.result ∧
      (finishRun now run next qErr dbDur storeDur).phase.encoded? = none ∧
      ((finishRun now run next qErr dbDur storeDur).record.state = next ∨
        (finishRun now run next qErr dbDur storeDur).record.state = run.record.state) := by
  unfold finishRun complete
  dsimp only
  split
  · exact ⟨rfl, rfl, rfl, .inl rfl⟩
  · exact ⟨rfl, rfl, rfl, .inr rfl⟩

theorem terminalFor_ne_succeeded (ctxErr : Option CtxErr) (err : GoError)
    (fallback : QueryErrorCode) : (terminalFor ctxErr err fallback).1 ≠ .succeeded := by
  unfold terminalFor
  (repeat' split) <;> simp

/-- The execution holds what `EncodeStream` returned for the job, and its record is
succeeded only with a description of the job's result. -/
structure Run.Follows {Value : Type} (job : Job Value) (run : Run) : Prop where
  encoded : ∀ encoded, run.phase.encoded? = some encoded →
    encoded = job.encoded run.record.options.resultFormat
  described : run.record.state = .succeeded → ∃ ref, run.record.result = some ref ∧
    job.Describes run.record.options.resultFormat ref

section
variable {Value : Type} {job : Job Value} {run : Run}

theorem Run.Follows.of_unfinished (none_ : run.phase.encoded? = none)
    (unfinished : run.record.state ≠ .succeeded) : run.Follows job :=
  ⟨by simp [none_], fun succeeded => absurd succeeded unfinished⟩

variable {now : Time} {dbDur storeDur : Duration}

theorem Run.Follows.finishRun {next : QueryState} {qErr : Option QueryError}
    (ends : next ≠ .succeeded) (running : run.record.state = .running) :
    (finishRun now run next qErr dbDur storeDur).Follows job := by
  obtain ⟨_, _, forgotten, state⟩ := finishRun_record now run next qErr dbDur storeDur
  refine .of_unfinished forgotten ?_
  rcases state with state | state <;> rw [state]
  · exact ends
  · simp [running]

theorem Run.Follows.afterClose (reports : job.parquet.Reports) {ref : ResultRef}
    {encoded : Encoded} {closeErr : Option GoError} {checksum : String}
    (running : run.record.state = .running)
    (same : encoded = job.encoded run.record.options.resultFormat)
    (closes : closeErr = job.closeErr run.record.options.resultFormat)
    (sums : checksum = job.checksum run.record.options.resultFormat) :
    (afterClose now run dbDur storeDur ref encoded closeErr checksum).Follows job := by
  unfold Cluster.afterClose
  split
  · exact .of_unfinished rfl (by simp [running])
  · exact .of_unfinished rfl (by simp [running])
  · rename_i clear
    obtain ⟨options, result, forgotten, _⟩ := finishRun_record now
      { run with
        record := { run.record with
          result := some { ref with
            sizeBytes := encoded.bytes
            rowCount := encoded.rows
            checksum := "sha256:" ++ checksum }
          stats := { run.record.stats with
            rowsRead := encoded.rows
            bytesWritten := encoded.bytes
            totalDuration := now - run.startTime } } } .succeeded none dbDur storeDur
    refine ⟨by simp [forgotten], fun _ => ⟨_, result, ?_⟩⟩
    rw [options, same, sums]
    exact Job.describes reports (same ▸ clear) closes.symm ref

theorem RunPhase.encoded?_withReporter (phase : RunPhase) (next : Reporter) :
    (phase.withReporter next).encoded? = phase.encoded? := by
  cases phase <;> rfl

theorem runStep_follows (reports : job.parquet.Reports) {m : MetaStore} {p : Process}
    {objects : List ObjectName} {choice : RunChoice} {out : RunOutcome} {queryID : String}
    (sound : run.Sound queryID) (follows : run.Follows job)
    (answers : job.Answers run.record.options.resultFormat choice)
    (taken : runStep now m p objects run choice = some out) : out.run.Follows job := by
  obtain ⟨_, shape⟩ := sound
  cases runStep_move taken with
  | started => exact .of_unfinished rfl (by simp)
  | refused | executed | opened | refreshed | deregistered | freed =>
    exact ⟨by simp [RunPhase.encoded?], follows.described⟩
  | begun _ _ _ _ _ continues =>
    refine ⟨?_, follows.described⟩
    rcases continues with rfl | ⟨_, rfl⟩ <;> simp [RunPhase.encoded?]
  | execFailed _ _ _ phase | discarded _ _ _ _ _ _ _ phase =>
    rw [phase] at shape
    exact .finishRun (terminalFor_ne_succeeded _ _ _) shape
  | storeFailed _ _ _ phase =>
    rw [phase] at shape
    exact .finishRun (by simp) shape
  | reported _ _ _ _ _ _ phase =>
    rw [phase] at shape
    exact .of_unfinished rfl (by simp [shape.1])
  | took _ _ _ _ _ stays | progressed _ _ _ _ _ _ _ stays =>
    refine ⟨?_, follows.described⟩
    rw [stays, RunPhase.encoded?_withReporter]
    exact follows.encoded
  | encoded _ _ _ _ _ _ phase =>
    rw [phase] at shape
    refine ⟨fun _ held => ?_, by simp [shape.1]⟩
    rw [← Option.some.inj held]
    unfold report
    split <;> exact answers
  | unread => exact ⟨fun _ held => Option.some.inj held ▸ answers, follows.described⟩
  | stopped _ _ _ _ _ phase =>
    have held := follows.encoded _ (by rw [phase]; rfl)
    exact ⟨fun _ kept => Option.some.inj kept ▸ held, follows.described⟩
  | closed _ _ _ _ _ _ phase =>
    have held := follows.encoded _ (by rw [phase]; rfl)
    rw [phase] at shape
    exact .afterClose reports shape held answers.1 answers.2
  | ended _ _ _ _ _ continues =>
    refine ⟨?_, follows.described⟩
    rcases continues with ⟨rfl, _⟩ | ⟨_, rfl⟩
    · unfold afterPersist
      split <;> simp [RunPhase.encoded?]
    · simp [RunPhase.encoded?]

end

/-! ## Whole runs -/

namespace Deployment

variable {Value : Type} (jobs : String → Job Value)

/-- The condition on a step: the execution of a query gets the replies of its job. -/
def FollowsJobs (d : Deployment) : Action → Prop
  | .execution queryID choice => ∀ run ∈ d.runs queryID,
      (jobs queryID).Answers run.record.options.resultFormat choice
  | _ => True

instance (d : Deployment) (action : Action) : Decidable (FollowsJobs jobs d action) := by
  apply Action.casesOn (motive := fun action => Decidable (FollowsJobs jobs d action)) action
  case execution => exact fun queryID choice => inferInstanceAs (Decidable
    (∀ run ∈ d.runs queryID, (jobs queryID).Answers run.record.options.resultFormat choice))
  all_goals intros; exact instDecidableTrue

variable {jobs} {d : Deployment} {action : Action} {env : Env}

section
variable (reports : ∀ queryID, (jobs queryID).parquet.Reports)
include reports

theorem follows_step {after : Deployment} (shape : Shape d)
    (follows : ∀ queryID run, d.runs queryID = some run → run.Follows (jobs queryID))
    (guard : FollowsJobs jobs d action) (move : Move env d action after) (queryID : String)
    (run : Run) (executed : after.runs queryID = some run) : run.Follows (jobs queryID) := by
  rcases move.run_origin shape executed with
    before | ⟨_, s, record, _, sub, phase, rfl⟩ |
      ⟨_, before, _, _, rfl, known, _, taken, rfl⟩
  · exact follows queryID run before
  · obtain ⟨_, _, _, sound⟩ := shape.sub queryID s sub
    have carried : s.phase.record? = some record := by simp [phase, SubmitPhase.record?]
    exact .of_unfinished rfl (by simp [(sound.record carried).2.1])
  · exact runStep_follows (reports queryID) (shape.run queryID before known).1
      (follows queryID before known) (guard before known) taken

theorem Reachable.follows (reached : Reachable env (FollowsJobs jobs) d) (queryID : String)
    (run : Run) (executed : d.runs queryID = some run) : run.Follows (jobs queryID) := by
  refine reached.invariant
    (fun d => ∀ queryID run, d.runs queryID = some run → run.Follows (jobs queryID))
    (by simp [initial]) (fun shape follows guard move => ?_) queryID run executed
  exact follows_step reports shape follows guard move

end

theorem Stores.of_succeeded {record : QueryRecord} (stores : Stores d action record)
    (succeeded : record.state = .succeeded) :
    ∃ run, d.runs record.id = some run ∧ run.record = record := by
  cases stores with
  | ended _ _ run _ executed => exact ⟨run, executed, rfl⟩
  | admitted _ _ _ _ _ _ state | begun _ _ _ _ _ _ _ state | progressed _ _ _ _ _ _ _ _ state
  | reaped _ _ _ _ _ _ _ _ _ _ _ state | marked _ _ _ _ _ _ _ state =>
    rw [succeeded] at state
    contradiction

/-- Whenever a step stores a query as `SUCCEEDED`, the stored record describes a
result that was read to the end of the stream and that the store took whole. -/
theorem succeeded_means_complete_result (env : Env) (jobs : String → Job Value)
    (reports : ∀ queryID, (jobs queryID).parquet.Reports) (d after : Deployment)
    (action : Action) (reached : Reachable env (FollowsJobs jobs) d)
    (taken : step env d action = some after) (queryID : String)
    (stores : after.store.journal queryID = .succeeded :: d.store.journal queryID) :
    ∃ record ref, after.store.queries.lookup queryID = some record ∧
      record.state = .succeeded ∧ record.result = some ref ∧
      (jobs queryID).Describes record.options.resultFormat ref := by
  rcases (step_move taken).journal reached.shape queryID with
    same | ⟨record, rfl, written, stored, grown⟩
  · exact absurd (same.symm.trans stores) (by simp)
  · have succeeded : record.state = .succeeded := by
      rw [grown] at stores
      exact (List.cons.inj stores).1
    obtain ⟨run, executed, rfl⟩ := written.of_succeeded succeeded
    obtain ⟨ref, result, describes⟩ :=
      (reached.follows reports _ run executed).described succeeded
    refine ⟨{ run.record with leaseDeadline := 0 }, ref, ?_, succeeded, result, describes⟩
    rw [stored]
    exact d.store.store_lookup_self run.record

/-! ## A query with one row

Its result goes to a writer that takes everything, in the format `jsonl`. -/

def silentParquet : Parquet Unit := .silent _

theorem silentParquet_reports : silentParquet.Reports where
  writeRows := fun _ _ _ => trivial
  flush := fun _ _ => trivial
  close := fun _ _ => trivial

def sampleJob : Job Unit where
  codec :=
    { toString := fun _ => ""
      csvRecord := fun _ => []
      text := id
      marshal := fun _ => .ok [110, 117, 108, 108] }
  parquet := silentParquet
  stream :=
    { columns := .ok ["n"]
      events := [.row ⟨none, .ok [()]⟩]
      err := fun _ => none }
  writer := ⟨fun _ bytes => (bytes.length, none), fun _ => none⟩
  sha256 := id

def encodeQuery : List Action :=
  [.execution "q" (.exec none none),
    .execution "q" (.opened { backend := "fs", locator := "q.jsonl", format := "jsonl" }),
    .execution "q" (.encoded ⟨1, 5, none⟩ (some 5)), .execution "q" .take,
    .execution "q" (.progress .ok), .execution "q" .go,
    .execution "q" (.close none "6e756c6c0a")]

def storedResult (d : Deployment) : List QueryState × Option ResultRef :=
  (d.store.journal "q", (d.store.queries.lookup "q").bind (·.result))

theorem one_row_result_is_described :
    ∃ d after, Reachable sampleEnv (FollowsJobs fun _ => sampleJob) d ∧
      step sampleEnv d (.execution "q" (.persist .ok false)) = some after ∧
      storedResult after = ([.succeeded, .running, .running, .pending], some
        { backend := "fs", locator := "q.jsonl", format := "jsonl", sizeBytes := 5,
          rowCount := 1, checksum := "sha256:6e756c6c0a" }) ∧
      ∃ record ref, after.store.queries.lookup "q" = some record ∧
        record.state = .succeeded ∧ record.result = some ref ∧
        sampleJob.Describes record.options.resultFormat ref := by
  obtain ⟨d, reached, before, after, taken, final⟩ :
      ∃ d, Reachable sampleEnv (FollowsJobs fun _ => sampleJob) d ∧
        d.store.journal "q" = [.running, .running, .pending] ∧
        ∃ after ∈ step sampleEnv d (.execution "q" (.persist .ok false)),
          storedResult after = ([.succeeded, .running, .running, .pending], some
            { backend := "fs", locator := "q.jsonl", format := "jsonl", sizeBytes := 5,
              rowCount := 1, checksum := "sha256:6e756c6c0a" }) :=
    exists_reachable (runningQuery ++ encodeQuery) (by decide +kernel)
  refine ⟨d, after, reached, taken, final, ?_⟩
  refine succeeded_means_complete_result sampleEnv (fun _ => sampleJob)
    (fun _ => silentParquet_reports) d after _ reached taken "q" ?_
  rw [before]
  exact (Prod.mk.inj final).1

end Deployment

end DbBridge.Cluster
