import DbBridge.Cluster.Effects

/-!
# The goroutines' own variables

What holds of each goroutine's local state in every run, whatever the others do:
the record a submission or an execution carries is the one of its query, in the
state its program point implies.
-/

namespace DbBridge.Cluster

open Domain State

variable {s : Submission} {now : Time} {m : MetaStore} {p : Process} {reply : Reply}
  {out : SubmitOutcome} {queryID : String} {state : QueryState} {phase : RunPhase} {run : Run}
  {objects : List ObjectName} {after : MetaStore} {next : Process}

/-! ## Submissions -/

def SubmitPhase.past : SubmitPhase → Bool
  | .waiting | .returned _ => true
  | _ => false

def SubmitPhase.record? : SubmitPhase → Option QueryRecord
  | .put record | .lease record | .launch record => some record
  | _ => none

def Submission.Sound (s : Submission) (instanceID : String) : Prop :=
  ∀ record ∈ s.phase.record?, ∃ created, record = s.newRecord instanceID created

theorem Submission.Sound.record {instanceID : String} (sound : s.Sound instanceID)
    {record : QueryRecord} (carried : s.phase.record? = some record) :
    record.id = s.queryID ∧ record.state = .pending ∧ record.ownerInstanceID = instanceID := by
  obtain ⟨_, rfl⟩ := sound record carried
  exact ⟨rfl, rfl, rfl⟩

variable {record : QueryRecord}

section
variable (taken : submitStep now m p s reply = some out)
include taken

theorem submitStep_record (carried : out.phase.record? = some record) :
    record = s.newRecord p.instanceID now ∨ s.phase.record? = some record := by
  cases submitStep_move taken with
  | admitted =>
    left
    simpa [SubmitPhase.record?] using carried.symm
  | put _ phase | leased _ _ phase =>
    right
    rw [phase]
    exact carried
  | launched _ _ _ _ continues =>
    rcases continues with rfl | rfl <;> simp [SubmitPhase.record?] at carried
  | _ => simp [SubmitPhase.record?] at carried

theorem submitStep_launched (launched : out.launched = some record) :
    s.phase = .launch record ∧ out.phase.past = true := by
  cases submitStep_move taken with
  | launched _ _ _ phase continues =>
    simp only [Option.some.injEq] at launched
    subst launched
    exact ⟨phase, by rcases continues with rfl | rfl <;> rfl⟩
  | _ => simp at launched

theorem submitStep_past (past : s.phase.past = true) : out.phase.past = true := by
  cases submitStep_move taken with
  | replied => rfl
  | claimed phase => rcases phase with phase | phase <;> simp [phase, SubmitPhase.past] at past
  | _ => simp_all [SubmitPhase.past]

theorem submitStep_process :
    ∃ registry slots, out.process = { p with registry := registry, slots := slots } := by
  cases submitStep_move taken <;> exact ⟨_, _, rfl⟩

end

/-! ## Executions -/

def isVerdict (state : QueryState) : Prop :=
  state = .succeeded ∨ state = .failed ∨ state = .canceled

def Reporter.Sound (reporter : Reporter) (queryID : String) : Prop :=
  ∀ snapshot, reporter.mailbox = some snapshot ∨ reporter.writing = some snapshot →
    snapshot.id = queryID ∧ snapshot.state = .running

def RunPhase.Sound (queryID : String) (state : QueryState) : RunPhase → Prop
  | .start => state = .pending
  | .persistRunning _ | .exec _ | .openWriter _ | .closing .. | .discard .. =>
    state = .running
  | .stream _ _ _ reporter | .stopping _ _ _ reporter _ =>
    state = .running ∧ reporter.Sound queryID
  | .persistTerminal _ | .refreshKey => isVerdict state
  | .deregister | .freeSlot | .done => True

theorem RunPhase.Sound.writing (sound : phase.Sound queryID state) {snapshot : QueryRecord}
    (writing : phase.writing? = some snapshot) :
    snapshot.id = queryID ∧ snapshot.state = .running := by
  cases phase with
  | stream | stopping => exact sound.2 snapshot (.inr writing)
  | _ => simp [RunPhase.writing?] at writing

structure Run.Sound (run : Run) (queryID : String) : Prop where
  id : run.record.id = queryID
  phase : run.phase.Sound queryID run.record.state

theorem terminalFor_isVerdict (ctxErr : Option CtxErr) (err : GoError)
    (fallback : QueryErrorCode) : isVerdict (terminalFor ctxErr err fallback).1 := by
  unfold terminalFor
  (repeat' split) <;> simp [isVerdict]

theorem finishRun_sound {next : QueryState} {qErr : Option QueryError} {dbDur storeDur : Duration}
    (id : run.record.id = queryID) (verdict : isVerdict next) :
    (finishRun now run next qErr dbDur storeDur).Sound queryID := by
  unfold finishRun complete
  dsimp only
  split
  · exact ⟨id, verdict⟩
  · exact ⟨id, trivial⟩

theorem afterPersist_sound (verdict : isVerdict record.state) :
    (afterPersist record).Sound queryID record.state := by
  unfold afterPersist
  split
  · exact verdict
  · trivial

@[simp] theorem report_state (record : QueryRecord) (reporter : Reporter) (rows bytes : Int) :
    (report now record reporter rows bytes).1.state = record.state := by
  unfold report
  split <;> rfl

theorem report_sound {reporter : Reporter} {rows bytes : Int}
    (id : record.id = queryID) (running : record.state =
      .running) (sound : reporter.Sound queryID) :
    (report now record reporter rows bytes).1.id = queryID ∧
      (report now record reporter rows bytes).1.state = .running ∧
      (report now record reporter rows bytes).2.Sound queryID := by
  have kept : (report now record reporter rows bytes).1.id = queryID ∧
      (report now record reporter rows bytes).1.state = .running := by
    unfold report
    split <;> exact ⟨id, running⟩
  refine ⟨kept.1, kept.2, fun snapshot held => ?_⟩
  rcases report_holds held with before | rfl
  · exact sound snapshot before
  · exact kept

theorem RunPhase.Sound.reporter {reporter : Reporter} (sound : phase.Sound queryID state)
    (reporting : phase.reporter? = some reporter) : reporter.Sound queryID := by
  cases phase <;> cases reporting <;> exact sound.2

theorem RunPhase.Sound.withReporter {reporter next : Reporter} (sound : phase.Sound queryID state)
    (reporting : phase.reporter? = some reporter) (next_sound : next.Sound queryID) :
    (phase.withReporter next).Sound queryID state := by
  cases phase <;> cases reporting <;> exact ⟨sound.1, next_sound⟩

variable {choice : RunChoice}

theorem runStep_sound {out : RunOutcome} (sound : run.Sound queryID)
    (taken : runStep now m p objects run choice = some out) : out.run.Sound queryID := by
  obtain ⟨id, shape⟩ := sound
  cases runStep_move taken with
  | started => exact ⟨id, rfl⟩
  | refused | refreshed | deregistered | freed => exact ⟨id, trivial⟩
  | begun _ _ _ _ phase continues =>
    rw [phase] at shape
    rcases continues with rfl | ⟨_, rfl⟩ <;> exact ⟨id, shape⟩
  | execFailed | discarded => exact finishRun_sound id (terminalFor_isVerdict ..)
  | storeFailed => exact finishRun_sound id (.inr (.inl rfl))
  | opened _ _ phase =>
    rw [phase] at shape
    exact ⟨id, shape, by simp [Reporter.Sound]⟩
  | reported _ _ _ _ _ _ phase | encoded _ _ _ _ _ _ phase =>
    rw [phase] at shape
    obtain ⟨id, next⟩ := report_sound id shape.1 shape.2
    exact ⟨id, next⟩
  | took _ _ _ reporting moved stays =>
    subst stays
    refine ⟨id, shape.withReporter reporting fun snapshot held => ?_⟩
    exact shape.reporter reporting snapshot (Reporter.take_holds moved held)
  | progressed _ _ _ _ _ reporting written stays =>
    subst stays
    refine ⟨id, shape.withReporter reporting fun snapshot held => ?_⟩
    exact shape.reporter reporting snapshot (Reporter.progress_holds written held)
  | executed _ _ phase | unread _ _ _ _ _ phase =>
    rw [phase] at shape
    exact ⟨id, shape⟩
  | stopped _ _ _ _ _ phase =>
    rw [phase] at shape
    exact ⟨id, shape.1⟩
  | closed _ _ _ _ _ _ phase =>
    rw [phase] at shape
    dsimp only
    unfold afterClose
    split
    · exact ⟨id, shape⟩
    · exact ⟨id, shape⟩
    · exact finishRun_sound id (.inl rfl)
  | ended _ _ _ _ phase continues =>
    rw [phase] at shape
    refine ⟨id, ?_⟩
    rcases continues with ⟨rfl, _⟩ | ⟨_, rfl⟩
    · exact afterPersist_sound shape
    · exact shape

@[simp] theorem finishRun_pid (now : Time) (run : Run) (next : QueryState)
    (qErr : Option QueryError) (dbDur storeDur : Duration) :
    (finishRun now run next qErr dbDur storeDur).pid = run.pid := by
  unfold finishRun complete
  dsimp only
  split <;> rfl

@[simp] theorem afterClose_pid (now : Time) (run : Run) (dbDur storeDur : Duration)
    (ref : ResultRef) (encoded : Encoded) (closeErr : Option GoError) (checksum : String) :
    (afterClose now run dbDur storeDur ref encoded closeErr checksum).pid = run.pid := by
  unfold afterClose
  split <;> simp

/-- No step of an execution touches what identifies its process, or moves the
execution to another. -/
theorem runStep_process {out : RunOutcome} (taken : runStep now m p objects run choice = some out) :
    out.run.pid = run.pid ∧
      ∃ registry slots, out.process = { p with registry := registry, slots := slots } := by
  cases runStep_move taken <;> exact ⟨by simp, _, _, rfl⟩

/-! ## Workers -/

theorem reaperStep_process {choice : ReapChoice}
    (taken : reaperStep now m p choice = some (after, next)) :
    ∃ reaper ready, next = { p with reaper := reaper, ready := ready } := by
  simp only [reaperStep, Process.endPass] at taken
  split at taken
  all_goals
    (repeat' split at taken) <;>
      first
      | contradiction
      | (cases taken; exact ⟨_, _, rfl⟩)

theorem gcStep_process {env : Env} {choice : GcChoice} {out : GcOutcome}
    (taken : gcStep env now m p objects choice = some out) :
    ∃ gc, out.process = { p with gc := gc } := by
  cases gcStep_move taken <;> exact ⟨_, rfl⟩

theorem heartStep_process {choice : HeartChoice}
    (taken : heartStep now m p choice = some (after, next)) :
    ∃ period heart alive, next =
        { p with heartbeatPeriod := period, heart := heart, alive := alive } ∧
      (alive = true → p.alive = true) := by
  simp only [heartStep] at taken
  split at taken
  all_goals
    (repeat' split at taken) <;>
      first
      | contradiction
      | (cases taken; exact ⟨_, _, _, rfl, by simp⟩)

def ReaperPhase.Sound : ReaperPhase → Prop
  | .write _ failed _ => failed.state = .failed
  | _ => True

theorem reaperStep_sound {choice : ReapChoice}
    (taken : reaperStep now m p choice = some (after, next)) : next.reaper.Sound := by
  simp only [reaperStep, Process.endPass] at taken
  split at taken
  all_goals
    (repeat' split at taken) <;>
      first
      | contradiction
      | (cases taken; trivial)

def GcPhase.Sound : GcPhase → Prop
  | .mark record _ | .dispose record _ => record.state = .expired
  | _ => True

theorem collectRead_sound (m : MetaStore) (id : String) (ids : List String) :
    (collectRead m id ids).Sound := by
  rcases collectRead_cases m id ids with skip | ⟨_, _, _, phase | phase⟩
  · rw [skip]
    trivial
  all_goals
    rw [phase]
    rfl

theorem GcAdvances.sound {before after : GcPhase} (advances : GcAdvances now m before after)
    (sound : before.Sound) : after.Sound := by
  cases advances with
  | read => exact collectRead_sound ..
  | marked => exact sound
  | stopped | locked | listed | skipped | disposed | released | left => trivial

end DbBridge.Cluster
