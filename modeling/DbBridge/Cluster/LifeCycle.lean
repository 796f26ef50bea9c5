import Mathlib.Data.List.Chain
import DbBridge.Cluster.Writes

/-!
# The life cycle of a record

The states in which a query's record is stored, one after the other, should form
a path of `CanTransitionTo`. The goroutine that executes the query writes its
record without looking at what is stored, so the path can be kept only while
nobody else writes to the query. `Stage` abstracts the author of a record to what
it may still write, and `Undisturbed` is the condition on a run under which the
other writers keep out of its way.
-/

namespace DbBridge.Cluster

open Domain State

/-- Newest first, as the journal is kept. -/
def LegalPath (states : List QueryState) : Prop :=
  states.IsChain fun later earlier => earlier.canTransitionTo later = true

variable {states : List QueryState} {next : QueryState}

theorem LegalPath.write (legal : LegalPath states)
    (allowed : ∀ last, states.head? = some last → last.canTransitionTo next = true) :
    LegalPath (next :: states) :=
  List.IsChain.cons legal allowed

theorem LegalPath.after_terminal {newer older : List QueryState} {state : QueryState}
    (legal : LegalPath (newer ++ state :: older)) (terminal : state.isTerminal = true) :
    ∀ later ∈ newer, later = state ∨ later = .expired := by
  induction newer with
  | nil => simp
  | cons _ rest ih =>
    have parts := List.isChain_cons.mp legal
    have earlier := ih parts.2
    intro later member
    rcases List.mem_cons.mp member with rfl | member
    · cases rest with
      | nil => exact QueryState.canTransitionTo_of_isTerminal terminal (parts.1 state rfl)
      | cons previous =>
        have allowed := parts.1 previous rfl
        rcases earlier previous (by simp) with rfl | rfl
        · exact QueryState.canTransitionTo_of_isTerminal terminal allowed
        · rcases QueryState.canTransitionTo_of_isTerminal rfl allowed with same | same <;>
            exact .inr same
    · exact earlier later member

/-! ## The author of a record -/

inductive Stage where
  | fresh
  | created
  | starting
  | executing
  | finishing (verdict : QueryState)
  | finished
  deriving DecidableEq, Repr

def Stage.active : Stage → Bool
  | .fresh | .finished => false
  | _ => true

/-- The journal as the author of an undisturbed record knows it. -/
def Stage.Agrees : Stage → List QueryState → Prop
  | .fresh, states => states = []
  | .created, states => states.head? = some .pending
  | .starting, states => states.head? = some .pending ∨ states.head? = some .running
  | .executing, states => states.head? = some .running
  | .finishing verdict, states =>
    isVerdict verdict ∧ (states.head? = some .running ∨ states.head? = some verdict)
  | .finished, _ => True

def SubmitPhase.stage : SubmitPhase → Stage
  | .acquire | .lookup _ | .reclaim _ | .reacquire | .relookup _ | .ping | .slot | .admitting
  | .put _ => .fresh
  | .lease _ | .launch _ => .created
  | .waiting | .dropEntry _ | .freeSlot _ | .freeKey _ | .returned _ => .finished

def Run.stage (run : Run) : Stage :=
  match run.phase with
  | .start => .created
  | .persistRunning _ => .starting
  | .exec _ | .openWriter _ | .stream .. | .stopping .. | .closing .. | .discard .. =>
    .executing
  | .persistTerminal _ => .finishing run.record.state
  | .refreshKey | .deregister | .freeSlot | .done => .finished

namespace Deployment

def aliveAt (d : Deployment) (pid : Nat) : Bool := (d.live pid).isSome

/-- The stage of a query's author. A dead process writes no more; a submission
that has stored nothing is fresh, dead or not. -/
def stageOf (d : Deployment) (queryID : String) : Stage :=
  match d.runs queryID, d.subs queryID with
  | some run, _ => if d.aliveAt run.pid then run.stage else .finished
  | none, none => .fresh
  | none, some s =>
    if s.phase.stage = .fresh ∨ d.aliveAt s.pid then s.phase.stage else .finished

end Deployment

variable {now : Time} {m : MetaStore} {reply : Reply} {run : Run}

def Process.condemned (p : Process) : Option String :=
  match p.reaper with
  | .write _ failed _ => some failed.id
  | _ => none

def Process.expiring (p : Process) : Option String :=
  match p.gc with
  | .mark record _ => some record.id
  | _ => none

def Run.givesUpRunning (run : Run) (ctxDone giveUp : Bool) : Bool :=
  match run.phase with
  | .persistRunning attempt => terminalPersistAttempts ≤ attempt || (giveUp && ctxDone)
  | _ => false

/-- The condition on a step: a verdict of the reaper or of the collector meets a
query whose author has no write left, and `persist` does not give up on `RUNNING`
before it is stored. -/
def Undisturbed (d : Deployment) : Action → Prop
  | .reaper pid (.written _) =>
    ∀ p ∈ d.procs pid, ∀ id ∈ p.condemned, (d.stageOf id).active = false
  | .gc pid (.mark _) =>
    ∀ p ∈ d.procs pid, ∀ id ∈ p.expiring, (d.stageOf id).active = false
  | .execution queryID (.persist .failed giveUp) =>
    ∀ run ∈ d.runs queryID, ∀ p ∈ d.procs run.pid,
      run.givesUpRunning p.ctxDone giveUp = true →
        (d.store.journal queryID).head? = some .running
  | _ => True

instance (d : Deployment) (action : Action) : Decidable (Undisturbed d action) := by
  unfold Undisturbed
  split <;> infer_instance

/-! ## One step of the author -/

theorem submitStep_stage {p : Process} {s : Submission} {out : SubmitOutcome}
    (taken : submitStep now m p s reply = some out) :
    (SameRecords m out.store ∧
        (out.phase.stage = s.phase.stage ∨ out.phase.stage = .finished)) ∨
      ∃ record, s.phase = .put record ∧
        ((SameRecords m out.store ∧ out.phase.stage = .finished) ∨
          (out.store = m.store record ∧
            (out.phase.stage = .created ∨ out.phase.stage = .finished))) := by
  have records := submitStep_records taken
  cases submitStep_move taken with
  | put record phase => exact .inr ⟨record, phase, .inr ⟨rfl, .inl rfl⟩⟩
  | unput reply record _ phase failed =>
    refine .inr ⟨record, phase, ?_⟩
    cases reply with
    | ok => contradiction
    | failed => exact .inl ⟨SameRecords.refl m, rfl⟩
    | lost => exact .inr ⟨rfl, .inr rfl⟩
  | claimed phase | unclaimed _ _ _ phase =>
    rcases phase with phase | phase <;> simp_all [SubmitPhase.stage]
  | replied _ _ _ phase =>
    rcases phase with phase | phase | ⟨phase, _⟩ <;> simp_all [SubmitPhase.stage]
  | launched _ _ _ _ continues => rcases continues with rfl | rfl <;> simp_all [SubmitPhase.stage]
  | _ => simp_all [SubmitPhase.stage]

theorem isVerdict.canTransitionTo {verdict : QueryState} (ends : isVerdict verdict) :
    QueryState.running.canTransitionTo verdict = true := by
  rcases ends with rfl | rfl | rfl <;> decide

theorem finishRun_agrees {qErr : Option QueryError} {dbDur storeDur : Duration}
    (verdict : isVerdict next) (running : states.head? = some .running) :
    (finishRun now run next qErr dbDur storeDur).stage.Agrees states := by
  unfold finishRun complete
  dsimp only
  split
  · exact ⟨verdict, .inl running⟩
  · trivial

theorem persistAttempt_journal (m : MetaStore) (record : QueryRecord) (ctxDone : Bool)
    (attempt : Nat) (reply : Reply) (giveUp : Bool) :
    ((persistAttempt m record ctxDone attempt reply giveUp).1.journal record.id =
        record.state :: m.journal record.id) ∨
      (reply = .failed ∧
        (persistAttempt m record ctxDone attempt reply giveUp).1 = m) := by
  cases reply with
  | failed => exact .inr ⟨rfl, rfl⟩
  | ok | lost => exact .inl (m.store_journal_self record)

variable {attempt : Nat} {ctxDone giveUp : Bool}

theorem persistRunning_agrees (now : Time) (phase : run.phase = .persistRunning attempt)
    (running : run.record.state = .running) (legal : LegalPath (m.journal run.record.id))
    (agrees : Stage.starting.Agrees (m.journal run.record.id))
    (stored : reply = .failed → run.givesUpRunning ctxDone giveUp = true →
      (m.journal run.record.id).head? = some .running) :
    let answer := persistAttempt m run.record ctxDone attempt reply giveUp
    LegalPath (answer.1.journal run.record.id) ∧
      ({ run with
        phase := match answer.2 with
          | some next => .persistRunning next
          | none => .exec now } : Run).stage.Agrees (answer.1.journal run.record.id) := by
  intro answer
  rcases persistAttempt_journal m run.record ctxDone attempt reply giveUp with
    written | ⟨failed, kept⟩
  · rw [show answer.1.journal run.record.id = _ from written, running]
    constructor
    · refine legal.write fun last head => ?_
      rcases agrees with pending | already
      · rw [pending] at head
        cases head
        rfl
      · rw [already] at head
        cases head
        rfl
    · cases answer.2 with
      | none => exact rfl
      | some => exact .inr rfl
  · rw [show answer.1 = m from kept]
    refine ⟨legal, ?_⟩
    cases next : answer.2 with
    | some => exact agrees
    | none =>
      refine stored failed ?_
      simp only [answer, persistAttempt, failed, reduceCtorEq, false_or] at next
      split at next
      · rename_i ended
        simpa [Run.givesUpRunning, phase] using ended
      · contradiction

theorem persistTerminal_agrees (legal : LegalPath (m.journal run.record.id))
    (agrees : (Stage.finishing run.record.state).Agrees (m.journal run.record.id)) :
    let answer := persistAttempt m run.record ctxDone attempt reply giveUp
    LegalPath (answer.1.journal run.record.id) ∧
      ({ run with
        phase := match answer.2 with
          | some next => .persistTerminal next
          | none => afterPersist run.record } : Run).stage.Agrees
        (answer.1.journal run.record.id) := by
  intro answer
  obtain ⟨verdict, head⟩ := agrees
  have done : ∀ states, ({ run with phase := afterPersist run.record } : Run).stage.Agrees
      states := by
    intro states
    unfold afterPersist
    split <;> trivial
  rcases persistAttempt_journal m run.record ctxDone attempt reply giveUp with
    written | ⟨_, kept⟩
  · rw [show answer.1.journal run.record.id = _ from written]
    constructor
    · refine legal.write fun last found => ?_
      rcases head with running | same
      · rw [running] at found
        cases found
        exact verdict.canTransitionTo
      · rw [same] at found
        cases found
        exact QueryState.canTransitionTo_self _
    · cases answer.2 with
      | none => exact done _
      | some => exact ⟨verdict, .inr rfl⟩
  · rw [show answer.1 = m from kept]
    refine ⟨legal, ?_⟩
    cases answer.2 with
    | none => exact done _
    | some => exact ⟨verdict, head⟩

variable {reporter : Reporter} {queryID : String}

theorem progress_agrees {after : MetaStore} {next : Reporter} (sound : reporter.Sound queryID)
    (legal : LegalPath (m.journal queryID)) (running : (m.journal queryID).head? = some .running)
    (taken : reporter.progress m reply = some (after, next)) :
    LegalPath (after.journal queryID) ∧ (after.journal queryID).head? = some .running := by
  rcases Reporter.progress_records taken with
    same | ⟨snapshot, _, writing, _, _, stored⟩
  · rw [same.journal]
    exact ⟨legal, running⟩
  · obtain ⟨rfl, state⟩ := sound snapshot (.inr writing)
    rw [stored, MetaStore.store_journal_self, state]
    refine ⟨legal.write fun last found => ?_, rfl⟩
    rw [running] at found
    cases found
    rfl

theorem stage_withReporter {next : Reporter} (reporting : run.phase.reporter? = some reporter) :
    run.stage = .executing ∧
      ({ run with phase := run.phase.withReporter next } : Run).stage = .executing := by
  cases phase : run.phase with
  | stream | stopping => simp [Run.stage, phase, RunPhase.withReporter]
  | _ => simp [phase, RunPhase.reporter?] at reporting

variable {choice : RunChoice}

/-- A step of an execution that is the only writer of its record extends the path
legally, and its stage keeps pace with the journal. -/
theorem runStep_agrees {p : Process} {objects : List ObjectName} {out : RunOutcome}
    (sound : run.Sound queryID) (legal : LegalPath (m.journal queryID))
    (agrees : run.stage.Agrees (m.journal queryID))
    (stored : ∀ giveUp, choice = .persist .failed giveUp →
      run.givesUpRunning p.ctxDone giveUp = true → (m.journal queryID).head? = some .running)
    (taken : runStep now m p objects run choice = some out) :
    LegalPath (out.store.journal queryID) ∧ out.run.stage.Agrees (out.store.journal queryID) := by
  obtain ⟨rfl, shape⟩ := sound
  have here : ∀ phase, run.phase = phase →
      (Run.stage { run with phase := phase }).Agrees (m.journal run.record.id) := by
    rintro _ rfl
    exact agrees
  cases runStep_move taken with
  | started phase => exact ⟨legal, .inl (here _ phase)⟩
  | begun _ _ giveUp _ phase =>
    rw [phase] at shape
    simp only [runStep, phase, Option.some.injEq, RunOutcome.mk.injEq, Run.mk.injEq,
      true_and] at taken
    rw [← taken.2]
    exact persistRunning_agrees now phase shape legal (here _ phase) fun failed =>
      stored giveUp (by rw [failed])
  | executed _ _ phase | opened _ _ phase | reported _ _ _ _ _ _ phase
  | encoded _ _ _ _ _ _ phase | unread _ _ _ _ _ phase | stopped _ _ _ _ _ phase =>
    have running := here _ phase
    exact ⟨legal, running⟩
  | execFailed _ _ _ phase | discarded _ _ _ _ _ _ _ phase =>
    exact ⟨legal, finishRun_agrees (terminalFor_isVerdict ..) (here _ phase)⟩
  | storeFailed _ _ _ phase =>
    exact ⟨legal, finishRun_agrees (.inr (.inl rfl)) (here _ phase)⟩
  | took _ _ _ reporting _ stays =>
    obtain ⟨running, kept⟩ := stage_withReporter reporting
    rw [running] at agrees
    exact ⟨legal, by rw [stays, kept]; exact agrees⟩
  | progressed _ _ _ _ _ reporting written stays =>
    obtain ⟨running, kept⟩ := stage_withReporter reporting
    rw [running] at agrees
    rw [stays, kept]
    exact progress_agrees (RunPhase.Sound.reporter shape reporting) legal agrees written
  | closed _ _ _ _ _ _ phase =>
    have running := here _ phase
    refine ⟨legal, ?_⟩
    unfold afterClose
    split
    · exact running
    · exact running
    · exact finishRun_agrees (.inl rfl) running
  | ended _ _ _ _ phase =>
    simp only [runStep, phase, Option.some.injEq, RunOutcome.mk.injEq, Run.mk.injEq,
      true_and] at taken
    rw [← taken.2]
    exact persistTerminal_agrees legal (here _ phase)
  | refreshed reply =>
    have same := reply.apply_untouched
      (m.refreshIdempotency_untouched now run.record.databaseID
        (scopedIdempotencyKey run.record.subject run.record.idempotencyKey)
        run.record.id run.record.options.resultTTL)
    exact ⟨by rw [same.journal]; exact legal, trivial⟩
  | refused | deregistered | freed => exact ⟨legal, trivial⟩

/-! ## All queries of a deployment -/

namespace Deployment

variable {env : Env} {d after : Deployment} {action : Action} {p : Process} {s : Submission}
  {out : SubmitOutcome}

/-- A move that leaves a query's goroutines where they are leaves their stage, or
their process has died. -/
theorem Move.stageOf (shape : Shape d) (move : Move env d action after)
    (subs : after.subs queryID = d.subs queryID) (runs : after.runs queryID = d.runs queryID) :
    after.stageOf queryID = d.stageOf queryID ∨ after.stageOf queryID = .finished := by
  have dying : ∀ s, d.subs queryID = some s → after.aliveAt s.pid = true →
      d.aliveAt s.pid = true := by
    intro s sub alive
    obtain ⟨_, p, present, _⟩ := shape.sub queryID s sub
    obtain ⟨_, kept, continues⟩ := move.continues s.pid p present
    simp only [aliveAt, live, kept, present, Option.isSome_filter] at alive ⊢
    simpa using continues.alive (by simpa using alive)
  unfold Deployment.stageOf
  rw [subs, runs]
  cases executed : d.runs queryID with
  | some run =>
    obtain ⟨_, s, sub, pid, _⟩ := shape.run queryID run executed
    have dying := pid ▸ dying s sub
    dsimp only
    cases alive : after.aliveAt run.pid with
    | true => simp [dying alive]
    | false => simp
  | none =>
    cases sub : d.subs queryID with
    | none => exact .inl rfl
    | some s =>
      have dying := dying s sub
      dsimp only
      by_cases fresh : s.phase.stage = .fresh
      · simp [fresh]
      · cases alive : after.aliveAt s.pid with
        | true => simp [dying alive]
        | false => simp [fresh]

structure Lawful (d : Deployment) : Prop where
  shape : Shape d
  legal : ∀ queryID, LegalPath (d.store.journal queryID)
  agrees : ∀ queryID, (d.stageOf queryID).Agrees (d.store.journal queryID)
  inHand : InHand d

def OnPath (d : Deployment) (queryID : String) : Prop :=
  LegalPath (d.store.journal queryID) ∧ (d.stageOf queryID).Agrees (d.store.journal queryID)

theorem Lawful.onPath (lawful : Lawful d) (queryID : String) :
    OnPath d queryID := ⟨lawful.legal queryID, lawful.agrees queryID⟩

theorem Lawful.onPath_of_same (lawful : Lawful d) (move : Move env d action after)
    (subs : after.subs queryID = d.subs queryID) (runs : after.runs queryID = d.runs queryID)
    (journal : after.store.journal queryID = d.store.journal queryID) : OnPath after queryID := by
  unfold OnPath
  rw [journal]
  refine ⟨lawful.legal queryID, ?_⟩
  rcases move.stageOf lawful.shape subs runs with same | finished
  · rw [same]
    exact lawful.agrees queryID
  · rw [finished]
    trivial

theorem Lawful.onPath_of_verdict (lawful : Lawful d) (move : Move env d action after)
    (subs : after.subs = d.subs) (runs : after.runs = d.runs) {record : QueryRecord}
    (stored : after.store = d.store.store record) (idle : (d.stageOf record.id).active = false)
    {last : QueryState} (head : (d.store.journal record.id).head? = some last)
    (allowed : last.canTransitionTo record.state = true) (queryID : String) :
    OnPath after queryID := by
  by_cases same : queryID = record.id
  · subst same
    have done : d.stageOf record.id = .finished := by
      have agrees := lawful.agrees record.id
      cases stage : d.stageOf record.id with
      | finished => rfl
      | fresh =>
        rw [stage] at agrees
        rw [show d.store.journal record.id = [] from agrees] at head
        contradiction
      | _ => simp [stage, Stage.active] at idle
    have finished : after.stageOf record.id = .finished := by
      rcases move.stageOf lawful.shape (congrFun subs _) (congrFun runs _) with kept | past
      · rw [kept, done]
      · exact past
    unfold OnPath
    rw [stored, MetaStore.store_journal_self, finished]
    refine ⟨(lawful.legal record.id).write fun found member => ?_, trivial⟩
    rw [head] at member
    cases member
    exact allowed
  · refine lawful.onPath_of_same move (congrFun subs _) (congrFun runs _) ?_
    rw [stored, d.store.store_journal_of_ne record same]

theorem stageOf_of_run (executed : d.runs queryID = some run) (found : d.procs run.pid = some p)
    (alive : p.alive = true) : d.stageOf queryID = run.stage := by
  simp [stageOf, executed, aliveAt, live, found, alive]

theorem stageOf_of_sub (unlaunched : d.runs queryID = none) (sub : d.subs queryID = some s)
    (found : d.procs s.pid = some p) (alive : p.alive = true) :
    d.stageOf queryID = s.phase.stage := by
  simp [stageOf, unlaunched, sub, aliveAt, live, found, alive]

theorem Lawful.execution (lawful : Lawful d) {out : RunOutcome}
    (move : Move env d (.execution queryID choice) (d.applyRun queryID out))
    (executed : d.runs queryID = some run) (found : d.procs run.pid = some p)
    (alive : p.alive = true) (taken : runStep d.now d.store p d.objects run choice = some out)
    (guard : Undisturbed d (.execution queryID choice)) (other : String) :
    OnPath (d.applyRun queryID out) other := by
  obtain ⟨sound, _⟩ := lawful.shape.run queryID run executed
  by_cases same : other = queryID
  · subst same
    have before := lawful.agrees other
    rw [stageOf_of_run executed found alive] at before
    have stored : ∀ giveUp, choice = .persist .failed giveUp →
        run.givesUpRunning p.ctxDone giveUp = true →
          (d.store.journal other).head? = some .running := by
      rintro giveUp rfl gives
      exact guard run executed p found gives
    have after := runStep_agrees sound (lawful.legal other) before stored taken
    have stage : (d.applyRun other out).stageOf other = out.run.stage := by
      obtain ⟨_, _, _, process⟩ := runStep_process taken
      refine stageOf_of_run (p := out.process) ?_ ?_ ?_
      · simp [applyRun, setRun]
      · simp [applyRun, setRun, setProc]
      · rw [process]
        exact alive
    exact ⟨after.1, stage ▸ after.2⟩
  · refine lawful.onPath_of_same move rfl ?_ ?_
    · simp [applyRun, setRun, setProc, Function.update_of_ne same]
    · rcases move.journal lawful.shape other with kept | ⟨_, own, stores, _⟩
      · exact kept
      · exact absurd (own.symm.trans stores.execution_id) same

/-- The stage of a submission's query after its step: the submission's own, or the
new execution's, which is the same at the launch. -/
theorem applySubmit_stageOf (shape : Shape d) (sub : d.subs queryID = some s)
    (alive : p.alive = true) (unlaunched : d.runs queryID = none)
    (taken : submitStep d.now d.store p s reply = some out) :
    (d.applySubmit s out).stageOf queryID =
      if out.launched.isSome then .created else out.phase.stage := by
  have own := (shape.sub queryID s sub).1
  subst own
  obtain ⟨_, _, process⟩ := submitStep_process taken
  have running : (d.applySubmit s out).procs s.pid = some out.process := by
    simp [applySubmit_procs]
  have living : out.process.alive = true := by
    rw [process]
    exact alive
  cases launched : out.launched with
  | none =>
    have moved : (d.applySubmit s out).subs s.queryID =
        some { s with phase := out.phase } := by
      simp [applySubmit_subs]
    exact stageOf_of_sub (by simp [applySubmit_runs, launched, unlaunched]) moved running
      living
  | some record =>
    have begun : (d.applySubmit s out).runs s.queryID =
        some { pid := s.pid, record := record } := by
      simp [applySubmit_runs, launched]
    exact stageOf_of_run begun running living

theorem Lawful.submission_launched (lawful : Lawful d)
    (move : Move env d (.submission queryID reply) (d.applySubmit s out))
    (sub : d.subs queryID = some s) (found : d.procs s.pid = some p) (alive : p.alive = true)
    (taken : submitStep d.now d.store p s reply = some out) (executed : d.runs queryID = some run) :
    OnPath (d.applySubmit s out) queryID := by
  obtain ⟨_, _, member, pid, past⟩ := lawful.shape.run queryID run executed
  rw [sub] at member
  cases member
  have quiet : out.launched = none := by
    cases launched : out.launched with
    | none => rfl
    | some =>
      rw [(submitStep_launched taken launched).1] at past
      contradiction
  have same : SameRecords d.store out.store := by
    rcases submitStep_records taken with kept | ⟨_, phase, _⟩
    · exact kept
    · rw [phase] at past
      contradiction
  obtain ⟨next, kept, _⟩ := move.continues s.pid p found
  have living : next.alive = true := by
    obtain ⟨_, _, process⟩ := submitStep_process taken
    rw [applySubmit_procs, setProc_procs_self] at kept
    cases kept
    rw [process]
    exact alive
  have still : (d.applySubmit s out).runs queryID = some run := by
    rw [applySubmit_runs, quiet]
    exact executed
  unfold OnPath
  rw [applySubmit_store, same.journal, stageOf_of_run still (pid ▸ kept) living]
  have before := lawful.agrees queryID
  rw [stageOf_of_run executed (pid ▸ found) alive] at before
  exact ⟨lawful.legal queryID, before⟩

theorem Lawful.submission_early (lawful : Lawful d) (sub : d.subs queryID = some s)
    (found : d.procs s.pid = some p) (alive : p.alive = true)
    (taken : submitStep d.now d.store p s reply = some out) (unlaunched : d.runs queryID = none) :
    OnPath (d.applySubmit s out) queryID := by
  have legal := lawful.legal queryID
  have before := lawful.agrees queryID
  rw [stageOf_of_sub unlaunched sub found alive] at before
  unfold OnPath
  rw [applySubmit_store, applySubmit_stageOf lawful.shape sub alive unlaunched taken]
  rcases submitStep_stage taken with ⟨same, stage⟩ | ⟨record, phase, wrote⟩
  · rw [same.journal]
    refine ⟨legal, ?_⟩
    cases launched : out.launched with
    | some =>
      rw [(submitStep_launched taken launched).1] at before
      exact before
    | none =>
      rcases stage with kept | finished
      · simpa [kept] using before
      · simp [finished, Stage.Agrees]
  · have quiet : out.launched = none := by
      cases launched : out.launched with
      | none => rfl
      | some =>
        rw [(submitStep_launched taken launched).1] at phase
        contradiction
    obtain ⟨own, _, _, sound⟩ := lawful.shape.sub queryID s sub
    have carried : s.phase.record? = some record := by simp [phase, SubmitPhase.record?]
    obtain ⟨id, pending, _⟩ := sound.record carried
    rw [phase] at before
    have empty : d.store.journal queryID = [] := before
    rcases wrote with ⟨same, finished⟩ | ⟨stored, stage⟩
    · rw [same.journal]
      exact ⟨legal, by simp [quiet, finished, Stage.Agrees]⟩
    · have journal : out.store.journal queryID = [.pending] := by
        have written := d.store.store_journal_self record
        rw [id, own, pending, empty] at written
        rw [stored, written]
      rw [journal]
      refine ⟨List.IsChain.singleton _, ?_⟩
      rcases stage with created | finished
      · simp [quiet, created, Stage.Agrees]
      · simp [quiet, finished, Stage.Agrees]

theorem Lawful.submission (lawful : Lawful d)
    (move : Move env d (.submission queryID reply) (d.applySubmit s out))
    (sub : d.subs queryID = some s) (found : d.procs s.pid = some p) (alive : p.alive = true)
    (taken : submitStep d.now d.store p s reply = some out) (other : String) :
    OnPath (d.applySubmit s out) other := by
  obtain ⟨own, _⟩ := lawful.shape.sub queryID s sub
  by_cases same : other = queryID
  · subst same
    cases executed : d.runs other with
    | some => exact lawful.submission_launched move sub found alive taken executed
    | none => exact lawful.submission_early sub found alive taken executed
  · have ne : other ≠ s.queryID := by rwa [own]
    refine lawful.onPath_of_same move ?_ ?_ ?_
    · rw [applySubmit_subs, Function.update_of_ne ne]
    · rw [applySubmit_runs]
      cases out.launched with
      | none => rfl
      | some => exact Function.update_of_ne ne _ _
    · rcases move.journal lawful.shape other with kept | ⟨_, id, stores, _⟩
      · exact kept
      · exact absurd (id.symm.trans stores.submission_id) same

theorem Move.terminal_kept (shape : Shape d) (move : Move env d action after)
    (legal : LegalPath (after.store.journal queryID)) (terminal : d.store.ended queryID = true) :
    after.store.ended queryID = true := by
  rw [MetaStore.ended_iff] at terminal ⊢
  obtain ⟨last, head, ended⟩ := terminal
  rcases move.journal shape queryID with same | ⟨record, _, _, _, grown⟩
  · exact ⟨last, same ▸ head, ended⟩
  · rw [grown] at legal ⊢
    have allowed := (List.isChain_cons.mp legal).1 last head
    refine ⟨record.state, rfl, ?_⟩
    rcases QueryState.canTransitionTo_of_isTerminal ended allowed with same | expired
    · rwa [same]
    · rw [expired]
      rfl

theorem firstPhase_stage (opts : QueryOptions) : (Submission.firstPhase opts).stage = .fresh := by
  unfold Submission.firstPhase
  split <;> rfl

theorem Lawful.submitted (lawful : Lawful d) (move : Move env d action (d.setSub s))
    (fresh : d.subs s.queryID = none) (first : s.phase.stage = .fresh) (queryID : String) :
    OnPath (d.setSub s) queryID := by
  by_cases same : queryID = s.queryID
  · subst same
    have unlaunched := lawful.shape.fresh fresh
    have before := lawful.agrees s.queryID
    rw [show d.stageOf s.queryID = .fresh by simp [stageOf, unlaunched, fresh]] at before
    have after : (d.setSub s).stageOf s.queryID = .fresh := by
      simp [stageOf, setSub, unlaunched, first]
    exact ⟨lawful.legal s.queryID, after ▸ before⟩
  · refine lawful.onPath_of_same move ?_ rfl rfl
    simp [setSub, Function.update_of_ne same]

section
variable (lawful : Lawful d) (guard : Undisturbed d action) (move : Move env d action after)
include lawful guard move

theorem Lawful.onPath_step (queryID : String) : OnPath after queryID := by
  have again := move
  cases move with
  | rejected => exact lawful.onPath queryID
  | submitted _ _ _ _ _ _ opts _ _ fresh =>
    exact lawful.submitted again fresh (firstPhase_stage opts) queryID
  | submission _ _ _ _ _ sub found alive taken =>
    exact lawful.submission again sub found alive taken queryID
  | execution _ _ _ _ _ executed found alive taken =>
    exact lawful.execution again executed found alive taken guard queryID
  | reaper pid _ p _ store found _ taken =>
    rcases reaperStep_records taken with
      same | ⟨_, failed, ids, reply, current, phase, rfl, lookup, member, stored⟩
    · exact lawful.onPath_of_same again rfl rfl (congrFun same.journal queryID)
    · have state : failed.state = .failed := by
        have sound := (lawful.shape.workers pid p found).1
        rw [phase] at sound
        exact sound
      refine lawful.onPath_of_verdict again rfl rfl stored ?_
        (d.store.logged failed.id current lookup) ?_ queryID
      · exact guard p found failed.id (by simp [Process.condemned, phase])
      · rw [state]
        refine QueryState.canTransitionTo_failed_of_active
          ((QueryState.isTerminal_eq_false_iff _).mpr ?_)
        simpa [ownerLostExpected] using member
  | gc pid _ p out found _ taken =>
    rcases gcStep_records taken with
      same | ⟨record, ids, reply, phase, rfl, stored⟩ | ⟨id, ids, _, deleted⟩
    · exact lawful.onPath_of_same again rfl rfl (congrFun same.journal queryID)
    · obtain ⟨last, head, ended⟩ := (d.store.ended_iff record.id).mp
        (lawful.inHand pid p record.id found (by rw [phase]; rfl))
      have expired : record.state = .expired := by
        have sound := (lawful.shape.workers pid p found).2
        rw [phase] at sound
        exact sound
      refine lawful.onPath_of_verdict again rfl rfl stored ?_ head ?_ queryID
      · exact guard p found record.id (by simp [Process.expiring, phase])
      · rw [expired]
        exact (QueryState.canTransitionTo_expired_iff last).mpr ended
    · refine lawful.onPath_of_same again rfl rfl ?_
      show out.store.journal queryID = _
      rw [deleted, MetaStore.deleteQuery_journal]
  | heart _ _ _ _ _ _ _ taken =>
    exact lawful.onPath_of_same again rfl rfl
      (congrFun (heartStep_records taken).journal queryID)
  | tick | started | countBegin | countLocal | countRemote | operated =>
    exact lawful.onPath_of_same again rfl rfl rfl

theorem Lawful.step : Lawful after where
  shape := lawful.shape.step move
  legal := fun queryID => (lawful.onPath_step guard move queryID).1
  agrees := fun queryID => (lawful.onPath_step guard move queryID).2
  inHand := lawful.inHand.step move fun queryID =>
    move.terminal_kept lawful.shape (lawful.onPath_step guard move queryID).1

end

theorem Lawful.initial (now : Time) : Lawful (initial now) where
  shape := Shape.initial now
  legal := fun _ => List.IsChain.nil
  agrees := fun _ => rfl
  inHand := by simp [InHand, Deployment.initial]

theorem Reachable.lawful (reached : Reachable env Undisturbed d) : Lawful d := by
  obtain ⟨now, _, run⟩ := reached
  exact run.invariant Lawful (Lawful.initial now) fun _ _ _ lawful guard taken =>
    lawful.step guard (step_move taken)

/-- In every run whose steps are undisturbed, the stored states of every query form
a path of `CanTransitionTo`, and after a terminal state only that state and
`EXPIRED` are stored. -/
theorem stored_states_follow_canTransitionTo (env : Env) (d : Deployment)
    (reached : Reachable env Undisturbed d) (queryID : String) :
    LegalPath (d.store.journal queryID) ∧
      ∀ newer state older, d.store.journal queryID = newer ++ state :: older →
        state.isTerminal = true → ∀ later ∈ newer, later = state ∨ later = .expired := by
  have legal := reached.lawful.legal queryID
  refine ⟨legal, fun newer state older journal terminal => ?_⟩
  rw [journal] at legal
  exact legal.after_terminal terminal

def collectQueryRun : List Action :=
  [.tick 90000000000000, .gc 2 (.begin .ok), .gc 2 (.listed .ok ["q"]),
    .gc 2 (.collect .ok), .gc 2 (.mark .ok), .gc 2 (.dispose true), .gc 2 (.release .ok),
    .gc 2 (.drop .ok)]

/-- An owner that died: its query is failed by the reaper, expired and removed. -/
theorem stored_states_of_crashed_owner :
    ∃ d, Reachable sampleEnv Undisturbed d ∧
      d.store.journal "q" = [.expired, .failed, .running, .pending] ∧
      LegalPath (d.store.journal "q") := by
  obtain ⟨d, reached, journal⟩ : ∃ d, Reachable sampleEnv Undisturbed d ∧
      d.store.journal "q" = [.expired, .failed, .running, .pending] :=
    Deployment.exists_reachable (runningQuery ++ .crash 1 :: reapQuery ++ collectQueryRun)
      (by decide +kernel)
  exact ⟨d, reached, journal,
    (stored_states_follow_canTransitionTo sampleEnv d reached "q").1⟩

/-- Without the condition: the owner of `q` misses its heartbeats, the reaper stores
`FAILED`, and the owner's terminal `PutQuery` replaces it by `SUCCEEDED`. -/
theorem owner_overwrites_reaper_verdict :
    ∃ d, Reachable sampleEnv Runs.Always d ∧
      d.store.journal "q" = [.succeeded, .failed, .running, .pending] ∧
      ¬ LegalPath (d.store.journal "q") := by
  obtain ⟨d, reached, journal⟩ : ∃ d, Reachable sampleEnv Runs.Always d ∧
      d.store.journal "q" = [.succeeded, .failed, .running, .pending] :=
    Deployment.exists_reachable (runningQuery ++ reapQuery ++ finishQuery) (by decide +kernel)
  refine ⟨d, reached, journal, ?_⟩
  rw [journal]
  intro legal
  have first := (List.isChain_cons.mp legal).1 .failed rfl
  revert first
  decide

end Deployment

end DbBridge.Cluster
