import DbBridge.Cluster.Provenance
import DbBridge.Cluster.Result

/-!
# The durations on a terminal record

`run` measures the statement and the storing of its result as it goes along; the total is set
by `report`, at the success of the query or by `finishRun`.
-/

namespace DbBridge.Cluster

open Domain State

/-- The durations `run` has measured so far, the one that is running included. -/
def RunPhase.spent (now : Time) : RunPhase → Duration
  | .exec dbStart => now - dbStart
  | .openWriter dbDur => dbDur
  | .stream dbDur storeStart _ _ | .stopping dbDur storeStart _ _ _
  | .closing dbDur storeStart _ _ => dbDur + (now - storeStart)
  | .discard dbDur storeDur _ _ _ => dbDur + storeDur
  | _ => 0

def Run.Timed (now : Time) (run : Run) : Prop :=
  run.phase = .start ∧ run.record.createdAt ≤ now ∨
    run.record.createdAt ≤ run.startTime ∧ run.startTime ≤ now ∧
      run.phase.spent now ≤ now - run.startTime

/-- The total covers what was measured. -/
def Covered (record : QueryRecord) : Prop :=
  record.stats.dbExecDuration + record.stats.storageWriteDuration ≤ record.stats.totalDuration

section
variable {now : Time} {m : MetaStore} {p : Process} {objects : List ObjectName} {run : Run}
  {choice : RunChoice} {out : RunOutcome}

theorem Run.Timed.later {later : Time} (timed : run.Timed now) (le : now ≤ later) :
    run.Timed later := by
  have grows : run.phase.spent later ≤ run.phase.spent now + (later - now) := by
    cases run.phase <;> grind [RunPhase.spent]
  rcases timed with ⟨phase, created⟩ | ⟨created, began, spent⟩
  · exact .inl ⟨phase, created.trans le⟩
  · exact .inr ⟨created, began.trans le, by grind⟩

theorem finishRun_spent (next : QueryState) (qErr : Option QueryError) (dbDur storeDur : Duration) :
    (finishRun now run next qErr dbDur storeDur).startTime = run.startTime ∧
      (finishRun now run next qErr dbDur storeDur).phase.spent now = 0 := by
  unfold finishRun complete
  dsimp only
  split <;> exact ⟨rfl, rfl⟩

section
variable (move : RunMove now m p objects run choice out)
include move

/-- A step keeps what was measured, or the measuring is over. -/
theorem RunMove.spent :
    out.run.startTime = now ∧ out.run.phase.spent now = 0 ∨
      run.phase ≠ .start ∧ out.run.startTime = run.startTime ∧
        (out.run.phase.spent now = run.phase.spent now ∨ out.run.phase.spent now = 0) := by
  cases move with
  | started | refused => exact .inl ⟨rfl, rfl⟩
  | begun _ _ _ _ phase continues =>
    rcases continues with rfl | ⟨_, rfl⟩ <;> simp [RunPhase.spent, phase]
  | executed _ _ phase | opened _ _ phase | reported _ _ _ _ _ _ phase
  | encoded _ _ _ _ _ _ phase | unread _ _ _ _ _ phase | stopped _ _ _ _ _ phase
  | refreshed _ phase | deregistered phase | freed phase =>
    simp [RunPhase.spent, phase]
  | execFailed _ _ _ phase | storeFailed _ _ _ phase | discarded _ _ _ _ _ _ _ phase =>
    simp [finishRun_spent, phase]
  | took _ _ _ reporting _ stays | progressed _ _ _ _ _ reporting _ stays =>
    subst stays
    cases phase : run.phase <;> simp_all [RunPhase.reporter?, RunPhase.withReporter, RunPhase.spent]
  | closed _ _ _ _ _ _ phase =>
    unfold afterClose
    split
    · simp [RunPhase.spent, phase]
    · simp [RunPhase.spent, phase]
    · simp [finishRun_spent, phase]
  | ended _ _ _ _ phase continues =>
    rcases continues with ⟨rfl, _⟩ | ⟨_, rfl⟩
    · unfold afterPersist
      split <;> simp [RunPhase.spent, phase]
    · simp [RunPhase.spent, phase]

theorem RunMove.timed (timed : run.Timed now) : out.run.Timed now := by
  right
  rw [show out.run.record.createdAt = run.record.createdAt from
    congrArg (QueryRecord.createdAt ·.request) move.request]
  rcases move.spent with ⟨begins, spent⟩ | ⟨started, same, _⟩
  · rw [begins, spent]
    rcases timed with ⟨_, created⟩ | ⟨created, began, _⟩
    · exact ⟨created, le_refl now, by simp⟩
    · exact ⟨created.trans began, le_refl now, by simp⟩
  · obtain ⟨created, began, spent⟩ := timed.resolve_left fun early => started early.1
    rw [same]
    exact ⟨created, began, by grind⟩

end

variable {dbDur storeDur : Duration}

/-- A total that `finishRun` sets is long enough; one that a report set stays as it is. -/
theorem finishRun_covered (next : QueryState) (qErr : Option QueryError)
    (enough : dbDur + storeDur ≤ now - run.record.createdAt) :
    Covered (finishRun now run next qErr dbDur storeDur).record ↔
      run.record.stats.totalDuration = 0 ∨ dbDur + storeDur ≤ run.record.stats.totalDuration := by
  unfold Covered finishRun complete
  dsimp only
  (repeat' split) <;> dsimp only <;> grind

theorem finishRun_state {next : QueryState} {qErr : Option QueryError}
    (underway : run.record.state.isTerminal = false)
    (ended : (finishRun now run next qErr dbDur storeDur).record.state.isTerminal = true) :
    (finishRun now run next qErr dbDur storeDur).record.state = next := by
  unfold finishRun complete at ended ⊢
  dsimp only at ended ⊢
  split at ended
  · rename_i allowed
    rw [if_pos allowed]
  · rw [underway] at ended
    contradiction

theorem RunMove.covered (move : RunMove now m p objects run choice out)
    (timed : run.Timed now) (underway : run.record.state.isTerminal = false)
    (ended : out.run.record.state.isTerminal = true) :
    Covered out.run.record ↔ out.run.record.state = .succeeded ∨
      run.record.stats.totalDuration = 0 ∨ run.phase.spent now ≤ run.record.stats.totalDuration := by
  have measured : ∀ {spent}, run.phase ≠ .start → run.phase.spent now = spent →
      spent ≤ now - run.startTime ∧ spent ≤ now - run.record.createdAt := by
    rintro spent started rfl
    obtain ⟨_, _, spent⟩ := timed.resolve_left fun early => started early.1
    exact ⟨spent, by grind⟩
  have failed : ∀ {next qErr dbDur storeDur}, next ≠ .succeeded → run.phase ≠ .start →
      run.phase.spent now = dbDur + storeDur →
      out.run = finishRun now run next qErr dbDur storeDur →
      (Covered out.run.record ↔ out.run.record.state = .succeeded ∨
        run.record.stats.totalDuration = 0 ∨
          run.phase.spent now ≤ run.record.stats.totalDuration) := by
    intro next qErr dbDur storeDur lost started spent finished
    rw [finished] at ended ⊢
    rw [finishRun_covered _ _ (measured started spent).2, finishRun_state underway ended, spent]
    exact (or_iff_right lost).symm
  cases move with
  | storeFailed _ _ _ phase =>
    exact failed (by simp) (by simp [phase]) (by simp [phase, RunPhase.spent]) rfl
  | execFailed _ _ _ phase | discarded _ _ _ _ _ _ _ phase =>
    exact failed (terminalFor_ne_succeeded _ _ _) (by simp [phase])
      (by simp [phase, RunPhase.spent]) rfl
  | closed dbDur storeStart _ _ _ _ phase =>
    obtain ⟨short, enough⟩ := measured (by simp [phase]) (by rw [phase])
    unfold afterClose at ended ⊢
    split at ended
    · rw [underway] at ended
      contradiction
    · rw [underway] at ended
      contradiction
    · refine iff_of_true ?_ (.inl (finishRun_state underway ended))
      rw [finishRun_covered]
      · exact .inr short
      · exact enough
  | started => contradiction
  | reported | encoded =>
    rw [report_state, underway] at ended
    contradiction
  | refused | begun | executed | opened | took | progressed | unread | stopped | ended
  | refreshed | deregistered | freed =>
    rw [underway] at ended
    contradiction

end

namespace Deployment

structure Clocked (d : Deployment) : Prop where
  created : ∀ queryID s record, d.subs queryID = some s → s.phase.record? = some record →
    record.createdAt ≤ d.now
  timed : ∀ queryID run, d.runs queryID = some run → run.Timed d.now

variable {env : Env} {d after : Deployment} {action : Action}

theorem Clocked.step (clocked : Clocked d) (shape : Shape d) (move : Move env d action after) :
    Clocked after where
  created := by
    intro queryID s record sub carried
    refine le_trans ?_ move.now_le
    rcases move.sub_origin shape sub with
      same | first | ⟨_, before, _, _, _, known, _, taken, rfl, _⟩
    · exact clocked.created queryID s record same carried
    · rw [first, firstPhase_record?] at carried
      contradiction
    · rcases submitStep_record taken carried with rfl | earlier
      · exact le_refl d.now
      · exact clocked.created queryID before record known earlier
  timed := by
    intro queryID run executed
    refine Run.Timed.later ?_ move.now_le
    rcases move.run_origin shape executed with
      same | ⟨_, s, record, _, sub, phase, rfl⟩ | ⟨_, before, _, _, _, known, _, taken, rfl⟩
    · exact clocked.timed queryID run same
    · exact .inl ⟨rfl, clocked.created queryID s record sub (by rw [phase]; rfl)⟩
    · exact (runStep_move taken).timed (clocked.timed queryID before known)

variable {guard : Deployment → Action → Prop}

theorem Reachable.clocked (reached : Reachable env guard d) : Clocked d :=
  reached.invariant Clocked (fun _ _ => ⟨by simp [initial], by simp [initial]⟩)
    fun shape clocked _ move => clocked.step shape move

end Deployment

end DbBridge.Cluster
