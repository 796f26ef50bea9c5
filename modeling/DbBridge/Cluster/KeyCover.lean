import DbBridge.Cluster.Expiry
import DbBridge.Cluster.Idempotency

/-!
# How long an idempotency key lasts

`SubmitQuery` arms the key of a query for `ResultTTL + 24h` when it claims it, and
`complete` arms it for `ResultTTL` once the record has ended; `failOwnerLost` does
not touch it. The key covers the query from the claim to `FinishedAt + ResultTTL`
as long as the work on it ends while the first time is running and a record that
somebody else ends is out of its retention when that time is over.
-/

namespace DbBridge.Cluster

open Domain State

/-! ## Points of the goroutines -/

def SubmitPhase.engaged (phase : SubmitPhase) : Bool := phase.claiming || phase.stored

def RunPhase.unrefreshed : RunPhase → Bool
  | .deregister | .freeSlot | .done => false
  | _ => true

variable {now : Time} {m : MetaStore} {reply : Reply}

theorem submitStep_disengaged {p : Process} {s : Submission} {out : SubmitOutcome}
    (taken : submitStep now m p s reply = some out) (engaged : s.phase.engaged = true)
    (left : out.phase.engaged = false) : out.launched.isSome = true ∨ s.phase.claiming = true := by
  rcases Bool.or_eq_true_iff.mp engaged with claiming | stored
  · exact .inr claiming
  · rcases Deployment.submitStep_stored taken stored with still | launched
    · simp [SubmitPhase.engaged, still] at left
    · exact .inl launched

theorem SubmitPhase.unwritten_of_claiming {phase : SubmitPhase} (claiming : phase.claiming = true) :
    phase.unwritten = true := by
  cases phase <;> first | rfl | contradiction

variable {run : Run}

theorem finishRun_phase {next : QueryState} {qErr : Option QueryError} {dbDur storeDur : Duration}
    (running : run.record.state = .running) (verdict : isVerdict next) :
    (finishRun now run next qErr dbDur storeDur).phase = .persistTerminal 1 := by
  have legal : QueryState.running.canTransitionTo next = true := by
    rcases verdict with rfl | rfl | rfl <;> rfl
  simp [finishRun, complete, running, legal]

variable {queryID : String}

section
variable {p : Process} {objects : List ObjectName} {choice : RunChoice} {out : RunOutcome}

theorem RunPhase.unrefreshed_of_reporter {phase : RunPhase} {reporter : Reporter}
    (reporting : phase.reporter? = some reporter) : phase.unrefreshed = true := by
  cases phase <;> first | rfl | contradiction

section
variable (move : RunMove now m p objects run choice out)
include move

theorem RunMove.unrefreshed_origin (early : out.run.phase.unrefreshed = true) :
    run.phase.unrefreshed = true := by
  cases move with
  | took _ _ _ reporting | progressed _ _ _ _ _ reporting =>
    exact RunPhase.unrefreshed_of_reporter reporting
  | deregistered | freed => contradiction
  | started phase | refused phase | begun _ _ _ _ phase | executed _ _ phase
  | execFailed _ _ _ phase | storeFailed _ _ _ phase | opened _ _ phase
  | reported _ _ _ _ _ _ phase | encoded _ _ _ _ _ _ phase | unread _ _ _ _ _ phase
  | stopped _ _ _ _ _ phase | closed _ _ _ _ _ _ phase | discarded _ _ _ _ _ _ _ phase
  | ended _ _ _ _ phase | refreshed _ phase =>
    rw [phase]
    rfl

theorem RunMove.unrefreshed_lost (sound : run.Sound queryID)
    (early : run.phase.unrefreshed = true) (late : out.run.phase.unrefreshed = false) :
    (∃ reply, choice = .refresh reply ∧ run.phase = .refreshKey ∧
        out.store = reply.apply m (m.refreshIdempotency now run.record.databaseID
          (scopedIdempotencyKey run.record.subject run.record.idempotencyKey) run.record.id
          run.record.options.resultTTL)) ∨
      (run.record.idempotencyKey = "" ∨ run.record.options.resultTTL ≤ 0) := by
  have state := sound.phase
  cases move with
  | refreshed reply phase => exact .inl ⟨reply, rfl, phase, rfl⟩
  | ended attempt reply giveUp next phase continues =>
    right
    rcases continues with ⟨rfl, _⟩ | ⟨_, rfl⟩
    · simp only [afterPersist] at late
      split at late
      · contradiction
      · rename_i nothing
        simpa [Classical.or_iff_not_imp_left] using nothing
    · contradiction
  | refused phase forbidden =>
    rw [phase] at state
    rw [show run.record.state = .pending from state] at forbidden
    exact absurd rfl forbidden
  | storeFailed _ _ _ phase =>
    rw [phase] at state
    rw [finishRun_phase state (.inr (.inl rfl))] at late
    contradiction
  | execFailed _ err ctxErr phase | discarded _ _ _ err _ _ ctxErr phase =>
    rw [phase] at state
    rw [finishRun_phase state (terminalFor_isVerdict ctxErr err _)] at late
    contradiction
  | closed _ _ _ _ _ _ phase =>
    rw [phase] at state
    dsimp only [afterClose] at late
    split at late
    · contradiction
    · contradiction
    · rw [finishRun_phase ?_ (.inl rfl)] at late
      · contradiction
      · exact state
  | begun _ _ _ _ _ continues =>
    rcases continues with rfl | ⟨_, rfl⟩ <;> contradiction
  | took _ next _ reporting _ stays | progressed _ next _ _ _ reporting _ stays =>
    subst stays
    rw [RunPhase.unrefreshed_of_reporter
      (RunPhase.withReporter_reporter? reporting next)] at late
    contradiction
  | deregistered phase | freed phase =>
    rw [phase] at early
    contradiction
  | started | executed | opened | reported | encoded | unread | stopped => contradiction

end

end

/-! ## When a record ended -/

def EndedBy (now : Time) (record : QueryRecord) : Prop :=
  record.state.isTerminal = true → record.finishedAt ≤ now

theorem finishRun_endedBy (next : QueryState) (qErr : Option QueryError)
    (dbDur storeDur : Duration) (ended : EndedBy now run.record) :
    EndedBy now (finishRun now run next qErr dbDur storeDur).record := by
  unfold finishRun complete
  dsimp only
  split
  · exact fun _ => le_refl now
  · exact ended

variable {choice : RunChoice}

theorem RunMove.endedBy {p : Process} {objects : List ObjectName} {out : RunOutcome}
    (move : RunMove now m p objects run choice out) (ended : EndedBy now run.record) :
    EndedBy now out.run.record := by
  cases move with
  | started => exact fun terminal => nomatch terminal
  | execFailed | storeFailed | discarded => exact finishRun_endedBy _ _ _ _ ended
  | closed =>
    dsimp only [afterClose]
    split
    · exact ended
    · exact ended
    · exact finishRun_endedBy _ _ _ _ ended
  | reported | encoded =>
    dsimp only [report]
    split <;> exact ended
  | refused | begun | executed | opened | took | progressed | unread | stopped | ended
  | refreshed | deregistered | freed => exact ended

theorem Deployment.endedBy_inherited {env : Env} :
    Deployment.Inherited env fun d record => EndedBy d.now record where
  step := fun _ move ended terminal => le_trans (ended terminal) move.now_le
  first := by
    intro d queryID s record shape sub carried terminal
    obtain ⟨_, _, _, sound⟩ := shape.sub queryID s sub
    rw [(sound.record carried).2.1] at terminal
    contradiction
  run := fun moved ended => moved.endedBy ended
  lease := fun _ ended => ended
  lost := fun _ _ => le_refl _
  expired := fun terminal ended _ => ended terminal

/-! ## When the key has to be held -/

namespace Deployment

/-- A running process is on the query, from the claim of its key to `RefreshIdempotency`. -/
def working (d : Deployment) (queryID : String) : Bool :=
  ((d.subs queryID).any fun s => s.phase.engaged && (d.live s.pid).isSome) ||
    (d.runs queryID).any fun run => run.phase.unrefreshed && (d.live run.pid).isSome

def unfinished (d : Deployment) (queryID : String) : Bool :=
  (d.store.queries.lookup queryID).any fun record => !record.state.isTerminal

def underway (d : Deployment) (queryID : String) : Bool :=
  d.working queryID || d.unfinished queryID

def retained (d : Deployment) (queryID : String) : Bool :=
  (d.store.queries.lookup queryID).any fun record =>
    record.state.isTerminal && d.now < record.finishedAt + record.options.resultTTL

/-- From the claim of the key to `FinishedAt + ResultTTL` of the stored record. -/
def due (d : Deployment) (queryID : String) : Bool :=
  d.underway queryID || d.retained queryID

/-- The key is armed for the query up to the end of the record's retention, unless that end
has passed. -/
def Covers (d : Deployment) (key queryID : String) (record : QueryRecord) : Prop :=
  record.finishedAt + record.options.resultTTL ≤ d.now ∨
    d.store.owner key = some queryID ∧ ∃ expiry, d.store.idempExpires.lookup key = some expiry ∧
      record.finishedAt + record.options.resultTTL ≤ expiry

/-- The step kills the process: the operator does, or the heartbeat worker panics on a period
that is not positive. -/
def dies (d : Deployment) (pid : Nat) : Action → Bool
  | .crash other => other = pid
  | .heart other .begin =>
    other = pid && (d.procs pid).any fun p => p.heartbeatTTL.tdiv 2 ≤ 0
  | _ => false

/-- The condition on a step, for one query and its key. `refreshed` is the assumption that the
MetaStore answers. The time a claim gives is positive, and while the query is underway the
clock does not reach the end of the key's time; nobody releases the key while it is due; and
where the work on the query ends without a refresh, the key is armed for long enough. -/
structure Spared (key queryID : String) (d : Deployment) (action : Action) : Prop where
  refreshed : ∀ reply, action = .execution queryID (.refresh reply) → reply ≠ .failed
  claimed : ∀ s reply, action = .submission queryID reply → d.subs queryID = some s →
    s.phase = .acquire ∨ s.phase = .reacquire → 0 < idempotencySubmitTTL s.opts
  prompt : ∀ elapsed : Nat, action = .tick elapsed → d.underway queryID = true →
    ∀ expiry, d.store.idempExpires.lookup key = some expiry → d.now + elapsed < expiry
  released : ∀ dbID name, Releases d action dbID name queryID →
    MetaStore.fullKey dbID name = key → d.due queryID = false
  ended : ∀ record, Stores d action record → record.id = queryID →
    record.state.isTerminal = true → d.working queryID = false → Covers d key queryID record
  died : ∀ s record, d.subs queryID = some s → d.dies s.pid action = true →
    d.store.queries.lookup queryID = some record → record.state.isTerminal = true →
    Covers d key queryID record

/-! ## When work begins and ends -/

theorem working_iff (d : Deployment) (queryID : String) :
    d.working queryID = true ↔
      (∃ s, d.subs queryID = some s ∧ s.phase.engaged = true ∧ (d.live s.pid).isSome = true) ∨
      ∃ run, d.runs queryID = some run ∧ run.phase.unrefreshed = true ∧
        (d.live run.pid).isSome = true := by
  simp [working, Option.any_eq_true]

theorem unfinished_iff (d : Deployment) (queryID : String) :
    d.unfinished queryID = true ↔ ∃ record, d.store.queries.lookup queryID = some record ∧
      record.state.isTerminal = false := by
  simp [unfinished, Option.any_eq_true]

variable {record : QueryRecord}

section
variable {env : Env} {d after : Deployment} {action : Action} {s : Submission}

theorem Move.submitter_live (move : Move env d (.submission queryID reply) after)
    (sub : d.subs queryID = some s) : (d.live s.pid).isSome = true := by
  cases move with
  | submission _ _ _ p _ known found alive =>
    rw [sub] at known
    cases known
    rw [(d.live_eq_some_iff s.pid p).mpr ⟨found, alive⟩]
    rfl
  | operated _ _ _ _ _ _ operated => cases operated

theorem Move.runner_live (move : Move env d (.execution queryID choice) after)
    (executed : d.runs queryID = some run) : (d.live run.pid).isSome = true := by
  cases move with
  | execution _ _ _ p _ known found alive =>
    rw [executed] at known
    cases known
    rw [(d.live_eq_some_iff run.pid p).mpr ⟨found, alive⟩]
    rfl
  | operated _ _ _ _ _ _ operated => cases operated

theorem Move.died (move : Move env d action after) {pid : Nat}
    (living : (d.live pid).isSome = true) (dead : (after.live pid).isSome = false) :
    d.dies pid action = true ∧ after.store = d.store := by
  obtain ⟨p, live⟩ := Option.isSome_iff_exists.mp living
  obtain ⟨found, alive⟩ := (d.live_eq_some_iff pid p).mp live
  obtain ⟨next, kept, evolves⟩ := move.evolves found
  have killed : next.alive = false := by
    simpa [Deployment.live, kept] using dead
  rcases evolves.parts.alive with same | ⟨_, store, rfl | ⟨rfl, panics⟩⟩
  · rw [killed, alive] at same
    contradiction
  · exact ⟨by simp [dies], store⟩
  · exact ⟨by simp [dies, found, panics], store⟩

theorem Move.lives (move : Move env d action after) {pid : Nat}
    (living : (d.live pid).isSome = true) (spared : d.dies pid action = false) :
    (after.live pid).isSome = true := by
  by_contra dead
  rw [(move.died living (by simpa using dead)).1] at spared
  contradiction

section
variable (shape : Shape d) (move : Move env d action after)
include shape move

theorem Move.working_origin (working : after.working queryID = true) :
    d.working queryID = true ∨
      (∃ s reply, action = .submission queryID reply ∧ d.subs queryID = some s ∧
        (s.phase = .acquire ∨ s.phase = .reacquire) ∧
        after.store = d.store.claim s.storedKey queryID
          (d.now + idempotencySubmitTTL s.opts)) ∨
      ∃ s, after.subs queryID = some s ∧ s.opts.idempotencyKey = "" := by
  rw [working_iff] at working ⊢
  rcases working with ⟨s, sub, engaged, living⟩ | ⟨run, executed, early, living⟩
  · cases known : d.subs queryID with
    | none =>
      refine .inr (.inr ⟨s, sub, ?_⟩)
      rcases move.sub_origin shape sub with same | first | ⟨_, _, _, _, _, same, _⟩
      · rw [known] at same
        contradiction
      · by_contra named
        rw [first, Submission.firstPhase, if_neg named] at engaged
        contradiction
      · rw [known] at same
        contradiction
    | some before =>
      obtain ⟨own, p, found, _⟩ := shape.sub queryID before known
      rcases move.sub_next shape known with
        ⟨same, _⟩ | ⟨reply, p, out, rfl, taken, moved, rfl⟩
      · cases same.symm.trans sub
        exact .inl (.inl ⟨s, rfl, engaged, move.live_kept found living⟩)
      · cases moved.symm.trans sub
        have live := move.submitter_live known
        cases submitStep_move taken with
        | claimed phase =>
          exact .inr (.inl ⟨before, _, rfl, rfl, phase, by rw [applySubmit_store, own]⟩)
        | pinged phase | seated _ _ phase | admitted _ _ phase | put _ phase | leased _ _ phase =>
          exact .inl (.inl ⟨before, rfl, by rw [phase]; rfl, live⟩)
        | launched _ _ _ _ continues => rcases continues with rfl | rfl <;> contradiction
        | _ => contradiction
  · left
    rcases move.run_origin shape executed with
      same | ⟨reply, s, _, rfl, sub, phase, rfl⟩ |
      ⟨_, before, p, out, rfl, known, found, taken, rfl⟩
    · obtain ⟨_, s, sub, samePid, _⟩ := shape.run queryID run same
      obtain ⟨_, p, found, _⟩ := shape.sub queryID s sub
      exact .inr ⟨run, same, early, move.live_kept (samePid ▸ found) living⟩
    · exact .inl ⟨s, sub, by rw [phase]; rfl, move.submitter_live sub⟩
    · exact .inr ⟨before, known, (runStep_move taken).unrefreshed_origin early,
        move.runner_live known⟩

theorem Move.working_lost (working : d.working queryID = true)
    (ended : after.working queryID = false) :
    (∃ s, d.subs queryID = some s ∧ d.dies s.pid action = true ∧ after.store = d.store) ∨
      (∃ s, d.subs queryID = some s ∧ s.phase.claiming = true) ∨
      ∃ run, d.runs queryID = some run ∧
        ((∃ reply, action = .execution queryID (.refresh reply) ∧
            after.store = reply.apply d.store (d.store.refreshIdempotency d.now
              run.record.databaseID
              (scopedIdempotencyKey run.record.subject run.record.idempotencyKey) run.record.id
              run.record.options.resultTTL)) ∨
          run.record.idempotencyKey = "" ∨ run.record.options.resultTTL ≤ 0) := by
  have idle : ¬ after.working queryID = true := by simp [ended]
  rw [working_iff, not_or, not_exists, not_exists] at idle
  obtain ⟨noSubmitter, noRunner⟩ := idle
  rcases (working_iff d queryID).mp working with
    ⟨s, sub, engaged, living⟩ | ⟨run, executed, early, living⟩
  · rcases move.sub_next shape sub with ⟨same, _⟩ | ⟨reply, p, out, rfl, taken, moved, after_eq⟩
    · have dead : (after.live s.pid).isSome = false := by
        simpa [same, engaged] using noSubmitter s
      exact .inl ⟨s, sub, move.died living dead⟩
    · have alive := move.lives living rfl
      have left : out.phase.engaged = false := by
        simpa [moved, alive] using noSubmitter { s with phase := out.phase }
      rcases submitStep_disengaged taken engaged left with launched | claiming
      · obtain ⟨record, launched⟩ := Option.isSome_iff_exists.mp launched
        have run : after.runs queryID = some { pid := s.pid, record := record } := by
          rw [after_eq, applySubmit_runs, launched, ← (shape.sub queryID s sub).1]
          simp
        exact absurd ⟨run, rfl, alive⟩ (noRunner _)
      · exact .inr (.inl ⟨s, sub, claiming⟩)
  · obtain ⟨sound, s, sub, samePid, _⟩ := shape.run queryID run executed
    rcases move.run_next shape executed with same | ⟨_, p, out, rfl, _, alive, taken, rfl⟩
    · have dead : (after.live run.pid).isSome = false := by
        simpa [same, early] using noRunner run
      exact .inl ⟨s, sub, samePid ▸ move.died living dead⟩
    · have alive := move.lives living rfl
      have late : out.run.phase.unrefreshed = false := by
        have pid : out.run.pid = run.pid := (runStep_process taken).1
        have stepped : (d.applyRun queryID out).runs queryID = some out.run := by
          simp [applyRun, setRun]
        simpa [stepped, pid, alive] using noRunner out.run
      rcases (runStep_move taken).unrefreshed_lost sound early late with
        ⟨reply, rfl, _, refreshed⟩ | nothing
      · exact .inr (.inr ⟨run, executed, .inl ⟨reply, rfl, refreshed⟩⟩)
      · exact .inr (.inr ⟨run, executed, .inr nothing⟩)

end

theorem Stores.working (stores : Stores d action record) (move : Move env d action after)
    (unfinished : record.state.isTerminal = false) : d.working record.id = true := by
  rw [working_iff]
  cases stores with
  | admitted _ s _ sub phase =>
    exact .inl ⟨s, sub, by rw [phase]; rfl, move.submitter_live sub⟩
  | begun _ _ run _ executed phase =>
    exact .inr ⟨run, executed, by rw [phase]; rfl, move.runner_live executed⟩
  | progressed _ run _ _ executed writing =>
    obtain ⟨_, reporting, _⟩ := RunPhase.holds_of_writing writing
    exact .inr ⟨run, executed, RunPhase.unrefreshed_of_reporter reporting,
      move.runner_live executed⟩
  | ended _ _ _ _ _ _ _ verdict =>
    rcases verdict with state | state | state <;> rw [state] at unfinished <;> contradiction
  | reaped _ _ _ _ _ _ _ _ _ _ _ state | marked _ _ _ _ _ _ _ state =>
    rw [state] at unfinished
    contradiction

theorem working_known (shape : Shape d) (working : d.working queryID = true) :
    ∃ s, d.subs queryID = some s := by
  rcases (working_iff d queryID).mp working with ⟨s, sub, _⟩ | ⟨run, executed, _⟩
  · exact ⟨s, sub⟩
  · obtain ⟨_, s, sub, _⟩ := shape.run queryID run executed
    exact ⟨s, sub⟩

theorem Move.hasKey_origin (shape : Shape d) (move : Move env d action after) {key : String}
    (hasKey : HasKey after key queryID) (sub : d.subs queryID = some s) : s.Keyed key := by
  obtain ⟨_, known, keyed⟩ := hasKey
  obtain ⟨_, kept⟩ := move.sub_kept shape sub
  cases kept.symm.trans known
  exact keyed

theorem Descends.key (descends : Descends (fun _ => False) d record)
    (sub : d.subs record.id = some s) :
    record.options = s.opts ∧ record.idempotencyKey = s.opts.idempotencyKey ∧
      recordKey record = s.storedKey := by
  rcases descends with foreign | ⟨_, _, _, known, request⟩
  · contradiction
  · cases known.symm.trans sub
    have options := congrArg QueryRecord.options request
    have key := congrArg QueryRecord.idempotencyKey request
    have databaseID := congrArg QueryRecord.databaseID request
    have subject := congrArg QueryRecord.subject request
    simp only [QueryRecord.request, Submission.newRecord] at options key databaseID subject
    refine ⟨options, key, ?_⟩
    rw [recordKey, databaseID, subject, key]
    rfl

theorem Move.key_kept (shape : Shape d) (move : Move env d action after) {key : String}
    (spared : Spared key queryID d action) (held : d.store.holder d.now key = some queryID)
    (due : d.due queryID = true) :
    SameKey key d.store after.store ∨
      ∃ reply run, action = .execution queryID (.refresh reply) ∧
        d.runs queryID = some run ∧ run.phase = .refreshKey ∧
        0 < run.record.options.resultTTL ∧ after.store.owner key = some queryID ∧
        after.store.idempExpires.lookup key = some (d.now + run.record.options.resultTTL) := by
  have owned := d.store.owner_of_holder held
  have keys := move.keys shape
  generalize after.store = store at keys ⊢
  cases keys with
  | same _ _ same => exact .inl (same.key key)
  | claimed _ _ _ _ free =>
    refine .inl (d.store.claim_sameKey_of_ne _ _ ?_)
    rintro rfl
    rw [held] at free
    contradiction
  | released _ dbID name released releases =>
    refine .inl (d.store.releaseIdempotency_sameKey ?_)
    rintro rfl own
    cases owned.symm.trans own
    rw [spared.released dbID name releases rfl] at due
    contradiction
  | refreshed reply run executed phase =>
    by_cases own : (key = recordKey run.record ∧ run.record.id = queryID) ∧
        0 < run.record.options.resultTTL
    · obtain ⟨⟨rfl, rfl⟩, positive⟩ := own
      have kept := congrFun (d.store.refreshIdempotency_owner d.now run.record.databaseID
        (scopedIdempotencyKey run.record.subject run.record.idempotencyKey) run.record.id
        run.record.options.resultTTL) (recordKey run.record)
      refine .inr ⟨reply, run, rfl, executed, phase, positive, kept.trans owned, ?_⟩
      exact d.store.refreshIdempotency_expiry_self owned positive
    · refine .inl (d.store.refreshIdempotency_sameKey fun same other => ?_)
      exact Int.not_lt.mp fun positive =>
        own ⟨⟨same, Option.some.inj (other.symm.trans owned)⟩, positive⟩

end

/-! ## The invariant -/

structure KeyCovered (key queryID : String) (d : Deployment) : Prop where
  pedigree : Pedigree (fun _ => False) d
  dated : EveryCopy (fun d record => EndedBy d.now record) d
  unwritten : Unwritten queryID d
  held : HasKey d key queryID → d.underway queryID = true →
    d.store.holder d.now key = some queryID
  lasting : HasKey d key queryID → d.working queryID = false → ∀ record,
    d.store.queries.lookup queryID = some record → record.state.isTerminal = true →
    Covers d key queryID record

namespace KeyCovered

variable {env : Env} {key : String} {d after : Deployment} {action : Action}

theorem initial (now : Time) : KeyCovered key queryID (initial now) where
  pedigree := EveryCopy.initial now
  dated := EveryCopy.initial now
  unwritten := fun _ => ⟨rfl, by rintro pid p record ⟨⟩⟩
  held := by rintro ⟨s, ⟨⟩, _⟩
  lasting := by rintro ⟨s, ⟨⟩, _⟩

theorem holder (covered : KeyCovered key queryID d) (hasKey : HasKey d key queryID)
    (due : d.due queryID = true) : d.store.holder d.now key = some queryID := by
  cases underway : d.underway queryID with
  | true => exact covered.held hasKey underway
  | false =>
    simp only [Deployment.due, underway, Bool.false_or, retained, Option.any_eq_true,
      Bool.and_eq_true, decide_eq_true_eq] at due
    obtain ⟨record, lookup, terminal, within⟩ := due
    have idle : d.working queryID = false := by
      simp only [Deployment.underway, Bool.or_eq_false_iff] at underway
      exact underway.1
    rcases covered.lasting hasKey idle record lookup terminal with
      passed | ⟨owned, expiry, armed, covers⟩
    · exact absurd within (Int.not_lt.mpr passed)
    · exact (d.store.holder_eq_some_iff d.now key queryID).mpr
        ⟨owned, expiry, armed, lt_of_lt_of_le within covers⟩

theorem underway_known (covered : KeyCovered key queryID d) (underway : d.underway queryID = true) :
    ∃ s, d.subs queryID = some s := by
  rcases Bool.or_eq_true_iff.mp underway with working | unfinished
  · exact working_known covered.pedigree.shape working
  · obtain ⟨_, lookup, _⟩ := (unfinished_iff d queryID).mp unfinished
    exact covered.unwritten.known lookup

section
variable (covered : KeyCovered key queryID d) (move : Move env d action after)
  (spared : Spared key queryID d action) (hasKey : HasKey after key queryID)
include covered move spared hasKey

theorem held_step (underway : after.underway queryID = true) :
    after.store.holder after.now key = some queryID := by
  have shape := covered.pedigree.shape
  rw [MetaStore.holder_eq_some_iff]
  cases before : d.underway queryID with
  | true =>
    obtain ⟨s, sub⟩ := covered.underway_known before
    have keyed := move.hasKey_origin shape hasKey sub
    have held := covered.held ⟨s, sub, keyed⟩ before
    obtain ⟨owned, expiry, armed, _⟩ := (d.store.holder_eq_some_iff _ _ _).mp held
    rcases move.key_kept shape spared held (by simp [Deployment.due, before]) with
      same | ⟨reply, _, rfl, _, _, positive, owned, renewed⟩
    · refine ⟨same.owner.trans owned, expiry, same.expiry.trans armed, ?_⟩
      rcases move.now_cases with ⟨elapsed, rfl, later⟩ | still
      · rw [later]
        exact spared.prompt elapsed rfl before expiry armed
      · rwa [still]
    · refine ⟨owned, _, renewed, ?_⟩
      rcases move.now_cases with ⟨_, ⟨⟩, _⟩ | still
      rw [still]
      exact Int.lt_add_of_pos_right d.now positive
  | false =>
    simp only [Deployment.underway, Bool.or_eq_false_iff] at before
    obtain ⟨idle, ended⟩ := before
    rcases Bool.or_eq_true_iff.mp underway with working | unfinished
    · rcases move.working_origin shape working with
        earlier | ⟨s, reply, rfl, sub, phase, claimed⟩ | ⟨s, sub, unnamed⟩
      · rw [idle] at earlier
        contradiction
      · obtain ⟨_, rfl⟩ := move.hasKey_origin shape hasKey sub
        rw [claimed]
        refine ⟨d.store.claim_owner_self _ _ _, _, d.store.claim_expiry_self _ _ _, ?_⟩
        rcases move.now_cases with ⟨_, ⟨⟩, _⟩ | still
        rw [still]
        exact Int.lt_add_of_pos_right d.now (spared.claimed s reply rfl sub phase)
      · obtain ⟨_, known, named, _⟩ := hasKey
        cases known.symm.trans sub
        exact absurd unnamed named
    · obtain ⟨_, lookup, active⟩ := (unfinished_iff after queryID).mp unfinished
      rcases move.record_origin shape lookup with same | ⟨_, stores, rfl, _, rfl⟩
      · simp [Deployment.unfinished, same, active] at ended
      · rw [stores.working move active] at idle
        contradiction

theorem lasting_idle (idle : d.working queryID = false)
    (lookup : after.store.queries.lookup queryID = some record)
    (terminal : record.state.isTerminal = true) : Covers after key queryID record := by
  have shape := covered.pedigree.shape
  rcases move.record_origin shape lookup with same | ⟨written, stores, own, stored, rfl⟩
  · obtain ⟨s, sub⟩ := covered.unwritten.known same
    have keyed := move.hasKey_origin shape hasKey sub
    have covers := covered.lasting ⟨s, sub, keyed⟩ idle record same terminal
    rcases Int.lt_or_le d.now (record.finishedAt + record.options.resultTTL) with within | passed
    · have due : d.due queryID = true := by
        simp [Deployment.due, retained, same, terminal, within]
      have held := covered.holder ⟨s, sub, keyed⟩ due
      obtain ⟨owned, expiry, armed, enough⟩ := covers.resolve_left (Int.not_le.mpr within)
      rcases move.key_kept shape spared held due with
        kept | ⟨_, run, rfl, executed, phase, _⟩
      · exact .inr ⟨kept.owner.trans owned, expiry, kept.expiry.trans armed, enough⟩
      · have working : d.working queryID = true := (working_iff d queryID).mpr
          (.inr ⟨run, executed, by rw [phase]; rfl, move.runner_live executed⟩)
        rw [idle] at working
        contradiction
    · exact .inl (le_trans passed move.now_le)
  · rcases spared.ended written stores own terminal idle with
      passed | ⟨owned, expiry, armed, enough⟩
    · exact .inl (le_trans passed move.now_le)
    · have same := d.store.store_sameKeys written
      rw [← stored] at same
      exact .inr ⟨(same.key key).owner.trans owned, expiry, (same.key key).expiry.trans armed,
        enough⟩

theorem lasting_ended (pedigree : Pedigree (fun _ => False) after)
    (dated : EveryCopy (fun d record => EndedBy d.now record) after)
    (working : d.working queryID = true) (idle : after.working queryID = false)
    (lookup : after.store.queries.lookup queryID = some record)
    (terminal : record.state.isTerminal = true) : Covers after key queryID record := by
  have shape := covered.pedigree.shape
  have finished : record.finishedAt ≤ after.now := dated.stored queryID record lookup terminal
  obtain ⟨s, sub⟩ := working_known shape working
  obtain ⟨named, rfl⟩ := move.hasKey_origin shape hasKey sub
  have options : record.options = s.opts := by
    obtain ⟨phase, kept⟩ := move.sub_kept shape sub
    rw [← after.store.keyed queryID record lookup] at kept
    exact ((pedigree.stored queryID record lookup).key kept).1
  have unretained : s.opts.resultTTL ≤ 0 → Covers after s.storedKey queryID record := by
    intro none
    left
    rw [options]
    exact le_trans (Int.add_le_add finished none) (le_of_eq (Int.add_zero after.now))
  rcases move.working_lost shape working idle with
    ⟨t, same, dies, untouched⟩ | ⟨t, same, claiming⟩ | ⟨run, executed, refresh⟩
  · cases sub.symm.trans same
    rcases spared.died s record sub dies (untouched ▸ lookup) terminal with passed | covers
    · exact .inl (le_trans passed move.now_le)
    · rw [← untouched] at covers
      exact .inr covers
  · -- the rollback: what is stored, if anything, is the first record
    exfalso
    have early : ∀ other, d.subs queryID = some other → other.phase.unwritten = true := by
      intro other known
      cases same.symm.trans known
      exact SubmitPhase.unwritten_of_claiming claiming
    rcases move.record_origin shape lookup with stored | ⟨written, stores, own, _, rfl⟩
    · rw [no_record_of_journal (covered.unwritten early).1] at stored
      contradiction
    · obtain ⟨_, _, _, _, _, pending⟩ := covered.unwritten.stores shape early stores own
      rw [show written.state = .pending from pending] at terminal
      contradiction
  · obtain ⟨⟨own, _⟩, _⟩ := shape.run queryID run executed
    obtain ⟨given, name, key⟩ := (covered.pedigree.running queryID run executed).key (own ▸ sub)
    rcases refresh with ⟨reply, rfl, refreshed⟩ | unnamed | none
    · rcases Int.lt_or_le 0 s.opts.resultTTL with positive | none
      · have held := covered.held ⟨s, sub, named, rfl⟩ (by simp [Deployment.underway, working])
        have owned := d.store.owner_of_holder held
        rcases reply.apply_cases d.store _ with ⟨failed, _⟩ | ⟨_, applied⟩
        · exact absurd failed (spared.refreshed reply rfl)
        · rw [applied, given] at refreshed
          have expiry : after.store.idempExpires.lookup s.storedKey =
              some (d.now + s.opts.resultTTL) := by
            rw [refreshed, ← key]
            refine d.store.refreshIdempotency_expiry_self ?_ positive
            rw [own]
            exact (congrArg d.store.owner key).trans owned
          refine .inr ⟨?_, _, expiry, ?_⟩
          · rw [refreshed, d.store.refreshIdempotency_owner]
            exact owned
          · rcases move.now_cases with ⟨_, ⟨⟩, _⟩ | still
            rw [options]
            exact Int.add_le_add_right (still ▸ finished) _
      · exact unretained none
    · rw [name] at unnamed
      exact absurd unnamed named
    · exact unretained (given ▸ none)

end

theorem step (covered : KeyCovered key queryID d) (spared : Spared key queryID d action)
    (taken : Deployment.step env d action = some after) : KeyCovered key queryID after := by
  have move := step_move taken
  have pedigree := covered.pedigree.step move
  have dated := covered.dated.step endedBy_inherited move
  refine ⟨pedigree, dated, covered.unwritten.step covered.pedigree.shape move,
    covered.held_step move spared, fun hasKey idle record lookup terminal => ?_⟩
  cases working : d.working queryID with
  | true => exact covered.lasting_ended move spared hasKey pedigree dated working idle lookup terminal
  | false => exact covered.lasting_idle move spared hasKey working lookup terminal

end KeyCovered

variable {d : Deployment}

/-- In every run whose steps spare the key: from the claim of the key until `FinishedAt + ResultTTL`
of the query's record, `AcquireIdempotency` by whomever does not acquire the key and returns the
query. -/
theorem key_covers_query (env : Env) (key queryID : String) {now : Time}
    (run : Runs.Reaches (step env) (Spared key queryID) (initial now) d) {s : Submission}
    (sub : d.subs queryID = some s) (keyed : s.Keyed key) (due : d.due queryID = true)
    (other : String) (ttl : Duration) :
    (d.store.acquireIdempotency d.now s.dbID s.idemKey other ttl).1 = (queryID, false) := by
  have covered : KeyCovered key queryID d := run.invariant (KeyCovered key queryID)
    (KeyCovered.initial now) fun _ _ _ covered spared taken => covered.step spared taken
  have held := covered.holder ⟨s, sub, keyed⟩ due
  obtain ⟨_, rfl⟩ := keyed
  rcases d.store.acquireIdempotency_cases d.now s.dbID s.idemKey other ttl with
    ⟨_, holds, answer⟩ | ⟨free, _⟩
  · cases held.symm.trans holds
    rw [answer]
  · rw [show d.store.holder d.now (MetaStore.fullKey s.dbID s.idemKey) = some queryID from held]
      at free
    contradiction

/-! ## A covered query and two that are not -/

def answered : Action → Bool
  | .submission _ reply | .execution _ (.persist reply _) | .execution _ (.progress reply)
  | .execution _ (.refresh reply) | .reaper _ (.listed reply _) | .reaper _ (.fetched reply)
  | .reaper _ (.written reply) | .gc _ (.begin reply) | .gc _ (.listed reply _)
  | .gc _ (.collect reply) | .gc _ (.mark reply) | .gc _ (.release reply)
  | .gc _ (.drop reply) | .heart _ (.write reply) | .countRemote _ reply => reply = .ok
  | _ => true

/-- Nobody but the query's own goroutines touches the key, none of which gives it back, and the
clock stays before the end of the key's time. -/
def Undisturbed (key queryID : String) (d : Deployment) : Action → Prop
  | .tick elapsed => ∀ expiry ∈ d.store.idempExpires.lookup key, d.now + elapsed < expiry
  | .submission id _ => ∀ s ∈ d.subs id, s.releases? = none ∧ 0 < idempotencySubmitTTL s.opts
  | .execution _ choice => choice ≠ .refresh .failed ∧ d.working queryID = true
  | .gc _ _ | .crash _ | .heart _ _ | .reaper _ (.written _) => False
  | _ => True

instance (key queryID : String) (d : Deployment) (action : Action) :
    Decidable (Undisturbed key queryID d action) := by
  apply Action.casesOn (motive := fun action => Decidable (Undisturbed key queryID d action)) action
  case tick => exact fun elapsed => inferInstanceAs (Decidable
    (∀ expiry ∈ d.store.idempExpires.lookup key, d.now + elapsed < expiry))
  case submission => exact fun id _ => inferInstanceAs (Decidable (∀ s ∈ d.subs id, _ ∧ _))
  case execution => exact fun _ _ => inferInstanceAs (Decidable (_ ≠ _ ∧ _ = true))
  case gc | crash | heart => intros; exact instDecidableFalse
  case reaper => exact fun
    | _, .written _ => instDecidableFalse
    | _, .begin | _, .listed _ _ | _, .next | _, .fetched _ => instDecidableTrue
  all_goals intros; exact instDecidableTrue

theorem Undisturbed.spared {key : String} {action : Action}
    (quiet : Undisturbed key queryID d action) : Spared key queryID d action where
  refreshed := by
    rintro reply rfl rfl
    exact quiet.1 rfl
  claimed := by
    rintro s reply rfl sub _
    exact (quiet s sub).2
  prompt := by
    rintro elapsed rfl _ expiry armed
    exact quiet expiry armed
  released := by
    rintro dbID name releases _
    cases releases with
    | submitter _ _ s _ sub names =>
      rw [(quiet s sub).1] at names
      contradiction
    | collector => exact quiet.elim
  ended := by
    rintro record stores _ terminal idle
    cases stores with
    | admitted _ _ _ _ _ _ pending =>
      rw [pending] at terminal
      contradiction
    | begun | progressed | ended =>
      rw [quiet.2] at idle
      contradiction
    | reaped | marked => exact quiet.elim
  died := by
    intro s record _ killed _ _
    unfold dies at killed
    split at killed
    · exact quiet.elim
    · exact quiet.elim
    · contradiction

def keyedQuery : List Action :=
  startInstance 1 "a" ++ startInstance 2 "b" ++
    .submit 1 none "q" "db" "SELECT 1" { idempotencyKey := "k" } ::
      List.replicate 7 (.submission "q" .ok) ++
    [.execution "q" .go, .execution "q" (.persist .ok false)]

def sampleKey : String := MetaStore.fullKey "db" (scopedIdempotencyKey "" "k")

def keyView (d : Deployment) : Option (Bool × Bool × String × Bool) :=
  (d.subs "q").map fun s =>
    (s.Keyed sampleKey, d.due "q",
      (d.store.acquireIdempotency d.now s.dbID s.idemKey "r" hour).1)

theorem of_keyView {answer : String × Bool} (seen : keyView d = some (true, true, answer)) :
    ∃ s, d.subs "q" = some s ∧ s.Keyed sampleKey ∧ d.due "q" = true ∧
      (d.store.acquireIdempotency d.now s.dbID s.idemKey "r" hour).1 = answer := by
  obtain ⟨s, sub, view⟩ := Option.map_eq_some_iff.mp seen
  simp only [Prod.mk.injEq, decide_eq_true_eq] at view
  exact ⟨s, sub, view.1, view.2.1, view.2.2⟩

/-- The query succeeds after an hour; 23 hours later its key still leads to it. -/
theorem finished_query_keeps_key :
    ∃ d s, Runs.Reaches (step sampleEnv) (Spared sampleKey "q") (initial 1) d ∧
      d.subs "q" = some s ∧ s.Keyed sampleKey ∧ d.due "q" = true ∧
      (d.store.acquireIdempotency d.now s.dbID s.idemKey "r" hour).1 = ("q", false) := by
  obtain ⟨d, quiet, seen⟩ :
      ∃ d, Runs.Reaches (step sampleEnv) (Undisturbed sampleKey "q") (initial 1) d ∧
        keyView d = some (true, true, "q", false) :=
    Runs.exists_reaches (keyedQuery ++ [.tick hour.toNat] ++ finishQuery ++
      [.execution "q" (.refresh .ok), .tick (23 * hour).toNat]) (by decide +kernel)
  have run := quiet.mono fun _ _ quiet => quiet.spared
  obtain ⟨s, sub, keyed, due, _⟩ := of_keyView seen
  exact ⟨d, s, run, sub, keyed, due,
    key_covers_query sampleEnv sampleKey "q" run sub keyed due "r" hour⟩

/-- All MetaStore calls succeed, and the key goes to another query: 49 hours into the execution,
with the record still `RUNNING`; and 19 hours after a reaper ended the query, 30 hours into the
execution, with five hours of its retention left. -/
theorem key_runs_out :
    (∃ d s, Runs.Reaches (step sampleEnv) (fun _ action => answered action = true) (initial 1) d ∧
      d.subs "q" = some s ∧ s.Keyed sampleKey ∧ d.unfinished "q" = true ∧
      (d.store.acquireIdempotency d.now s.dbID s.idemKey "r" hour).1 = ("r", true)) ∧
    ∃ d s, Runs.Reaches (step sampleEnv) (fun _ action => answered action = true) (initial 1) d ∧
      d.subs "q" = some s ∧ s.Keyed sampleKey ∧ d.retained "q" = true ∧
      (d.store.acquireIdempotency d.now s.dbID s.idemKey "r" hour).1 = ("r", true) := by
  constructor
  · obtain ⟨d, run, view, unfinished⟩ :
        ∃ d, Runs.Reaches (step sampleEnv) (fun _ action => answered action = true) (initial 1) d ∧
          keyView d = some (true, true, "r", true) ∧ d.unfinished "q" = true :=
      Runs.exists_reaches (keyedQuery ++ [.tick (49 * hour).toNat]) (by decide +kernel)
    obtain ⟨s, sub, keyed, _, answer⟩ := of_keyView view
    exact ⟨d, s, run, sub, keyed, unfinished, answer⟩
  · obtain ⟨d, run, view, retained⟩ :
        ∃ d, Runs.Reaches (step sampleEnv) (fun _ action => answered action = true) (initial 1) d ∧
          keyView d = some (true, true, "r", true) ∧ d.retained "q" = true :=
      Runs.exists_reaches (keyedQuery ++ [.tick (30 * hour).toNat, .crash 1] ++ reapQuery ++
        [.tick (19 * hour).toNat]) (by decide +kernel)
    obtain ⟨s, sub, keyed, _, answer⟩ := of_keyView view
    exact ⟨d, s, run, sub, keyed, retained, answer⟩

end Deployment

end DbBridge.Cluster
