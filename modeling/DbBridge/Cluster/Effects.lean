import DbBridge.Cluster.Steps
import DbBridge.State.Records

/-!
# Who writes which record

One lemma for each goroutine: a step leaves records and leases alone, or renews
leases, or is the one write (or deletion) its source line makes. The invariants are derived
from these lemmas.
-/

namespace DbBridge.Cluster

open Domain State

variable {after : MetaStore} {now : Time} {m : MetaStore} {p : Process} {reply : Reply}
  {next : Process} {objects : List ObjectName} {before : GcPhase}

theorem Reply.apply_untouched (reply : Reply) {before : MetaStore} (same : Untouched before after) :
    Untouched before (reply.apply before after) := by
  cases reply with
  | failed => exact Untouched.refl before
  | ok | lost => exact same

theorem Reply.apply_cases {α : Type} (reply : Reply) (before after : α) :
    (reply = .failed ∧ reply.apply before after = before) ∨
      (reply ≠ .failed ∧ reply.apply before after = after) := by
  cases reply <;> simp [Reply.apply]

theorem Reply.untouched_or_applied (reply : Reply) (m after : MetaStore) :
    Untouched m (reply.apply m after) ∨ reply ≠ .failed ∧ reply.apply m after = after := by
  rcases reply.apply_cases m after with ⟨_, kept⟩ | applied
  · rw [kept]
    exact .inl (Untouched.refl m)
  · exact .inr applied

variable {s : Submission}

theorem submitStep_effects {out : SubmitOutcome} (taken : submitStep now m p s reply = some out) :
    Untouched m out.store ∨
      (∃ record, s.phase = .lease record ∧ reply ≠ .failed ∧
        out.store = m.heartbeat now [s.queryID] p.heartbeatTTL) ∨
      ∃ record, s.phase = .put record ∧ reply ≠ .failed ∧ out.store = m.store record := by
  cases submitStep_move taken with
  | put record phase => exact .inr (.inr ⟨record, phase, by simp, rfl⟩)
  | unput reply record _ phase =>
    rcases reply.untouched_or_applied m (m.store record) with same | ⟨applied, stored⟩
    · exact .inl same
    · exact .inr (.inr ⟨record, phase, applied, stored⟩)
  | leased reply record phase =>
    rcases reply.untouched_or_applied m (m.heartbeat now [s.queryID] p.heartbeatTTL) with
      same | renewed
    · exact .inl same
    · exact .inr (.inl ⟨record, phase, renewed⟩)
  | unclaimed _ _ _ _ _ stored =>
    rcases stored with rfl | ⟨_, _, rfl⟩ <;> exact .inl ⟨⟨rfl, rfl⟩, rfl⟩
  | reclaimed => exact .inl (m.releaseIdempotency_untouched _ _ _)
  | unreclaimed => exact .inl (reply.apply_untouched (m.releaseIdempotency_untouched _ _ _))
  | ended =>
    left
    dsimp only
    split
    · exact Untouched.refl m
    · exact reply.apply_untouched (m.releaseIdempotency_untouched _ _ _)
  | _ => exact .inl ⟨⟨rfl, rfl⟩, rfl⟩

theorem submitStep_records {out : SubmitOutcome} (taken : submitStep now m p s reply = some out) :
    SameRecords m out.store ∨
      ∃ record, s.phase = .put record ∧ reply ≠ .failed ∧ out.store = m.store record := by
  rcases submitStep_effects taken with same | ⟨_, _, _, renewed⟩ | written
  · exact .inl same.toSameRecords
  · left
    rw [renewed]
    exact m.heartbeat_sameRecords _ _ _
  · exact .inr written

variable {reporter : Reporter}

theorem Reporter.progress_records {next : Reporter}
    (taken : reporter.progress m reply = some (after, next)) :
    Untouched m after ∨
      ∃ snapshot current, reporter.writing = some snapshot ∧
        m.queries.lookup snapshot.id = some current ∧ current.state = .running ∧
        after = m.store snapshot := by
  unfold Reporter.progress at taken
  cases writing : reporter.writing with
  | none => simp [writing] at taken
  | some snapshot =>
    simp only [writing] at taken
    cases answer : m.updateQueryIfState snapshot [.running] with
    | none =>
      simp only [answer, Option.some.injEq, Prod.mk.injEq] at taken
      obtain ⟨rfl, _⟩ := taken
      exact .inl (Untouched.refl m)
    | some result =>
      obtain ⟨_, _⟩ := result
      simp only [answer, Option.some.injEq, Prod.mk.injEq] at taken
      obtain ⟨rfl, _⟩ := taken
      rcases m.updateQueryIfState_eq_some answer with
        ⟨_, rfl⟩ | ⟨_, rfl, current, lookup, member⟩
      · exact .inl (reply.apply_untouched (Untouched.refl _))
      · rcases reply.untouched_or_applied m (m.store snapshot) with same | ⟨_, stored⟩
        · exact .inl same
        · exact .inr ⟨snapshot, current, rfl, lookup, by simpa using member, stored⟩

theorem failOwnerLost_records (m : MetaStore) (failed : QueryRecord) (reply : Reply) :
    Untouched m (failOwnerLost m failed reply) ∨
      ∃ current, m.queries.lookup failed.id = some current ∧
        current.state ∈ ownerLostExpected ∧ failOwnerLost m failed reply = m.store failed := by
  unfold failOwnerLost
  cases answer : m.updateQueryIfState failed ownerLostExpected with
  | none => exact .inl (Untouched.refl m)
  | some result =>
    obtain ⟨_, _⟩ := result
    rcases m.updateQueryIfState_eq_some answer with
      ⟨_, rfl⟩ | ⟨_, rfl, current, lookup, member⟩
    · exact .inl (reply.apply_untouched (Untouched.refl _))
    · rcases reply.untouched_or_applied m (m.store failed) with same | ⟨_, stored⟩
      · exact .inl same
      · exact .inr ⟨current, lookup, member, stored⟩

theorem reaperStep_records {choice : ReapChoice}
    (taken : reaperStep now m p choice = some (after, next)) :
    Untouched m after ∨
      ∃ pass failed ids reply current, p.reaper = .write pass failed ids ∧
        choice = .written reply ∧ m.queries.lookup failed.id = some current ∧
        current.state ∈ ownerLostExpected ∧ after = m.store failed := by
  cases choice with
  | written reply =>
    cases phase : p.reaper with
    | write pass failed ids =>
      simp only [reaperStep, phase, Option.some.injEq, Prod.mk.injEq] at taken
      obtain ⟨rfl, _⟩ := taken
      rcases failOwnerLost_records m failed reply with
        same | ⟨current, lookup, member, stored⟩
      · exact .inl same
      · exact .inr ⟨pass, failed, ids, reply, current, rfl, rfl, lookup, member, stored⟩
    | _ => simp [reaperStep, phase] at taken
  | begin | listed | next | fetched =>
    left
    unfold reaperStep at taken
    (repeat' split at taken) <;>
      first
      | contradiction
      | (cases taken; exact Untouched.refl _)

/-- What one step of the collector can be, with the outcome written out. -/
inductive GcMove (now : Time) (m : MetaStore) (p : Process)
    (objects : List ObjectName) : GcChoice → GcOutcome → Prop
  | begun (reply : Reply) (gc : GcPhase) (phase : p.gc = .idle) (next : gc = .list ∨ gc = .idle) :
      GcMove now m p objects (.begin reply)
        ⟨reply.apply m (m.tryLock now Process.gcLockName p.gcLockTTL).2, { p with gc }, objects⟩
  | listed (reply : Reply) (ids : List String) (phase : p.gc = .list)
      (all : ids.Perm (m.listExpiredQueries now)) :
      GcMove now m p objects (.listed reply ids) ⟨m, { p with gc := .loop ids }, objects⟩
  | stopped (choice : GcChoice) (phase : p.gc = .list ∨ ∃ ids, p.gc = .loop ids) :
      GcMove now m p objects choice ⟨m, { p with gc := .idle }, objects⟩
  | collected (reply : Reply) (id : String) (ids : List String) (gc : GcPhase)
      (phase : p.gc = .loop (id :: ids)) (next : gc = collectRead m id ids ∨ gc = .loop ids) :
      GcMove now m p objects (.collect reply) ⟨m, { p with gc }, objects⟩
  | marked (reply : Reply) (record : QueryRecord) (ids : List String) (gc : GcPhase)
      (phase : p.gc = .mark record ids) (next : gc = .dispose record ids ∨ gc = .loop ids) :
      GcMove now m p objects (.mark reply) ⟨reply.apply m (m.store record), { p with gc }, objects⟩
  | failed (choice : GcChoice) (record : QueryRecord) (ids : List String)
      (phase : p.gc = .mark record ids ∨ p.gc = .dispose record ids ∧ record.result.isSome = true) :
      GcMove now m p objects choice ⟨m, { p with gc := .loop ids }, objects⟩
  | disposed (choice : GcChoice) (record : QueryRecord) (ids : List String)
      (phase : p.gc = .dispose record ids) :
      GcMove now m p objects choice ⟨m, { p with gc := .release record ids },
        objects.filter fun object => ∀ ref ∈ record.result, object ≠ objectName ref⟩
  | released (reply : Reply) (record : QueryRecord) (ids : List String)
      (phase : p.gc = .release record ids) :
      GcMove now m p objects (.release reply)
        ⟨if record.idempotencyKey = "" then m
          else reply.apply m (m.releaseIdempotency record.databaseID
            (scopedIdempotencyKey record.subject record.idempotencyKey) record.id),
          { p with gc := .drop record.id ids }, objects⟩
  | dropped (reply : Reply) (id : String) (ids : List String) (phase : p.gc = .drop id ids) :
      GcMove now m p objects (.drop reply)
        ⟨reply.apply m (m.deleteQuery id), { p with gc := .loop ids }, objects⟩

variable {choice : GcChoice} {out : GcOutcome} {env : Env}

section
variable (taken : gcStep env now m p objects choice = some out)
include taken

theorem gcStep_move : GcMove now m p objects choice out := by
  unfold gcStep at taken
  split at taken
  case h_1 reply phase =>
    split at taken <;> cases taken
    refine .begun reply _ phase ?_
    split <;> simp
  case h_2 reply ids phase =>
    split at taken
    · cases taken
      exact .stopped _ (.inl phase)
    split at taken <;> cases taken
    rename_i all
    exact .listed reply ids phase all
  case h_3 ids phase =>
    cases taken
    exact .stopped _ (.inr ⟨ids, phase⟩)
  case h_4 id ids reply phase =>
    cases taken
    refine .collected reply id ids _ phase ?_
    split <;> simp
  case h_5 record ids reply phase =>
    split at taken <;> cases taken
    · exact .failed _ record ids (.inl phase)
    · rename_i updated answer
      rw [m.updateQuery_eq_some answer]
      refine .marked reply record ids _ phase ?_
      split <;> simp
  case h_6 record ids deleted phase =>
    split at taken
    · rename_i none_
      cases taken
      simpa [none_] using GcMove.disposed (.dispose deleted) record ids phase
    · rename_i ref result
      split at taken <;> cases taken
      · simpa [result] using GcMove.disposed (.dispose deleted) record ids phase
      · exact .failed _ record ids (.inr ⟨phase, by simp [result]⟩)
  case h_7 record ids reply phase =>
    cases taken
    exact .released reply record ids phase
  case h_8 id ids reply phase =>
    cases taken
    exact .dropped reply id ids phase
  case h_9 => contradiction

theorem gcStep_records :
    Untouched m out.store ∨
      (∃ record ids reply, p.gc = .mark record ids ∧ choice = .mark reply ∧
        out.store = m.store record) ∨
      ∃ id ids, p.gc = .drop id ids ∧ out.store = m.deleteQuery id := by
  cases gcStep_move taken with
  | begun => exact .inl (Reply.apply_untouched _ (m.tryLock_untouched _ _ _))
  | marked reply record ids _ phase =>
    rcases reply.untouched_or_applied m (m.store record) with same | ⟨_, stored⟩
    · exact .inl same
    · exact .inr (.inl ⟨record, ids, reply, phase, rfl, stored⟩)
  | released reply =>
    left
    dsimp only
    split
    · exact Untouched.refl m
    · exact reply.apply_untouched (m.releaseIdempotency_untouched _ _ _)
  | dropped reply id ids phase =>
    rcases reply.untouched_or_applied m (m.deleteQuery id) with same | ⟨_, deleted⟩
    · exact .inl same
    · exact .inr (.inr ⟨id, ids, phase, deleted⟩)
  | listed | stopped | collected | failed | disposed => exact .inl (Untouched.refl m)

end

/-! ## The collector's phases -/

def GcPhase.rest : GcPhase → List String
  | .idle | .list => []
  | .loop ids | .mark _ ids | .dispose _ ids | .release _ ids | .drop _ ids => ids

/-- What a step can make of the collector's phase. `left` is a record that is done
with or given up. -/
inductive GcAdvances (now : Time) (m : MetaStore) : GcPhase → GcPhase → Prop
  | stopped (phase : GcPhase) : GcAdvances now m phase .idle
  | locked : GcAdvances now m .idle .list
  | listed (ids : List String) (all : ids.Perm (m.listExpiredQueries now)) :
      GcAdvances now m .list (.loop ids)
  | skipped (id : String) (ids : List String) :
      GcAdvances now m (.loop (id :: ids)) (.loop ids)
  | read (id : String) (ids : List String) :
      GcAdvances now m (.loop (id :: ids)) (collectRead m id ids)
  | marked (record : QueryRecord) (ids : List String) :
      GcAdvances now m (.mark record ids) (.dispose record ids)
  | disposed (record : QueryRecord) (ids : List String) :
      GcAdvances now m (.dispose record ids) (.release record ids)
  | released (record : QueryRecord) (ids : List String) :
      GcAdvances now m (.release record ids) (.drop record.id ids)
  | left (phase : GcPhase) : GcAdvances now m phase (.loop phase.rest)

theorem gcStep_advances (taken : gcStep env now m p objects choice = some out) :
    GcAdvances now m p.gc out.process.gc := by
  cases gcStep_move taken with
  | begun _ _ phase next =>
    rw [phase]
    rcases next with rfl | rfl
    · exact .locked
    · exact .stopped _
  | listed _ ids phase all => exact phase ▸ .listed ids all
  | stopped => exact .stopped _
  | collected _ id ids _ phase next =>
    rw [phase]
    rcases next with rfl | rfl
    · exact .read id ids
    · exact .skipped id ids
  | marked _ record ids _ phase next =>
    rw [phase]
    rcases next with rfl | rfl
    · exact .marked record ids
    · exact .left (.mark record ids)
  | failed _ record ids phase =>
    rcases phase with phase | ⟨phase, _⟩
    · exact phase ▸ .left (.mark record ids)
    · exact phase ▸ .left (.dispose record ids)
  | disposed _ record ids phase => exact phase ▸ .disposed record ids
  | released _ record ids phase => exact phase ▸ .released record ids
  | dropped _ id ids phase => exact phase ▸ .left (.drop id ids)

def GcPhase.read? : GcPhase → Option QueryRecord
  | .mark record _ | .dispose record _ => some record
  | _ => none

theorem collectRead_cases (m : MetaStore) (id : String) (ids : List String) :
    collectRead m id ids = .loop ids ∨
      ∃ read, m.getQuery id = some read ∧ read.state.isTerminal = true ∧
        (collectRead m id ids = .mark { read with state := .expired } ids ∨
          collectRead m id ids = .dispose { read with state := .expired } ids) := by
  unfold collectRead
  cases found : m.getQuery id with
  | none => exact .inl rfl
  | some read =>
    dsimp only
    split
    · rename_i expired
      refine .inr ⟨read, rfl, by rw [expired]; rfl, .inr ?_⟩
      rw [← expired]
    · split
      · rename_i allowed
        exact .inr ⟨read, rfl, (QueryState.canTransitionTo_expired_iff _).mp allowed,
          .inl rfl⟩
      · exact .inl rfl

def GcPhase.target? : GcPhase → Option String
  | .mark record _ | .dispose record _ | .release record _ => some record.id
  | .drop id _ => some id
  | .idle | .list | .loop _ => none

theorem heartStep_effects {choice : HeartChoice}
    (taken : heartStep now m p choice = some (after, next)) :
    Untouched m after ∨
      ∃ nextTick ids reply, p.heart = .beat nextTick ids ∧ choice = .write reply ∧
        reply ≠ .failed ∧ after = m.heartbeat now ids p.heartbeatTTL := by
  cases choice with
  | write reply =>
    cases phase : p.heart with
    | beat nextTick ids =>
      simp only [heartStep, phase, Option.some.injEq, Prod.mk.injEq] at taken
      obtain ⟨rfl, _⟩ := taken
      rcases reply.untouched_or_applied m (m.heartbeat now ids p.heartbeatTTL) with
        same | renewed
      · exact .inl same
      · exact .inr ⟨nextTick, ids, reply, rfl, rfl, renewed⟩
    | _ => simp [heartStep, phase] at taken
  | begin | tick =>
    left
    simp only [heartStep] at taken
    (repeat' split at taken) <;>
      first
      | contradiction
      | (cases taken; exact Untouched.refl _)

theorem heartStep_records {choice : HeartChoice}
    (taken : heartStep now m p choice = some (after, next)) : SameRecords m after := by
  rcases heartStep_effects taken with same | ⟨_, _, _, _, _, _, renewed⟩
  · exact same.toSameRecords
  · rw [renewed]
    exact m.heartbeat_sameRecords _ _ _

def RunPhase.writing? : RunPhase → Option QueryRecord
  | .stream _ _ _ reporter | .stopping _ _ _ reporter _ => reporter.writing
  | _ => none

theorem RunPhase.writing?_of_reporter? {phase : RunPhase}
    (reporting : phase.reporter? = some reporter) : phase.writing? = reporter.writing := by
  cases phase <;> cases reporting <;> rfl

theorem runStep_records {run : Run} {choice : RunChoice} {out : RunOutcome}
    (taken : runStep now m p objects run choice = some out) :
    Untouched m out.store ∨
      (∃ attempt reply giveUp,
        (run.phase = .persistRunning attempt ∨ run.phase = .persistTerminal attempt) ∧
        choice = .persist reply giveUp ∧ reply ≠ .failed ∧
        out.store = m.store run.record) ∨
      ∃ reply snapshot current, choice = .progress reply ∧
        run.phase.writing? = some snapshot ∧
        m.queries.lookup snapshot.id = some current ∧ current.state = .running ∧
        out.store = m.store snapshot := by
  cases runStep_move taken with
  | begun attempt reply giveUp _ phase =>
    rcases reply.untouched_or_applied m (m.putQuery run.record) with same | ⟨applied, stored⟩
    · exact .inl same
    · exact .inr (.inl ⟨attempt, reply, giveUp, .inl phase, rfl, applied, stored⟩)
  | ended attempt reply giveUp _ phase =>
    rcases reply.untouched_or_applied m (m.putQuery run.record) with same | ⟨applied, stored⟩
    · exact .inl same
    · exact .inr (.inl ⟨attempt, reply, giveUp, .inr phase, rfl, applied, stored⟩)
  | progressed _ _ reply _ _ reporting progressed =>
    rcases Reporter.progress_records progressed with
      same | ⟨snapshot, current, writing, lookup, running, stored⟩
    · exact .inl same
    · refine .inr (.inr ⟨reply, snapshot, current, rfl, ?_, lookup, running, stored⟩)
      rw [RunPhase.writing?_of_reporter? reporting, writing]
  | refreshed reply =>
    exact .inl (reply.apply_untouched (m.refreshIdempotency_untouched _ _ _ _ _))
  | _ => exact .inl (Untouched.refl m)

end DbBridge.Cluster
