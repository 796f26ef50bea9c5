import DbBridge.Cluster.Writes

/-!
# What a step does to the idempotency keys

A key is claimed by a submission that finds it free, released by whoever believes
its query gone, and given a new time by an execution that has ended. `KeyMove`
lists these three; every other step leaves the keys and their times alone.
-/

namespace DbBridge.Cluster

open Domain State

theorem Reply.apply_sameKeys (reply : Reply) {before after : MetaStore}
    (same : SameKeys before after) : SameKeys before (reply.apply before after) := by
  cases reply with
  | failed => exact SameKeys.refl before
  | ok | lost => exact same

/-! ## The goroutines of a query -/

/-- The query from which a submission is about to release its key: the one it found there, or
its own at the end of the rollback. -/
def Submission.releases? (s : Submission) : Option String :=
  match s.phase with
  | .reclaim existing => some existing
  | .freeKey _ => if s.opts.idempotencyKey = "" then none else some s.queryID
  | _ => none

variable {now : Time} {p : Process} {reply : Reply} {m : MetaStore}

theorem submitStep_keys {s : Submission} {out : SubmitOutcome}
    (taken : submitStep now m p s reply = some out) : SameKeys m out.store ∨
      ((s.phase = .acquire ∨ s.phase = .reacquire) ∧ m.holder now s.storedKey = none ∧
        out.store = m.claim s.storedKey s.queryID (now + idempotencySubmitTTL s.opts)) ∨
      ∃ released, s.releases? = some released ∧
        out.store = m.releaseIdempotency s.dbID s.idemKey released := by
  have release : ∀ released, s.releases? = some released →
      SameKeys m (reply.apply m (m.releaseIdempotency s.dbID s.idemKey released)) ∨
        ∃ holder, s.releases? = some holder ∧
          reply.apply m (m.releaseIdempotency s.dbID s.idemKey released) =
            m.releaseIdempotency s.dbID s.idemKey holder := by
    intro released names
    rcases reply.apply_cases m (m.releaseIdempotency s.dbID s.idemKey released) with
      ⟨_, kept⟩ | ⟨_, freed⟩
    · rw [kept]
      exact .inl (SameKeys.refl m)
    · exact .inr ⟨released, names, freed⟩
  cases submitStep_move taken with
  | claimed phase free => exact .inr (.inl ⟨phase, free, rfl⟩)
  | unclaimed _ _ _ phase _ stored =>
    rcases stored with rfl | ⟨_, free, rfl⟩
    · exact .inl (SameKeys.refl _)
    · exact .inr (.inl ⟨phase, free, rfl⟩)
  | reclaimed existing phase | unreclaimed _ existing _ phase =>
    exact (release existing (by simp [Submission.releases?, phase])).imp id .inr
  | ended _ _ phase =>
    dsimp only
    split
    · exact .inl (SameKeys.refl m)
    · rename_i named
      exact (release s.queryID (by simp [Submission.releases?, phase, named])).imp id .inr
  | put record => exact .inl (m.store_sameKeys record)
  | unput _ record => exact .inl (reply.apply_sameKeys (m.store_sameKeys record))
  | leased => exact .inl (reply.apply_sameKeys ⟨rfl, rfl⟩)
  | _ => exact .inl (SameKeys.refl m)

variable {after : MetaStore}

theorem updateQueryIfState_sameKeys {record : QueryRecord} {expected : List QueryState}
    {written : Bool} (answer : m.updateQueryIfState record expected = some (written, after)) :
    SameKeys m after := by
  rcases m.updateQueryIfState_eq_some answer with ⟨_, rfl⟩ | ⟨_, rfl, _⟩
  · exact SameKeys.refl _
  · exact m.store_sameKeys record

theorem Reporter.progress_sameKeys {reporter next : Reporter}
    (taken : reporter.progress m reply = some (after, next)) : SameKeys m after := by
  unfold Reporter.progress at taken
  split at taken
  · contradiction
  · split at taken
    · cases taken
      exact SameKeys.refl m
    · rename_i answer
      cases taken
      exact reply.apply_sameKeys (updateQueryIfState_sameKeys answer)

def recordKey (record : QueryRecord) : String :=
  MetaStore.fullKey record.databaseID
    (scopedIdempotencyKey record.subject record.idempotencyKey)

variable {objects : List ObjectName}

theorem runStep_keys {run : Run} {choice : RunChoice} {out : RunOutcome}
    (taken : runStep now m p objects run choice = some out) :
    SameKeys m out.store ∨
      ∃ reply, choice = .refresh reply ∧ run.phase = .refreshKey ∧
        out.store = m.refreshIdempotency now run.record.databaseID
          (scopedIdempotencyKey run.record.subject run.record.idempotencyKey) run.record.id
          run.record.options.resultTTL := by
  cases runStep_move taken with
  | begun _ reply | ended _ reply =>
    exact .inl (reply.apply_sameKeys (m.store_sameKeys run.record))
  | progressed _ _ _ _ _ _ written => exact .inl (Reporter.progress_sameKeys written)
  | refreshed reply phase =>
    rcases reply.apply_cases m (m.refreshIdempotency now run.record.databaseID
        (scopedIdempotencyKey run.record.subject run.record.idempotencyKey) run.record.id
        run.record.options.resultTTL) with ⟨_, kept⟩ | ⟨_, renewed⟩
    · left
      dsimp only
      rw [kept]
      exact SameKeys.refl m
    · exact .inr ⟨reply, rfl, phase, renewed⟩
  | started | refused | executed | execFailed | storeFailed | opened | reported | took | encoded
  | unread | stopped | closed | discarded | deregistered | freed => exact .inl (SameKeys.refl m)

/-! ## The workers -/

variable {next : Process}

theorem reaperStep_sameKeys {choice : ReapChoice}
    (taken : reaperStep now m p choice = some (after, next)) : SameKeys m after := by
  cases choice with
  | written reply =>
    cases phase : p.reaper with
    | write pass failed ids =>
      simp only [reaperStep, phase, Option.some.injEq, Prod.mk.injEq] at taken
      obtain ⟨rfl, _⟩ := taken
      unfold failOwnerLost
      split
      · exact SameKeys.refl m
      · rename_i answer
        exact reply.apply_sameKeys (updateQueryIfState_sameKeys answer)
    | _ => simp [reaperStep, phase] at taken
  | begin | listed | next | fetched =>
    unfold reaperStep at taken
    (repeat' split at taken) <;>
      first
      | contradiction
      | (cases taken; exact SameKeys.refl m)

theorem heartStep_sameKeys {choice : HeartChoice}
    (taken : heartStep now m p choice = some (after, next)) : SameKeys m after := by
  simp only [heartStep] at taken
  (repeat' split at taken) <;>
    first
    | contradiction
    | (cases taken; exact SameKeys.refl m)
    | (cases taken; exact Reply.apply_sameKeys _ ⟨rfl, rfl⟩)

variable {env : Env}

theorem gcStep_keys {choice : GcChoice} {out : GcOutcome}
    (taken : gcStep env now m p objects choice = some out) :
    SameKeys m out.store ∨
      ∃ record ids reply, choice = .release reply ∧ p.gc = .release record ids ∧
        record.idempotencyKey ≠ "" ∧
        out.store = m.releaseIdempotency record.databaseID
          (scopedIdempotencyKey record.subject record.idempotencyKey) record.id := by
  cases gcStep_move taken with
  | released reply record ids phase =>
    dsimp only
    split
    · exact .inl (SameKeys.refl m)
    · rename_i named
      rcases reply.apply_cases m (m.releaseIdempotency record.databaseID
          (scopedIdempotencyKey record.subject record.idempotencyKey) record.id) with
        ⟨_, kept⟩ | ⟨_, freed⟩
      · rw [kept]
        exact .inl (SameKeys.refl m)
      · exact .inr ⟨record, ids, reply, rfl, phase, named, freed⟩
  | begun reply => exact .inl (reply.apply_sameKeys (m.tryLock_sameKeys _ _ _))
  | marked reply record => exact .inl (reply.apply_sameKeys (m.store_sameKeys record))
  | dropped reply => exact .inl (reply.apply_sameKeys ⟨rfl, rfl⟩)
  | listed | stopped | collected | failed | disposed => exact .inl (SameKeys.refl m)

/-! ## Moves -/

namespace Deployment

/-- A step releases the key that `dbID` and `name` make up from query `queryID`: a submitter
takes it over, a submission gives it back, or a collector frees it. -/
inductive Releases (d : Deployment) : Action → String → String → String → Prop
  | submitter (id : String) (reply : Reply) (s : Submission) (queryID : String)
      (sub : d.subs id = some s) (names : s.releases? = some queryID) :
      Releases d (.submission id reply) s.dbID s.idemKey queryID
  | collector (pid : Nat) (reply : Reply) (p : Process) (record : QueryRecord)
      (ids : List String) (found : d.procs pid = some p) (phase : p.gc = .release record ids)
      (named : record.idempotencyKey ≠ "") :
      Releases d (.gc pid (.release reply)) record.databaseID
        (scopedIdempotencyKey record.subject record.idempotencyKey) record.id

inductive KeyMove (d : Deployment) : Action → MetaStore → Prop
  | same (action : Action) (store : MetaStore) (same : SameKeys d.store store) :
      KeyMove d action store
  | claimed (reply : Reply) (s : Submission) (sub : d.subs s.queryID = some s)
      (phase : s.phase = .acquire ∨ s.phase = .reacquire)
      (free : d.store.holder d.now s.storedKey = none) :
      KeyMove d (.submission s.queryID reply)
        (d.store.claim s.storedKey s.queryID (d.now + idempotencySubmitTTL s.opts))
  | released (action : Action) (dbID name queryID : String)
      (releases : Releases d action dbID name queryID) :
      KeyMove d action (d.store.releaseIdempotency dbID name queryID)
  | refreshed (reply : Reply) (run : Run) (executed : d.runs run.record.id = some run)
      (phase : run.phase = .refreshKey) :
      KeyMove d (.execution run.record.id (.refresh reply))
        (d.store.refreshIdempotency d.now run.record.databaseID
          (scopedIdempotencyKey run.record.subject run.record.idempotencyKey) run.record.id
          run.record.options.resultTTL)

theorem Move.keys {d after : Deployment} {action : Action} (shape : Shape d)
    (move : Move env d action after) : KeyMove d action after.store := by
  cases move with
  | submission id reply s _ _ sub _ _ taken =>
    obtain ⟨rfl, _⟩ := shape.sub id s sub
    rw [applySubmit_store]
    rcases submitStep_keys taken with same | ⟨phase, free, claimed⟩ | ⟨queryID, names, freed⟩
    · exact .same _ _ same
    · rw [claimed]
      exact .claimed reply s sub phase free
    · rw [freed]
      exact .released _ _ _ _ (.submitter _ reply s queryID sub names)
  | execution id _ run _ out executed _ _ taken =>
    obtain ⟨⟨rfl, _⟩, _⟩ := shape.run id run executed
    change KeyMove d _ out.store
    rcases runStep_keys taken with same | ⟨reply, rfl, phase, renewed⟩
    · exact .same _ _ same
    · rw [renewed]
      exact .refreshed reply run executed phase
  | reaper _ _ _ _ _ _ _ taken => exact .same _ _ (reaperStep_sameKeys taken)
  | gc pid _ p out found _ taken =>
    change KeyMove d _ out.store
    rcases gcStep_keys taken with same | ⟨record, ids, reply, rfl, phase, named, freed⟩
    · exact .same _ _ same
    · rw [freed]
      exact .released _ _ _ _ (.collector pid reply p record ids found phase named)
  | heart _ _ _ _ _ _ _ taken => exact .same _ _ (heartStep_sameKeys taken)
  | tick | started | rejected | submitted | countBegin | countLocal | countRemote
  | operated => exact .same _ _ (SameKeys.refl _)

end Deployment

end DbBridge.Cluster
