import DbBridge.Cluster.Writes

/-!
# Where a record comes from

Records are copied all the time: `run` changes its own, the progress reporter keeps
snapshots, reapers and collectors rewrite what they read some time ago. Whatever
the copy, the part of it that `SubmitQuery` filled in is the one of its query.
-/

namespace DbBridge.Domain

/-- What `SubmitQuery` put on the record, without what happened to the query since. -/
def QueryRecord.request (record : QueryRecord) : QueryRecord :=
  { record with
    state := .pending
    startedAt := 0
    finishedAt := 0
    error := none
    stats := {}
    result := none
    leaseDeadline := 0 }

end DbBridge.Domain

namespace DbBridge.Cluster

open Domain State

/-! ## Executions -/

@[simp] theorem finishRun_request (now : Time) (run : Run) (next : QueryState)
    (qErr : Option QueryError) (dbDur storeDur : Duration) :
    (finishRun now run next qErr dbDur storeDur).record.request = run.record.request := by
  unfold finishRun complete
  dsimp only
  split <;> rfl

@[simp] theorem afterClose_request (now : Time) (run : Run) (dbDur storeDur : Duration)
    (ref : ResultRef) (encoded : Encoded) (closeErr : Option GoError) (checksum : String) :
    (afterClose now run dbDur storeDur ref encoded closeErr checksum).record.request =
      run.record.request := by
  unfold afterClose
  split
  · rfl
  · rfl
  · rw [finishRun_request]
    rfl

@[simp] theorem report_request (now : Time) (record : QueryRecord) (reporter : Reporter)
    (rows bytes : Int) : (report now record reporter rows bytes).1.request = record.request := by
  unfold report
  split <;> rfl

variable {m : MetaStore} {p : Process} {now : Time}

theorem RunMove.request {objects : List ObjectName} {run : Run} {choice : RunChoice}
    {out : RunOutcome} (move : RunMove now m p objects run choice out) :
    out.run.record.request = run.record.request := by
  cases move with
  | execFailed | storeFailed | discarded | closed | reported | encoded => simp
  | started | refused | begun | executed | opened | took | progressed | unread | stopped
  | ended | refreshed | deregistered | freed => rfl

theorem RunPhase.holds_of_writing {phase : RunPhase} {snapshot : QueryRecord}
    (writing : phase.writing? = some snapshot) : phase.Holds snapshot := by
  cases phase with
  | stream _ _ _ reporter | stopping _ _ _ reporter => exact ⟨reporter, rfl, .inr writing⟩
  | _ => contradiction

/-! ## Workers -/

def ReaperPhase.hand? : ReaperPhase → Option QueryRecord
  | .judge _ record _ | .write _ record _ => some record
  | _ => none

variable {record : QueryRecord}

theorem reaperStep_hand {after : MetaStore} {next : Process} {choice : ReapChoice}
    (taken : reaperStep now m p choice = some (after, next))
    (hand : next.reaper.hand? = some record) :
    (∃ pass ids, next.reaper = .judge pass record ids ∧ m.getQuery record.id = some record) ∨
      ∃ pass read ids, p.reaper = .judge pass read ids ∧
        next.reaper = .write pass record ids ∧ record = ownerLost read now := by
  cases phase : p.reaper with
  | fetch pass id ids =>
    cases choice with
    | fetched reply =>
      simp only [reaperStep, phase, Option.some.injEq, Prod.mk.injEq] at taken
      obtain ⟨_, rfl⟩ := taken
      dsimp only at hand ⊢
      split at hand <;> cases hand
      rename_i read _ found
      exact .inl ⟨pass, ids, rfl, (m.getQuery_id found).symm ▸ found⟩
    | _ => simp [reaperStep, phase] at taken
  | judge pass read ids =>
    cases choice with
    | next =>
      simp only [reaperStep, phase, Option.some.injEq, Prod.mk.injEq] at taken
      obtain ⟨_, rfl⟩ := taken
      dsimp only at hand ⊢
      split at hand <;> cases hand
      rename_i condemned
      rw [if_pos condemned]
      exact .inr ⟨pass, read, ids, rfl, rfl, rfl⟩
    | _ => simp [reaperStep, phase] at taken
  | idle | listByInstance | listStale | loop | write =>
    exfalso
    simp only [reaperStep, phase, Process.endPass] at taken
    revert hand
    (repeat' split at taken) <;>
      first
      | contradiction
      | (cases taken; simp [ReaperPhase.hand?])

def GcPhase.hand? : GcPhase → Option QueryRecord
  | .mark record _ | .dispose record _ | .release record _ => some record
  | _ => none

namespace Deployment

section
variable {env : Env} {d after : Deployment} {action : Action} {next : Process}

section
variable {pid : Nat} (move : Move env d action after) (present : after.procs pid = some next)
include move present

theorem Move.reaper_cases : next.reaper = .listByInstance ∨ ∃ before, d.procs pid = some before ∧
      (next.reaper = before.reaper ∨
        ∃ choice, reaperStep d.now d.store before choice = some (after.store, next)) := by
  rcases move.origin pid next present with ⟨before, found, _⟩ | ⟨_, _, _, _, _, _, rfl⟩
  · exact .inr ⟨before, found, (move.parts found present).reaper⟩
  · exact .inl rfl

theorem Move.reaper_hand (hand : next.reaper.hand? = some record) :
    (∃ before, d.procs pid = some before ∧ next.reaper = before.reaper) ∨
      (∃ pass ids, next.reaper = .judge pass record ids ∧
        d.store.getQuery record.id = some record) ∨
      ∃ before pass read ids, d.procs pid = some before ∧
        before.reaper = .judge pass read ids ∧ next.reaper = .write pass record ids ∧
        record = ownerLost read d.now := by
  rcases move.reaper_cases present with start | ⟨before, found, same | ⟨_, taken⟩⟩
  · rw [start] at hand
    contradiction
  · exact .inl ⟨before, found, same⟩
  · rcases reaperStep_hand taken hand with read | ⟨pass, read, ids, phase, rest⟩
    · exact .inr (.inl read)
    · exact .inr (.inr ⟨before, pass, read, ids, found, phase, rest⟩)

theorem Move.gc_hand (hand : next.gc.hand? = some record) :
    (∃ before, d.procs pid = some before ∧ before.gc.hand? = some record) ∨
      ∃ read, d.store.getQuery record.id = some read ∧ read.state.isTerminal = true ∧
        record = { read with state := .expired } := by
  obtain ⟨before, found, earlier | ⟨id, _, read, _, got, ended, held⟩⟩ :=
    move.gc_origin (·.hand? = some record) present hand ⟨nofun, nofun, nofun⟩
      fun _ _ => ⟨id, id, nofun⟩
  · exact .inl ⟨before, found, earlier⟩
  · obtain rfl : { read with state := .expired } = record := by simpa [GcPhase.hand?] using held
    exact .inr ⟨read, (d.store.getQuery_id got).symm ▸ got, ended, rfl⟩

end

end

/-! ## What every copy of a record keeps -/

/-- A property of records that holds of the record a submission builds and that whoever copies
or changes a record keeps. -/
structure Inherited (env : Env) (good : Deployment → QueryRecord → Prop) : Prop where
  step : ∀ {d after : Deployment} {action : Action} {record : QueryRecord}, Shape d →
    Move env d action after → good d record → good after record
  first : ∀ {d : Deployment} {queryID : String} {s : Submission} {record : QueryRecord},
    Shape d → d.subs queryID = some s → s.phase.record? = some record → good d record
  run : ∀ {d : Deployment} {p : Process} {run : Run} {choice : RunChoice} {out : RunOutcome},
    RunMove d.now d.store p d.objects run choice out → good d run.record → good d out.run.record
  lease : ∀ {d : Deployment} {record : QueryRecord} (deadline : Time), good d record →
    good d { record with leaseDeadline := deadline }
  lost : ∀ {d : Deployment} {record : QueryRecord}, good d record →
    good d (ownerLost record d.now)
  expired : ∀ {d : Deployment} {record : QueryRecord}, record.state.isTerminal = true →
    good d record → good d { record with state := .expired }

structure EveryCopy (good : Deployment → QueryRecord → Prop) (d : Deployment) : Prop where
  shape : Shape d
  stored : ∀ id record, d.store.queries.lookup id = some record → good d record
  running : ∀ queryID run, d.runs queryID = some run → good d run.record
  reporting : ∀ queryID run snapshot, d.runs queryID = some run →
    run.phase.Holds snapshot → good d snapshot
  reaping : ∀ pid p record, d.procs pid = some p → p.reaper.hand? = some record →
    good d record
  collecting : ∀ pid p record, d.procs pid = some p → p.gc.hand? = some record →
    good d record

variable {id : String}

namespace EveryCopy

variable {env : Env} {good : Deployment → QueryRecord → Prop} {d after : Deployment}
  {action : Action}

theorem initial (now : Time) : EveryCopy good (initial now) where
  shape := Shape.initial now
  stored := by simp [Deployment.initial, MetaStore.empty]
  running := by simp [Deployment.initial]
  reporting := by simp [Deployment.initial]
  reaping := by simp [Deployment.initial]
  collecting := by simp [Deployment.initial]

theorem read (copies : EveryCopy good d)
    (lease : ∀ record deadline, good d record → good d { record with leaseDeadline := deadline })
    (found : d.store.getQuery id = some record) : good d record := by
  obtain ⟨stored, deadline, lookup, rfl⟩ := d.store.getQuery_eq_some found
  exact lease stored deadline (copies.stored id stored lookup)

section
variable (inherited : Inherited env good) (copies : EveryCopy good d)
include inherited copies

theorem stores (stores : Stores d action record) : good d record := by
  cases stores with
  | admitted _ s _ sub phase => exact inherited.first copies.shape sub (by rw [phase]; rfl)
  | begun _ _ run _ executed | ended _ _ run _ executed => exact copies.running _ run executed
  | progressed _ run _ _ executed writing =>
    exact copies.reporting _ run _ executed (RunPhase.holds_of_writing writing)
  | reaped pid _ p _ _ _ _ found phase =>
    exact copies.reaping pid p _ found (by rw [phase]; rfl)
  | marked pid _ p _ _ found phase =>
    exact copies.collecting pid p _ found (by rw [phase]; rfl)

section
variable (move : Move env d action after)
include move

theorem stored_step (id : String) (record : QueryRecord)
    (lookup : after.store.queries.lookup id = some record) : good d record := by
  rcases move.record_origin copies.shape lookup with same | ⟨_, stores, _, _, rfl⟩
  · exact copies.stored id record same
  · exact inherited.lease 0 (copies.stores inherited stores)

theorem run_step (queryID : String) (run : Run) (executed : after.runs queryID = some run) :
    good d run.record ∧ ∀ snapshot, run.phase.Holds snapshot → good d snapshot := by
  rcases move.run_origin copies.shape executed with
    same | ⟨_, _, record, _, sub, phase, rfl⟩ | ⟨_, before, _, _, _, known, _, taken, rfl⟩
  · exact ⟨copies.running queryID run same, fun snapshot =>
      copies.reporting queryID run snapshot same⟩
  · exact ⟨inherited.first copies.shape sub (by rw [phase]; rfl), fun snapshot held =>
      absurd held (RunPhase.not_holds rfl snapshot)⟩
  · have moved := runStep_move taken
    have own := inherited.run moved (copies.running queryID before known)
    refine ⟨own, fun snapshot held => ?_⟩
    rcases moved.holds held with earlier | ⟨rfl, _⟩
    · exact copies.reporting queryID before snapshot known earlier
    · exact own

theorem step : EveryCopy good after where
  shape := copies.shape.step move
  stored := fun id record lookup =>
    inherited.step copies.shape move (copies.stored_step inherited move id record lookup)
  running := fun queryID run executed =>
    inherited.step copies.shape move (copies.run_step inherited move queryID run executed).1
  reporting := fun queryID run snapshot executed held =>
    inherited.step copies.shape move
      ((copies.run_step inherited move queryID run executed).2 snapshot held)
  reaping := by
    intro pid next record present hand
    refine inherited.step copies.shape move ?_
    rcases move.reaper_hand present hand with
      ⟨before, found, same⟩ | ⟨_, _, _, read⟩ | ⟨before, _, read, _, found, phase, _, rfl⟩
    · exact copies.reaping pid before record found (same ▸ hand)
    · exact copies.read (fun _ => inherited.lease) read
    · exact inherited.lost (copies.reaping pid before read found (by rw [phase]; rfl))
  collecting := by
    intro pid next record present hand
    refine inherited.step copies.shape move ?_
    rcases move.gc_hand present hand with ⟨before, found, earlier⟩ | ⟨read, found, ended, rfl⟩
    · exact copies.collecting pid before record found earlier
    · exact inherited.expired ended (copies.read (fun _ => inherited.lease) found)

end

end

end EveryCopy

/-! ## Every copy descends from the submission -/

/-- The request of a record is the one its query was submitted with, or the query is an
`old` one, which nobody submitted. -/
def Descends (old : String → Prop) (d : Deployment) (record : QueryRecord) : Prop :=
  old record.id ∨ ∃ s instanceID created, d.subs record.id = some s ∧
    record.request = s.newRecord instanceID created

variable {queryID : String} {s : Submission}

section
variable {old : String → Prop} {env : Env} {d after : Deployment} {action : Action}

theorem Descends.of_request {copy : QueryRecord} (descends : Descends old d record)
    (same : copy.request = record.request) : Descends old d copy := by
  have id : copy.request.id = record.request.id := by rw [same]
  change copy.id = record.id at id
  rcases descends with foreign | ⟨s, instanceID, created, sub, request⟩
  · exact .inl (id ▸ foreign)
  · exact .inr ⟨s, instanceID, created, id ▸ sub, same.trans request⟩

theorem Descends.step (descends : Descends old d record) (shape : Shape d)
    (move : Move env d action after) : Descends old after record := by
  rcases descends with foreign | ⟨_, instanceID, created, sub, request⟩
  · exact .inl foreign
  · obtain ⟨_, kept⟩ := move.sub_kept shape sub
    exact .inr ⟨_, instanceID, created, kept, request⟩

theorem Shape.descends (shape : Shape d) (sub : d.subs queryID = some s)
    (carried : s.phase.record? = some record) : Descends old d record := by
  obtain ⟨rfl, p, _, sound⟩ := shape.sub queryID s sub
  obtain ⟨created, rfl⟩ := sound record carried
  exact .inr ⟨s, p.instanceID, created, sub, rfl⟩

theorem descends_inherited : Inherited env (Descends old) where
  step := fun shape move descends => descends.step shape move
  first := fun shape sub carried => shape.descends sub carried
  run := fun moved descends => descends.of_request moved.request
  lease := fun _ descends => descends.of_request rfl
  lost := fun descends => descends.of_request rfl
  expired := fun _ descends => descends.of_request rfl

abbrev Pedigree (old : String → Prop) (d : Deployment) : Prop := EveryCopy (Descends old) d

theorem Pedigree.read (pedigree : Pedigree old d) (found : d.store.getQuery id = some record) :
    Descends old d record :=
  EveryCopy.read pedigree (fun _ _ descends => descends.of_request rfl) found

theorem Pedigree.step (pedigree : Pedigree old d) (move : Move env d action after) :
    Pedigree old after :=
  EveryCopy.step descends_inherited pedigree move

end

section
variable {env : Env} {guard : Deployment → Action → Prop} {d after : Deployment}

/-- Nothing is stored that nobody submitted. -/
theorem Reachable.pedigree (reached : Reachable env guard d) : Pedigree (fun _ => False) d := by
  obtain ⟨now, _, run⟩ := reached
  apply run.invariant (Pedigree fun _ => False) (EveryCopy.initial now)
  intro before action after pedigree _ taken
  exact pedigree.step (step_move taken)

end

end Deployment

end DbBridge.Cluster
