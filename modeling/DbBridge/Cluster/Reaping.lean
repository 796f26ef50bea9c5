import DbBridge.Cluster.Writes

/-!
# Who fails an abandoned query

A pass of `reapStaleOwners` on its own: only its steps are taken, time may pass
between them, and every MetaStore call succeeds. It fails an abandoned query exactly
when the record names another instance as the owner.
-/

namespace DbBridge.Cluster

open Domain State Runs

/-! ## A pass -/

structure PassState where
  now : Time
  store : MetaStore
  process : Process

inductive PassAction where
  | tick (elapsed : Nat)
  | reap (choice : ReapChoice)

def passStep (s : PassState) : PassAction → Option PassState
  | .tick elapsed => some { s with now := s.now + elapsed }
  | .reap choice =>
    (reaperStep s.now s.store s.process choice).map fun out =>
      { s with store := out.1, process := out.2 }

def Healthy (_ : PassState) : PassAction → Prop
  | .tick _ => True
  | .reap .begin => False
  | .reap .next => True
  | .reap (.listed reply _) | .reap (.fetched reply) | .reap (.written reply) => reply = .ok

def Passes (now : Time) (m : MetaStore) (p : Process) (after : MetaStore) : Prop :=
  ∃ last, Runs.Reaches passStep Healthy ⟨now, m, { p with reaper := .listStale }⟩ last ∧
    last.process.reaper = .idle ∧ last.store = after

def FailedOwnerLost (m : MetaStore) (queryID : String) : Prop :=
  ∃ failed error, m.queries.lookup queryID = some failed ∧ failed.state = .failed ∧
    failed.error = some error ∧ error.code = .ownerLost

inductive PassMove (s : PassState) : PassState → Prop
  | tick (elapsed : Nat) : PassMove s { s with now := s.now + elapsed }
  | orphans (ids : List String) (phase : s.process.reaper = .listByInstance)
      (all : ids.Perm (s.store.listByInstance s.process.instanceID)) :
      PassMove s { s with process := { s.process with reaper := .loop .recoverOrphans ids } }
  | listed (ids : List String) (phase : s.process.reaper = .listStale)
      (all : ids.Perm (s.store.listStaleQueries s.now)) :
      PassMove s { s with process := { s.process with
        reaper := .loop (.reapStaleOwners s.process.grace) ids } }
  | finished (pass : ReapPass) (phase : s.process.reaper = .loop pass []) :
      PassMove s { s with process := s.process.endPass }
  | skipped (pass : ReapPass) (id : String) (ids : List String)
      (phase : s.process.reaper = .loop pass (id :: ids))
      (skips : pass.skips s.process id = true) :
      PassMove s { s with process := { s.process with reaper := .loop pass ids } }
  | chosen (pass : ReapPass) (id : String) (ids : List String)
      (phase : s.process.reaper = .loop pass (id :: ids))
      (keeps : pass.skips s.process id = false) :
      PassMove s { s with process := { s.process with reaper := .fetch pass id ids } }
  | missing (pass : ReapPass) (id : String) (ids : List String)
      (phase : s.process.reaper = .fetch pass id ids) (gone : s.store.getQuery id = none) :
      PassMove s { s with process := { s.process with reaper := .loop pass ids } }
  | read (pass : ReapPass) (id : String) (ids : List String) (record : QueryRecord)
      (phase : s.process.reaper = .fetch pass id ids)
      (found : s.store.getQuery id = some record) :
      PassMove s { s with process := { s.process with reaper := .judge pass record ids } }
  | spared (pass : ReapPass) (record : QueryRecord) (ids : List String)
      (phase : s.process.reaper = .judge pass record ids)
      (spares : pass.condemns s.process s.now record = false) :
      PassMove s { s with process := { s.process with reaper := .loop pass ids } }
  | condemned (pass : ReapPass) (record : QueryRecord) (ids : List String)
      (phase : s.process.reaper = .judge pass record ids)
      (condemns : pass.condemns s.process s.now record = true) :
      PassMove s { s with process := { s.process with
        reaper := .write pass (ownerLost record s.now) ids } }
  | written (pass : ReapPass) (failed : QueryRecord) (ids : List String)
      (phase : s.process.reaper = .write pass failed ids) :
      PassMove s { s with
        store := failOwnerLost s.store failed .ok
        process := { s.process with reaper := .loop pass ids } }

variable {s after : PassState}

theorem passStep_move {action : PassAction} (healthy : Healthy s action)
    (taken : passStep s action = some after) : PassMove s after := by
  cases action with
  | tick elapsed =>
    cases Option.some.inj taken
    exact .tick elapsed
  | reap choice =>
    obtain ⟨out, moved, rfl⟩ := Option.map_eq_some_iff.mp taken
    cases choice with
    | begin => exact healthy.elim
    | listed reply ids =>
      obtain rfl : reply = .ok := healthy
      cases phase : s.process.reaper with
      | listByInstance =>
        simp only [reaperStep, phase, ne_eq, not_true_eq_false, if_false] at moved
        split at moved <;> cases moved
        rename_i all
        exact .orphans ids phase all
      | listStale =>
        simp only [reaperStep, phase, ne_eq, not_true_eq_false, if_false] at moved
        split at moved <;> cases moved
        rename_i all
        exact .listed ids phase all
      | _ => simp [reaperStep, phase] at moved
    | next =>
      cases phase : s.process.reaper with
      | loop pass ids =>
        cases ids with
        | nil =>
          simp only [reaperStep, phase, Option.some.injEq] at moved
          subst moved
          exact .finished pass phase
        | cons id ids =>
          simp only [reaperStep, phase, Option.some.injEq] at moved
          subst moved
          cases skips : pass.skips s.process id with
          | true => exact .skipped pass id ids phase skips
          | false => exact .chosen pass id ids phase skips
      | judge pass record ids =>
        simp only [reaperStep, phase, Option.some.injEq] at moved
        subst moved
        cases condemns : pass.condemns s.process s.now record with
        | true => exact .condemned pass record ids phase condemns
        | false => exact .spared pass record ids phase condemns
      | _ => simp [reaperStep, phase] at moved
    | fetched reply =>
      obtain rfl : reply = .ok := healthy
      cases phase : s.process.reaper with
      | fetch pass id ids =>
        simp only [reaperStep, phase, Option.some.injEq] at moved
        subst moved
        cases found : s.store.getQuery id with
        | none => exact .missing pass id ids phase found
        | some record => exact .read pass id ids record phase found
      | _ => simp [reaperStep, phase] at moved
    | written reply =>
      obtain rfl : reply = .ok := healthy
      cases phase : s.process.reaper with
      | write pass failed ids =>
        simp only [reaperStep, phase, Option.some.injEq] at moved
        subst moved
        exact .written pass failed ids phase
      | _ => simp [reaperStep, phase] at moved

theorem PassMove.reaches (move : PassMove s after) : Reaches passStep Healthy s after := by
  have one : ∀ action, Healthy s action → passStep s action = some after →
      Reaches passStep Healthy s after :=
    fun action healthy taken => (Reaches.refl s).snoc healthy taken
  cases move with
  | tick elapsed => exact one (.tick elapsed) trivial rfl
  | orphans ids phase all | listed ids phase all =>
    exact one (.reap (.listed .ok ids)) rfl (by simp [passStep, reaperStep, phase, all])
  | finished _ phase => exact one (.reap .next) trivial (by simp [passStep, reaperStep, phase])
  | skipped _ _ _ phase skips | chosen _ _ _ phase skips =>
    exact one (.reap .next) trivial (by simp [passStep, reaperStep, phase, skips])
  | missing _ _ _ phase found | read _ _ _ _ phase found =>
    exact one (.reap (.fetched .ok)) rfl (by simp [passStep, reaperStep, phase, found])
  | spared _ _ _ phase verdict | condemned _ _ _ phase verdict =>
    exact one (.reap .next) trivial (by simp [passStep, reaperStep, phase, verdict])
  | written _ _ _ phase =>
    exact one (.reap (.written .ok)) rfl (by simp [passStep, reaperStep, phase])

theorem reaches_move {t u : PassState} (path : Reaches passStep Healthy s t) (move : PassMove t u) :
    Reaches passStep Healthy s u :=
  path.trans move.reaches

theorem loop_ends (pass : ReapPass) (ids : List String) (s : PassState)
    (phase : s.process.reaper = .loop pass ids) :
    ∃ last, Reaches passStep Healthy s last ∧ last.process.reaper = .idle := by
  induction ids generalizing s with
  | nil => exact ⟨_, (PassMove.finished pass phase).reaches, rfl⟩
  | cons id ids ih =>
    have onwards : ∀ t, Reaches passStep Healthy s t → t.process.reaper = .loop pass ids →
        ∃ last, Reaches passStep Healthy s last ∧ last.process.reaper = .idle := by
      intro t path phase
      obtain ⟨last, rest, idle⟩ := ih t phase
      exact ⟨last, path.trans rest, idle⟩
    cases skips : pass.skips s.process id with
    | true => exact onwards _ (PassMove.skipped pass id ids phase skips).reaches rfl
    | false =>
      have fetch := (PassMove.chosen pass id ids phase skips).reaches
      cases found : s.store.getQuery id with
      | none => exact onwards _ (reaches_move fetch (.missing pass id ids rfl found)) rfl
      | some record =>
        have judge := reaches_move fetch (.read pass id ids record rfl found)
        cases verdict : pass.condemns s.process s.now record with
        | false =>
          have spare := reaches_move judge
            (.spared pass record ids rfl (by cases pass <;> exact verdict))
          exact onwards _ spare rfl
        | true =>
          have write := reaches_move judge
            (.condemned pass record ids rfl (by cases pass <;> exact verdict))
          exact onwards _ (reaches_move write (.written pass _ ids rfl)) rfl

theorem exists_pass (now : Time) (m : MetaStore) (p : Process) : ∃ after, Passes now m p after := by
  have list := reaches_move (.refl ⟨now, m, { p with reaper := .listStale }⟩)
    (.listed (m.listStaleQueries now) rfl (List.Perm.refl _))
  obtain ⟨last, path, idle⟩ := loop_ends (.reapStaleOwners p.grace) (m.listStaleQueries now)
    ⟨now, m, { p with reaper := .loop (.reapStaleOwners p.grace) (m.listStaleQueries now) }⟩ rfl
  exact ⟨last.store, last, list.trans path, idle, rfl⟩

/-! ## The write of `failOwnerLost` -/

variable {queryID : String}

theorem failOwnerLost_lookup_of_ne (m : MetaStore) (failed : QueryRecord) (reply : Reply)
    (ne : queryID ≠ failed.id) :
    (failOwnerLost m failed reply).queries.lookup queryID = m.queries.lookup queryID := by
  rcases failOwnerLost_records m failed reply with same | ⟨_, _, _, written⟩
  · rw [same.queries]
  · rw [written, MetaStore.store_lookup_of_ne _ _ ne]

variable {m : MetaStore}

theorem FailedOwnerLost.kept (lost : FailedOwnerLost m queryID) (failed : QueryRecord)
    (reply : Reply) : FailedOwnerLost (failOwnerLost m failed reply) queryID := by
  obtain ⟨stored, error, lookup, state, rest⟩ := lost
  refine ⟨stored, error, ?_, state, rest⟩
  rcases failOwnerLost_records m failed reply with same | ⟨_, found, unfinished, written⟩
  · rwa [same.queries]
  · have ne : queryID ≠ failed.id := by
      rintro rfl
      rw [lookup] at found
      cases found
      simp [state, ownerLostExpected] at unfinished
    rwa [written, MetaStore.store_lookup_of_ne _ _ ne]

variable {now : Time} {read : QueryRecord}

theorem failOwnerLost_fails {current : QueryRecord}
    (lookup : m.queries.lookup read.id = some current)
    (unfinished : current.state ∈ ownerLostExpected) :
    FailedOwnerLost (failOwnerLost m (ownerLost read now) .ok) read.id := by
  have written : failOwnerLost m (ownerLost read now) .ok = m.store (ownerLost read now) := by
    have found : m.queries.lookup (ownerLost read now).id = some current := lookup
    simp [failOwnerLost, MetaStore.updateQueryIfState, found, unfinished, Reply.apply]
  rw [written]
  exact ⟨_, _, m.store_lookup_self (ownerLost read now), rfl, rfl, by decide⟩

/-! ## Records of other instances -/

def CopyOf (record read : QueryRecord) : Prop :=
  read.id = record.id ∧ read.ownerInstanceID = record.ownerInstanceID ∧
    read.createdAt = record.createdAt

variable {record : QueryRecord}

theorem copyOf_getQuery (lookup : m.queries.lookup record.id = some record)
    (found : m.getQuery record.id = some read) : CopyOf record read := by
  obtain ⟨_, _, other, rfl⟩ := m.getQuery_eq_some found
  rw [lookup] at other
  cases other
  exact ⟨rfl, rfl, rfl⟩

def Awaits (record : QueryRecord) (s : PassState) : Prop :=
  match s.process.reaper with
  | .idle | .listByInstance => False
  | .listStale => s.store.isStale s.now record = true
  | .loop pass ids => pass = .reapStaleOwners s.process.grace ∧ record.id ∈ ids
  | .fetch pass id ids => pass = .reapStaleOwners s.process.grace ∧ record.id ∈ id :: ids
  | .judge pass read ids => pass = .reapStaleOwners s.process.grace ∧
      (CopyOf record read ∨ (read.id ≠ record.id ∧ record.id ∈ ids))
  | .write pass failed ids => pass = .reapStaleOwners s.process.grace ∧
      ((∃ read now, failed = ownerLost read now ∧ read.id = record.id) ∨
        (failed.id ≠ record.id ∧ record.id ∈ ids))

theorem isStale_later (stale : m.isStale now record = true) (elapsed : Nat) :
    m.isStale (now + elapsed) record = true := by
  simp only [MetaStore.isStale, Bool.and_eq_true] at stale ⊢
  refine ⟨stale.1, ?_⟩
  cases lease : m.leases.lookup record.id with
  | none => rfl
  | some =>
    have past := stale.2
    simp only [lease, decide_eq_true_eq] at past ⊢
    exact lt_of_lt_of_le past (Int.le_add_of_nonneg_right (Int.natCast_nonneg elapsed))

theorem Awaits.tick (awaits : Awaits record s) (elapsed : Nat) :
    Awaits record { s with now := s.now + elapsed } := by
  unfold Awaits at awaits ⊢
  dsimp only
  split at awaits <;> first | exact isStale_later awaits elapsed | exact awaits

variable {p : Process}

theorem condemns_of_copyOf (copy : CopyOf record read)
    (foreign : record.ownerInstanceID ≠ p.instanceID) (old : p.grace ≤ now - record.createdAt) :
    (ReapPass.reapStaleOwners p.grace).condemns p now read = true := by
  obtain ⟨_, owner, created⟩ := copy
  simp only [ReapPass.condemns, owner, created, Bool.and_eq_true, decide_eq_true_eq,
    Bool.not_eq_true', decide_eq_false_iff_not]
  exact ⟨foreign, not_lt.mpr old⟩

structure Doomed (record : QueryRecord) (s : PassState) : Prop where
  foreign : record.ownerInstanceID ≠ s.process.instanceID
  remote : s.process.registry.activeReg.lookup record.id = none
  old : s.process.grace ≤ s.now - record.createdAt
  fails : FailedOwnerLost s.store record.id ∨
    (s.store.queries.lookup record.id = some record ∧ Awaits record s)

section

theorem Awaits.step (awaits : Awaits record s)
    (lookup : s.store.queries.lookup record.id = some record)
    (unfinished : record.state ∈ ownerLostExpected)
    (foreign : record.ownerInstanceID ≠ s.process.instanceID)
    (remote : s.process.registry.activeReg.lookup record.id = none)
    (old : s.process.grace ≤ s.now - record.createdAt) (move : PassMove s after) :
    FailedOwnerLost after.store record.id ∨
      (after.store.queries.lookup record.id = some record ∧ Awaits record after) := by
  cases move with
  | tick elapsed => exact .inr ⟨lookup, awaits.tick elapsed⟩
  | listed _ phase all =>
    simp only [Awaits, phase] at awaits
    exact .inr ⟨lookup, rfl, all.mem_iff.mpr
      ((s.store.mem_listStaleQueries_iff s.now record.id).mpr ⟨record, lookup, awaits⟩)⟩
  | orphans _ phase | finished _ phase => simp [Awaits, phase] at awaits
  | skipped _ _ _ phase skips =>
    simp only [Awaits, phase] at awaits
    obtain ⟨rfl, member⟩ := awaits
    refine .inr ⟨lookup, rfl, (List.mem_cons.mp member).resolve_left ?_⟩
    rintro rfl
    simp [ReapPass.skips, remote] at skips
  | chosen _ _ _ phase =>
    simp only [Awaits, phase] at awaits
    exact .inr ⟨lookup, awaits⟩
  | missing _ _ _ phase gone =>
    simp only [Awaits, phase] at awaits
    obtain ⟨rfl, member⟩ := awaits
    refine .inr ⟨lookup, rfl, (List.mem_cons.mp member).resolve_left ?_⟩
    rintro rfl
    rw [MetaStore.getQuery, lookup] at gone
    dsimp only at gone
    split at gone <;> contradiction
  | read _ id _ _ phase found =>
    simp only [Awaits, phase] at awaits
    obtain ⟨rfl, member⟩ := awaits
    refine .inr ⟨lookup, rfl, ?_⟩
    by_cases same : record.id = id
    · subst same
      exact .inl (copyOf_getQuery lookup found)
    · rw [s.store.getQuery_id found]
      exact .inr ⟨Ne.symm same, (List.mem_cons.mp member).resolve_left same⟩
  | spared _ _ _ phase spares =>
    simp only [Awaits, phase] at awaits
    obtain ⟨rfl, copy | ⟨_, later⟩⟩ := awaits
    · rw [condemns_of_copyOf copy foreign old] at spares
      contradiction
    · exact .inr ⟨lookup, rfl, later⟩
  | condemned _ read _ phase =>
    simp only [Awaits, phase] at awaits
    exact .inr ⟨lookup, awaits.1, awaits.2.imp_left fun copy => ⟨read, s.now, rfl, copy.1⟩⟩
  | written _ _ _ phase =>
    simp only [Awaits, phase] at awaits
    obtain ⟨rfl, ⟨read, _, rfl, own⟩ | ⟨other, later⟩⟩ := awaits
    · exact .inl (own ▸ failOwnerLost_fails (own ▸ lookup) unfinished)
    · refine .inr ⟨?_, rfl, later⟩
      rw [← lookup]
      exact failOwnerLost_lookup_of_ne _ _ _ (Ne.symm other)

theorem PassMove.frame (move : PassMove s after) :
    after.process.instanceID = s.process.instanceID ∧
      after.process.registry = s.process.registry ∧ after.process.cfg = s.process.cfg ∧
      s.now ≤ after.now := by
  cases move with
  | tick elapsed =>
    exact ⟨rfl, rfl, rfl, Int.le_add_of_nonneg_right (Int.natCast_nonneg elapsed)⟩
  | _ => exact ⟨rfl, rfl, rfl, le_refl _⟩

theorem PassMove.lost (move : PassMove s after) (lost : FailedOwnerLost s.store queryID) :
    FailedOwnerLost after.store queryID := by
  cases move with
  | written _ failed => exact lost.kept failed .ok
  | _ => exact lost

theorem Doomed.step (unfinished : record.state ∈ ownerLostExpected) (doomed : Doomed record s)
    (move : PassMove s after) : Doomed record after := by
  obtain ⟨foreign, remote, old, fails⟩ := doomed
  obtain ⟨instanceID, registry, cfg, later⟩ := move.frame
  refine ⟨instanceID ▸ foreign, registry ▸ remote, ?_, ?_⟩
  · rw [Process.grace, Process.heartbeatTTL, cfg]
    exact old.trans (Int.sub_le_sub_right later _)
  · rcases fails with lost | ⟨lookup, awaits⟩
    · exact .inl (move.lost lost)
    · exact awaits.step lookup unfinished foreign remote old move

/-! ## Records of the instance itself -/

structure Spared (record : QueryRecord) (s : PassState) : Prop where
  own : record.ownerInstanceID = s.process.instanceID
  lookup : s.store.queries.lookup record.id = some record
  phase : match s.process.reaper with
    | .idle | .listStale => True
    | .listByInstance => False
    | .loop pass _ | .fetch pass _ _ => ∃ grace, pass = .reapStaleOwners grace
    | .judge pass read _ => (∃ grace, pass = .reapStaleOwners grace) ∧
        (read.id = record.id → CopyOf record read)
    | .write pass failed _ => (∃ grace, pass = .reapStaleOwners grace) ∧ failed.id ≠ record.id

theorem Spared.step (spared : Spared record s) (move : PassMove s after) : Spared record after := by
  obtain ⟨own, lookup, before⟩ := spared
  cases move with
  | tick => exact ⟨own, lookup, before⟩
  | orphans _ phase => simp [phase] at before
  | listed => exact ⟨own, lookup, _, rfl⟩
  | finished => exact ⟨own, lookup, trivial⟩
  | skipped _ _ _ phase | chosen _ _ _ phase | missing _ _ _ phase =>
    simp only [phase] at before
    exact ⟨own, lookup, before⟩
  | read _ _ _ _ phase found =>
    simp only [phase] at before
    refine ⟨own, lookup, before, fun same => ?_⟩
    have id_ := s.store.getQuery_id found
    rw [← id_, same] at found
    exact copyOf_getQuery lookup found
  | spared _ _ _ phase =>
    simp only [phase] at before
    exact ⟨own, lookup, before.1⟩
  | condemned _ _ _ phase condemns =>
    simp only [phase] at before
    refine ⟨own, lookup, before.1, fun same => ?_⟩
    obtain ⟨⟨_, rfl⟩, copies⟩ := before
    obtain ⟨_, owner, _⟩ := copies same
    simp [ReapPass.condemns, owner, own] at condemns
  | written _ _ _ phase =>
    simp only [phase] at before
    refine ⟨own, ?_, before.1⟩
    rw [← lookup]
    exact failOwnerLost_lookup_of_ne _ _ _ (Ne.symm before.2)

end

section
variable (lookup : m.queries.lookup record.id = some record)
include lookup

theorem passes_fail_foreign {after : MetaStore} (stale : m.isStale now record = true)
    (foreign : record.ownerInstanceID ≠ p.instanceID)
    (remote : p.registry.activeReg.lookup record.id = none)
    (old : p.grace ≤ now - record.createdAt) (passes : Passes now m p after) :
    FailedOwnerLost after record.id := by
  have unfinished : record.state ∈ ownerLostExpected := by
    simpa [ownerLostExpected, MetaStore.isStale] using (Bool.and_eq_true_iff.mp stale).1
  obtain ⟨_, path, idle, rfl⟩ := passes
  have doomed : Doomed record ⟨now, m, { p with reaper := .listStale }⟩ :=
    ⟨foreign, remote, old, .inr ⟨lookup, stale⟩⟩
  have final := path.invariant (Doomed record) doomed fun _ _ _ holds healthy taken =>
    holds.step unfinished (passStep_move healthy taken)
  rcases final.fails with lost | ⟨_, awaits⟩
  · exact lost
  · simp [Awaits, idle] at awaits

theorem passes_spare_own {after : MetaStore} (own : record.ownerInstanceID = p.instanceID)
    (passes : Passes now m p after) : after.queries.lookup record.id = some record := by
  obtain ⟨_, path, _, rfl⟩ := passes
  have spared : Spared record ⟨now, m, { p with reaper := .listStale }⟩ := ⟨own, lookup, trivial⟩
  exact (path.invariant (Spared record) spared fun _ _ _ holds healthy taken =>
    holds.step (passStep_move healthy taken)).lookup

end

namespace Deployment

variable {d : Deployment} {env : Env} {pid : Nat}

/-- What a pass of an idle reaper leaves behind is what the deployment comes to when
that reaper alone moves. -/
theorem passes_simulated {after : MetaStore} (live : d.live pid = some p) (idle : p.reaper = .idle)
    (ready : p.ready = true) (passes : Passes d.now d.store p after) :
    ∃ last, Reaches (step env) Always d last ∧ last.store = after := by
  obtain ⟨last, path, _, rfl⟩ := passes
  have alive := ((d.live_eq_some_iff pid p).mp live).2
  have simulated := path.invariant
    (fun s => ∃ e, Reaches (step env) Always d e ∧ e.now = s.now ∧
      e.store = s.store ∧ e.live pid = some s.process)
    ⟨d.setProc pid { p with reaper := .listStale }, ?_, rfl, rfl, ?_⟩ ?_
  · obtain ⟨e, run, _, store, _⟩ := simulated
    exact ⟨e, run, store⟩
  · refine (Reaches.refl d).snoc trivial (?_ : step env d (.reaper pid .begin) = _)
    simp [step, live, reaperStep, idle, ready]
  · rw [live_eq_some_iff]
    exact ⟨d.setProc_procs_self _ _, alive⟩
  · rintro s action next ⟨e, run, now, store, process⟩ _ taken
    cases action with
    | tick elapsed =>
      cases Option.some.inj taken
      exact ⟨{ e with now := e.now + elapsed }, run.snoc trivial
        (rfl : step env e (.tick elapsed) = _), by rw [now], store, process⟩
    | reap choice =>
      obtain ⟨out, moved, rfl⟩ := Option.map_eq_some_iff.mp taken
      refine ⟨{ e with store := out.1 }.setProc pid out.2, run.snoc trivial
        (?_ : step env e (.reaper pid choice) = _), now, rfl, ?_⟩
      · rw [← now, ← store] at moved
        simp [step, process, moved]
      · obtain ⟨reaper, ready, kept⟩ := reaperStep_process moved
        rw [live_eq_some_iff]
        refine ⟨setProc_procs_self _ _ _, ?_⟩
        rw [kept]
        exact ((e.live_eq_some_iff pid s.process).mp process).2

/-- An unfinished record whose lease has run out, that no live instance is working on
and that is older than twice `heartbeatTTL` on each of them. -/
structure Abandoned (d : Deployment) (record : QueryRecord) : Prop where
  stored : d.store.queries.lookup record.id = some record
  stale : d.store.isStale d.now record = true
  elsewhere : ∀ pid p, d.live pid = some p → p.registry.activeReg.lookup record.id = none
  old : ∀ pid p, d.live pid = some p → p.grace ≤ d.now - record.createdAt

/-- A pass of process `p` on the deployment as it stands can end, and however it goes
it stores the record as `FAILED` with `OWNER_LOST`. -/
def Rescues (d : Deployment) (p : Process) (record : QueryRecord) : Prop :=
  (∃ after, Passes d.now d.store p after) ∧
    ∀ after, Passes d.now d.store p after → FailedOwnerLost after record.id

/-- An abandoned record is failed by some live instance's next pass exactly when there
is a live instance other than its owner. -/
theorem abandoned_record_is_rescued_iff (d : Deployment) (record : QueryRecord)
    (abandoned : Abandoned d record) :
    (∃ pid p, d.live pid = some p ∧ Rescues d p record) ↔
      ∃ pid p, d.live pid = some p ∧ p.instanceID ≠ record.ownerInstanceID := by
  constructor
  · rintro ⟨pid, p, live, ⟨after, passes⟩, rescues⟩
    refine ⟨pid, p, live, fun own => ?_⟩
    obtain ⟨_, _, lookup, state, _⟩ := rescues after passes
    rw [passes_spare_own abandoned.stored own.symm passes] at lookup
    cases lookup
    have stale := abandoned.stale
    simp [MetaStore.isStale, state] at stale
  · rintro ⟨pid, p, live, foreign⟩
    exact ⟨pid, p, live, exists_pass .., fun after passes =>
      passes_fail_foreign abandoned.stored abandoned.stale (Ne.symm foreign)
        (abandoned.elsewhere pid p live) (abandoned.old pid p live) passes⟩

/-! ## Two deployments -/

/-- The condition on a step: only these processes are ever started. -/
def StartsOnly (pids : List Nat) (_ : Deployment) : Action → Prop
  | .start pid _ _ => pid ∈ pids
  | _ => True

instance (pids : List Nat) (d : Deployment) (action : Action) :
    Decidable (StartsOnly pids d action) := by
  unfold StartsOnly
  split <;> infer_instance

variable {pids : List Nat}

theorem Reachable.procs_mem (reached : Reachable env (StartsOnly pids) d)
    (found : d.procs pid = some p) : pid ∈ pids := by
  obtain ⟨_, _, path⟩ := reached
  refine path.invariant (fun d => ∀ pid p, d.procs pid = some p → pid ∈ pids)
    (by simp [initial]) ?_ pid p found
  intro before action after holds allowed taken pid p present
  rcases (step_move taken).origin pid p present with ⟨q, was, _⟩ | ⟨_, _, _, _, rfl, _⟩
  · exact holds pid q was
  · exact allowed

def abandonedAmong (pids : List Nat) (d : Deployment) (record : QueryRecord) : Bool :=
  d.store.queries.lookup record.id = some record && d.store.isStale d.now record &&
    pids.all fun pid => (d.live pid).all fun p =>
      (p.registry.activeReg.lookup record.id).isNone &&
        decide (p.grace ≤ d.now - record.createdAt)

theorem abandoned_of_among (known : ∀ pid p, d.procs pid = some p → pid ∈ pids)
    (checked : abandonedAmong pids d record = true) : Abandoned d record := by
  simp only [abandonedAmong, Bool.and_eq_true, decide_eq_true_eq, List.all_eq_true] at checked
  obtain ⟨⟨stored, stale⟩, each⟩ := checked
  have both : ∀ pid p, d.live pid = some p →
      p.registry.activeReg.lookup record.id = none ∧ p.grace ≤ d.now - record.createdAt := by
    intro pid p live
    have member := known pid p ((d.live_eq_some_iff pid p).mp live).1
    have one := each pid member
    rw [live] at one
    simpa using one
  exact ⟨stored, stale, fun pid p live => (both pid p live).1, fun pid p live =>
    (both pid p live).2⟩

/-- `q` on process 1, whose five attempts to store `SUCCEEDED` fail; 20 seconds later. -/
def unpersistedQuery : List Action :=
  startInstance 1 "a" ++
    .submit 1 none "q" "db" "SELECT 1" {} :: List.replicate 6 (.submission "q" .ok) ++
    [.execution "q" .go, .execution "q" (.persist .ok false)] ++ finishQuery.dropLast ++
    List.replicate 5 (.execution "q" (.persist .failed false)) ++
    [.execution "q" .go, .tick 20000000000]

def orphanedQuery : List Action := runningQuery ++ [.crash 1, .tick 20000000000]

def abandonedView (pids : List Nat) (d : Deployment) :
    Option (Bool × QueryState × String × List (Option String)) :=
  (d.store.queries.lookup "q").map fun record =>
    (abandonedAmong pids d record, record.state, record.ownerInstanceID,
      pids.map fun pid => (d.live pid).map (·.instanceID))

theorem abandonedView_abandoned {state : QueryState} {owner : String}
    {instances : List (Option String)} (reached : Reachable sampleEnv (StartsOnly pids) d)
    (view : abandonedView pids d = some (true, state, owner, instances)) :
    ∃ record, Abandoned d record ∧ record.state = state ∧ record.ownerInstanceID = owner ∧
      pids.map (fun pid => (d.live pid).map (·.instanceID)) = instances := by
  obtain ⟨record, _, same⟩ := Option.map_eq_some_iff.mp view
  simp only [Prod.mk.injEq] at same
  obtain ⟨checked, rest⟩ := same
  exact ⟨record, abandoned_of_among (fun _ _ => reached.procs_mem) checked, rest⟩

/-- The owner of `q` has died, and the other instance's next pass fails `q`. -/
theorem second_instance_rescues_orphan :
    ∃ d record, Reachable sampleEnv Always d ∧ Abandoned d record ∧
      ∃ pid p, d.live pid = some p ∧ Rescues d p record := by
  obtain ⟨d, path, view⟩ :
      ∃ d, Reaches (step sampleEnv) (StartsOnly [1, 2]) (initial 1) d ∧
        abandonedView [1, 2] d = some (true, .running, "a", [none, some "b"]) :=
    exists_reaches orphanedQuery (by decide +kernel)
  obtain ⟨record, abandoned, _, owner, instances⟩ :=
    abandonedView_abandoned ⟨1, by decide, path⟩ view
  refine ⟨d, record, ⟨1, by decide, path.always⟩, abandoned,
    (abandoned_record_is_rescued_iff d record abandoned).mpr ?_⟩
  simp only [List.map_cons, List.map_nil, List.cons.injEq, and_true] at instances
  obtain ⟨p, live, id⟩ := Option.map_eq_some_iff.mp instances.2
  exact ⟨2, p, live, by simp [id, owner]⟩

/-- The one instance of a deployment gives up storing the verdict of `q`: the record
stays `RUNNING`, and no live instance's pass fails it. -/
theorem sole_instance_strands_its_query :
    ∃ d record, Reachable sampleEnv Always d ∧ (∃ pid p, d.live pid = some p) ∧
      Abandoned d record ∧ record.state = .running ∧
      ¬ ∃ pid p, d.live pid = some p ∧ Rescues d p record := by
  obtain ⟨d, path, view⟩ : ∃ d, Reaches (step sampleEnv) (StartsOnly [1]) (initial 1) d ∧
      abandonedView [1] d = some (true, .running, "a", [some "a"]) :=
    exists_reaches unpersistedQuery (by decide +kernel)
  have reached : Reachable sampleEnv (StartsOnly [1]) d := ⟨1, by decide, path⟩
  obtain ⟨record, abandoned, running, owner, instances⟩ := abandonedView_abandoned reached view
  simp only [List.map_cons, List.map_nil, List.cons.injEq, and_true] at instances
  obtain ⟨p, live, id⟩ := Option.map_eq_some_iff.mp instances
  refine ⟨d, record, ⟨1, by decide, path.always⟩, ⟨1, p, live⟩, abandoned, running, ?_⟩
  -- the only process there is carries the owner's ID, and its passes spare the record
  rintro ⟨pid, q, other, ⟨after, passes⟩, rescues⟩
  obtain rfl : pid = 1 := by
    simpa using reached.procs_mem ((d.live_eq_some_iff pid q).mp other).1
  rw [live] at other
  cases other
  obtain ⟨_, _, lookup, state, _⟩ := rescues after passes
  rw [passes_spare_own abandoned.stored (owner.trans id.symm) passes] at lookup
  cases lookup
  rw [running] at state
  contradiction

end Deployment

end DbBridge.Cluster
