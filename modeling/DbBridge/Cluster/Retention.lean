import DbBridge.Cluster.Writes

/-!
# Retention of results

`collectGarbage` tests the retention of a record when it lists the expired queries;
`collectQuery` reads the record again and does not test it. A query whose record is
past its retention, or has been removed, stays so as long as nobody stores a younger
record for it.
-/

namespace DbBridge.State

open Domain

variable {later : Time}

namespace MetaStore

variable (m : MetaStore) {now : Time} {record : QueryRecord} {id : String}

theorem isExpired_later (passed : now ≤ later) (expired : isExpired now record = true) :
    isExpired later record = true := by
  simp only [isExpired, Bool.and_eq_true, decide_eq_true_eq] at expired ⊢
  exact ⟨expired.1, lt_of_lt_of_le expired.2 passed⟩

theorem isExpired_terminal (expired : isExpired now record = true) :
    record.state.isTerminal = true := by
  simp only [isExpired, Bool.and_eq_true] at expired
  exact expired.1.1

/-- The query has ended, and its record is past its retention or removed. -/
def collectable (now : Time) (id : String) : Bool :=
  m.ended id && (m.queries.lookup id).all (isExpired now)

theorem collectable_iff (now : Time) (id : String) :
    m.collectable now id = true ↔ m.ended id = true ∧
      ∀ record, m.queries.lookup id = some record → isExpired now record = true := by
  simp [collectable, Option.all_eq_true]

theorem collectable_later (passed : now ≤ later) (past : m.collectable now id = true) :
    m.collectable later id = true := by
  rw [collectable_iff] at past ⊢
  exact ⟨past.1, fun record lookup => isExpired_later passed (past.2 record lookup)⟩

theorem collectable_of_listed (listed : id ∈ m.listExpiredQueries now) :
    m.collectable now id = true := by
  simp only [listExpiredQueries, List.mem_map, List.mem_filter, mem_records_iff] at listed
  obtain ⟨record, ⟨lookup, expired⟩, rfl⟩ := listed
  rw [collectable_iff]
  constructor
  · rw [ended, m.logged record.id record lookup, Option.any_some]
    exact isExpired_terminal expired
  · intro stored found
    rw [lookup] at found
    cases found
    exact expired

theorem collectable_read {read : QueryRecord} (past : m.collectable now id = true)
    (found : m.getQuery id = some read) : isExpired now read = true := by
  obtain ⟨stored, _, lookup, rfl⟩ := m.getQuery_eq_some found
  exact ((m.collectable_iff now id).mp past).2 stored lookup

theorem collectable_unfinished {current : QueryRecord} (lookup : m.queries.lookup id = some current)
    (unfinished : current.state.isTerminal = false) : m.collectable now id = false := by
  simp [collectable, ended, m.logged id current lookup, unfinished]

theorem store_collectable (past : m.collectable now id = true)
    (own : record.id = id → isExpired now record = true) :
    (m.store record).collectable now id = true := by
  by_cases same : id = record.id
  · subst same
    rw [collectable_iff, ended, m.store_journal_self, m.store_lookup_self]
    refine ⟨isExpired_terminal (own rfl), fun stored found => ?_⟩
    cases found
    exact own rfl
  · rw [collectable, ended, m.store_journal_of_ne record same, m.store_lookup_of_ne record same]
    exact past

theorem deleteQuery_collectable {other : String} (past : m.collectable now other = true) :
    (m.deleteQuery id).collectable now other = true := by
  rw [collectable_iff] at past ⊢
  exact ⟨past.1, fun record lookup =>
    past.2 record (Tables.lookup_of_erase lookup)⟩

end MetaStore

end DbBridge.State

namespace DbBridge.Cluster

open Domain State

variable {m : MetaStore}

theorem GcAdvances.rest_origin {now : Time} {before after : GcPhase}
    (advances : GcAdvances now m before after) {id : String} (waiting : id ∈ after.rest) :
    id ∈ before.rest ∨ id ∈ m.listExpiredQueries now := by
  cases advances with
  | stopped | locked => contradiction
  | listed _ all => exact .inr (all.mem_iff.mp waiting)
  | skipped first => exact .inl (List.mem_cons_of_mem first waiting)
  | read first ids =>
    have same : (collectRead m first ids).rest = ids := by
      rcases collectRead_cases m first ids with phase | ⟨_, _, _, phase | phase⟩ <;>
        rw [phase] <;> rfl
    exact .inl (List.mem_cons_of_mem first (same ▸ waiting))
  | marked | disposed | released | left => exact .inl waiting

theorem gcStep_objects {env : Env} {now : Time} {p : Process} {objects : List ObjectName}
    {choice : GcChoice} {out : GcOutcome} (taken : gcStep env now m p objects choice = some out)
    {object : ObjectName} (stored : object ∈ objects) (gone : object ∉ out.objects) :
    ∃ record ids ref, p.gc = .dispose record ids ∧ record.result = some ref ∧
      objectName ref = object := by
  cases gcStep_move taken with
  | disposed _ record ids phase =>
    by_contra other
    refine gone (List.mem_filter.mpr ⟨stored, ?_⟩)
    simp only [decide_eq_true_eq]
    rintro ref result rfl
    exact other ⟨record, ids, ref, phase, result, rfl⟩
  | begun | listed | stopped | collected | marked | failed | released | dropped =>
    exact absurd stored gone

variable {record : QueryRecord}

namespace Deployment

/-! ## The condition on a step -/

/-- Nothing younger is stored for a query that is collectable. -/
def KeepsExpired (d : Deployment) (action : Action) : Prop :=
  ∀ write ∈ d.putting? action, d.store.collectable d.now write.2.id = true →
    MetaStore.isExpired d.now write.2 = true

instance (d : Deployment) (action : Action) : Decidable (KeepsExpired d action) :=
  inferInstanceAs (Decidable (∀ write ∈ d.putting? action, _ → _))

section
variable {env : Env} {d after : Deployment} {action : Action}

/-! ## What holds in every state -/

/-- What a collector has still to collect is collectable, and a record it has read is
past its retention. -/
structure Waits (d : Deployment) : Prop where
  shape : Shape d
  rest : ∀ pid p id, d.procs pid = some p → id ∈ p.gc.rest →
    d.store.collectable d.now id = true
  read : ∀ pid p record, d.procs pid = some p → p.gc.read? = some record →
    MetaStore.isExpired d.now record = true

theorem Waits.initial (now : Time) : Waits (initial now) where
  shape := Shape.initial now
  rest := by simp [Deployment.initial]
  read := by simp [Deployment.initial]

section
variable (waits : Waits d)
include waits

/-- A write over a collectable query is past its retention: an author's by the
condition, a collector's because it read the record, and the conditional writers do not
replace a terminal record. -/
theorem Waits.stores (guard : KeepsExpired d action) (stores : Stores d action record)
    (past : d.store.collectable d.now record.id = true) :
    MetaStore.isExpired d.now record = true := by
  cases stores with
  | admitted _ s _ sub phase =>
    exact guard (s.pid, record) (by simp [putting?, sub, phase]) past
  | begun _ _ run _ executed | ended _ _ run _ executed =>
    exact guard (run.pid, run.record) (by simp [putting?, executed]) past
  | progressed _ _ _ _ _ _ lookup unfinished =>
    rw [d.store.collectable_unfinished lookup (by rw [unfinished]; rfl)] at past
    contradiction
  | reaped _ _ _ _ _ _ _ _ _ lookup unfinished =>
    rw [d.store.collectable_unfinished lookup
      ((QueryState.isTerminal_eq_false_iff _).mpr
        (by simpa [ownerLostExpected] using unfinished))] at past
    contradiction
  | marked pid _ p _ _ found phase => exact waits.read pid p record found (by rw [phase]; rfl)

theorem Waits.collectable_step (guard : KeepsExpired d action) (move : Move env d action after)
    {id : String} (past : d.store.collectable d.now id = true) :
    after.store.collectable after.now id = true := by
  refine MetaStore.collectable_later _ move.now_le ?_
  rcases move.records waits.shape with same | ⟨_, stores, written⟩ | ⟨_, _, deleted⟩
  · rw [MetaStore.collectable, MetaStore.ended, same.journal, same.queries]
    exact past
  · rw [written]
    refine d.store.store_collectable past fun own => ?_
    exact waits.stores guard stores (own ▸ past)
  · rw [deleted]
    exact d.store.deleteQuery_collectable past

theorem Waits.read_step (move : Move env d action after) (pid : Nat) (next : Process)
    (record : QueryRecord) (present : after.procs pid = some next)
    (taken : next.gc.read? = some record) : MetaStore.isExpired after.now record = true := by
  refine MetaStore.isExpired_later move.now_le ?_
  obtain ⟨before, found, earlier | ⟨id, _, read, phase, got, _, held⟩⟩ :=
    move.gc_origin (·.read? = some record) present taken ⟨nofun, nofun, nofun⟩
      fun _ _ => ⟨id, nofun, nofun⟩
  · exact waits.read pid before record found earlier
  · obtain rfl : { read with state := .expired } = record := by simpa [GcPhase.read?] using held
    have past := waits.rest pid before id found (by rw [phase]; exact List.mem_cons_self)
    have expired := d.store.collectable_read past got
    simp only [MetaStore.isExpired, Bool.and_eq_true] at expired ⊢
    exact ⟨⟨rfl, expired.1.2⟩, expired.2⟩

theorem Waits.step (guard : KeepsExpired d action) (move : Move env d action after) :
    Waits after where
  shape := waits.shape.step move
  rest := by
    intro pid next id present waiting
    refine waits.collectable_step guard move ?_
    rcases move.gc_cases present with idle | ⟨before, found, same | advances⟩
    · rw [idle] at waiting
      contradiction
    · exact waits.rest pid before id found (same ▸ waiting)
    · rcases advances.rest_origin waiting with earlier | listed
      · exact waits.rest pid before id found earlier
      · exact d.store.collectable_of_listed listed
  read := waits.read_step move

end

theorem Reachable.waits (reached : Reachable env KeepsExpired d) : Waits d := by
  obtain ⟨now, _, run⟩ := reached
  exact run.invariant Waits (Waits.initial now) fun _ _ _ holds guard taken =>
    holds.step guard (step_move taken)

theorem Waits.retentionEnd_lt (waits : Waits d) {pid : Nat} {p : Process}
    (found : d.procs pid = some p) (taken : p.gc.read? = some record) :
    record.retentionEnd < d.now := by
  have expired := waits.read pid p record found taken
  simp only [MetaStore.isExpired, Bool.and_eq_true, decide_eq_true_eq] at expired
  exact expired.2

end

/-- A step of a collector that stores a state stores the mark of the record that was
read, and one that deletes a stored result deletes the result of that record; either
way its retention has ended. -/
theorem gc_waits_for_retention_end (env : Env) (d after : Deployment)
    (reached : Reachable env KeepsExpired d) (pid : Nat) (choice : GcChoice)
    (taken : step env d (.gc pid choice) = some after) :
    (∀ queryID, after.store.journal queryID ≠ d.store.journal queryID →
      ∃ p record ids, d.procs pid = some p ∧ p.gc = .mark record ids ∧ record.id = queryID ∧
        record.retentionEnd < d.now) ∧
    ∀ object ∈ d.objects, object ∉ after.objects →
      ∃ p record ids ref, d.procs pid = some p ∧ p.gc = .dispose record ids ∧
        record.result = some ref ∧ objectName ref = object ∧ record.retentionEnd < d.now := by
  have waits := reached.waits
  have move := step_move taken
  constructor
  · intro queryID changed
    rcases move.journal waits.shape queryID with same | ⟨record, own, stores, _⟩
    · exact absurd same changed
    · cases stores with
      | marked _ _ p _ ids found phase =>
        exact ⟨p, record, ids, found, phase, own,
          waits.retentionEnd_lt found (by rw [phase]; rfl)⟩
  · intro object stored gone
    cases move with
    | gc _ _ p _ found _ moved =>
      obtain ⟨record, ids, ref, phase, result, own⟩ := gcStep_objects moved stored gone
      exact ⟨p, record, ids, ref, found, phase, result, own,
        waits.retentionEnd_lt found (by rw [phase]; rfl)⟩
    | operated _ _ _ _ _ _ operated => cases operated

def listExpired : List Action :=
  [.tick 90000000000000, .gc 2 (.begin .ok), .gc 2 (.listed .ok ["q"])]

def handView (d : Deployment) : Option Bool :=
  (d.procs 2).bind fun p => p.gc.read?.map fun record => decide (record.retentionEnd < d.now)

/-- `q` succeeds, and the collector deletes its result once the retention is over. -/
theorem collector_deletes_old_result :
    ∃ d after, Reachable sampleEnv KeepsExpired d ∧
      step sampleEnv d (.gc 2 (.dispose true)) = some after ∧
      ("fs", "q.jsonl") ∈ d.objects ∧ ("fs", "q.jsonl") ∉ after.objects ∧
      ∃ p record ids ref, d.procs 2 = some p ∧ p.gc = .dispose record ids ∧
        record.result = some ref ∧ objectName ref = ("fs", "q.jsonl") ∧
        record.retentionEnd < d.now := by
  obtain ⟨d, reached, after, taken, stored, gone⟩ :
      ∃ d, Reachable sampleEnv KeepsExpired d ∧
        ∃ after ∈ step sampleEnv d (.gc 2 (.dispose true)),
          ("fs", "q.jsonl") ∈ d.objects ∧ ("fs", "q.jsonl") ∉ after.objects :=
    exists_reachable (runningQuery ++ finishQuery ++ listExpired ++
      [.gc 2 (.collect .ok), .gc 2 (.mark .ok)]) (by decide +kernel)
  exact ⟨d, after, reached, taken, stored, gone,
    (gc_waits_for_retention_end sampleEnv d after reached 2 _ taken).2 _ stored gone⟩

/-- Without the condition: the collector lists the `FAILED` verdict of a reaper, the
owner of `q` replaces it by `SUCCEEDED`, and the collector marks that record and deletes
its result on the day it was stored. -/
theorem collector_deletes_fresh_result :
    ∃ d marked after, Reachable sampleEnv Runs.Always d ∧
      step sampleEnv d (.gc 2 (.mark .ok)) = some marked ∧
      d.store.journal "q" = [.succeeded, .failed, .running, .pending] ∧
      marked.store.journal "q" = [.expired, .succeeded, .failed, .running, .pending] ∧
      handView d = some false ∧
      step sampleEnv marked (.gc 2 (.dispose true)) = some after ∧
      ("fs", "q.jsonl") ∈ marked.objects ∧ ("fs", "q.jsonl") ∉ after.objects ∧
      handView marked = some false := by
  obtain ⟨d, reached, marked, marks, journal, expired, early, after, disposes, facts⟩ :
      ∃ d, Reachable sampleEnv Runs.Always d ∧
        ∃ marked ∈ step sampleEnv d (.gc 2 (.mark .ok)),
          d.store.journal "q" = [.succeeded, .failed, .running, .pending] ∧
          marked.store.journal "q" = [.expired, .succeeded, .failed, .running, .pending] ∧
          handView d = some false ∧
          ∃ after ∈ step sampleEnv marked (.gc 2 (.dispose true)),
            decide (("fs", "q.jsonl") ∈ marked.objects ∧ ("fs", "q.jsonl") ∉ after.objects ∧
              handView marked = some false) = true :=
    exists_reachable (runningQuery ++ reapQuery ++ listExpired ++ finishQuery ++
      [.gc 2 (.collect .ok)]) (by decide +kernel)
  exact ⟨d, marked, after, reached, marks, journal, expired, early, disposes,
    of_decide_eq_true facts⟩

end Deployment

end DbBridge.Cluster
