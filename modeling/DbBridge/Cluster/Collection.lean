import DbBridge.Cluster.Expiry

/-!
# Repeated passes of `collectQuery`

One query, and any number of passes over it with no other writer. Each call of a pass
can fail, with or without its effect, and time passes between the passes. The effects on the
record and on its result are logged, newest first. Last, a pass is a run of the worker in the
cluster.
-/

namespace DbBridge.Cluster.Collection

open Domain State Runs List

/-- How the calls of one pass end; `getStore` says whether the backend is registered. -/
structure Faults where
  getQuery : Reply := .ok
  updateQuery : Reply := .ok
  getStore : Bool := true
  delete : Reply := .ok
  releaseIdempotency : Reply := .ok
  deleteQuery : Reply := .ok

/-- `deletedResult` says whether `Delete` returned nil. -/
inductive Effect where
  | marked
  | deletedResult (ref : ResultRef) (returnedNil : Bool)
  | deletedRecord
  deriving DecidableEq, Repr

structure Site where
  store : MetaStore
  objects : List ObjectName
  log : List Effect := []

variable (backend : Backend) (faults : Faults) (id : String)

/-- The first part of `collectQuery`, with the record it goes on with; `none` ends the
pass. -/
def markExpired (s : Site) (record : QueryRecord) : Site × Option QueryRecord :=
  if record.state = .expired then (s, some record)
  else if record.state.canTransitionTo .expired then
    let expired := { record with state := .expired }
    match s.store.updateQuery backend expired with
    | none => (s, none)
    | some after =>
      ({ s with
          store := faults.updateQuery.apply s.store after
          log := faults.updateQuery.apply s.log (.marked :: s.log) },
        if faults.updateQuery = .ok then some expired else none)
  else (s, none)

def deleteResult (s : Site) (record : QueryRecord) : Site × Bool :=
  match record.result with
  | none => (s, true)
  | some ref =>
    if faults.getStore then
      ({ s with
          objects := faults.delete.apply s.objects (s.objects.filter (· ≠ objectName ref))
          log := faults.delete.apply s.log
            (.deletedResult ref (faults.delete = .ok) :: s.log) },
        faults.delete = .ok)
    else (s, false)

/-- A failed release is only logged. -/
def releaseKey (s : Site) (record : QueryRecord) : Site :=
  if record.idempotencyKey = "" then s
  else
    { s with
      store := faults.releaseIdempotency.apply s.store
        (s.store.releaseIdempotency record.databaseID
          (scopedIdempotencyKey record.subject record.idempotencyKey) id) }

def deleteRecord (s : Site) : Site :=
  { s with
    store := faults.deleteQuery.apply s.store (s.store.deleteQuery id)
    log := faults.deleteQuery.apply s.log (.deletedRecord :: s.log) }

def collectQuery (s : Site) : Site :=
  if faults.getQuery ≠ .ok then s
  else
    match s.store.getQuery id with
    | none => s
    | some record =>
      match markExpired backend faults s record with
      | (s, none) => s
      | (s, some record) =>
        match deleteResult faults s record with
        | (s, false) => s
        | (s, true) => deleteRecord faults id (releaseKey faults id s record)

/-! ## Passes and the time between them -/

/-- `expiry` is that of the record's key, which it has on Redis only. -/
structure Aging where
  site : Site
  now : Time
  expiry : Option Time

structure Pass where
  elapsed : Nat
  faults : Faults := {}

def Aging.expired (s : Aging) (now : Time) : Bool :=
  backend = .redis && s.site.store.has id && !Expiring.lasts now s.expiry

def Aging.pass (s : Aging) (pass : Pass) : Aging :=
  let now := s.now + pass.elapsed
  let store := if s.expired backend id now then s.site.store.expire (· = id) else s.site.store
  let site := collectQuery backend pass.faults id { s.site with store }
  { site, now, expiry := Expiring.renewed now store site.store s.expiry id }

def passStep (s : Aging) (pass : Pass) : Option Aging := some (s.pass backend id pass)

/-- The condition on a pass: the record has not expired when it begins. -/
def InTime (s : Aging) (pass : Pass) : Prop := s.expired backend id (s.now + pass.elapsed) = false

/-! ## The order of the effects -/

/-- What must have happened before an effect, for the record `first` that the passes
started with. -/
def Allowed (first : QueryRecord) (earlier : List Effect) : Effect → Prop
  | .marked => True
  | .deletedResult _ _ => first.state = .expired ∨ .marked ∈ earlier
  | .deletedRecord => ∀ ref ∈ first.result, .deletedResult ref true ∈ earlier

def Lawful (first : QueryRecord) : List Effect → Prop
  | [] => True
  | effect :: earlier => Allowed first earlier effect ∧ Lawful first earlier

theorem Lawful.allowed {first : QueryRecord} {later earlier : List Effect} {effect : Effect}
    (lawful : Lawful first (later ++ effect :: earlier)) : Allowed first earlier effect := by
  induction later with
  | nil => exact lawful.1
  | cons _ _ ih => exact ih lawful.2

/-! ## What one pass keeps -/

/-- `start` is where the passes began, `first` the record they found there. -/
structure Inv (start : Site) (first : QueryRecord) (s : Site) : Prop where
  stored : ∀ record, s.store.queries.lookup id = some record →
    record.result = first.result ∧ (record.state = first.state ∨ record.state = .expired)
  expired : ∀ record, s.store.queries.lookup id = some record → record.state = .expired →
    first.state = .expired ∨ .marked ∈ s.log
  gone : s.store.queries.lookup id = none → .deletedRecord ∈ s.log
  lawful : Lawful first s.log
  emptied : ∀ ref, .deletedResult ref true ∈ s.log → objectName ref ∉ s.objects
  removed : ∀ object ∈ start.objects, object ∉ s.objects →
    ∃ ref returnedNil, objectName ref = object ∧ .deletedResult ref returnedNil ∈ s.log
  others : ∀ other, other ≠ id →
    s.store.queries.lookup other = start.store.queries.lookup other

section
variable {id} {start s : Site} {first : QueryRecord} {record : QueryRecord}

theorem Inv.initial (unlogged : start.log = [])
    (found : start.store.queries.lookup id = some first) : Inv id start first start := by
  constructor
  · intro record lookup
    rw [found] at lookup
    cases lookup
    exact ⟨rfl, .inl rfl⟩
  · intro record lookup expired
    rw [found] at lookup
    cases lookup
    exact .inl expired
  · intro missing
    rw [found] at missing
    contradiction
  · rw [unlogged]
    trivial
  · simp [unlogged]
  · intro object present absent
    exact absurd present absent
  · intro other _
    rfl

section
variable (inv : Inv id start first s)
include inv

theorem Inv.put (named : record.id = id) (result : record.result = first.result)
    (expired : record.state = .expired) :
    Inv id start first { s with store := s.store.store record, log := .marked :: s.log } := by
  subst named
  constructor
  · intro stored lookup
    rw [MetaStore.store_lookup_self] at lookup
    cases lookup
    exact ⟨result, .inr expired⟩
  · intro stored lookup _
    exact .inr mem_cons_self
  · intro missing
    rw [MetaStore.store_lookup_self] at missing
    contradiction
  · exact ⟨trivial, inv.lawful⟩
  · intro ref deleted
    exact inv.emptied ref (by simpa using deleted)
  · intro object present absent
    obtain ⟨ref, returnedNil, named, deleted⟩ := inv.removed object present absent
    exact ⟨ref, returnedNil, named, mem_cons_of_mem _ deleted⟩
  · intro other ne
    rw [MetaStore.store_lookup_of_ne _ _ ne]
    exact inv.others other ne

theorem Inv.markExpired (found : s.store.getQuery id = some record) :
    Inv id start first (markExpired backend faults s record).1 ∧
      ∀ next ∈ (Collection.markExpired backend faults s record).2,
        next.result = first.result ∧ (first.state = .expired ∨
          .marked ∈ (Collection.markExpired backend faults s record).1.log) := by
  have named := s.store.getQuery_id found
  obtain ⟨stored, deadline, lookup, rfl⟩ := s.store.getQuery_eq_some found
  obtain ⟨result, -⟩ := inv.stored stored lookup
  unfold Collection.markExpired
  split
  · rename_i expired
    refine ⟨inv, ?_⟩
    intro next continued
    cases continued
    exact ⟨result, inv.expired stored lookup expired⟩
  · split
    · simp only
      split
      · exact ⟨inv, by simp⟩
      · rename_i after updated
        have written := s.store.updateQuery_eq_some updated
        subst written
        have put : Inv id start first { s with
            store := s.store.store
              { stored with state := .expired, leaseDeadline := deadline }
            log := .marked :: s.log } := inv.put named result rfl
        cases faults.updateQuery with
        | failed => exact ⟨inv, by simp⟩
        | lost => exact ⟨put, by simp⟩
        | ok =>
          refine ⟨put, ?_⟩
          intro next continued
          cases continued
          exact ⟨result, .inr mem_cons_self⟩
    · exact ⟨inv, by simp⟩

theorem Inv.deleteResult (result : record.result = first.result)
    (marked : first.state = .expired ∨ .marked ∈ s.log) :
    Inv id start first (deleteResult faults s record).1 ∧
      ((Collection.deleteResult faults s record).2 = true → ∀ ref ∈ first.result,
        .deletedResult ref true ∈ (Collection.deleteResult faults s record).1.log) := by
  unfold Collection.deleteResult
  rw [result]
  split
  · rename_i nothing
    exact ⟨inv, by simp [nothing]⟩
  · rename_i ref has
    split
    · have deleted : ∀ returnedNil, Inv id start first { s with
          objects := s.objects.filter (· ≠ objectName ref)
          log := .deletedResult ref returnedNil :: s.log } := by
        intro returnedNil
        refine ⟨inv.stored, ?_, ?_, ⟨marked, inv.lawful⟩, ?_, ?_, inv.others⟩
        · intro stored lookup expired
          exact (inv.expired stored lookup expired).imp_right (mem_cons_of_mem _)
        · intro missing
          exact mem_cons_of_mem _ (inv.gone missing)
        · intro other logged present
          obtain ⟨present, different⟩ := mem_filter.mp present
          rcases mem_cons.mp logged with same | earlier
          · cases same
            simp at different
          · exact inv.emptied other earlier present
        · intro object present absent
          by_cases still : object ∈ s.objects
          · refine ⟨ref, returnedNil, ?_, mem_cons_self⟩
            by_contra different
            exact absent (mem_filter.mpr ⟨still, by simpa using Ne.symm different⟩)
          · obtain ⟨other, nil, named, logged⟩ := inv.removed object present still
            exact ⟨other, nil, named, mem_cons_of_mem _ logged⟩
      cases faults.delete with
      | failed => exact ⟨inv, by simp⟩
      | lost => exact ⟨deleted false, by simp⟩
      | ok =>
        refine ⟨deleted true, fun _ other member => ?_⟩
        rw [has] at member
        cases member
        exact mem_cons_self
    · exact ⟨inv, by simp⟩

theorem Inv.releaseKey (record : QueryRecord) : Inv id start first (releaseKey faults id s record) ∧
      (Collection.releaseKey faults id s record).log = s.log := by
  unfold Collection.releaseKey
  split
  · exact ⟨inv, rfl⟩
  · have same : ∀ reply : Reply, (reply.apply s.store (s.store.releaseIdempotency
        record.databaseID (scopedIdempotencyKey record.subject record.idempotencyKey)
        id)).queries = s.store.queries := by
      intro reply
      cases reply with
      | failed => rfl
      | ok | lost => exact (s.store.releaseIdempotency_untouched _ _ _).queries
    refine ⟨⟨?_, ?_, ?_, inv.lawful, inv.emptied, inv.removed, ?_⟩, rfl⟩
    · rw [same]
      exact inv.stored
    · rw [same]
      exact inv.expired
    · rw [same]
      exact inv.gone
    · rw [same]
      exact inv.others

theorem Inv.deleteRecord (cleared : ∀ ref ∈ first.result, .deletedResult ref true ∈ s.log) :
    Inv id start first (deleteRecord faults id s) := by
  have erased : Inv id start first { s with
      store := s.store.deleteQuery id, log := .deletedRecord :: s.log } := by
    have missing : (s.store.deleteQuery id).queries.lookup id = none := AList.lookup_erase _ _
    constructor
    · intro record lookup
      rw [missing] at lookup
      contradiction
    · intro record lookup
      rw [missing] at lookup
      contradiction
    · exact fun _ => mem_cons_self
    · exact ⟨cleared, inv.lawful⟩
    · intro ref logged
      exact inv.emptied ref (by simpa using logged)
    · intro object present absent
      obtain ⟨ref, returnedNil, named, logged⟩ := inv.removed object present absent
      exact ⟨ref, returnedNil, named, mem_cons_of_mem _ logged⟩
    · intro other ne
      rw [← inv.others other ne]
      exact AList.lookup_erase_ne ne
  unfold Collection.deleteRecord
  cases faults.deleteQuery with
  | failed => exact inv
  | ok | lost => exact erased

theorem Inv.collectQuery : Inv id start first (collectQuery backend faults id s) := by
  unfold Collection.collectQuery
  split
  · exact inv
  · split
    · exact inv
    · rename_i record found
      obtain ⟨marked, continued⟩ := inv.markExpired backend faults found
      split
      · rename_i after stopped
        rw [stopped] at marked
        exact marked
      · rename_i after next going
        rw [going] at marked continued
        obtain ⟨result, expired⟩ := continued next rfl
        obtain ⟨deleted, cleared⟩ := marked.deleteResult faults result expired
        split
        · rename_i stopped
          rw [stopped] at deleted
          exact deleted
        · rename_i last done
          rw [done] at deleted cleared
          obtain ⟨released, sameLog⟩ := deleted.releaseKey faults next
          apply released.deleteRecord faults
          rw [sameLog]
          exact cleared rfl

end

/-! ## A pass without faults -/

theorem getQuery_of_lookup {m : MetaStore} (found : m.queries.lookup id = some record) :
    ∃ read, m.getQuery id = some read ∧ read.id = id ∧ read.state = record.state := by
  have named := m.keyed id record found
  unfold MetaStore.getQuery
  rw [found]
  cases m.leases.lookup id with
  | none => exact ⟨record, rfl, named, rfl⟩
  | some => exact ⟨_, rfl, named, rfl⟩

theorem markExpired_faultless (listed : (s.store.queries.lookup record.id).isSome = true)
    (terminal : record.state.isTerminal = true) :
    (markExpired backend {} s record).2.isSome = true := by
  unfold markExpired
  split
  · rfl
  · rw [if_pos ((QueryState.canTransitionTo_expired_iff record.state).mpr terminal)]
    obtain ⟨_, lookup⟩ := Option.isSome_iff_exists.mp listed
    cases backend with
    | redis => rfl
    | memory => simp [MetaStore.updateQuery, lookup]

theorem deleteResult_faultless (record : QueryRecord) : (deleteResult {} s record).2 = true := by
  unfold deleteResult
  split <;> rfl

section
variable (found : s.store.queries.lookup id = some record)
include found

theorem collectQuery_faultless (terminal : record.state.isTerminal = true) :
    (collectQuery backend {} id s).store.queries.lookup id = none := by
  obtain ⟨read, answer, named, sameState⟩ := getQuery_of_lookup found
  have listed : (s.store.queries.lookup read.id).isSome = true := by
    rw [named, found]
    rfl
  have marked := markExpired_faultless backend listed (by rw [sameState]; exact terminal)
  unfold collectQuery
  rw [if_neg (by simp), answer]
  simp only
  split
  · rename_i stopped
    simp [stopped] at marked
  · rename_i after next going
    have deleted := deleteResult_faultless (s := after) next
    split
    · rename_i stopped
      simp [stopped] at deleted
    · exact AList.lookup_erase _ _

theorem collectQuery_active (active : record.state.isTerminal = false) :
    collectQuery backend faults id s = s := by
  obtain ⟨read, answer, -, sameState⟩ := getQuery_of_lookup found
  have refused : markExpired backend faults s read = (s, none) := by
    unfold markExpired
    have notExpired : read.state ≠ .expired := by
      intro expired
      rw [← sameState, expired] at active
      contradiction
    have illegal : ¬ read.state.canTransitionTo .expired = true := by
      rw [QueryState.canTransitionTo_expired_iff, sameState, active]
      simp
    rw [if_neg notExpired, if_neg illegal]
  unfold collectQuery
  split
  · rfl
  · rw [answer]
    simp only [refused]

end

end

theorem isTerminal_iff_collectable (state : QueryState) :
    state.isTerminal = true ↔ state ∈ [.succeeded, .failed, .canceled, .expired] := by
  cases state <;> decide

theorem InTime.site {s : Aging} {pass : Pass} (inTime : InTime backend id s pass) :
    (s.pass backend id pass).site = collectQuery backend pass.faults id s.site := by
  simp only [Aging.pass, show s.expired backend id (s.now + pass.elapsed) = false from inTime,
    Bool.false_eq_true, if_false]

/-- Over any passes that find the record unexpired, whatever fails in them: the record goes
only after its result was deleted without an error, the result only after the record was
stored as `EXPIRED`, a pass without faults completes the removal, and a record that is still
in progress, like every other record, stays as it is. -/
theorem metadata_outlives_result (first : QueryRecord) {start s : Aging}
    (unlogged : start.site.log = []) (found : start.site.store.queries.lookup id = some first)
    (run : Reaches (passStep backend id) (InTime backend id) start s) :
    (∀ later earlier, s.site.log = later ++ .deletedRecord :: earlier →
      ∀ ref ∈ first.result, .deletedResult ref true ∈ earlier) ∧
    (s.site.store.queries.lookup id = none → .deletedRecord ∈ s.site.log ∧
      ∀ ref ∈ first.result, objectName ref ∉ s.site.objects) ∧
    (∀ later earlier ref returnedNil,
      s.site.log = later ++ .deletedResult ref returnedNil :: earlier →
        first.state = .expired ∨ .marked ∈ earlier) ∧
    (∀ object ∈ start.site.objects, object ∉ s.site.objects →
      ∃ ref returnedNil, objectName ref = object ∧
        .deletedResult ref returnedNil ∈ s.site.log) ∧
    (first.state ∈ [.succeeded, .failed, .canceled, .expired] →
      ∀ pass, InTime backend id s pass → pass.faults = {} →
        (s.pass backend id pass).site.store.queries.lookup id = none ∧
          ∀ ref ∈ first.result, objectName ref ∉ (s.pass backend id pass).site.objects) ∧
    (first.state ∉ [.succeeded, .failed, .canceled, .expired] → s.site = start.site) ∧
    ∀ other, other ≠ id →
      s.site.store.queries.lookup other = start.site.store.queries.lookup other := by
  have inv : Inv id start.site first s.site := by
    refine run.invariant (fun s => Inv id start.site first s.site) (.initial unlogged found) ?_
    rintro before pass _ inv inTime ⟨⟩
    rw [inTime.site]
    exact inv.collectQuery backend pass.faults
  have emptied : ∀ {s : Site}, Inv id start.site first s → .deletedRecord ∈ s.log →
      ∀ ref ∈ first.result, objectName ref ∉ s.objects := by
    intro s inv logged ref has
    obtain ⟨later, earlier, split⟩ := append_of_mem logged
    have lawful := inv.lawful
    rw [split] at lawful
    apply inv.emptied ref
    rw [split]
    exact mem_append_right _ (mem_cons_of_mem _ (lawful.allowed ref has))
  refine ⟨?_, ?_, ?_, inv.removed, ?_, ?_, inv.others⟩
  · intro later earlier split
    have lawful := inv.lawful
    rw [split] at lawful
    exact lawful.allowed
  · intro missing
    exact ⟨inv.gone missing, emptied inv (inv.gone missing)⟩
  · intro later earlier ref returnedNil split
    have lawful := inv.lawful
    rw [split] at lawful
    exact lawful.allowed
  · intro collectable pass inTime faultless
    rw [inTime.site, faultless]
    have last : Inv id start.site first (collectQuery backend {} id s.site) :=
      inv.collectQuery backend {}
    have missing : (collectQuery backend {} id s.site).store.queries.lookup id = none := by
      cases lookup : s.site.store.queries.lookup id with
      | some record =>
        apply collectQuery_faultless backend lookup
        rcases (inv.stored record lookup).2 with same | expired
        · rw [same]
          exact (isTerminal_iff_collectable first.state).mpr collectable
        · rw [expired]
          rfl
      | none =>
        have unread : s.site.store.getQuery id = none := by simp [MetaStore.getQuery, lookup]
        unfold collectQuery
        rw [if_neg (by simp), unread]
        exact lookup
    exact ⟨missing, emptied last (last.gone missing)⟩
  · intro other
    have active : first.state.isTerminal = false := by
      by_contra terminal
      exact other ((isTerminal_iff_collectable first.state).mp (by simpa using terminal))
    refine run.invariant (fun s => s.site = start.site) rfl ?_
    rintro before pass _ same inTime ⟨⟩
    rw [inTime.site, same]
    exact collectQuery_active backend pass.faults found active

def finishedQuery : QueryRecord where
  __ := QueryRecord.sample .succeeded
  createdAt := 0
  finishedAt := 1
  result := some { backend := "fs", locator := "q.jsonl", format := "jsonl" }
  idempotencyKey := "k"
  subject := "alice"

def finishedSite : Site where
  store := MetaStore.empty.putQuery finishedQuery
  objects := [("fs", "q.jsonl")]

/-- On Redis, where the key of the record that was written at 1 expires after 48 hours. -/
def finishedAging : Aging := ⟨finishedSite, 1, some (1 + 48 * hour)⟩

instance (s : Aging) (pass : Pass) : Decidable (InTime backend id s pass) :=
  inferInstanceAs (Decidable (_ = false))

/-- First the result cannot be deleted, then the metadata; the next pass completes. -/
theorem retried_collection_completes :
    ∃ s, Reaches (passStep .redis "q") (InTime .redis "q") finishedAging s ∧
      s.site.log = [.deletedResult ⟨"fs", "q.jsonl", 0, 0, "jsonl", ""⟩ true, .marked] ∧
      ∃ pass, InTime .redis "q" s pass ∧
        (s.pass .redis "q" pass).site.store.queries.lookup "q" = none ∧
        ("fs", "q.jsonl") ∉ (s.pass .redis "q" pass).site.objects := by
  have stored : finishedAging.site.store.queries.lookup "q" = some finishedQuery := by
    decide +kernel
  obtain ⟨s, run, log, inTime⟩ :
      ∃ s, Reaches (passStep .redis "q") (InTime .redis "q") finishedAging s ∧
        s.site.log = [.deletedResult ⟨"fs", "q.jsonl", 0, 0, "jsonl", ""⟩ true, .marked] ∧
        InTime .redis "q" s ⟨60, {}⟩ :=
    exists_reaches [⟨60, { delete := .failed }⟩, ⟨60, { deleteQuery := .failed }⟩]
      (by decide +kernel)
  obtain ⟨-, -, -, -, completes, -⟩ :=
    metadata_outlives_result .redis "q" finishedQuery rfl stored run
  obtain ⟨missing, emptied⟩ := completes (by decide) ⟨60, {}⟩ inTime rfl
  exact ⟨s, run, log, ⟨60, {}⟩, inTime, missing, emptied _ rfl⟩

/-- The result cannot be deleted, and the next pass comes 49 hours after the record was marked:
it finds no record, so it leaves the result where it is. -/
theorem expired_metadata_strands_result :
    ∃ s, Reaches (passStep .redis "q") (InTime .redis "q") finishedAging s ∧
      (s.site.store.queries.lookup "q").map (·.state) = some .expired ∧
      ∃ next ∈ passStep .redis "q" s ⟨(49 * hour).toNat, {}⟩,
        next.site.store.queries.lookup "q" = none ∧ .deletedRecord ∉ next.site.log ∧
        ("fs", "q.jsonl") ∈ next.site.objects :=
  exists_reaches [⟨60, { delete := .failed }⟩] (by decide +kernel)

/-! ## The worker of the cluster -/

section
variable (env : Env) (now : Time) (p : Process) (ids : List String)

def workerStep (out : GcOutcome) (choice : GcChoice) : Option GcOutcome :=
  gcStep env now out.store out.process out.objects choice

def atPhase (s : Site) (phase : GcPhase) : GcOutcome :=
  ⟨s.store, { p with gc := phase }, s.objects⟩

theorem worker_deleteRecord (s : Site) (record : QueryRecord) :
    Reaches (workerStep env now) Always (atPhase p s (.release record ids))
      (atPhase p (deleteRecord faults record.id (releaseKey faults record.id s record))
        (.loop ids)) := by
  have released : workerStep env now (atPhase p s (.release record ids))
      (.release faults.releaseIdempotency) =
        some (atPhase p (releaseKey faults record.id s record) (.drop record.id ids)) := by
    simp only [workerStep, atPhase, gcStep, releaseKey]
    split <;> rfl
  have dropped : workerStep env now
      (atPhase p (releaseKey faults record.id s record) (.drop record.id ids))
      (.drop faults.deleteQuery) = some (atPhase p
        (deleteRecord faults record.id (releaseKey faults record.id s record)) (.loop ids)) := rfl
  exact ((Reaches.refl _).snoc trivial released).snoc trivial dropped

theorem worker_deleteResult (s : Site) (record : QueryRecord) (kept : faults.delete ≠ .lost)
    (registered : ∀ ref ∈ record.result,
      faults.getStore = (env.stores.lookup ref.backend).isSome) :
    workerStep env now (atPhase p s (.dispose record ids)) (.dispose (faults.delete = .ok)) =
      some (atPhase p (deleteResult faults s record).1
        (if (deleteResult faults s record).2 then .release record ids else .loop ids)) := by
  -- record.result also occurs in the phase, so it is rewritten, not generalized
  rcases has : record.result with _ | ref
  · simp [workerStep, atPhase, gcStep, deleteResult, has]
  · have available := registered ref has
    cases getStore : faults.getStore with
    | false =>
      rw [getStore] at available
      simp [workerStep, atPhase, gcStep, deleteResult, has, getStore, ← available]
    | true =>
      rw [getStore] at available
      cases reply : faults.delete with
      | ok =>
        simp [workerStep, atPhase, gcStep, deleteResult, has, getStore, reply, ← available,
          Reply.apply]
      | failed =>
        simp [workerStep, atPhase, gcStep, deleteResult, has, getStore, reply, Reply.apply]
      | lost => exact absurd reply kept

/-- A pass of the garbage collector over one ID is `collectQuery`. -/
theorem gcStep_collectQuery (s : Site) (kept : faults.delete ≠ .lost)
    (registered : ∀ record ref, s.store.getQuery id = some record → record.result = some ref →
      faults.getStore = (env.stores.lookup ref.backend).isSome) :
    Reaches (workerStep env now) Always (atPhase p s (.loop (id :: ids)))
      (atPhase p (collectQuery env.backend faults id s) (.loop ids)) := by
  have begun : workerStep env now (atPhase p s (.loop (id :: ids))) (.collect faults.getQuery) =
      some (atPhase p s (if faults.getQuery = .ok then collectRead s.store id ids
        else .loop ids)) := rfl
  refine Reaches.trans ((Reaches.refl _).snoc trivial begun) ?_
  unfold collectQuery
  by_cases answered : faults.getQuery = .ok
  · rw [if_pos answered, if_neg (by simp [answered]), collectRead]
    cases found : s.store.getQuery id with
    | none => exact Reaches.refl _
    | some record =>
      have named := s.store.getQuery_id found
      -- the rest of the pass, from the removal of the result on
      have rest : ∀ (s : Site) (record' : QueryRecord), record'.id = id →
          record'.result = record.result →
          Reaches (workerStep env now) Always (atPhase p s (.dispose record' ids))
            (atPhase p (match deleteResult faults s record' with
              | (s, false) => s
              | (s, true) => deleteRecord faults id (releaseKey faults id s record'))
              (.loop ids)) := by
        intro s record' named' result
        have disposed := worker_deleteResult faults env now p ids s record' kept
          (fun ref has => registered record ref found (result ▸ has))
        refine Reaches.trans ((Reaches.refl _).snoc trivial disposed) ?_
        cases outcome : deleteResult faults s record' with
        | mk after deleted =>
          cases deleted with
          | false => exact Reaches.refl _
          | true =>
            subst named'
            exact worker_deleteRecord faults env now p ids after record'
      simp only [markExpired]
      split
      · exact rest s record named rfl
      · split
        · cases updated : s.store.updateQuery env.backend { record with state := .expired } with
          | none =>
            have refused : workerStep env now
                (atPhase p s (.mark { record with state := .expired } ids))
                (.mark faults.updateQuery) = some (atPhase p s (.loop ids)) := by
              simp [workerStep, atPhase, gcStep, updated]
            exact (Reaches.refl _).snoc trivial refused
          | some after =>
            have marked : workerStep env now
                (atPhase p s (.mark { record with state := .expired } ids))
                (.mark faults.updateQuery) =
                some (atPhase p { s with
                  store := faults.updateQuery.apply s.store after
                  log := faults.updateQuery.apply s.log (.marked :: s.log) }
                  (if faults.updateQuery = .ok then
                    .dispose { record with state := .expired } ids else .loop ids)) := by
              simp [workerStep, atPhase, gcStep, updated]
            refine Reaches.trans ((Reaches.refl _).snoc trivial marked) ?_
            by_cases written : faults.updateQuery = .ok
            · simp only [if_pos written]
              exact rest _ { record with state := .expired } named rfl
            · simp only [if_neg written]
              exact Reaches.refl _
        · exact Reaches.refl _
  · rw [if_neg answered, if_pos (by simpa using answered)]
    exact Reaches.refl _

end

theorem worker_collects_finished :
    Reaches (workerStep sampleEnv 0) Always (atPhase (.new {} []) finishedSite (.loop ["q"]))
      (atPhase (.new {} []) (collectQuery .memory {} "q" finishedSite) (.loop [])) := by
  refine gcStep_collectQuery {} "q" sampleEnv 0 _ [] finishedSite nofun fun _ _ found has => ?_
  have read : finishedSite.store.getQuery "q" = some finishedQuery := by decide +kernel
  cases read.symm.trans found
  cases has
  decide

end DbBridge.Cluster.Collection
