import DbBridge.Cluster.Process
import DbBridge.Lib.Runs
import DbBridge.Pools.Sync

/-!
# Retired pools and the queries that hold them

One instance: submissions take a pool from `lookupPool` and use it in `run`, while
`syncPools` retires pools and one goroutine of `closePoolWhenIdle` per retired pool
waits for `activeForDB` to reach zero before it closes the pool.
-/

namespace DbBridge.Pools

open Domain Settings State Cluster List

def poolDrainTimeout : Duration := 2 * minute

/-! ## The goroutine of `closePoolWhenIdle` -/

/-- `waiting` is the `select` between two polls. -/
inductive DrainPhase where
  | started
  | polling (deadline : Time)
  | waiting (deadline : Time)
  | closing
  | closed
  deriving DecidableEq, Repr

structure PoolDrain where
  dbID : String
  pool : Nat
  phase : DrainPhase := .started

inductive DrainEvent where
  | begin
  | poll
  | tick
  | interrupt
  | close
  deriving DecidableEq, Repr

def DrainPhase.deadline? : DrainPhase → Option Time
  | .polling deadline => some deadline
  | .waiting deadline => some deadline
  | _ => none

def DrainPhase.ended : DrainPhase → Bool
  | .closing => true
  | .closed => true
  | _ => false

def PoolDrain.step (d : PoolDrain) (active : Nat) (now : Time) (ctxDone : Bool) :
    DrainEvent → Option PoolDrain
  | .begin =>
    match d.phase with
    | .started => some { d with phase := .polling (now + poolDrainTimeout) }
    | _ => none
  | .poll =>
    match d.phase with
    | .polling deadline =>
      if 0 < active ∧ now < deadline then some { d with phase := .waiting deadline }
      else some { d with phase := .closing }
    | _ => none
  | .tick =>
    match d.phase with
    | .waiting deadline => some { d with phase := .polling deadline }
    | _ => none
  | .interrupt =>
    match d.phase, ctxDone with
    | .waiting _, true => some { d with phase := .closing }
    | _, _ => none
  | .close =>
    match d.phase with
    | .closing => some { d with phase := .closed }
    | _ => none

/-! ## A submission and its run, as far as they concern the pool -/

/-- `resolved` has the pool from `lookupPool`, `admitted` is in `activeReg`,
`reading` has the row stream, and after `executed` the pool is not used again. -/
inductive HolderPhase where
  | resolved
  | pinged
  | admitted
  | launched
  | reading
  | executed
  | done
  deriving DecidableEq, Repr

structure Holder where
  dbID : String
  pool : Nat
  phase : HolderPhase := .resolved

/-- `abandon` is any return of `SubmitQuery` before its admission other than the one
after a failed `Ping`. -/
inductive HolderEvent where
  | ping (ok : Bool)
  | abandon
  | admission
  | putQuery (ok : Bool)
  | exec (ok : Bool)
  | next
  | closeRows
  | deregister

namespace HolderPhase

def waiting : HolderPhase → Bool
  | .resolved => true
  | .pinged => true
  | _ => false

def registered : HolderPhase → Bool
  | .admitted => true
  | .launched => true
  | .reading => true
  | .executed => true
  | _ => false

def live (phase : HolderPhase) : Bool :=
  phase.waiting || (phase.registered && phase ≠ .executed)

end HolderPhase

def Holder.step (h : Holder) (registry : Registry) (queryID : String) :
    HolderEvent → Option (Holder × Registry)
  | .ping ok =>
    match h.phase with
    | .resolved => some ({ h with phase := if ok then .pinged else .done }, registry)
    | _ => none
  | .abandon =>
    if h.phase.waiting then some ({ h with phase := .done }, registry) else none
  | .admission =>
    match h.phase with
    | .pinged =>
      match registry.admitQuery queryID h.dbID with
      | .error _ => some ({ h with phase := .done }, registry)
      | .ok registry => some ({ h with phase := .admitted }, registry)
    | _ => none
  | .putQuery ok =>
    match h.phase with
    | .admitted =>
      if ok then some ({ h with phase := .launched }, registry)
      else some ({ h with phase := .done }, registry.deregister queryID)
    | _ => none
  | .exec ok =>
    match h.phase with
    | .launched => some ({ h with phase := if ok then .reading else .executed }, registry)
    | _ => none
  | .next =>
    match h.phase with
    | .reading => some (h, registry)
    | _ => none
  -- the deferred calls of run: the stream is closed first, the entry goes last
  | .closeRows =>
    match h.phase with
    | .reading => some ({ h with phase := .executed }, registry)
    | _ => none
  | .deregister =>
    match h.phase with
    | .executed => some ({ h with phase := .done }, registry.deregister queryID)
    | _ => none

/-! ## The instance -/

/-- `closed` lists the pools on which `Close` has been called. -/
structure Manager where
  now : Time := 0
  dbPools : Table ManagedPool := ∅
  serial : Nat := 0
  drains : List PoolDrain := []
  closed : List Nat := []
  registry : Registry := {}
  holders : Table Holder := ∅
  ctxDone : Bool := false

/-- `drainInstance` is `Drain`; `cancel` and `closePools` are the parts of `Close`
that concern pools. -/
inductive PoolAction where
  | advance (later : Time)
  | syncPools (openPool : DatabaseConfig → Except String Unit)
      (databases : List DatabaseConfig)
  | drain (k : Nat) (event : DrainEvent)
  | lookupPool (queryID dbID : String)
  | holder (queryID : String) (event : HolderEvent)
  | drainInstance
  | cancel
  | closePools

namespace Manager

def lookupPool (m : Manager) (dbID : String) : Option Nat :=
  (m.dbPools.lookup dbID).map ManagedPool.pool

def step (m : Manager) : PoolAction → Option Manager
  | .advance later => if m.now ≤ later then some { m with now := later } else none
  | .syncPools openPool databases =>
    let synced := Pools.syncPools openPool databases m.dbPools m.serial
    some { m with
      dbPools := synced.next
      serial := synced.serial
      drains := m.drains ++ synced.stale.map fun retired =>
        { dbID := retired.1, pool := retired.2 } }
  | .drain k event => do
      let d ← m.drains[k]?
      let after ← d.step (m.registry.activeForDB d.dbID) m.now m.ctxDone event
      some { m with
        drains := m.drains.set k after
        closed := if event = .close then d.pool :: m.closed else m.closed }
  | .lookupPool queryID dbID =>
    match m.holders.lookup queryID, m.lookupPool dbID with
    | some _, _ => none
    | none, none => some m
    | none, some pool => some { m with holders := m.holders.insert queryID { dbID, pool } }
  | .holder queryID event => do
      let h ← m.holders.lookup queryID
      let (after, registry) ← h.step m.registry queryID event
      some { m with registry := registry, holders := m.holders.insert queryID after }
  | .drainInstance => some { m with registry := m.registry.drain }
  | .cancel => some { m with ctxDone := true }
  | .closePools =>
    if m.ctxDone ∧ ∀ d ∈ m.drains, d.phase = .closed then
      some { m with closed := m.dbPools.entries.map (fun entry => entry.2.pool) ++ m.closed }
    else none

/-- The pool on which an action calls `Exec`, or whose rows it reads. -/
def poolUsed (m : Manager) : PoolAction → Option Nat
  | .holder queryID (.exec _) => (m.holders.lookup queryID).map Holder.pool
  | .holder queryID .next => (m.holders.lookup queryID).map Holder.pool
  | _ => none

/-- `poolDrainTimeout` has not elapsed for the goroutine that polls, and the manager
is not shutting down. -/
def InTime (m : Manager) : PoolAction → Prop
  | .drain k .poll => ∀ d ∈ m.drains[k]?, ∀ deadline ∈ d.phase.deadline?, m.now < deadline
  | .cancel => False
  | _ => True

/-- The condition on a step: when a poll finds no registered query of the database,
no submission that holds the retired pool is still on its way to the registry. -/
def Settled (m : Manager) : PoolAction → Prop
  | .drain k .poll => ∀ d ∈ m.drains[k]?, m.registry.activeForDB d.dbID = 0 →
      ∀ entry ∈ m.holders.entries, entry.2.phase.waiting → entry.2.pool ≠ d.pool
  | _ => True

instance (m : Manager) (action : PoolAction) : Decidable (InTime m action) := by
  unfold InTime
  split <;> infer_instance

instance (m : Manager) (action : PoolAction) : Decidable (Settled m action) := by
  unfold Settled
  split <;> infer_instance

end Manager

/-! ## One step of each goroutine -/

variable {d : PoolDrain} {event : DrainEvent}

/-- A drain keeps its pool; it leaves the loop only by a poll that found nothing to
wait for, or when the manager's context ends. -/
theorem PoolDrain.step_spec {after : PoolDrain} {active : Nat} {now : Time} {ctxDone : Bool}
    (taken : d.step active now ctxDone event = some after) :
    after.dbID = d.dbID ∧ after.pool = d.pool ∧ d.phase ≠ .closed ∧
      (event = .close → after.phase = .closed) ∧
      (after.phase.ended → d.phase.ended ∨ ctxDone = true ∨
        event = .poll ∧ ∃ deadline ∈ d.phase.deadline?, active = 0 ∨ deadline ≤ now) := by
  obtain ⟨dbID, pool, phase⟩ := d
  cases event <;> cases phase <;> simp only [PoolDrain.step, reduceCtorEq] at taken
  case begin.started => cases taken; simp [DrainPhase.ended]
  case poll.polling deadline =>
    split at taken
    · cases taken
      simp [DrainPhase.ended]
    · rename_i idle
      cases taken
      simp only [not_and, not_lt] at idle
      refine ⟨rfl, rfl, by simp, by simp, fun _ => .inr (.inr ⟨rfl, deadline, rfl, ?_⟩)⟩
      rcases Nat.eq_zero_or_pos active with none | some
      · exact .inl none
      · exact .inr (idle some)
  case tick.waiting => cases taken; simp [DrainPhase.ended]
  case interrupt.waiting =>
    cases ctxDone with
    | false => simp at taken
    | true => cases taken; simp
  case close.closing => cases taken; simp [DrainPhase.ended]

variable {registry : Registry} {queryID : String}

/-- A holder keeps its pool, and never takes up its use again. Its entry is in the
registry from the admission to the deregistration. -/
theorem Holder.step_spec {h after : Holder} {next : Registry} {event : HolderEvent}
    (taken : h.step registry queryID event = some (after, next)) :
    after.dbID = h.dbID ∧ after.pool = h.pool ∧ (after.phase.live → h.phase.live) ∧
      (∀ other, other ≠ queryID → next.activeReg.lookup other = registry.activeReg.lookup other) ∧
      (after.phase.registered → next.activeReg.lookup queryID = some ⟨h.dbID⟩ ∨
        h.phase.registered ∧ next = registry) := by
  obtain ⟨dbID, pool, phase⟩ := h
  have erased : ∀ other, other ≠ queryID →
      (registry.deregister queryID).activeReg.lookup other = registry.activeReg.lookup other :=
    fun other ne => AList.lookup_erase_ne ne
  cases event <;> cases phase <;>
    simp only [Holder.step, HolderPhase.waiting, reduceCtorEq, Bool.false_eq_true, if_true,
      if_false] at taken
  case admission.pinged =>
    cases admission : registry.admitQuery queryID dbID with
    | error =>
      rw [admission] at taken
      cases taken
      simp [HolderPhase.live, HolderPhase.waiting, HolderPhase.registered]
    | ok =>
      rw [admission] at taken
      cases taken
      have entered := Registry.admitQuery_activeReg admission
      refine ⟨rfl, rfl, by simp [HolderPhase.live, HolderPhase.waiting], ?_, ?_⟩
      · intro other ne
        rw [entered, AList.lookup_insert_ne ne]
      · exact fun _ => .inl (by rw [entered, AList.lookup_insert])
  case putQuery.admitted ok =>
    cases ok <;> cases taken <;>
      simp_all [HolderPhase.live, HolderPhase.waiting, HolderPhase.registered]
  case deregister.executed =>
    cases taken
    simp_all [HolderPhase.live, HolderPhase.waiting, HolderPhase.registered]
  case ping.resolved ok =>
    cases ok <;> cases taken <;>
      simp [HolderPhase.live, HolderPhase.waiting, HolderPhase.registered]
  case exec.launched ok =>
    cases ok <;> cases taken <;>
      simp [HolderPhase.live, HolderPhase.waiting, HolderPhase.registered]
  all_goals
    cases taken
    simp [HolderPhase.live, HolderPhase.waiting, HolderPhase.registered]

variable {dbID : String} {action : PoolAction}

namespace Manager

/-- A pool has one place: it serves one database, or it is retired. Whoever holds
it knows it under that database's ID, and once its drain has left the loop nobody
uses it. -/
structure Inv (m : Manager) : Prop where
  serving : ∀ id mp, m.dbPools.lookup id = some mp → mp.pool < m.serial
  distinct : ∀ id id' mp mp', m.dbPools.lookup id = some mp → m.dbPools.lookup id' = some mp' →
    mp.pool = mp'.pool → id = id'
  retired : ∀ d ∈ m.drains, d.pool < m.serial ∧
    ∀ id mp, m.dbPools.lookup id = some mp → mp.pool ≠ d.pool
  held : ∀ q h, m.holders.lookup q = some h → h.pool < m.serial ∧
    (∀ id mp, m.dbPools.lookup id = some mp → mp.pool = h.pool → id = h.dbID) ∧
    ∀ d ∈ m.drains, d.pool = h.pool → d.dbID = h.dbID
  registered : ∀ q h, m.holders.lookup q = some h → h.phase.registered →
    m.registry.activeReg.lookup q = some ⟨h.dbID⟩
  idle : ∀ d ∈ m.drains, d.phase.ended → ∀ q h, m.holders.lookup q = some h →
    h.phase.live → h.pool ≠ d.pool
  closed : ∀ pool ∈ m.closed, ∃ d ∈ m.drains, d.pool = pool ∧ d.phase = .closed
  running : m.ctxDone = false

theorem Inv.initial : Inv {} := by
  constructor <;> simp

theorem Inv.syncPools {m : Manager} (inv : Inv m)
    (openPool : DatabaseConfig → Except String Unit) (databases : List DatabaseConfig)
    {after : Manager} (taken : m.step (.syncPools openPool databases) = some after) :
    Inv after := by
  cases Option.some.inj taken
  obtain ⟨grown, next, apart, stale⟩ :=
    syncPools_account openPool databases m.dbPools m.serial inv.serving
  have added : ∀ d ∈ m.drains ++ (Pools.syncPools openPool databases m.dbPools m.serial).stale.map
      (fun retired => ({ dbID := retired.1, pool := retired.2 } : PoolDrain)),
      d ∈ m.drains ∨ d.phase = .started ∧
        (d.dbID, d.pool) ∈ (Pools.syncPools openPool databases m.dbPools m.serial).stale := by
    intro d member
    rcases mem_append.mp member with old | new
    · exact .inl old
    · obtain ⟨_, listed, rfl⟩ := mem_map.mp new
      exact .inr ⟨rfl, listed⟩
  refine ⟨?_, ?_, ?_, ?_, inv.registered, ?_, ?_, inv.running⟩
  · intro id mp found
    rcases next id mp found with old | new
    · exact lt_of_lt_of_le (inv.serving id mp old) grown
    · exact new.2
  · intro id id' mp mp' found found' equal
    rcases next id mp found with old | new
    · rcases next id' mp' found' with old' | new'
      · exact inv.distinct id id' mp mp' old old' equal
      · have before := inv.serving id mp old
        omega
    · exact apart id id' mp mp' found found' new.1 equal
  · intro d member
    rcases added d member with old | ⟨-, listed⟩
    · obtain ⟨below, absent⟩ := inv.retired d old
      refine ⟨lt_of_lt_of_le below grown, fun id mp found => ?_⟩
      rcases next id mp found with kept | new
      · exact absent id mp kept
      · omega
    · obtain ⟨⟨served, lookup, equal⟩, renewed⟩ := stale d.dbID d.pool listed
      have before := inv.serving d.dbID served lookup
      refine ⟨lt_of_lt_of_le (equal ▸ before) grown, fun id mp found same => ?_⟩
      rcases next id mp found with kept | new
      · have place := inv.distinct id d.dbID mp served kept lookup (same.trans equal.symm)
        subst place
        have new := renewed mp found
        omega
      · omega
  · intro q h found
    obtain ⟨below, known, matched⟩ := inv.held q h found
    refine ⟨lt_of_lt_of_le below grown, ?_, ?_⟩
    · intro id mp lookup equal
      rcases next id mp lookup with kept | new
      · exact known id mp kept equal
      · omega
    · intro d member equal
      rcases added d member with old | ⟨-, listed⟩
      · exact matched d old equal
      · obtain ⟨⟨served, lookup, same⟩, -⟩ := stale d.dbID d.pool listed
        exact known d.dbID served lookup (same.trans equal)
  · intro d member ended
    rcases added d member with old | ⟨begun, -⟩
    · exact inv.idle d old ended
    · rw [begun] at ended
      contradiction
  · intro pool member
    obtain ⟨d, old, facts⟩ := inv.closed pool member
    exact ⟨d, mem_append_left _ old, facts⟩

theorem activeForDB_pos (entered : registry.activeReg.lookup queryID = some ⟨dbID⟩) :
    0 < registry.activeForDB dbID := by
  refine length_pos_iff_exists_mem.mpr ⟨⟨queryID, ⟨dbID⟩⟩, ?_⟩
  exact mem_filter.mpr ⟨AList.mem_lookup_iff.mp entered, by simp⟩

/-- A settled poll in time that leaves the loop leaves nobody behind. -/
theorem Inv.poll_idle {m : Manager} (inv : Inv m) {k : Nat} (found : m.drains[k]? = some d)
    (inTime : InTime m (.drain k .poll)) (settled : Settled m (.drain k .poll)) {deadline : Time}
    (due : deadline ∈ d.phase.deadline?)
    (nothing : m.registry.activeForDB d.dbID = 0 ∨ deadline ≤ m.now) :
    ∀ q h, m.holders.lookup q = some h → h.phase.live → h.pool ≠ d.pool := by
  have soon := inTime d found deadline due
  have empty : m.registry.activeForDB d.dbID = 0 := nothing.resolve_right (not_le.mpr soon)
  intro q h lookup live equal
  rcases Bool.or_eq_true_iff.mp live with waiting | registered
  · exact settled d found empty ⟨q, h⟩ (AList.mem_lookup_iff.mp lookup) waiting equal
  · have same := (inv.held q h lookup).2.2 d (mem_of_getElem? found) equal.symm
    have entered := inv.registered q h lookup (Bool.and_eq_true_iff.mp registered).1
    have counted := activeForDB_pos entered
    rw [← same] at counted
    omega

variable {m after : Manager}

theorem Inv.drain (inv : Inv m) {k : Nat} (inTime : InTime m (.drain k event))
    (settled : Settled m (.drain k event)) (taken : m.step (.drain k event) = some after) :
    Inv after := by
  simp only [Manager.step, Option.bind_eq_bind, Option.bind_eq_some_iff] at taken
  obtain ⟨d, found, d', moved, taken⟩ := taken
  cases taken
  obtain ⟨sameDB, samePool, open_, closes, leaves⟩ := PoolDrain.step_spec moved
  have listed := mem_of_getElem? found
  have members : ∀ other ∈ m.drains.set k d', other ∈ m.drains ∨ other = d' :=
    fun other member => mem_or_eq_of_mem_set member
  refine ⟨inv.serving, inv.distinct, ?_, ?_, inv.registered, ?_, ?_, inv.running⟩
  · intro other member
    rcases members other member with old | rfl
    · exact inv.retired other old
    · rw [samePool]
      exact inv.retired d listed
  · intro q h lookup
    obtain ⟨below, known, matched⟩ := inv.held q h lookup
    refine ⟨below, known, fun other member equal => ?_⟩
    rcases members other member with old | rfl
    · exact matched other old equal
    · rw [sameDB]
      exact matched d listed (samePool ▸ equal)
  · intro other member ended
    rcases members other member with old | rfl
    · exact inv.idle other old ended
    · rw [samePool]
      rcases leaves ended with before | cancelled | ⟨rfl, _, due, nothing⟩
      · exact inv.idle d listed before
      · rw [inv.running] at cancelled
        contradiction
      · exact inv.poll_idle found inTime settled due nothing
  · have kept : ∀ pool, (∃ other ∈ m.drains, other.pool = pool ∧ other.phase = .closed) →
        ∃ other ∈ m.drains.set k d', other.pool = pool ∧ other.phase = .closed := by
      rintro pool ⟨other, member, facts⟩
      obtain ⟨i, position⟩ := mem_iff_getElem?.mp member
      have ne : k ≠ i := by
        rintro rfl
        rw [found] at position
        cases position
        exact open_ facts.2
      exact ⟨other, mem_of_getElem? (by rwa [List.getElem?_set_ne ne]), facts⟩
    intro pool member
    by_cases closing : event = .close
    · simp only [closing, if_true, mem_cons] at member
      rcases member with rfl | old
      · have place := (List.getElem?_eq_some_iff.mp found).1
        exact ⟨d', mem_set place d', samePool, closes closing⟩
      · exact kept pool (inv.closed pool old)
    · simp only [closing, if_false] at member
      exact kept pool (inv.closed pool member)

theorem Inv.lookupPool (inv : Inv m) (taken : m.step (.lookupPool queryID dbID) = some after) :
    Inv after := by
  simp only [Manager.step, Manager.lookupPool] at taken
  cases unused : m.holders.lookup queryID with
  | some => simp [unused] at taken
  | none =>
    cases served : m.dbPools.lookup dbID with
    | none =>
      simp only [unused, served, Option.map_none, Option.some.injEq] at taken
      exact taken ▸ inv
    | some mp =>
      simp only [unused, served, Option.map_some, Option.some.injEq] at taken
      subst taken
      refine ⟨inv.serving, inv.distinct, inv.retired, ?_, ?_, ?_, inv.closed, inv.running⟩
      · intro q h found
        rcases Tables.insert_cases found with ⟨rfl, rfl⟩ | ⟨_, found⟩
        · refine ⟨inv.serving dbID mp served, ?_, ?_⟩
          · intro id other lookup equal
            exact inv.distinct id dbID other mp lookup served equal
          · intro d member equal
            exact absurd equal.symm ((inv.retired d member).2 dbID mp served)
        · exact inv.held q h found
      · intro q h found registered
        rcases Tables.insert_cases found with ⟨rfl, rfl⟩ | ⟨_, found⟩
        · contradiction
        · exact inv.registered q h found registered
      · intro d member ended q h found live
        rcases Tables.insert_cases found with ⟨rfl, rfl⟩ | ⟨_, found⟩
        · exact (inv.retired d member).2 dbID mp served
        · exact inv.idle d member ended q h found live

theorem Inv.holder (inv : Inv m) {event : HolderEvent}
    (taken : m.step (.holder queryID event) = some after) : Inv after := by
  simp only [Manager.step, Option.bind_eq_bind, Option.bind_eq_some_iff] at taken
  obtain ⟨h, found, ⟨_, _⟩, moved, taken⟩ := taken
  cases taken
  obtain ⟨sameDB, samePool, alive, frame, entry⟩ := Holder.step_spec moved
  refine ⟨inv.serving, inv.distinct, inv.retired, ?_, ?_, ?_, inv.closed, inv.running⟩
  · intro q other lookup
    rcases Tables.insert_cases lookup with ⟨rfl, rfl⟩ | ⟨_, lookup⟩
    · rw [sameDB, samePool]
      exact inv.held q h found
    · exact inv.held q other lookup
  · intro q other lookup registered
    rcases Tables.insert_cases lookup with ⟨rfl, rfl⟩ | ⟨same, lookup⟩
    · rw [sameDB]
      rcases entry registered with entered | ⟨before, rfl⟩
      · exact entered
      · exact inv.registered q h found before
    · rw [frame q same]
      exact inv.registered q other lookup registered
  · intro d member ended q other lookup live
    rcases Tables.insert_cases lookup with ⟨rfl, rfl⟩ | ⟨_, lookup⟩
    · rw [samePool]
      exact inv.idle d member ended q h found (alive live)
    · exact inv.idle d member ended q other lookup live

theorem Inv.step (inv : Inv m) (inTime : InTime m action) (settled : Settled m action)
    (taken : m.step action = some after) : Inv after := by
  cases action with
  | advance =>
    simp only [Manager.step] at taken
    split at taken <;> cases taken
    exact ⟨inv.serving, inv.distinct, inv.retired, inv.held, inv.registered, inv.idle,
      inv.closed, inv.running⟩
  | syncPools openPool databases => exact inv.syncPools openPool databases taken
  | drain => exact inv.drain inTime settled taken
  | lookupPool => exact inv.lookupPool taken
  | holder => exact inv.holder taken
  | drainInstance =>
    cases Option.some.inj taken
    exact ⟨inv.serving, inv.distinct, inv.retired, inv.held, inv.registered, inv.idle,
      inv.closed, inv.running⟩
  | cancel => exact inTime.elim
  | closePools => simp [Manager.step, inv.running] at taken

theorem holder_of_poolUsed {pool : Nat} (taken : m.step action = some after)
    (uses : m.poolUsed action = some pool) :
    ∃ q h, m.holders.lookup q = some h ∧ h.phase.live ∧ h.pool = pool := by
  cases action with
  | holder queryID event =>
    cases event with
    | exec | next =>
      obtain ⟨h, found, rfl⟩ := Option.map_eq_some_iff.mp uses
      refine ⟨queryID, h, found, ?_, rfl⟩
      simp only [Manager.step, found, Option.bind_eq_bind, Option.bind_some,
        Holder.step] at taken
      cases phase : h.phase <;> simp [phase] at taken
      rfl
    | _ => simp [poolUsed] at uses
  | _ => simp [poolUsed] at uses

/-- In every run whose polls are in time and settled and in which the manager is not
shut down, no query calls `Exec` on, or reads rows from, a pool that was closed. -/
theorem retired_pool_outlives_its_queries (m : Manager)
    (run : Runs.Reaches step (fun m action => InTime m action ∧ Settled m action) {} m)
    (action : PoolAction) (after : Manager) (taken : m.step action = some after) (pool : Nat)
    (uses : m.poolUsed action = some pool) : pool ∉ m.closed := by
  have inv : Inv m := run.invariant Inv Inv.initial fun _ _ _ inv guarded taken =>
    inv.step guarded.1 guarded.2 taken
  obtain ⟨q, h, found, live, rfl⟩ := holder_of_poolUsed taken uses
  intro closed
  obtain ⟨d, member, equal, phase⟩ := inv.closed h.pool closed
  exact inv.idle d member (by rw [phase]; rfl) q h found live equal.symm

def sampleDatabase (dsn : String) : DatabaseConfig where
  id := "db"
  engine := "postgres"
  dsn := dsn

def opensAll (_ : DatabaseConfig) : Except String Unit := .ok ()

def reloadDuringQuery : List PoolAction :=
  [.syncPools opensAll [sampleDatabase "old"], .lookupPool "q" "db",
    .holder "q" (.ping true), .holder "q" .admission, .holder "q" (.putQuery true),
    .syncPools opensAll [sampleDatabase "new"], .drain 0 .begin, .drain 0 .poll,
    .holder "q" (.exec true), .drain 0 .tick, .drain 0 .poll]

/-- A reload replaces the pool between a submission's `Ping` and its admission. -/
def reloadBeforeAdmission : List PoolAction :=
  [.syncPools opensAll [sampleDatabase "old"], .lookupPool "q" "db",
    .holder "q" (.ping true), .syncPools opensAll [sampleDatabase "new"], .drain 0 .begin,
    .drain 0 .poll, .drain 0 .close, .holder "q" .admission, .holder "q" (.putQuery true)]

theorem registered_query_reads_open_pool :
    ∃ m after, Runs.Reaches step (fun m action => InTime m action ∧ Settled m action) {} m ∧
      m.step (.holder "q" .next) = some after ∧ m.drains ≠ [] ∧ 0 ∉ m.closed := by
  obtain ⟨m, reached, after, taken, draining, used⟩ :
      ∃ m, Runs.Reaches step (fun m action => InTime m action ∧ Settled m action) {} m ∧
        ∃ after ∈ m.step (.holder "q" .next), m.drains ≠ [] ∧
          m.poolUsed (.holder "q" .next) = some 0 :=
    Runs.exists_reaches reloadDuringQuery (by decide +kernel)
  exact ⟨m, after, reached, taken, draining,
    retired_pool_outlives_its_queries m reached _ after taken 0 used⟩

/-- The drain saw no query of `db` because the one that holds the pool was not in the
registry yet; `run` then calls `Exec` on the closed pool. -/
theorem exec_on_closed_pool :
    ∃ m after, Runs.Reaches step InTime {} m ∧
      m.step (.holder "q" (.exec true)) = some after ∧
      m.poolUsed (.holder "q" (.exec true)) = some 0 ∧ 0 ∈ m.closed := by
  obtain ⟨m, reached, after, taken, facts⟩ : ∃ m, Runs.Reaches step InTime {} m ∧
      ∃ after ∈ m.step (.holder "q" (.exec true)),
        m.poolUsed (.holder "q" (.exec true)) = some 0 ∧ 0 ∈ m.closed :=
    Runs.exists_reaches reloadBeforeAdmission (by decide +kernel)
  exact ⟨m, after, reached, taken, facts⟩

end Manager

end DbBridge.Pools
