import DbBridge.Config.Diff
import DbBridge.Config.Reload
import DbBridge.Pools.Conservation

/-!
# What a reload reports

`QueryManager.Reload` compares two configurations for its report, while `syncPools`
compares the new configuration with the pools that serve. Calls are executed one
after another. Reading and decoding the file is a parameter of a call.
-/

namespace DbBridge.Pools

open Settings State Runs

structure ReloadReport where
  added : List String := []
  removed : List String := []
  updated : List String := []
  ignored : List String := []
  failures : List String := []

def ReloadReport.names (report : ReloadReport) (id : String) : Prop :=
  id ∈ report.added ∨ id ∈ report.updated ∨ id ∈ report.removed

instance (report : ReloadReport) (id : String) : Decidable (report.names id) :=
  inferInstanceAs (Decidable (id ∈ report.added ∨ id ∈ report.updated ∨ id ∈ report.removed))

structure Serving where
  cfg : Config
  dbPools : Table ManagedPool := ∅
  serial : Nat := 0

/-- A call of `Reload`: what reading and decoding the file gave, and how `OpenPool`
answers during the call. -/
structure ReloadCall where
  decoded : Except String Config
  openPool : DatabaseConfig → Except String Unit

variable {s : Serving}

namespace Serving

def sync (s : Serving) (openPool : DatabaseConfig → Except String Unit) : Sync :=
  syncPools openPool s.cfg.databases s.dbPools s.serial

def synced (s : Serving) (openPool : DatabaseConfig → Except String Unit) : Serving :=
  { s with dbPools := (s.sync openPool).next, serial := (s.sync openPool).serial }

/-- `NewQueryManager`; databases whose pool does not open are only logged. -/
def start (cfg : Config) (openPool : DatabaseConfig → Except String Unit) : Serving :=
  ({ cfg } : Serving).synced openPool

def load (call : ReloadCall) : Except String Config := do
  let given ← call.decoded
  labelled "config validation failed" (validate given)

/-- `Reload`: the report, the error and the state after the call. -/
def reload (s : Serving) (call : ReloadCall) : ReloadReport × Option String × Serving :=
  match load call with
  | .error err => ({}, some err, s)
  | .ok newCfg =>
    let diff := diffDatabases (some s.cfg) (some newCfg)
    let report : ReloadReport := {
      added := dbIDs diff.added
      removed := dbIDs diff.removed
      updated := dbIDs diff.updated
      ignored := nonReloadableChanges (some s.cfg) (some newCfg) }
    let next : Serving := { s with cfg := newCfg }
    match (next.sync call.openPool).errs with
    | [] => (report, none, next.synced call.openPool)
    | errs =>
      let err := "\n".intercalate errs
      ({ report with failures := err.splitOn "\n" }, some err, next.synced call.openPool)

def step (s : Serving) (call : ReloadCall) : Option Serving :=
  some (s.reload call).2.2

def Changed (before after : Serving) (id : String) : Prop :=
  (before.dbPools.lookup id).map ManagedPool.pool ≠ (after.dbPools.lookup id).map ManagedPool.pool

instance (before after : Serving) (id : String) : Decidable (Changed before after id) :=
  inferInstanceAs (Decidable ((before.dbPools.lookup id).map ManagedPool.pool ≠
    (after.dbPools.lookup id).map ManagedPool.pool))

/-- The call opens a pool for a database whose configuration it does not change: the
pool that serves it, if any, was opened for another one. -/
def OpensUnchanged (s : Serving) (newCfg : Config) (call : ReloadCall) : Prop :=
  ∃ dbCfg ∈ newCfg.databases,
    (∃ old ∈ s.cfg.databases, old.id = dbCfg.id ∧ samePoolConfig old dbCfg = true) ∧
    (∀ mp, s.dbPools.lookup dbCfg.id = some mp → samePoolConfig mp.cfg dbCfg = false) ∧
    call.openPool dbCfg = .ok ()

/-! ## Reachable states -/

structure Sound (s : Serving) : Prop where
  unique : (dbIDs s.cfg.databases).Nodup
  configured : ∀ id, id ∈ s.dbPools → id ∈ dbIDs s.cfg.databases
  below : ∀ id mp, s.dbPools.lookup id = some mp → mp.pool < s.serial

theorem synced_sound (s : Serving) (openPool : DatabaseConfig → Except String Unit)
    (unique : (dbIDs s.cfg.databases).Nodup)
    (below : ∀ id mp, s.dbPools.lookup id = some mp → mp.pool < s.serial) :
    Sound (s.synced openPool) := by
  obtain ⟨grown, next, -⟩ := syncPools_account openPool s.cfg.databases s.dbPools s.serial below
  refine ⟨unique, ?_, ?_⟩
  · intro id member
    obtain ⟨_, configured, rfl, -⟩ :=
      (syncPools_keys openPool s.cfg.databases s.dbPools s.serial unique id).mp member
    exact List.mem_map_of_mem configured
  · intro id mp found
    rcases next id mp found with old | new
    · exact lt_of_lt_of_le (below id mp old) grown
    · exact new.2

variable {call : ReloadCall} {newCfg : Config}

section
variable (loaded : load call = .ok newCfg)
include loaded

theorem load_accepted : Accepted newCfg := by
  unfold load at loaded
  cases given : call.decoded with
  | error =>
    rw [given] at loaded
    contradiction
  | ok given_ =>
    refine ⟨given_, ?_⟩
    rw [given] at loaded
    cases valid : validate given_ with
    | error => simp [bind, Except.bind, valid, labelled, Except.mapError] at loaded
    | ok =>
      simp only [bind, Except.bind, valid, labelled, Except.mapError, Except.ok.injEq] at loaded
      rw [loaded]

theorem reload_after :
    (s.reload call).2.2 = ({ s with cfg := newCfg } : Serving).synced call.openPool := by
  unfold reload
  rw [loaded]
  simp only
  split <;> rfl

theorem reload_report :
    (s.reload call).1.added = dbIDs (diffDatabases (some s.cfg) (some newCfg)).added ∧
    (s.reload call).1.updated = dbIDs (diffDatabases (some s.cfg) (some newCfg)).updated ∧
    (s.reload call).1.removed = dbIDs (diffDatabases (some s.cfg) (some newCfg)).removed := by
  unfold reload
  rw [loaded]
  simp only
  split <;> exact ⟨rfl, rfl, rfl⟩

end

theorem reload_rejected {err : String} (rejected : load call = .error err) :
    (s.reload call).2.2 = s := by
  unfold reload
  rw [rejected]

theorem Sound.reload (sound : Sound s) (call : ReloadCall) : Sound (s.reload call).2.2 := by
  cases loaded : load call with
  | error =>
    rw [reload_rejected loaded]
    exact sound
  | ok newCfg =>
    rw [reload_after loaded]
    exact synced_sound { s with cfg := newCfg } call.openPool (load_accepted loaded).unique
      sound.below

theorem Sound.of_run {cfg : Config} (accepted : Accepted cfg)
    {openPool : DatabaseConfig → Except String Unit}
    (run : Reaches Serving.step Always (start cfg openPool) s) : Sound s := by
  apply run.invariant Sound
  · exact synced_sound { cfg } openPool accepted.unique (by simp)
  · intro before call after sound _ taken
    cases Option.some.inj taken
    exact sound.reload call

/-! ## The report -/

theorem poolFieldsDiffer_eq (oldDb db : DatabaseConfig) :
    poolFieldsDiffer oldDb db = !samePoolConfig oldDb db := by
  unfold poolFieldsDiffer samePoolConfig
  simp [Bool.not_and]

section

section
variable (sound : Sound s) (loaded : load call = .ok newCfg)
include sound loaded

theorem Sound.names_iff (id : String) :
    (s.reload call).1.names id ↔
      (id ∉ dbIDs s.cfg.databases ∧ id ∈ dbIDs newCfg.databases) ∨
      (∃ oldDb ∈ s.cfg.databases, ∃ db ∈ newCfg.databases, oldDb.id = id ∧ db.id = id ∧
        poolFieldsDiffer oldDb db = true) ∨
      (id ∈ dbIDs s.cfg.databases ∧ id ∉ dbIDs newCfg.databases) := by
  have newUnique := (load_accepted loaded).unique
  obtain ⟨added, updated, removed⟩ := @reload_report s call newCfg loaded
  unfold ReloadReport.names
  rw [added, updated, removed, mem_added_iff sound.unique newUnique,
    mem_updated_iff sound.unique newUnique, mem_removed_iff sound.unique newUnique]

theorem Sound.names_of_changed (aligned : ¬ OpensUnchanged s newCfg call) {id : String}
    (changed : Changed s (s.reload call).2.2 id) : (s.reload call).1.names id := by
  have newUnique := (load_accepted loaded).unique
  rw [sound.names_iff loaded]
  rw [reload_after loaded] at changed
  by_cases configured : id ∈ dbIDs newCfg.databases
  · obtain ⟨dbCfg, member, rfl⟩ := List.mem_map.mp configured
    have outcome := syncPools_outcome call.openPool newCfg.databases s.dbPools s.serial newUnique
      dbCfg member
    simp only [Changed, synced, sync] at changed
    generalize (syncPools call.openPool newCfg.databases s.dbPools s.serial).next.lookup
      dbCfg.id = after at outcome changed
    generalize prior : s.dbPools.lookup dbCfg.id = before at outcome changed
    cases outcome with
    | kept | failed => exact absurd rfl changed
    | opened _ _ differs success =>
      by_cases known : dbCfg.id ∈ dbIDs s.cfg.databases
      · obtain ⟨old, oldMember, same⟩ := List.mem_map.mp known
        refine .inr (.inl ⟨old, oldMember, dbCfg, member, same, rfl, ?_⟩)
        rw [poolFieldsDiffer_eq, Bool.not_eq_true']
        by_contra unchanged
        apply aligned
        refine ⟨dbCfg, member, ⟨old, oldMember, same, by simpa using unchanged⟩, ?_, success⟩
        intro mp found
        exact differs mp (prior.symm.trans found)
      · exact .inl ⟨known, configured⟩
  · have absent := syncPools_next_absent call.openPool newCfg.databases s.dbPools s.serial
      configured
    refine .inr (.inr ⟨sound.configured id ?_, configured⟩)
    rw [← AList.lookup_isSome]
    simp only [Changed, synced, sync, absent, Option.map_none, ne_eq, Option.map_eq_none_iff]
      at changed
    exact Option.isSome_iff_ne_none.mpr changed

theorem Sound.unreported_of_opensUnchanged (opens : OpensUnchanged s newCfg call) :
    ∃ id, Changed s (s.reload call).2.2 id ∧ ¬ (s.reload call).1.names id := by
  have newUnique := (load_accepted loaded).unique
  obtain ⟨dbCfg, member, ⟨old, oldMember, same, unchanged⟩, differs, success⟩ := opens
  refine ⟨dbCfg.id, ?_, ?_⟩
  · rw [reload_after loaded]
    have outcome := syncPools_outcome call.openPool newCfg.databases s.dbPools s.serial newUnique
      dbCfg member
    simp only [Changed, synced, sync]
    generalize (syncPools call.openPool newCfg.databases s.dbPools s.serial).next.lookup
      dbCfg.id = after at outcome
    generalize prior : s.dbPools.lookup dbCfg.id = before at outcome differs
    cases outcome with
    | kept mp same_ =>
      rw [differs mp rfl] at same_
      contradiction
    | failed _ _ _ failure =>
      rw [success] at failure
      contradiction
    | opened before pool _ _ new =>
      -- the new pool has a number that no serving pool has
      cases before with
      | none => simp
      | some mp =>
        have older := sound.below dbCfg.id mp prior
        simp only [Option.map_some, ne_eq, Option.some.injEq]
        omega
  · rw [sound.names_iff loaded]
    rintro (⟨unknown, -⟩ | ⟨oldDb, oldDbMember, db, dbMember, oldSame, dbSame, differ⟩ |
      ⟨-, gone⟩)
    · exact unknown (same ▸ List.mem_map_of_mem oldMember)
    · have oldEqual : oldDb = old :=
        List.inj_on_of_nodup_map sound.unique oldDbMember oldMember (oldSame.trans same.symm)
      have equal : db = dbCfg := List.inj_on_of_nodup_map newUnique dbMember member dbSame
      rw [oldEqual, equal, poolFieldsDiffer_eq, unchanged] at differ
      contradiction
    · exact gone (List.mem_map_of_mem member)

end

end

/-- After any sequence of reloads, a reload names every database whose pool it changes
exactly when it opens no pool for a database whose configuration it leaves as it was. -/
theorem reload_names_every_change_iff (first : Config) (accepted : Accepted first)
    (openFirst : DatabaseConfig → Except String Unit) (s : Serving)
    (run : Reaches step Always (start first openFirst) s) (call : ReloadCall)
    (newCfg : Config) (loaded : load call = .ok newCfg) :
    (∀ id, Changed s (s.reload call).2.2 id → (s.reload call).1.names id) ↔
      ¬ OpensUnchanged s newCfg call := by
  have sound := Sound.of_run accepted run
  constructor
  · intro named opens
    obtain ⟨id, changed, unnamed⟩ := sound.unreported_of_opensUnchanged loaded opens
    exact unnamed (named id changed)
  · intro aligned id changed
    exact sound.names_of_changed loaded aligned changed

def sampleFile (dsn : String) : Config :=
  { inst := { id := "a", metaStore := "memory" },
    databases := [Manager.sampleDatabase dsn] }

def sampleReload (dsn reachable : String) : ReloadCall where
  decoded := .ok (sampleFile dsn)
  openPool := Manager.opensOnly reachable

theorem sampleFile_accepted (dsn : String)
    (valid : (validate (sampleFile dsn)).toOption = some (withDefaults (sampleFile dsn))) :
    validate (sampleFile dsn) = .ok (withDefaults (sampleFile dsn)) := by
  cases result : validate (sampleFile dsn) with
  | error => simp [result, Except.toOption] at valid
  | ok => simpa [result, Except.toOption] using valid

theorem load_sampleReload (dsn reachable : String)
    (valid : (validate (sampleFile dsn)).toOption = some (withDefaults (sampleFile dsn))) :
    load (sampleReload dsn reachable) = .ok (withDefaults (sampleFile dsn)) := by
  simp only [load, sampleReload, labelled, bind, Except.bind, sampleFile_accepted dsn valid]
  rfl

def sampleStart : Serving :=
  start (withDefaults (sampleFile "old")) (Manager.opensOnly "old")

theorem replaced_pool_named :
    ∃ s call, Reaches step Always sampleStart s ∧
      Changed s (s.reload call).2.2 "db" ∧ (s.reload call).1.names "db" := by
  have accepted : Accepted (withDefaults (sampleFile "old")) :=
    ⟨sampleFile "old", sampleFile_accepted "old" (by decide +kernel)⟩
  have loaded := load_sampleReload "new" "new" (by decide +kernel)
  have changed : Changed sampleStart (sampleStart.reload (sampleReload "new" "new")).2.2 "db" := by
    decide +kernel
  have started : Reaches step Always sampleStart sampleStart :=
    Reaches.refl sampleStart
  refine ⟨sampleStart, sampleReload "new" "new", started, changed, ?_⟩
  refine (reload_names_every_change_iff _ accepted _ sampleStart started _ _ loaded).mpr ?_
    "db" changed
  rintro ⟨_, member, ⟨old, oldMember, -, unchanged⟩, -⟩
  cases List.mem_singleton.mp member
  cases List.mem_singleton.mp oldMember
  exact absurd unchanged (by decide)

/-- The new data source cannot be reached at first: the second reload of the same file
replaces the pool and reports nothing. -/
theorem retried_pool_unreported :
    ∃ s call newCfg, Accepted (withDefaults (sampleFile "old")) ∧
      Reaches step Always sampleStart s ∧ load call = .ok newCfg ∧
      Changed s (s.reload call).2.2 "db" ∧ ¬ (s.reload call).1.names "db" := by
  have loaded := load_sampleReload "new" "new" (by decide +kernel)
  refine ⟨(sampleStart.reload (sampleReload "new" "old")).2.2, sampleReload "new" "new", _,
    ⟨sampleFile "old", sampleFile_accepted "old" (by decide +kernel)⟩, ?_, loaded, ?_, ?_⟩
  · have taken : step sampleStart (sampleReload "new" "old") = some _ := rfl
    exact (Reaches.refl sampleStart).snoc trivial taken
  · decide +kernel
  · decide +kernel

end Serving

end DbBridge.Pools
