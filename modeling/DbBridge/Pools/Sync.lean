import DbBridge.Config.Validate
import DbBridge.State.Memory

/-!
# Connection pools and `syncPools`

A pool object is named by the serial number of the `OpenPool` call that returned
it. `reloadMu` serializes `syncPools`, and `dbPools` changes only where it swaps
the map, so the function is modelled as computed at the swap.
-/

namespace DbBridge.Pools

open Settings State List AList

structure ManagedPool where
  pool : Nat
  cfg : DatabaseConfig

def samePoolConfig (a b : DatabaseConfig) : Bool :=
  a.engine = b.engine && a.dsn = b.dsn && a.maxConns = b.maxConns

structure Sync where
  current : Table ManagedPool
  next : Table ManagedPool := ∅
  stale : List (String × Nat) := []
  errs : List String := []
  serial : Nat

namespace Sync

def openDatabase (openPool : DatabaseConfig → Except String Unit) (loop : Sync)
    (dbCfg : DatabaseConfig) (existing : Option ManagedPool) : Sync :=
  match openPool dbCfg, existing with
  | .error e, none => { loop with errs := loop.errs ++ ["database " ++ dbCfg.id ++ ": " ++ e] }
  -- the previous pool goes on serving when its replacement could not be opened
  | .error e, some mp =>
    { loop with
      errs := loop.errs ++ ["database " ++ dbCfg.id ++ ": " ++ e]
      next := loop.next.insert dbCfg.id mp }
  | .ok (), none =>
    { loop with
      next := loop.next.insert dbCfg.id ⟨loop.serial, dbCfg⟩
      serial := loop.serial + 1 }
  | .ok (), some mp =>
    { loop with
      next := loop.next.insert dbCfg.id ⟨loop.serial, dbCfg⟩
      serial := loop.serial + 1
      stale := loop.stale ++ [(dbCfg.id, mp.pool)] }

def visit (openPool : DatabaseConfig → Except String Unit) (loop : Sync)
    (dbCfg : DatabaseConfig) : Sync :=
  match loop.current.lookup dbCfg.id with
  | none => loop.openDatabase openPool dbCfg none
  | some mp =>
    let rest := { loop with current := loop.current.erase dbCfg.id }
    if samePoolConfig mp.cfg dbCfg then { rest with next := rest.next.insert dbCfg.id mp }
    else rest.openDatabase openPool dbCfg (some mp)

/-- Whatever is left in `current` was removed from the configuration. -/
def retireRest (loop : Sync) : Sync :=
  { loop with stale := loop.stale ++ loop.current.entries.map fun entry =>
      (entry.1, entry.2.pool) }

end Sync

/-- `syncPools` over the configured databases, from the pools now serving. -/
def syncPools (openPool : DatabaseConfig → Except String Unit)
    (databases : List DatabaseConfig) (dbPools : Table ManagedPool) (serial : Nat) : Sync :=
  (databases.foldl (Sync.visit openPool) { current := dbPools, serial }).retireRest

/-! ## What becomes of a pool -/

variable {mp : ManagedPool} {id : String}

section
variable (dbPools : Table ManagedPool) (start : Nat)

/-- What holds of the locals in every round: `start` is the serial number at the
beginning, so that from there on a pool is new. -/
structure Sync.Sound (loop : Sync) : Prop where
  grown : start ≤ loop.serial
  current : ∀ id mp, loop.current.lookup id = some mp → dbPools.lookup id = some mp
  next : ∀ id mp, loop.next.lookup id = some mp →
    (dbPools.lookup id = some mp ∧ loop.current.lookup id = none) ∨
      (start ≤ mp.pool ∧ mp.pool < loop.serial)
  apart : ∀ id id' mp mp', loop.next.lookup id = some mp → loop.next.lookup id' = some mp' →
    start ≤ mp.pool → mp.pool = mp'.pool → id = id'
  stale : ∀ id pool, (id, pool) ∈ loop.stale →
    (∃ mp, dbPools.lookup id = some mp ∧ mp.pool = pool) ∧ loop.current.lookup id = none ∧
      ∀ mp, loop.next.lookup id = some mp → start ≤ mp.pool

variable {dbPools start} {loop : Sync}

section
variable (sound : Sync.Sound dbPools start loop)
include sound

theorem Sync.Sound.erase (id : String) :
    Sync.Sound dbPools start { loop with current := loop.current.erase id } := by
  have absent : ∀ other, loop.current.lookup other = none →
      (loop.current.erase id).lookup other = none := by
    intro other missing
    by_cases same : other = id
    · subst same
      exact lookup_erase _ _
    · rwa [lookup_erase_ne same]
  refine ⟨sound.grown, ?_, ?_, sound.apart, ?_⟩
  · intro other mp found
    have ne : other ≠ id := by
      rintro rfl
      simp [lookup_erase] at found
    exact sound.current other mp (by rwa [lookup_erase_ne ne] at found)
  · intro other mp found
    exact (sound.next other mp found).imp_left fun old => ⟨old.1, absent other old.2⟩
  · intro other pool member
    obtain ⟨served, missing, renewed⟩ := sound.stale other pool member
    exact ⟨served, absent other missing, renewed⟩

section
variable (old : ∀ id mp, dbPools.lookup id = some mp → mp.pool < start)
include old

theorem Sync.Sound.keep (found : loop.current.lookup id = some mp) : Sync.Sound dbPools start
      { loop with current := loop.current.erase id, next := loop.next.insert id mp } := by
  have erased := sound.erase id
  have served := sound.current id mp found
  refine ⟨erased.grown, erased.current, ?_, ?_, ?_⟩
  · intro other kept lookup
    rcases Tables.insert_cases lookup with ⟨rfl, rfl⟩ | ⟨_, lookup⟩
    · exact .inl ⟨served, lookup_erase _ _⟩
    · exact erased.next other kept lookup
  · intro first second mp₁ mp₂ lookup₁ lookup₂ new equal
    have before := old id mp served
    rcases Tables.insert_cases lookup₁ with ⟨rfl, rfl⟩ | ⟨_, lookup₁⟩
    · omega
    · rcases Tables.insert_cases lookup₂ with ⟨rfl, rfl⟩ | ⟨_, lookup₂⟩
      · omega
      · exact sound.apart first second mp₁ mp₂ lookup₁ lookup₂ new equal
  · intro other pool member
    obtain ⟨owned, missing, renewed⟩ := erased.stale other pool member
    refine ⟨owned, missing, fun kept lookup => ?_⟩
    have ne : other ≠ id := by
      rintro rfl
      simp [(sound.stale other pool member).2.1] at found
    rw [lookup_insert_ne ne] at lookup
    exact renewed kept lookup

theorem Sync.Sound.open (dbCfg : DatabaseConfig) : Sync.Sound dbPools start
      { loop with
        next := loop.next.insert dbCfg.id ⟨loop.serial, dbCfg⟩
        serial := loop.serial + 1 } := by
  have grown := sound.grown
  have below : ∀ id mp, loop.next.lookup id = some mp → mp.pool < loop.serial := by
    intro id mp found
    rcases sound.next id mp found with served | new
    · exact lt_of_lt_of_le (old id mp served.1) grown
    · exact new.2
  refine ⟨Nat.le_succ_of_le grown, sound.current, ?_, ?_, ?_⟩
  · intro id mp found
    rcases Tables.insert_cases found with ⟨rfl, rfl⟩ | ⟨_, found⟩
    · exact .inr ⟨grown, Nat.lt_succ_self _⟩
    · exact (sound.next id mp found).imp_right fun new => ⟨new.1, Nat.lt_succ_of_lt new.2⟩
  · intro first second mp₁ mp₂ lookup₁ lookup₂ new equal
    rcases Tables.insert_cases lookup₁ with ⟨rfl, rfl⟩ | ⟨_, lookup₁⟩ <;>
      rcases Tables.insert_cases lookup₂ with ⟨rfl, rfl⟩ | ⟨_, lookup₂⟩
    · rfl
    · have bound := below second mp₂ lookup₂
      simp only at equal
      omega
    · have bound := below first mp₁ lookup₁
      simp only at equal
      omega
    · exact sound.apart first second mp₁ mp₂ lookup₁ lookup₂ new equal
  · intro id pool member
    obtain ⟨owned, missing, renewed⟩ := sound.stale id pool member
    refine ⟨owned, missing, fun mp found => ?_⟩
    rcases Tables.insert_cases found with ⟨rfl, rfl⟩ | ⟨_, found⟩
    · exact grown
    · exact renewed mp found

end

theorem Sync.Sound.retire (served : dbPools.lookup id = some mp)
    (missing : loop.current.lookup id = none)
    (renewed : ∀ new, loop.next.lookup id = some new → start ≤ new.pool) :
    Sync.Sound dbPools start { loop with stale := loop.stale ++ [(id, mp.pool)] } := by
  refine ⟨sound.grown, sound.current, sound.next, sound.apart, ?_⟩
  intro other pool member
  rcases mem_append.mp member with member | member
  · exact sound.stale other pool member
  · simp only [mem_singleton, Prod.mk.injEq] at member
    obtain ⟨rfl, rfl⟩ := member
    exact ⟨⟨mp, served, rfl⟩, missing, renewed⟩

theorem Sync.Sound.visit (old : ∀ id mp, dbPools.lookup id = some mp → mp.pool < start)
    (openPool : DatabaseConfig → Except String Unit) (dbCfg : DatabaseConfig) :
    Sync.Sound dbPools start (loop.visit openPool dbCfg) := by
  unfold Sync.visit
  cases found : loop.current.lookup dbCfg.id with
  | none =>
    simp only [Sync.openDatabase]
    cases openPool dbCfg with
    | error => exact ⟨sound.grown, sound.current, sound.next, sound.apart, sound.stale⟩
    | ok => exact sound.open old dbCfg
  | some mp =>
    have kept := sound.keep old found
    simp only [Sync.openDatabase]
    split
    · exact kept
    · cases openPool dbCfg with
      | error => exact ⟨kept.grown, kept.current, kept.next, kept.apart, kept.stale⟩
      | ok =>
        refine ((sound.erase dbCfg.id).open old dbCfg).retire
          (sound.current dbCfg.id mp found) (lookup_erase _ _) ?_
        intro new lookup
        simp only [lookup_insert, Option.some.injEq] at lookup
        subst lookup
        exact sound.grown

end

end

/-- The account of one `syncPools` call: a pool in the new map was serving before
or has just been opened, no two databases share a new pool, and a retired pool was
serving and has no place in the new map. -/
theorem syncPools_account (openPool : DatabaseConfig → Except String Unit)
    (databases : List DatabaseConfig) (dbPools : Table ManagedPool) (serial : Nat)
    (old : ∀ id mp, dbPools.lookup id = some mp → mp.pool < serial) :
    let synced := syncPools openPool databases dbPools serial
    serial ≤ synced.serial ∧
    (∀ id mp, synced.next.lookup id = some mp →
      dbPools.lookup id = some mp ∨ (serial ≤ mp.pool ∧ mp.pool < synced.serial)) ∧
    (∀ id id' mp mp', synced.next.lookup id = some mp → synced.next.lookup id' = some mp' →
      serial ≤ mp.pool → mp.pool = mp'.pool → id = id') ∧
    ∀ id pool, (id, pool) ∈ synced.stale →
      (∃ mp, dbPools.lookup id = some mp ∧ mp.pool = pool) ∧
        ∀ mp, synced.next.lookup id = some mp → serial ≤ mp.pool := by
  have start : Sync.Sound dbPools serial { current := dbPools, serial } :=
    ⟨le_rfl, fun _ _ found => found, by simp, by simp, by simp⟩
  have sound := foldlRecOn databases (Sync.visit openPool) start
    fun loop sound dbCfg _ => sound.visit old openPool dbCfg
  refine ⟨sound.grown, fun id mp found => (sound.next id mp found).imp_left And.left,
    sound.apart, ?_⟩
  intro id pool member
  rcases mem_append.mp member with member | member
  · obtain ⟨served, -, renewed⟩ := sound.stale id pool member
    exact ⟨served, renewed⟩
  · obtain ⟨⟨name, mp⟩, entry, equal⟩ := mem_map.mp member
    simp only [Prod.mk.injEq] at equal
    obtain ⟨rfl, rfl⟩ := equal
    have left := mem_lookup_iff.mpr entry
    refine ⟨⟨mp, sound.current name mp left, rfl⟩, fun new found => ?_⟩
    rcases sound.next name new found with served | new
    · rw [served.2] at left
      contradiction
    · exact new.1

/-! ## What becomes of a database -/

section
variable (openPool : DatabaseConfig → Except String Unit)

/-- What one call does for a configured database: its pool before and after the call,
where the call numbers the pools it opens from `first` up to `last`. -/
inductive Sync.Outcome (dbCfg : DatabaseConfig) (first last : Nat) :
    Option ManagedPool → Option ManagedPool → Prop
  | kept (mp : ManagedPool) (same : samePoolConfig mp.cfg dbCfg = true) :
      Outcome dbCfg first last (some mp) (some mp)
  | opened (before : Option ManagedPool) (pool : Nat)
      (differs : ∀ mp ∈ before, samePoolConfig mp.cfg dbCfg = false)
      (success : openPool dbCfg = .ok ()) (new : first ≤ pool ∧ pool < last) :
      Outcome dbCfg first last before (some ⟨pool, dbCfg⟩)
  | failed (before : Option ManagedPool) (e : String)
      (differs : ∀ mp ∈ before, samePoolConfig mp.cfg dbCfg = false)
      (failure : openPool dbCfg = .error e) : Outcome dbCfg first last before before

variable {openPool}

theorem Sync.Outcome.widen {dbCfg : DatabaseConfig} {first last first' last' : Nat}
    {before after : Option ManagedPool}
    (outcome : Sync.Outcome openPool dbCfg first last before after) (lower : first' ≤ first)
    (upper : last ≤ last') : Sync.Outcome openPool dbCfg first' last' before after := by
  cases outcome with
  | kept mp same => exact .kept mp same
  | opened before pool differs success =>
    exact .opened before pool differs success ⟨by omega, by omega⟩
  | failed before e differs failure => exact .failed before e differs failure

variable {loop : Sync} (dbCfg : DatabaseConfig)

theorem Sync.visit_serial : loop.serial ≤ (loop.visit openPool dbCfg).serial := by
  have opening : ∀ (other : Sync) (existing : Option ManagedPool),
      other.serial ≤ (other.openDatabase openPool dbCfg existing).serial := by
    intro other existing
    unfold Sync.openDatabase
    cases openPool dbCfg <;> cases existing <;> simp
  unfold Sync.visit
  cases loop.current.lookup dbCfg.id with
  | none => exact opening loop none
  | some mp =>
    simp only
    split
    · exact le_rfl
    · exact opening { loop with current := loop.current.erase dbCfg.id } (some mp)

theorem Sync.visit_current (id : String) :
    (loop.visit openPool dbCfg).current.lookup id =
      if id = dbCfg.id then none else loop.current.lookup id := by
  have erased : (loop.current.erase dbCfg.id).lookup id =
      if id = dbCfg.id then none else loop.current.lookup id := by
    split
    · rename_i same
      rw [same, lookup_erase]
    · rename_i other
      exact lookup_erase_ne other
  unfold Sync.visit
  cases found : loop.current.lookup dbCfg.id with
  | none =>
    have unchanged : (loop.openDatabase openPool dbCfg none).current = loop.current := by
      unfold Sync.openDatabase
      cases openPool dbCfg <;> rfl
    simp only [unchanged]
    split
    · rename_i same
      rw [same, found]
    · rfl
  | some =>
    simp only [Sync.openDatabase]
    split
    · exact erased
    · cases openPool dbCfg <;> exact erased

theorem Sync.visit_next_ne (other : id ≠ dbCfg.id) :
    (loop.visit openPool dbCfg).next.lookup id = loop.next.lookup id := by
  unfold Sync.visit Sync.openDatabase
  cases loop.current.lookup dbCfg.id with
  | none => cases openPool dbCfg <;> simp [lookup_insert_ne other]
  | some =>
    simp only
    split
    · exact lookup_insert_ne other
    · cases openPool dbCfg <;> exact lookup_insert_ne other

theorem Sync.visit_outcome (fresh : loop.next.lookup dbCfg.id = none) :
    Sync.Outcome openPool dbCfg loop.serial (loop.visit openPool dbCfg).serial
      (loop.current.lookup dbCfg.id) ((loop.visit openPool dbCfg).next.lookup dbCfg.id) := by
  unfold Sync.visit
  cases loop.current.lookup dbCfg.id with
  | none =>
    simp only [Sync.openDatabase]
    cases result : openPool dbCfg with
    | error e =>
      simp only [fresh]
      exact .failed none e (by simp) result
    | ok =>
      simp only [lookup_insert]
      exact .opened none loop.serial (by simp) result ⟨le_rfl, Nat.lt_succ_self _⟩
  | some mp =>
    simp only [Sync.openDatabase]
    split
    · rename_i same
      simp only [lookup_insert]
      exact .kept mp same
    · rename_i differs
      have differs : ∀ old ∈ some mp, samePoolConfig old.cfg dbCfg = false := by
        intro old found
        cases found
        simpa using differs
      cases result : openPool dbCfg with
      | error e =>
        simp only [lookup_insert]
        exact .failed (some mp) e differs result
      | ok =>
        simp only [lookup_insert]
        exact .opened (some mp) loop.serial differs result ⟨le_rfl, Nat.lt_succ_self _⟩

variable (databases : List DatabaseConfig)

theorem Sync.visits_serial : loop.serial ≤ (databases.foldl (Sync.visit openPool) loop).serial := by
  induction databases generalizing loop with
  | nil => exact le_rfl
  | cons dbCfg _ ih => exact le_trans (Sync.visit_serial dbCfg) ih

theorem Sync.visits_next_absent (absent : id ∉ databases.map DatabaseConfig.id) :
    (databases.foldl (Sync.visit openPool) loop).next.lookup id = loop.next.lookup id := by
  induction databases generalizing loop with
  | nil => rfl
  | cons dbCfg _ ih =>
    simp only [map_cons, mem_cons, not_or] at absent
    rw [foldl_cons, ih absent.2]
    exact Sync.visit_next_ne dbCfg absent.1

theorem Sync.visits_outcome (unique : (databases.map DatabaseConfig.id).Nodup)
    (fresh : ∀ dbCfg ∈ databases, loop.next.lookup dbCfg.id = none) (dbCfg : DatabaseConfig)
    (configured : dbCfg ∈ databases) :
    Sync.Outcome openPool dbCfg loop.serial
      (databases.foldl (Sync.visit openPool) loop).serial (loop.current.lookup dbCfg.id)
      ((databases.foldl (Sync.visit openPool) loop).next.lookup dbCfg.id) := by
  induction databases generalizing loop with
  | nil => simp at configured
  | cons head rest ih =>
    simp only [map_cons, nodup_cons] at unique
    rw [foldl_cons]
    have otherIDs : ∀ later ∈ rest, later.id ≠ head.id := by
      intro later member same
      exact unique.1 (same ▸ mem_map_of_mem member)
    rcases mem_cons.mp configured with rfl | later
    -- the rounds that follow are about other IDs
    · rw [Sync.visits_next_absent rest unique.1]
      exact (Sync.visit_outcome dbCfg (fresh dbCfg (by simp))).widen le_rfl
        (Sync.visits_serial rest)
    · have unseen : ∀ later ∈ rest, (loop.visit openPool head).next.lookup later.id = none := by
        intro later member
        rw [Sync.visit_next_ne head (otherIDs later member)]
        exact fresh later (by simp [member])
      have outcome := ih unique.2 unseen later
      rw [Sync.visit_current, if_neg (otherIDs dbCfg later)] at outcome
      exact outcome.widen (Sync.visit_serial head) le_rfl

end

section
variable (openPool : DatabaseConfig → Except String Unit) (databases : List DatabaseConfig)
  (dbPools : Table ManagedPool) (serial : Nat)
include openPool databases dbPools serial

/-- The pool of a configured database after a call, given unique IDs. -/
theorem syncPools_outcome (unique : (databases.map DatabaseConfig.id).Nodup)
    (dbCfg : DatabaseConfig) (configured : dbCfg ∈ databases) :
    Sync.Outcome openPool dbCfg serial (syncPools openPool databases dbPools serial).serial
      (dbPools.lookup dbCfg.id)
      ((syncPools openPool databases dbPools serial).next.lookup dbCfg.id) :=
  @Sync.visits_outcome openPool { current := dbPools, serial } databases unique
    (fun _ _ => lookup_empty _) dbCfg configured

theorem syncPools_next_absent (absent : id ∉ databases.map DatabaseConfig.id) :
    (syncPools openPool databases dbPools serial).next.lookup id = none :=
  @Sync.visits_next_absent id openPool { current := dbPools, serial } databases absent

end

end DbBridge.Pools
