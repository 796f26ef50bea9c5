import Mathlib.Algebra.BigOperators.Group.List.Basic
import DbBridge.Pools.Retirement

/-!
# Conservation of pools

Every pool that `OpenPool` returned has one place: it serves a database, or it was
handed to `closePoolWhenIdle` and waits there, or it is closed. The account is kept as
a permutation of the serial numbers given out so far, so that a pool can be neither
lost nor closed twice.
-/

namespace DbBridge.Pools

open Domain Settings State List

def serving (dbPools : Table ManagedPool) : List Nat :=
  dbPools.entries.map fun entry => entry.2.pool

def numbered (first last : Nat) : List Nat :=
  List.range' first (last - first)

@[simp] theorem numbered_self (first : Nat) : numbered first first = [] := by
  simp [numbered]

@[simp] theorem numbered_succ (first : Nat) : numbered first (first + 1) = [first] := by
  simp [numbered]

theorem numbered_append {first middle last : Nat} (lower : first ≤ middle) (upper : middle ≤ last) :
    numbered first middle ++ numbered middle last = numbered first last := by
  unfold numbered
  have start : middle = first + (middle - first) := by omega
  have total : last - first = (middle - first) + (last - middle) := by omega
  rw [total, ← range'_append_1, ← start]

/-! ## One call of `syncPools` -/

theorem serving_insert {dbPools : Table ManagedPool} {id : String} (mp : ManagedPool)
    (absent : dbPools.lookup id = none) :
    serving (dbPools.insert id mp) = mp.pool :: serving dbPools := by
  unfold serving
  rw [AList.entries_insert_of_notMem (AList.lookup_eq_none.mp absent)]
  rfl

variable {mp : ManagedPool}

theorem serving_erase {dbPools : Table ManagedPool} {id : String}
    (found : dbPools.lookup id = some mp) :
    (serving dbPools).Perm (mp.pool :: serving (dbPools.erase id)) := by
  have listed : id ∈ dbPools.entries.keys :=
    AList.mem_keys.mp (AList.lookup_isSome.mp (by rw [found]; rfl))
  obtain ⟨other, front, back, -, whole, rest⟩ := exists_of_kerase listed
  have entry : (⟨id, other⟩ : Sigma fun _ : String => ManagedPool) ∈ dbPools.entries := by
    rw [whole]
    simp
  have same : other = mp := by
    have lookup := AList.mem_lookup_iff.mpr entry
    rw [found] at lookup
    exact (Option.some.inj lookup).symm
  subst same
  have erased : (dbPools.erase id).entries = front ++ back := rest
  unfold serving
  rw [erased, whole, map_append, map_cons, map_append]
  exact perm_middle

def Sync.held (loop : Sync) : List Nat :=
  serving loop.next ++ loop.stale.map Prod.snd ++ serving loop.current

theorem Sync.visit_held {loop : Sync} (openPool : DatabaseConfig → Except String Unit)
    (dbCfg : DatabaseConfig) (fresh : loop.next.lookup dbCfg.id = none) :
    (loop.visit openPool dbCfg).held.Perm
      (loop.held ++ numbered loop.serial (loop.visit openPool dbCfg).serial) := by
  rw [perm_iff_count]
  intro pool
  unfold Sync.visit
  cases found : loop.current.lookup dbCfg.id with
  | none =>
    simp only [Sync.openDatabase]
    cases openPool dbCfg with
    | error => simp [Sync.held]
    | ok =>
      simp only [Sync.held, serving_insert _ fresh, numbered_succ,
        count_append, count_cons, count_nil]
      omega
  | some mp =>
    have taken := (serving_erase found).count_eq pool
    rw [count_cons] at taken
    simp only [Sync.openDatabase]
    split
    · simp only [Sync.held, serving_insert mp fresh, numbered_self, append_nil,
        count_append, count_cons]
      omega
    · cases openPool dbCfg with
      | error =>
        simp only [Sync.held, serving_insert mp fresh, numbered_self, append_nil,
          count_append, count_cons]
        omega
      | ok =>
        simp only [Sync.held, serving_insert _ fresh, numbered_succ,
          map_append, map_cons, map_nil,
          count_append, count_cons, count_nil]
        omega

theorem Sync.visits_held {loop : Sync} (openPool : DatabaseConfig → Except String Unit)
    (databases : List DatabaseConfig) (unique : (databases.map DatabaseConfig.id).Nodup)
    (fresh : ∀ dbCfg ∈ databases, loop.next.lookup dbCfg.id = none) :
    (databases.foldl (Sync.visit openPool) loop).held.Perm
      (loop.held ++ numbered loop.serial
        (databases.foldl (Sync.visit openPool) loop).serial) := by
  induction databases generalizing loop with
  | nil => simp
  | cons dbCfg rest ih =>
    simp only [map_cons, nodup_cons] at unique
    rw [foldl_cons]
    have unseen : ∀ later ∈ rest, (loop.visit openPool dbCfg).next.lookup later.id = none := by
      intro later member
      have other : later.id ≠ dbCfg.id := by
        intro same
        exact unique.1 (same ▸ mem_map_of_mem member)
      rw [Sync.visit_next_ne dbCfg other]
      exact fresh later (by simp [member])
    have first := Sync.visit_held openPool dbCfg (fresh dbCfg (by simp))
    have lower := @Sync.visit_serial openPool loop dbCfg
    have upper := @Sync.visits_serial openPool (loop.visit openPool dbCfg) rest
    rw [← numbered_append lower upper, ← append_assoc]
    exact (ih unique.2 unseen).trans (first.append_right _)

section
variable (openPool : DatabaseConfig → Except String Unit) (databases : List DatabaseConfig)
  (dbPools : Table ManagedPool) (serial : Nat)
include openPool databases dbPools serial

/-- A call neither loses nor doubles a pool: what serves or is retired after it served
before it, or is one of the pools it opened. -/
theorem syncPools_conserved (unique : (databases.map DatabaseConfig.id).Nodup) :
    let synced := syncPools openPool databases dbPools serial
    (serving synced.next ++ synced.stale.map Prod.snd).Perm
      (serving dbPools ++ numbered serial synced.serial) := by
  have conserved := @Sync.visits_held { current := dbPools, serial } openPool databases unique
    (fun _ _ => AList.lookup_empty _)
  have remaining : ∀ loop : Sync,
      serving loop.retireRest.next ++ loop.retireRest.stale.map Prod.snd = loop.held := by
    intro loop
    simp only [Sync.retireRest, Sync.held, serving, map_append, map_map,
      append_assoc]
    rfl
  rw [← remaining] at conserved
  exact conserved

theorem syncPools_serial : serial ≤ (syncPools openPool databases dbPools serial).serial :=
  @Sync.visits_serial openPool { current := dbPools, serial } databases

theorem syncPools_keys (unique : (databases.map DatabaseConfig.id).Nodup) (id : String) :
    id ∈ (syncPools openPool databases dbPools serial).next ↔
      ∃ dbCfg ∈ databases, dbCfg.id = id ∧ ¬ (id ∉ dbPools ∧ ∃ e, openPool dbCfg = .error e) := by
  rw [← AList.lookup_isSome]
  constructor
  · intro found
    by_cases absent : id ∈ databases.map DatabaseConfig.id
    · obtain ⟨dbCfg, configured, rfl⟩ := mem_map.mp absent
      refine ⟨dbCfg, configured, rfl, ?_⟩
      rintro ⟨missing, e, failure⟩
      have outcome := syncPools_outcome openPool databases dbPools serial unique dbCfg configured
      rw [AList.lookup_eq_none.mpr missing] at outcome
      generalize (syncPools openPool databases dbPools serial).next.lookup dbCfg.id = after
        at outcome found
      cases outcome with
      | opened _ _ _ success =>
        rw [success] at failure
        contradiction
      | failed => simp at found
    · rw [syncPools_next_absent openPool databases dbPools serial absent] at found
      simp at found
  · rintro ⟨dbCfg, configured, rfl, opens⟩
    have outcome := syncPools_outcome openPool databases dbPools serial unique dbCfg configured
    generalize (syncPools openPool databases dbPools serial).next.lookup dbCfg.id = after
      at outcome
    generalize prior : dbPools.lookup dbCfg.id = before at outcome
    cases outcome with
    | kept | opened => rfl
    | failed _ e _ failure =>
      cases after with
      | some => rfl
      | none => exact absurd ⟨AList.lookup_eq_none.mp prior, e, failure⟩ opens

section
variable {dbCfg : DatabaseConfig} (unique : (databases.map DatabaseConfig.id).Nodup)
  (configured : dbCfg ∈ databases) (found : dbPools.lookup dbCfg.id = some mp)
include unique configured found

theorem syncPools_keeps (failure : ∃ e, openPool dbCfg = .error e) :
    (syncPools openPool databases dbPools serial).next.lookup dbCfg.id = some mp := by
  have outcome := syncPools_outcome openPool databases dbPools serial unique dbCfg configured
  obtain ⟨e, failure⟩ := failure
  rw [found] at outcome
  generalize (syncPools openPool databases dbPools serial).next.lookup dbCfg.id = after at outcome
  cases outcome with
  | opened _ _ _ success =>
    rw [success] at failure
    contradiction
  | kept | failed => rfl

theorem syncPools_opens (differs : samePoolConfig mp.cfg dbCfg = false)
    (success : openPool dbCfg = .ok ()) : ∃ pool, serial ≤ pool ∧
      (syncPools openPool databases dbPools serial).next.lookup dbCfg.id = some ⟨pool, dbCfg⟩ := by
  have outcome := syncPools_outcome openPool databases dbPools serial unique dbCfg configured
  rw [found] at outcome
  generalize (syncPools openPool databases dbPools serial).next.lookup dbCfg.id = after at outcome
  cases outcome with
  | kept _ same =>
    rw [differs] at same
    contradiction
  | opened _ pool _ _ new => exact ⟨pool, new.1, rfl⟩
  | failed _ _ _ failure =>
    rw [success] at failure
    contradiction

end

end

/-! ## Runs of the instance -/

variable {event : DrainEvent}

namespace Manager

inductive Place where
  | serving
  | retired
  | closed

def InPlace (m : Manager) (pool : Nat) : Place → Prop
  | .serving => pool ∈ Pools.serving m.dbPools
  | .retired => ∃ d ∈ m.drains, d.pool = pool ∧ d.phase ≠ .closed
  | .closed => pool ∈ m.closed

/-- Reloads over unique IDs, up to the last loop of `Close`. -/
def Reloading (_ : Manager) : PoolAction → Prop
  | .syncPools _ databases => (databases.map DatabaseConfig.id).Nodup
  | .closePools => False
  | _ => True

def Closing (_ : Manager) : PoolAction → Prop
  | .drain _ _ => True
  | .cancel => True
  | _ => False

def isClosed (d : PoolDrain) : Bool :=
  d.phase = .closed

/-- The account: each serial number given out so far serves or was retired, once, and
the closed pools are those whose goroutine has ended. -/
structure Conserved (m : Manager) : Prop where
  account : (Pools.serving m.dbPools ++ m.drains.map PoolDrain.pool).Perm (numbered 0 m.serial)
  closed : m.closed.Perm ((m.drains.filter isClosed).map PoolDrain.pool)

theorem Conserved.initial : Conserved {} := by
  constructor <;> simp [Pools.serving, numbered]

variable {m after : Manager}

theorem Conserved.syncPools (conserved : Conserved m)
    {openPool : DatabaseConfig → Except String Unit} {databases : List DatabaseConfig}
    (unique : (databases.map DatabaseConfig.id).Nodup)
    (taken : m.step (.syncPools openPool databases) = some after) : Conserved after := by
  cases Option.some.inj taken
  have call := syncPools_conserved openPool databases m.dbPools m.serial unique
  have grown := syncPools_serial openPool databases m.dbPools m.serial
  constructor
  · rw [perm_iff_count]
    intro pool
    have before := conserved.account.count_eq pool
    have moved := call.count_eq pool
    have names : ∀ stale : List (String × Nat), (stale.map fun retired =>
        ({ dbID := retired.1, pool := retired.2 } : PoolDrain)).map PoolDrain.pool =
          stale.map Prod.snd := by
      intro stale
      rw [map_map]
      rfl
    simp only [← numbered_append (Nat.zero_le _) grown, map_append, names,
      count_append] at before moved ⊢
    omega
  · have begun : ∀ stale : List (String × Nat), (stale.map fun retired =>
        ({ dbID := retired.1, pool := retired.2 } : PoolDrain)).filter isClosed = [] := by
      intro stale
      rw [filter_eq_nil_iff]
      intro d member
      obtain ⟨retired, -, rfl⟩ := mem_map.mp member
      simp [isClosed]
    simp only [filter_append, begun, append_nil]
    exact conserved.closed

theorem step_isClosed {d after : PoolDrain} {active : Nat} {now : Time} {ctxDone : Bool}
    (taken : d.step active now ctxDone event = some after) :
    isClosed d = false ∧ isClosed after = decide (event = .close) := by
  obtain ⟨_, _, phase⟩ := d
  cases event <;> cases phase <;> simp only [PoolDrain.step, reduceCtorEq] at taken
  case poll.polling deadline =>
    split at taken <;> cases taken <;> simp [isClosed]
  case interrupt.waiting =>
    cases ctxDone with
    | false => simp at taken
    | true => cases taken; simp [isClosed]
  all_goals
    cases taken
    simp [isClosed]

theorem Conserved.drain (conserved : Conserved m) {k : Nat}
    (taken : m.step (.drain k event) = some after) : Conserved after := by
  simp only [Manager.step, Option.bind_eq_bind, Option.bind_eq_some_iff] at taken
  obtain ⟨_, found, d', moved, taken⟩ := taken
  cases taken
  obtain ⟨-, samePool, -⟩ := PoolDrain.step_spec moved
  obtain ⟨openBefore, closedAfter⟩ := step_isClosed moved
  obtain ⟨bound, rfl⟩ := List.getElem?_eq_some_iff.mp found
  have old := (List.getElem_cons_eraseIdx_perm bound).symm
  have new := set_perm_cons_eraseIdx bound d'
  constructor
  · rw [perm_iff_count]
    intro pool
    have before := conserved.account.count_eq pool
    have oldPools := (old.map PoolDrain.pool).count_eq pool
    have newPools := (new.map PoolDrain.pool).count_eq pool
    simp only [map_cons, samePool, count_append] at before oldPools newPools ⊢
    omega
  · have others := conserved.closed.trans ((old.filter isClosed).map PoolDrain.pool)
    refine Perm.trans ?_ ((new.filter isClosed).map PoolDrain.pool).symm
    simp only [filter_cons, openBefore, closedAfter, Bool.false_eq_true, if_false,
      decide_eq_true_eq] at others ⊢
    by_cases close : event = .close
    · simp only [close, if_true, map_cons, samePool]
      exact others.cons _
    · simp only [close, if_false]
      exact others

theorem Conserved.step {action : PoolAction} (conserved : Conserved m)
    (reloading : Reloading m action) (taken : m.step action = some after) : Conserved after := by
  cases action with
  | advance =>
    simp only [Manager.step] at taken
    split at taken <;> cases taken
    exact ⟨conserved.account, conserved.closed⟩
  | syncPools => exact conserved.syncPools reloading taken
  | drain => exact conserved.drain taken
  | lookupPool =>
    simp only [Manager.step] at taken
    split at taken
    · contradiction
    · cases taken
      exact conserved
    · cases taken
      exact ⟨conserved.account, conserved.closed⟩
  | holder =>
    simp only [Manager.step, Option.bind_eq_bind, Option.bind_eq_some_iff] at taken
    obtain ⟨_, -, _, -, taken⟩ := taken
    cases taken
    exact ⟨conserved.account, conserved.closed⟩
  | drainInstance | cancel =>
    cases Option.some.inj taken
    exact ⟨conserved.account, conserved.closed⟩
  | closePools => exact reloading.elim

theorem Conserved.of_run {m : Manager} (run : Runs.Reaches Manager.step Reloading {} m) :
    Conserved m :=
  run.invariant Conserved Conserved.initial fun _ _ _ conserved reloading taken =>
    conserved.step reloading taken

section

section
variable (conserved : Conserved m)
include conserved

theorem Conserved.nodup : (Pools.serving m.dbPools ++ m.drains.map PoolDrain.pool).Nodup :=
  conserved.account.nodup_iff.mpr nodup_range'

theorem Conserved.closed_iff (pool : Nat) :
    pool ∈ m.closed ↔ ∃ d ∈ m.drains, d.pool = pool ∧ d.phase = .closed := by
  rw [conserved.closed.mem_iff, mem_map]
  constructor
  · rintro ⟨d, member, rfl⟩
    obtain ⟨listed, phase⟩ := mem_filter.mp member
    exact ⟨d, listed, rfl, of_decide_eq_true phase⟩
  · rintro ⟨d, listed, rfl, phase⟩
    exact ⟨d, mem_filter.mpr ⟨listed, decide_eq_true phase⟩, rfl⟩

theorem Conserved.place {pool : Nat} (opened : pool < m.serial) :
    ∃! place, m.InPlace pool place := by
  obtain ⟨-, drainsNodup, apart⟩ := nodup_append.mp conserved.nodup
  have listed : pool ∈ Pools.serving m.dbPools ++ m.drains.map PoolDrain.pool := by
    rw [conserved.account.mem_iff, numbered, mem_range'_1]
    omega
  have notBoth : pool ∈ Pools.serving m.dbPools → ∀ d ∈ m.drains, d.pool ≠ pool := by
    intro serves d member same
    exact apart pool serves d.pool (mem_map_of_mem member) same.symm
  rcases mem_append.mp listed with serves | retired
  · refine ⟨.serving, serves, ?_⟩
    intro place holds
    cases place with
    | serving => rfl
    | retired =>
      obtain ⟨d, member, same, -⟩ := holds
      exact absurd same (notBoth serves d member)
    | closed =>
      obtain ⟨d, member, same, -⟩ := (conserved.closed_iff pool).mp holds
      exact absurd same (notBoth serves d member)
  · obtain ⟨d, member, rfl⟩ := mem_map.mp retired
    have only : ∀ other ∈ m.drains, other.pool = d.pool → other = d := by
      intro other otherMember same
      exact inj_on_of_nodup_map drainsNodup otherMember member same
    by_cases closed : d.phase = .closed
    · refine ⟨.closed, (conserved.closed_iff d.pool).mpr ⟨d, member, rfl, closed⟩, ?_⟩
      intro place holds
      cases place with
      | serving => exact absurd rfl (notBoth holds d member)
      | retired =>
        obtain ⟨other, otherMember, same, unfinished⟩ := holds
        rw [only other otherMember same] at unfinished
        exact absurd closed unfinished
      | closed => rfl
    · refine ⟨.retired, ⟨d, member, rfl, closed⟩, ?_⟩
      intro place holds
      cases place with
      | serving => exact absurd rfl (notBoth holds d member)
      | retired => rfl
      | closed =>
        obtain ⟨other, otherMember, same, finished⟩ := (conserved.closed_iff d.pool).mp holds
        rw [only other otherMember same] at finished
        exact absurd finished closed

/-- The last loop of `Close` leaves every pool closed, once. -/
theorem Conserved.closePools (taken : m.step .closePools = some after) :
    after.serial = m.serial ∧ after.closed.Perm (numbered 0 m.serial) := by
  simp only [Manager.step] at taken
  split at taken <;> cases taken
  rename_i finished
  refine ⟨rfl, Perm.trans ?_ conserved.account⟩
  have all : m.drains.filter isClosed = m.drains := by
    rw [filter_eq_self]
    intro d member
    exact decide_eq_true (finished.2 d member)
  have closed := conserved.closed
  rw [all] at closed
  exact closed.append_left _

end

end

/-! ## `Close` comes to an end -/

/-- How many steps the goroutine of a retired pool has left once the manager's context
is done. -/
def remaining (d : PoolDrain) : Nat :=
  match d.phase with
  | .started => 4
  | .polling _ => 3
  | .waiting _ => 2
  | .closing => 1
  | .closed => 0

theorem drain_progress (d : PoolDrain) (active : Nat) (now : Time) (open_ : d.phase ≠ .closed) :
    ∃ event after, d.step active now true event = some after ∧ remaining after < remaining d := by
  obtain ⟨_, _, phase⟩ := d
  cases phase with
  | started => exact ⟨.begin, _, rfl, by simp [remaining]⟩
  | polling deadline =>
    by_cases waits : 0 < active ∧ now < deadline
    · exact ⟨.poll, _, if_pos waits, by simp [remaining]⟩
    · exact ⟨.poll, _, if_neg waits, by simp [remaining]⟩
  | waiting => exact ⟨.interrupt, _, rfl, by simp [remaining]⟩
  | closing => exact ⟨.close, _, rfl, by simp [remaining]⟩
  | closed => exact absurd rfl open_

/-- Once the context is cancelled, the goroutines that `Close` waits for can all end. -/
theorem close_ends (m : Manager) : ∃ last, Runs.Reaches step Closing m last ∧
    (last.step .closePools).isSome = true := by
  let goal (m : Manager) : Prop := (m.step .closePools).isSome = true
  let left (m : Manager) : Nat := (m.drains.map remaining).sum + if m.ctxDone then 0 else 1
  refine Runs.reaches_of_measure (fun _ => True) goal left ?_ m trivial
  intro m _ unfinished
  by_cases done : m.ctxDone
  · have waiting : ∃ d ∈ m.drains, d.phase ≠ .closed := by
      by_contra ended
      simp only [not_exists, not_and, not_not] at ended
      have enabled : m.ctxDone = true ∧ ∀ d ∈ m.drains, d.phase = .closed := ⟨done, ended⟩
      exact unfinished (by simp only [goal, Manager.step, if_pos enabled, Option.isSome_some])
    obtain ⟨d, member, open_⟩ := waiting
    obtain ⟨k, bound, rfl⟩ := List.getElem_of_mem member
    obtain ⟨event, after, taken, _⟩ :=
      drain_progress m.drains[k] (m.registry.activeForDB m.drains[k].dbID) m.now open_
    let next : Manager := { m with
      drains := m.drains.set k after
      closed := if event = .close then m.drains[k].pool :: m.closed else m.closed }
    refine ⟨.drain k event, next, trivial, ?_, trivial, .inr ?_⟩
    · simp [Manager.step, bound, done, taken, next]
    · have old := ((List.getElem_cons_eraseIdx_perm bound).map remaining).sum_eq
      have new := ((set_perm_cons_eraseIdx bound after).map remaining).sum_eq
      simp only [map_cons, sum_cons] at old new
      simp only [left, next, done, if_true]
      omega
  · refine ⟨.cancel, { m with ctxDone := true }, trivial, rfl, trivial, .inr ?_⟩
    simp [left, done]

/-- Over any number of reloads every pool that was opened serves, is retired or is
closed, and no two of these. A database whose replacement could not be opened keeps
its pool together with the configuration that pool was opened for, so that the next
call that can open it does; the databases with a pool are the configured ones except
those that had none and got none. `Close` can end, and then every pool is closed
exactly once. -/
theorem pools_conserved_across_reloads (m : Manager) (run : Runs.Reaches step Reloading {} m) :
    (∀ pool < m.serial, ∃! place, m.InPlace pool place) ∧
    (∀ (openPool : DatabaseConfig → Except String Unit) (databases : List DatabaseConfig),
      (databases.map DatabaseConfig.id).Nodup →
      let synced := syncPools openPool databases m.dbPools m.serial
      (∀ id, id ∈ synced.next ↔ ∃ dbCfg ∈ databases, dbCfg.id = id ∧
        ¬ (id ∉ m.dbPools ∧ ∃ e, openPool dbCfg = .error e)) ∧
      ∀ dbCfg ∈ databases, ∀ mp, m.dbPools.lookup dbCfg.id = some mp →
        samePoolConfig mp.cfg dbCfg = false → (∃ e, openPool dbCfg = .error e) →
        synced.next.lookup dbCfg.id = some mp ∧
        ∀ (openNext : DatabaseConfig → Except String Unit) (databases' : List DatabaseConfig),
          (databases'.map DatabaseConfig.id).Nodup → dbCfg ∈ databases' →
          openNext dbCfg = .ok () → ∃ pool, synced.serial ≤ pool ∧
            (syncPools openNext databases' synced.next synced.serial).next.lookup dbCfg.id =
              some ⟨pool, dbCfg⟩) ∧
    (∃ last, Runs.Reaches step Closing m last ∧ (last.step .closePools).isSome = true) ∧
    ∀ last after, Runs.Reaches step Closing m last → last.step .closePools = some after →
      after.closed.Perm (range after.serial) := by
  have conserved := Conserved.of_run run
  refine ⟨fun pool opened => conserved.place opened, ?_, close_ends m, ?_⟩
  · intro openPool databases unique synced
    refine ⟨syncPools_keys openPool databases m.dbPools m.serial unique, ?_⟩
    intro dbCfg configured mp found differs failure
    have kept := syncPools_keeps openPool databases m.dbPools m.serial unique configured found
      failure
    refine ⟨kept, ?_⟩
    intro openNext databases' unique' configured' success
    exact syncPools_opens openNext databases' synced.next synced.serial unique' configured' kept
      differs success
  · intro last after closing taken
    have reloading : Runs.Reaches step Reloading m last := by
      apply closing.mono
      intro state action allowed
      cases action <;> simp_all [Closing, Reloading]
    obtain ⟨sameSerial, closed⟩ := (Conserved.of_run (run.trans reloading)).closePools taken
    rw [sameSerial, range_eq_range']
    exact closed

def opensOnly (dsn : String) (dbCfg : DatabaseConfig) : Except String Unit :=
  if dbCfg.dsn = dsn then .ok () else .error "connection refused"

instance (m : Manager) (action : PoolAction) : Decidable (Reloading m action) := by
  unfold Reloading
  split <;> infer_instance

/-- A reload that fails to open the new pool, one that succeeds, and the shutdown. -/
def failedThenReplaced : List PoolAction :=
  [.syncPools (opensOnly "old") [sampleDatabase "old"],
    .syncPools (opensOnly "old") [sampleDatabase "new"],
    .syncPools (opensOnly "new") [sampleDatabase "new"], .drain 0 .begin, .drain 0 .poll,
    .drain 0 .close, .cancel]

theorem replaced_pool_closed_once :
    ∃ m after, Runs.Reaches step Reloading {} m ∧ m.serial = 2 ∧
      m.step .closePools = some after ∧ after.closed.Perm (range after.serial) := by
  obtain ⟨m, reached, serial, after, taken, _⟩ : ∃ m, Runs.Reaches step Reloading {} m ∧
      m.serial = 2 ∧ ∃ after ∈ m.step .closePools, True :=
    Runs.exists_reaches failedThenReplaced (by decide +kernel)
  obtain ⟨-, -, -, closed⟩ := pools_conserved_across_reloads m reached
  exact ⟨m, after, reached, serial, taken, closed m after (Runs.Reaches.refl m) taken⟩

end Manager

end DbBridge.Pools
