import DbBridge.Cluster.Provenance
import DbBridge.Cluster.Registry
import DbBridge.Redis.Effects

/-!
# Records that expire

On Redis the key of a record has an expiry, which every write of the record sets anew and
a heartbeat does not touch. `Expiring` adds the expiries to a deployment: after each step
the records whose keys have expired are gone.
-/

namespace DbBridge.State.MetaStore

open Domain

def without (queries : Table QueryRecord) (gone : String → Bool) : Table QueryRecord :=
  ⟨queries.entries.filter fun entry => !gone entry.1,
    queries.nodupKeys.sublist List.filter_sublist⟩

theorem without_lookup (queries : Table QueryRecord) (gone : String → Bool) (id : String) :
    (without queries gone).lookup id = if gone id then none else queries.lookup id := by
  apply Option.ext
  intro record
  have left : (without queries gone).lookup id = some record ↔
      gone id = false ∧ queries.lookup id = some record := by
    simp only [← Option.mem_def, AList.mem_lookup_iff]
    simp [without, and_comm]
  rw [left]
  cases gone id <;> simp

def expire (m : MetaStore) (gone : String → Bool) : MetaStore :=
  { m with
    queries := without m.queries gone
    keyed := by
      intro id record found
      rw [without_lookup] at found
      split at found
      · contradiction
      · exact m.keyed id record found
    logged := by
      intro id record found
      rw [without_lookup] at found
      split at found
      · contradiction
      · exact m.logged id record found }

theorem expire_has (m : MetaStore) (gone : String → Bool) (id : String) :
    (m.expire gone).has id = (!gone id && m.has id) := by
  simp only [has, expire, without_lookup]
  cases gone id <;> simp

end DbBridge.State.MetaStore

namespace DbBridge.Cluster

open Domain State Settings

/-! ## Deployments on Redis -/

/-- A deployment with the instants at which the keys of records expire. -/
structure Expiring where
  base : Deployment
  expiry : String → Option Time

namespace Expiring

def initial (now : Time) : Expiring := ⟨.initial now, fun _ => none⟩

def lasts (now : Time) (expiry : Option Time) : Bool := expiry.all fun instant => now < instant

def written (now : Time) (m : MetaStore) (expiry : Option Time) (record : QueryRecord) :
    Option Time :=
  match Redis.setExpire (Redis.expiration record) with
  | .never => none
  | .keep => if m.has record.id then expiry else none
  | .after ttl => some (now + ttl)

/-- The expiry of a key when `m` has become `after`; every write of a record shows in its
journal. -/
def renewed (now : Time) (m after : MetaStore) (expiry : Option Time) (id : String) :
    Option Time :=
  if after.journal id = m.journal id then expiry
  else (after.queries.lookup id).bind (written now m expiry)

def expiries (d after : Deployment) (expiry : String → Option Time) (id : String) :
    Option Time :=
  renewed d.now d.store after.store (expiry id) id

def step (env : Env) (s : Expiring) (action : Action) : Option Expiring :=
  (s.base.step env action).map fun after =>
    let expiry := expiries s.base after s.expiry
    { base := { after with
        store := after.store.expire fun id => !lasts after.now (expiry id) }
      expiry }

end Expiring

/-! ## Before the first write -/

def SubmitPhase.unwritten : SubmitPhase → Bool
  | .acquire | .lookup _ | .reclaim _ | .reacquire | .relookup _ | .ping | .slot | .admitting
  | .put _ => true
  | _ => false

variable {m : MetaStore}

theorem submitStep_unwritten {now : Time} {p : Process} {s : Submission} {reply : Reply}
    {out : SubmitOutcome} (taken : submitStep now m p s reply = some out)
    (early : out.phase.unwritten = true) :
    s.phase.unwritten = true ∧ ∀ record, s.phase ≠ .put record := by
  cases submitStep_move taken with
  | found _ phase | foundAgain _ phase | missing _ phase | reclaimed _ phase | pinged phase
  | seated _ _ phase | admitted _ _ phase => simp [phase, SubmitPhase.unwritten]
  | claimed phase => rcases phase with phase | phase <;> simp [phase, SubmitPhase.unwritten]
  | launched _ _ _ _ continues => rcases continues with rfl | rfl <;> contradiction
  | _ => contradiction

variable {record : QueryRecord}

namespace Deployment

/-- As long as the submission of a query has not called `PutQuery`, nothing was ever stored for
the query, and no collector has a record of it in hand. -/
def Unwritten (queryID : String) (d : Deployment) : Prop :=
  (∀ s, d.subs queryID = some s → s.phase.unwritten = true) →
    d.store.journal queryID = [] ∧
      ∀ pid p record, d.procs pid = some p → p.gc.hand? = some record → record.id ≠ queryID

section
variable {env : Env} {d after : Deployment} {action : Action} {queryID : String}

theorem no_record_of_journal (empty : d.store.journal queryID = []) :
    d.store.queries.lookup queryID = none := by
  cases lookup : d.store.queries.lookup queryID with
  | none => rfl
  | some record =>
    have logged := d.store.logged queryID record lookup
    rw [empty] at logged
    contradiction

section
variable (unwritten : Unwritten queryID d)
include unwritten

theorem Unwritten.known (lookup : d.store.queries.lookup queryID = some record) :
    ∃ s, d.subs queryID = some s := by
  cases sub : d.subs queryID with
  | some s => exact ⟨s, rfl⟩
  | none =>
    have missing := no_record_of_journal (unwritten fun s known => by simp [sub] at known).1
    rw [missing] at lookup
    contradiction

theorem Unwritten.stores (shape : Shape d)
    (early : ∀ s, d.subs queryID = some s → s.phase.unwritten = true)
    (stores : Stores d action record) (own : record.id = queryID) :
    ∃ reply s, action = .submission queryID reply ∧ d.subs queryID = some s ∧
      s.phase = .put record ∧ record.state = .pending := by
  subst own
  obtain ⟨empty, hands⟩ := unwritten early
  have missing := no_record_of_journal empty
  have idle : d.runs record.id = none := by
    cases executed : d.runs record.id with
    | none => rfl
    | some run =>
      obtain ⟨_, s, sub, _, past⟩ := shape.run record.id run executed
      have late : s.phase.unwritten = false := by
        revert past
        cases s.phase <;> simp [SubmitPhase.past, SubmitPhase.unwritten]
      rw [early s sub] at late
      contradiction
  cases stores with
  | admitted reply s _ sub phase _ pending => exact ⟨reply, s, rfl, sub, phase, pending⟩
  | begun _ _ _ _ executed | progressed _ _ _ _ executed | ended _ _ _ _ executed =>
    rw [idle] at executed
    contradiction
  | reaped _ _ _ _ _ _ _ _ _ lookup =>
    rw [missing] at lookup
    contradiction
  | marked pid _ p _ _ found phase =>
    exact absurd rfl (hands pid p record found (by rw [phase]; rfl))

theorem Unwritten.step (shape : Shape d) (move : Move env d action after) :
    Unwritten queryID after := by
  intro early
  have before : ∀ s, d.subs queryID = some s → s.phase.unwritten = true ∧
      ∀ reply, action = .submission queryID reply → ∀ record, s.phase ≠ .put record := by
    intro s sub
    rcases move.sub_next shape sub with ⟨same, other⟩ | ⟨_, p, _, _, taken, moved, _⟩
    · exact ⟨early s same, fun reply is => absurd is (other reply)⟩
    · have facts := submitStep_unwritten taken (early _ moved)
      exact ⟨facts.1, fun _ _ => facts.2⟩
  have sooner := fun s sub => (before s sub).1
  obtain ⟨empty, hands⟩ := unwritten sooner
  constructor
  · rcases move.journal shape queryID with same | ⟨record, own, stores, _⟩
    · rw [same, empty]
    · obtain ⟨reply, s, is, sub, phase, _⟩ := unwritten.stores shape sooner stores own
      exact absurd phase ((before s sub).2 reply is record)
  · rintro pid next record present hand rfl
    rcases move.gc_hand present hand with ⟨p, found, held⟩ | ⟨_, found, _⟩
    · exact hands pid p record found held rfl
    · obtain ⟨_, _, lookup, _⟩ := d.store.getQuery_eq_some found
      rw [no_record_of_journal empty] at lookup
      contradiction

end

def InRegistry (d : Deployment) (queryID : String) : Prop :=
  ∃ pid p, d.live pid = some p ∧ queryID ∈ p.registry.activeReg

theorem InRegistry.origin (shape : Shape d) (unwritten : Unwritten queryID d)
    (move : Move env d action after) (registered : InRegistry after queryID) :
    InRegistry d queryID ∨ d.store.journal queryID = [] := by
  obtain ⟨pid, next, living, member⟩ := registered
  obtain ⟨present, alive⟩ := Option.filter_eq_some_iff.mp living
  rcases move.origin pid next present with ⟨before, was, continues⟩ | ⟨_, _, _, _, _, _, rfl⟩
  · have known : queryID ∈ before.registry.activeReg → InRegistry d queryID :=
      fun listed => ⟨pid, before, Option.filter_eq_some_iff.mpr ⟨was, continues.alive alive⟩,
        listed⟩
    rcases move.registry shape was present with
      same | drained | ⟨_, sub, _, phase, admitted, _⟩ | ⟨_, removed, _⟩
    · exact .inl (known (same ▸ member))
    · rw [drained] at member
      exact .inl (known member)
    · rw [Registry.admitQuery_activeReg admitted] at member
      rcases (AList.mem_insert _).mp member with rfl | listed
      · refine .inr (unwritten ?_).1
        intro t same
        cases sub.symm.trans same
        rw [phase]
        rfl
      · exact .inl (known listed)
    · rw [removed] at member
      exact .inl (known (AList.mem_erase.mp member).2)
  · contradiction

end

end Deployment

variable {s : Expiring} {queryID : String} {d : Deployment}

namespace Expiring

open Deployment

variable {action : Action}

theorem step_move {env : Env} {after : Expiring} (taken : s.step env action = some after) :
    ∃ d, Move env s.base action d ∧ after.expiry = expiries s.base d s.expiry ∧
      after.base = { d with
        store := d.store.expire fun id => !lasts d.now (expiries s.base d s.expiry id) } := by
  obtain ⟨d, moved, rfl⟩ := Option.map_eq_some_iff.mp taken
  exact ⟨d, Deployment.step_move moved, rfl, rfl⟩

/-- A write gives the key an expiry that lies ahead, or none; only `KeepTTL` leaves what there
was. -/
theorem written_lasts {now : Time} {expiry : Option Time} (record : QueryRecord)
    (lasting : m.has record.id = true → lasts now expiry = true) :
    lasts now (written now m expiry record) = true := by
  unfold written
  split
  · rfl
  · split
    · rename_i stored
      exact lasting stored
    · rfl
  · rename_i ttl after
    simp only [lasts, Option.all_some, decide_eq_true_eq]
    exact Int.lt_add_of_pos_right now (Redis.setExpire_positive after)

/-- A record that is stored after a step has a key that lasts, if it lasted before and the clock
did not reach its expiry. -/
theorem expiries_last {env : Env} (shape : Shape s.base)
    (lasting : s.base.store.has queryID = true → lasts s.base.now (s.expiry queryID) = true)
    (fresh : ∀ elapsed, action = .tick elapsed →
      lasts (s.base.now + elapsed) (s.expiry queryID) = true)
    (move : Move env s.base action d) (present : d.store.has queryID = true) :
    lasts d.now (expiries s.base d s.expiry queryID) = true := by
  unfold expiries renewed
  rcases move.journal shape queryID with same | ⟨record, rfl, stores, wrote, grown⟩
  · rw [if_pos same]
    rcases move.now_cases with ⟨elapsed, rfl, later⟩ | still
    · rw [later]
      exact fresh elapsed rfl
    · obtain ⟨record, lookup⟩ := Option.isSome_iff_exists.mp present
      rw [still]
      apply lasting
      rcases move.record_origin shape lookup with before | ⟨written, _, rfl, stored, _⟩
      · simp [MetaStore.has, before]
      · rw [stored, MetaStore.store_journal_self] at same
        exact absurd same (List.cons_ne_self _ _)
  · have changed : d.store.journal record.id ≠ s.base.store.journal record.id := by
      rw [grown]
      exact List.cons_ne_self _ _
    have still : d.now = s.base.now := by
      rcases move.now_cases with ⟨elapsed, rfl, _⟩ | still
      · cases stores
      · exact still
    rw [if_neg changed, wrote, MetaStore.store_lookup_self, still]
    exact written_lasts _ lasting

/-- The assumption on a step, and the condition: nobody deletes the record, and while the query is
in a registry the clock does not reach the expiry of its key. -/
structure Timely (queryID : String) (s : Expiring) (action : Action) : Prop where
  kept : ¬ s.base.Drops action queryID
  fresh : ∀ elapsed, action = .tick elapsed → InRegistry s.base queryID →
    lasts (s.base.now + elapsed) (s.expiry queryID) = true

structure Held (queryID : String) (s : Expiring) : Prop where
  shape : Shape s.base
  unwritten : Unwritten queryID s.base
  lasting : s.base.store.has queryID = true → lasts s.base.now (s.expiry queryID) = true
  held : InRegistry s.base queryID → s.base.store.journal queryID ≠ [] →
    s.base.store.has queryID = true

namespace Held

variable {env : Env} {after : Expiring}

theorem initial (now : Time) : Held queryID (Expiring.initial now) where
  shape := Shape.initial now
  unwritten := fun _ => ⟨rfl, by rintro pid p record ⟨⟩⟩
  lasting := fun _ => rfl
  held := fun _ stored => absurd rfl stored

section
variable (held : Held queryID s) (timely : Timely queryID s action)
include held timely

theorem kept (move : Move env s.base action d) (registered : InRegistry d queryID)
    (stored : d.store.journal queryID ≠ []) :
    d.store.has queryID = true ∧ lasts d.now (expiries s.base d s.expiry queryID) = true := by
  have present : d.store.has queryID = true := by
    rcases move.journal held.shape queryID with same | ⟨record, rfl, _, wrote, _⟩
    · have before : InRegistry s.base queryID :=
        (InRegistry.origin held.shape held.unwritten move registered).resolve_right (same ▸ stored)
      exact move.has_kept held.shape (held.held before (same ▸ stored)) timely.kept
    · simp [wrote, MetaStore.store_has_iff]
  refine ⟨present, expiries_last held.shape held.lasting ?_ move present⟩
  rintro elapsed rfl
  refine timely.fresh elapsed rfl ?_
  cases move with
  | tick => exact registered
  | operated _ _ _ _ _ _ operated => cases operated

theorem step (taken : s.step env action = some after) : Held queryID after := by
  obtain ⟨_, move, expiry, base⟩ := step_move taken
  have shape := held.shape.step move
  have unwritten := held.unwritten.step held.shape move
  obtain ⟨_, _⟩ := after
  simp only at expiry base
  subst expiry base
  refine ⟨⟨shape.sub, shape.run, shape.workers⟩, unwritten, ?_, ?_⟩
  · intro present
    simp only [MetaStore.expire_has, Bool.not_not, Bool.and_eq_true] at present
    exact present.1
  · intro registered stored
    have kept := held.kept timely move registered stored
    simp only [MetaStore.expire_has, kept, Bool.not_true, Bool.not_false, Bool.and_self]

end

end Held

/-- In every run in which nobody deletes the record and the clock does not reach the expiry of
its key while the query is in the registry of a running process: as long as it is in such a
registry, its record, once stored, is found. -/
theorem in_flight_record_is_found (env : Env) (queryID : String) {now : Time}
    (run : Runs.Reaches (step env) (Timely queryID) (initial now) s)
    (registered : InRegistry s.base queryID) (stored : s.base.store.journal queryID ≠ []) :
    ∃ record, s.base.store.getQuery queryID = some record ∧ record.id = queryID := by
  have held : Held queryID s := run.invariant (Held queryID) (Held.initial now)
    fun before action after held timely taken => held.step timely taken
  have present := held.held registered stored
  obtain ⟨record, lookup⟩ := Option.isSome_iff_exists.mp present
  cases found : s.base.store.getQuery queryID with
  | none =>
    simp only [MetaStore.getQuery, lookup] at found
    split at found <;> contradiction
  | some record => exact ⟨record, rfl, s.base.store.getQuery_id found⟩

/-! ## A long execution -/

def Prompt (queryID : String) (s : Expiring) : Action → Prop
  | .gc _ _ => False
  | .tick elapsed => lasts (s.base.now + elapsed) (s.expiry queryID) = true
  | _ => True

instance (queryID : String) (s : Expiring) (action : Action) :
    Decidable (Prompt queryID s action) := by
  apply Action.casesOn (motive := fun action => Decidable (Prompt queryID s action)) action
  case gc => exact fun _ _ => instDecidableFalse
  case tick => exact fun _ => inferInstanceAs (Decidable (lasts _ _ = true))
  all_goals intros; exact instDecidableTrue

theorem Prompt.not_drops (prompt : Prompt queryID s action) : ¬ s.base.Drops action queryID := by
  rintro ⟨_, _, _, _, rfl, _⟩
  exact prompt

theorem Prompt.timely (prompt : Prompt queryID s action) : Timely queryID s action :=
  ⟨prompt.not_drops, by rintro elapsed rfl _; exact prompt⟩

def redisConfig : Config :=
  { sampleConfig "a" with inst := { id := "a", metaStore := "redis", redisAddr := "redis:6379" } }

def redisEnv : Env := { sampleEnv with backend := .redis }

def redisQuery : List Action :=
  [.start 1 redisConfig ["db"], .reaper 1 (.listed .ok []), .reaper 1 .next, .heart 1 .begin] ++
    .submit 1 none "q" "db" "SELECT 1" {} :: List.replicate 6 (.submission "q" .ok) ++
    [.execution "q" .go, .execution "q" (.persist .ok false)]

/-- `Exec` has been blocking for one second less than 48 hours, the heartbeats go on. -/
def longExecution : List Action :=
  redisQuery ++ [.tick (48 * hour - second).toNat, .heart 1 .tick, .heart 1 (.write .ok)]

def longView (s : Expiring) : Bool × Bool × Bool × Bool :=
  ((s.base.live 1).any fun p => (p.registry.activeReg.lookup "q").isSome,
    (s.base.store.leases.lookup "q").any fun expiry => s.base.now < expiry,
    s.base.store.journal "q" ≠ [],
    (s.base.store.getQuery "q").isSome)

theorem inRegistry_of_view {rest : Bool × Bool × Bool} (seen : longView s = (true, rest)) :
    InRegistry s.base "q" := by
  have listed := congrArg Prod.fst seen
  simp only [longView, Option.any_eq_true] at listed
  obtain ⟨p, live, member⟩ := listed
  exact ⟨1, p, live, AList.lookup_isSome.mp member⟩

/-- A second before the key expires the record is found. -/
theorem long_execution_is_found :
    ∃ s, Runs.Reaches (step redisEnv) (Timely "q") (initial 1) s ∧
      InRegistry s.base "q" ∧
      ∃ record, s.base.store.getQuery "q" = some record ∧ record.id = "q" := by
  obtain ⟨s, prompt, seen⟩ : ∃ s, Runs.Reaches (step redisEnv) (Prompt "q") (initial 1) s ∧
      longView s = (true, true, true, true) :=
    Runs.exists_reaches longExecution (by decide +kernel)
  have run := prompt.mono fun _ _ prompt => prompt.timely
  have registered := inRegistry_of_view seen
  have stored : s.base.store.journal "q" ≠ [] := by
    simpa [longView] using congrArg (fun view => view.2.2.1) seen
  exact ⟨s, run, registered, in_flight_record_is_found redisEnv "q" run registered stored⟩

/-- Without the condition: one second later the record is gone, while the query is in the
registry of its owner and its lease is held. -/
theorem long_execution_is_lost :
    ∃ s, Runs.Reaches (step redisEnv) (fun s action => ¬ s.base.Drops action "q") (initial 1) s ∧
      InRegistry s.base "q" ∧
      ((s.base.store.leases.lookup "q").any fun expiry => s.base.now < expiry) = true ∧
      s.base.store.journal "q" ≠ [] ∧ s.base.store.getQuery "q" = none := by
  obtain ⟨s, prompt, last, taken, seen⟩ :
      ∃ s, Runs.Reaches (step redisEnv) (Prompt "q") (initial 1) s ∧
        ∃ last ∈ s.step redisEnv (.tick second.toNat), longView last = (true, true, true, false) :=
    Runs.exists_reaches longExecution (by decide +kernel)
  have run := prompt.mono fun _ _ prompt => prompt.not_drops
  have quiet : ¬ s.base.Drops (.tick second.toNat) "q" := by
    rintro ⟨_, _, _, _, ⟨⟩, _⟩
  have registered := inRegistry_of_view seen
  simp only [longView, Prod.mk.injEq, decide_eq_true_eq, Option.isSome_eq_false_iff,
    Option.isNone_iff_eq_none] at seen
  exact ⟨last, run.snoc quiet taken, registered, seen.2.1, seen.2.2.1, seen.2.2.2⟩

end Expiring

end DbBridge.Cluster
