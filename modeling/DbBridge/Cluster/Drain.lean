import DbBridge.Cluster.Registry

/-!
# `Drain` and `CountInFlight`

Only a goroutine with a registry entry stores a record as `PENDING` or `RUNNING`. Once
the registry of a draining process is empty it stays empty, so what the MetaStore
counts for the instance can only go down.
-/

namespace DbBridge.Cluster

open Domain State

variable {d : Deployment} {call : Nat}

namespace Deployment

/-! ## Who stores an unfinished record -/

/-- The condition on a step: no other process stores a `PENDING` or `RUNNING` record
under the instance ID of process `pid`. -/
def SoleWriter (pid : Nat) (d : Deployment) (action : Action) : Prop :=
  ∀ write ∈ d.putting? action, ∀ p ∈ d.procs pid,
    MetaStore.inFlight p.instanceID write.2 = true → write.1 = pid

instance (pid : Nat) (d : Deployment) (action : Action) : Decidable (SoleWriter pid d action) :=
  inferInstanceAs (Decidable (∀ write ∈ d.putting? action, ∀ p ∈ d.procs pid,
    MetaStore.inFlight p.instanceID write.2 = true → write.1 = pid))

theorem Stores.inFlight {action : Action} {record : QueryRecord} (stores : Stores d action record)
    {instanceID : String} (unfinished : MetaStore.inFlight instanceID record = true) :
    ∃ author, d.putting? action = some (author, record) ∧ InFlight d author record.id := by
  have active : record.state = .pending ∨ record.state = .running := by
    simpa [MetaStore.inFlight] using (Bool.and_eq_true_iff.mp unfinished).2
  cases stores with
  | admitted _ s _ sub phase =>
    exact ⟨s.pid, by simp [putting?, sub, phase],
      .inl ⟨s, sub, rfl, by simp [phase, SubmitPhase.registered]⟩⟩
  | begun _ _ run _ executed phase =>
    exact ⟨run.pid, by simp [putting?, executed],
      .inr ⟨run, executed, rfl, by simp [phase, RunPhase.registered]⟩⟩
  | progressed _ run _ _ executed writing =>
    exact ⟨run.pid, by simp [putting?, executed, writing],
      .inr ⟨run, executed, rfl, RunPhase.registered_of_writing writing⟩⟩
  | ended _ _ _ _ _ _ _ verdict =>
    rcases verdict with state | state | state <;> simp [state] at active
  | reaped _ _ _ _ _ _ _ _ _ _ _ state | marked _ _ _ _ _ _ _ state => simp [state] at active

structure Quiet (d : Deployment) (pid : Nat) (p : Process) : Prop where
  found : d.procs pid = some p
  draining : p.registry.draining = true
  empty : p.registry.activeReg.keys = []

theorem Quiet.not_inFlight {pid : Nat} {p : Process} (quiet : Quiet d pid p)
    (registered : Registered d) (queryID : String) : ¬ InFlight d pid queryID := by
  intro flying
  have member := registered pid p queryID quiet.found flying
  rw [AList.mem_keys, quiet.empty] at member
  contradiction

section
variable {env : Env} {pid : Nat} {after : Deployment} {action : Action} {p : Process}

theorem Quiet.step (quiet : Quiet d pid p) (shape : Shape d) (move : Move env d action after) :
    ∃ next, Quiet after pid next ∧ next.instanceID = p.instanceID := by
  obtain ⟨next, present, continues⟩ := move.continues pid p quiet.found
  obtain ⟨draining, shrinks⟩ := move.draining shape quiet.found present quiet.draining
  rw [quiet.empty] at shrinks
  exact ⟨next, ⟨present, draining, List.subset_nil.mp shrinks⟩, continues.instanceID⟩

theorem Quiet.countInFlight (quiet : Quiet d pid p) (shape : Shape d)
    (registered : Registered d) (sole : SoleWriter pid d action)
    (move : Move env d action after) (none_ : d.store.countInFlight p.instanceID = 0) :
    after.store.countInFlight p.instanceID = 0 := by
  rw [MetaStore.countInFlight_eq_zero_iff] at none_ ⊢
  intro record lookup
  rcases move.record_origin shape lookup with known | ⟨written, stores, _, _, rfl⟩
  · exact none_ record known
  · show MetaStore.inFlight p.instanceID written = false
    by_contra active
    rw [Bool.not_eq_false] at active
    obtain ⟨author, puts, flying⟩ := stores.inFlight active
    obtain rfl : author = pid := sole _ puts p quiet.found active
    exact quiet.not_inFlight registered _ flying

end

/-! ## Calls of `CountInFlight` -/

section
variable {env : Env} {pid : Nat} {after : Deployment} {action : Action}

theorem Move.counts (move : Move env d action after) {c : CountCall}
    (present : after.counts call = some c) :
    d.counts call = some c ∨ c.phase = .begun ∨
      ∃ p, d.procs c.pid = some p ∧ ∃ localCount,
        (d.counts call = some ⟨c.pid, .begun⟩ ∧ localCount = p.registry.size ∧
          c.phase = .counted localCount) ∨
        (d.counts call = some ⟨c.pid, .counted localCount⟩ ∧
          (c.phase = .returned localCount (some (d.store.countInFlight p.instanceID)) ∨
            c.phase = .returned localCount none)) := by
  cases move with
  | countBegin =>
    rcases Tables.update_some_cases present with ⟨rfl, rfl⟩ | ⟨_, kept⟩
    · exact .inr (.inl rfl)
    · exact .inl kept
  | countLocal _ before p counting found _ begun =>
    rcases Tables.update_some_cases present with ⟨rfl, rfl⟩ | ⟨_, kept⟩
    · obtain ⟨author, phase⟩ := before
      cases begun
      exact .inr (.inr ⟨p, found, _, .inl ⟨counting, rfl, rfl⟩⟩)
    · exact .inl kept
  | countRemote _ _ before p localCount counting found _ counted =>
    rcases Tables.update_some_cases present with ⟨rfl, rfl⟩ | ⟨_, kept⟩
    · obtain ⟨author, phase⟩ := before
      cases counted
      refine .inr (.inr ⟨p, found, localCount, .inr ⟨counting, ?_⟩⟩)
      dsimp only
      split
      · exact .inl rfl
      · exact .inr rfl
    · exact .inl kept
  | submission =>
    refine .inl ?_
    rw [← present, applySubmit]
    split <;> rfl
  | tick | started | rejected | submitted | execution | reaper | gc | heart | operated =>
    exact .inl present

/-- What the answers of a call say about a draining process. -/
def Tells (d : Deployment) (pid : Nat) (p : Process) : CountPhase → Prop
  | .begun => True
  | .counted localCount => localCount = 0 → Quiet d pid p
  | .returned localCount remote => localCount = 0 → Quiet d pid p ∧
      (remote = some 0 → d.store.countInFlight p.instanceID = 0)

theorem Tells.step {p next : Process} {phase : CountPhase} (tells : Tells d pid p phase)
    (shape : Shape d) (registered : Registered d) (sole : SoleWriter pid d action)
    (move : Move env d action after) (present : after.procs pid = some next) :
    Tells after pid next phase := by
  have quiet : Quiet d pid p → Quiet after pid next ∧ next.instanceID = p.instanceID := by
    intro quiet
    obtain ⟨_, kept, id⟩ := quiet.step shape move
    have found := kept.found
    rw [present] at found
    cases found
    exact ⟨kept, id⟩
  cases phase with
  | begun => trivial
  | counted => exact fun zero => (quiet (tells zero)).1
  | returned =>
    intro zero
    obtain ⟨before, none_⟩ := tells zero
    refine ⟨(quiet before).1, fun nothing => ?_⟩
    rw [(quiet before).2]
    exact before.countInFlight shape registered sole move (none_ nothing)

/-- The process is draining, and what the call has read is still true of it. -/
structure Watched (call pid : Nat) (d : Deployment) : Prop where
  shape : Shape d
  registered : Registered d
  tells : ∃ p, d.procs pid = some p ∧ p.registry.draining = true ∧
    ∀ c, d.counts call = some c → c.pid = pid → Tells d pid p c.phase

theorem Watched.step (watched : Watched call pid d) (sole : SoleWriter pid d action)
    (move : Move env d action after) : Watched call pid after := by
  obtain ⟨shape, registered, p, found, draining, tells⟩ := watched
  obtain ⟨next, present, continues⟩ := move.continues pid p found
  refine ⟨shape.step move, registered.step shape move, next, present,
    (move.draining shape found present draining).1, fun c counting own => ?_⟩
  have read : Tells d pid p c.phase := by
    rcases move.counts counting with
      before | begun | ⟨_, known, _, ⟨_, size, phase⟩ | ⟨before, answer⟩⟩
    · exact tells c before own
    · rw [begun]
      trivial
    · rw [own, found] at known
      cases known
      rw [phase]
      exact fun zero => ⟨found, draining, p.registry.size_eq_zero_iff.mp (size ▸ zero)⟩
    · rw [own, found] at known
      cases known
      have earlier := tells _ before own
      rcases answer with answer | answer <;> rw [answer]
      · exact fun zero => ⟨earlier zero, fun nothing => Option.some.inj nothing⟩
      · exact fun zero => ⟨earlier zero, fun nothing => nomatch nothing⟩
  exact read.step shape registered sole move present

structure Quiesced (pid : Nat) (d : Deployment) : Prop where
  shape : Shape d
  registered : Registered d
  quiet : ∃ p, Quiet d pid p ∧ d.store.countInFlight p.instanceID = 0

theorem Quiesced.step (quiesced : Quiesced pid d) (sole : SoleWriter pid d action)
    (move : Move env d action after) : Quiesced pid after := by
  obtain ⟨shape, registered, _, quiet, none_⟩ := quiesced
  obtain ⟨next, kept, same⟩ := quiet.step shape move
  refine ⟨shape.step move, registered.step shape move, next, kept, ?_⟩
  rw [same]
  exact quiet.countInFlight shape registered sole move none_

def ReadsZero : CountPhase → Prop
  | .begun => True
  | .counted localCount => localCount = 0
  | .returned localCount remote => localCount = 0 ∧ (remote = none ∨ remote = some 0)

theorem Quiesced.reads_zero (quiesced : Quiesced pid d)
    (reads : ∀ c, d.counts call = some c → c.pid = pid → ReadsZero c.phase)
    (move : Move env d action after) (c : CountCall) (counting : after.counts call = some c)
    (own : c.pid = pid) : ReadsZero c.phase := by
  obtain ⟨_, _, p, quiet, none_⟩ := quiesced
  rcases move.counts counting with
    before | begun | ⟨_, read, localCount, ⟨_, size, phase⟩ | ⟨before, answer⟩⟩
  · exact reads c before own
  · rw [begun]
    trivial
  · rw [own, quiet.found] at read
    cases read
    rw [phase, size]
    exact p.registry.size_eq_zero_iff.mpr quiet.empty
  · rw [own, quiet.found] at read
    cases read
    have known : localCount = 0 := reads _ before own
    rcases answer with answer | answer <;> rw [answer]
    · exact ⟨known, .inr (by rw [none_])⟩
    · exact ⟨known, .inl rfl⟩

end

/-! ## Quiescence -/

/-- A query of the instance is unfinished: a goroutine of its process still has it in
the registry, or its record is stored as `PENDING` or `RUNNING`. -/
def Unfinished (d : Deployment) (pid : Nat) (queryID : String) : Prop :=
  InFlight d pid queryID ∨ ∃ p record, d.procs pid = some p ∧
    d.store.queries.lookup queryID = some record ∧
    MetaStore.inFlight p.instanceID record = true

theorem Quiesced.not_unfinished {pid : Nat} (quiesced : Quiesced pid d) (queryID : String) :
    ¬ Unfinished d pid queryID := by
  obtain ⟨_, registered, _, quiet, none_⟩ := quiesced
  rintro (flying | ⟨_, record, found, lookup, active⟩)
  · exact quiet.not_inFlight registered queryID flying
  · rw [quiet.found] at found
    cases found
    have id := d.store.keyed queryID record lookup
    have passive := (d.store.countInFlight_eq_zero_iff _).mp none_ record (id ▸ lookup)
    rw [passive] at active
    contradiction

theorem countResult_eq_zero {localCount remote : Nat}
    (zero : countResult localCount (some remote) = 0) : localCount = 0 ∧ remote = 0 := by
  simpa [countResult] using zero

/-- From a state in which process `pid` is draining on, its registry gains no entry.
Once a call of `CountInFlight` that begins there has returned zero without an error, no
query of the instance is unfinished, and every later call without an error returns
zero. -/
theorem drained_instance_stays_quiescent (env : Env) (pid : Nat) (d : Deployment)
    (p : Process) (reached : Reachable env (SoleWriter pid) d)
    (found : d.procs pid = some p) (draining : p.registry.draining = true) :
    (∀ later, Runs.Reaches (step env) (SoleWriter pid) d later →
      ∃ q, later.procs pid = some q ∧
        q.registry.activeReg.keys ⊆ p.registry.activeReg.keys) ∧
    ∀ call begun counted localCount remote,
      step env d (.countBegin pid call) = some begun →
      Runs.Reaches (step env) (SoleWriter pid) begun counted →
      counted.counts call = some ⟨pid, .returned localCount (some remote)⟩ →
      countResult localCount (some remote) = 0 →
      ∀ later, Runs.Reaches (step env) (SoleWriter pid) counted later →
        (∀ queryID, ¬ Unfinished later pid queryID) ∧
        ∀ other localCount remote, counted.counts other = none →
          later.counts other = some ⟨pid, .returned localCount (some remote)⟩ →
          countResult localCount (some remote) = 0 := by
  constructor
  · intro later path
    have kept := path.invariant
      (fun e => Shape e ∧ ∃ q, e.procs pid = some q ∧ q.registry.draining = true ∧
        q.registry.activeReg.keys ⊆ p.registry.activeReg.keys)
      ⟨reached.shape, p, found, draining, List.Subset.refl _⟩ ?_
    · obtain ⟨_, q, present, _, shrinks⟩ := kept
      exact ⟨q, present, shrinks⟩
    · rintro before action after ⟨shape, q, was, closed, shrinks⟩ _ taken
      obtain ⟨next, present, _⟩ := (step_move taken).continues pid q was
      obtain ⟨stays, fewer⟩ := (step_move taken).draining shape was present closed
      exact ⟨shape.step (step_move taken), next, present, stays,
        List.Subset.trans fewer shrinks⟩
  · intro call begun counted localCount remote begins path answered zero later onwards
    have unused : d.counts call = none := by
      cases step_move begins with
      | countBegin _ _ _ _ _ unused => exact unused
      | operated _ _ _ _ _ _ operated => cases operated
    have watched : Watched call pid d :=
      ⟨reached.shape, reached.registered, p, found, draining, by simp [unused]⟩
    have watched := watched.step (by simp [SoleWriter, putting?]) (step_move begins)
    have seen := path.invariant (Watched call pid) watched fun _ _ _ holds sole taken =>
      holds.step sole (step_move taken)
    have quiesced : Quiesced pid counted := by
      obtain ⟨shape, registered, q, present, _, tells⟩ := seen
      obtain ⟨rfl, rfl⟩ := countResult_eq_zero zero
      obtain ⟨quiet, none_⟩ := tells _ answered rfl rfl
      exact ⟨shape, registered, q, quiet, none_ rfl⟩
    refine ⟨?_, fun other localCount remote fresh returned => ?_⟩
    · have final := onwards.invariant (Quiesced pid) quiesced fun _ _ _ holds sole taken =>
        holds.step sole (step_move taken)
      exact final.not_unfinished
    · have final := onwards.invariant
        (fun e => Quiesced pid e ∧
          ∀ c, e.counts other = some c → c.pid = pid → ReadsZero c.phase)
        ⟨quiesced, by simp [fresh]⟩ fun _ _ _ holds sole taken =>
          ⟨holds.1.step sole (step_move taken), holds.1.reads_zero holds.2 (step_move taken)⟩
      obtain ⟨rfl, rest⟩ := final.2 _ returned rfl
      rcases rest with impossible | rest
      · contradiction
      · cases rest
        rfl

def finishAndCount : List Action :=
  finishQuery ++ [.execution "q" .go, .countLocal 0, .countRemote 0 .ok]

def registryView (d : Deployment) : Option (Bool × List String) :=
  (d.procs 1).map fun p => (p.registry.draining, p.registry.activeReg.keys)

/-- Process 1 drains while it executes `q`, and a call begun then sees it end. -/
theorem drained_query_is_counted_out :
    ∃ d begun counted, Reachable sampleEnv (SoleWriter 1) d ∧
      registryView d = some (true, ["q"]) ∧
      step sampleEnv d (.countBegin 1 0) = some begun ∧
      Runs.Reaches (step sampleEnv) (SoleWriter 1) begun counted ∧
      counted.counts 0 = some ⟨1, .returned 0 (some 0)⟩ ∧
      ∀ queryID, ¬ Unfinished counted 1 queryID := by
  obtain ⟨d, reached, registry, begun, begins, counted, replayed, answered⟩ :
      ∃ d, Reachable sampleEnv (SoleWriter 1) d ∧ registryView d = some (true, ["q"]) ∧
        ∃ begun ∈ step sampleEnv d (.countBegin 1 0),
          ∃ counted ∈ Runs.execute (step sampleEnv) (SoleWriter 1) finishAndCount begun,
            counted.counts 0 = some ⟨1, .returned 0 (some 0)⟩ :=
    exists_reachable (runningQuery ++ [.drain 1]) (by decide +kernel)
  obtain ⟨p, found, view⟩ := Option.map_eq_some_iff.mp registry
  have path := Runs.reaches_of_execute _ _ _ replayed
  have quiescent := drained_instance_stays_quiescent sampleEnv 1 d p reached found
    (Prod.mk.inj view).1
  exact ⟨d, begun, counted, reached, registry, begins, path, answered,
    (quiescent.2 0 begun counted 0 0 begins path answered rfl counted (.refl counted)).1⟩

end Deployment

end DbBridge.Cluster
