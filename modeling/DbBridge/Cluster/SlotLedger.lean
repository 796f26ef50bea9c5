import DbBridge.Cluster.Slots

/-!
# The ledger of slots

A ledger beside the deployment counts, for each query, the calls that took a slot and
those that gave one back. The channel `slots` of every process agrees with the ledger
in every run.
-/

namespace DbBridge.Cluster

open Domain State Settings Runs

/-! ## A goroutine with a slot can give it up -/

def Reporter.pending (reporter : Reporter) : Nat :=
  if reporter.lost then 0
  else (if reporter.mailbox.isSome then 2 else 0) + if reporter.writing.isSome then 1 else 0

/-- A bound on the steps to the end of `run` along its shortest way. -/
def RunPhase.toGo : RunPhase → Nat
  | .start => 27
  | .persistRunning _ => 26
  | .exec _ => 25
  | .openWriter _ => 24
  | .stream _ _ _ reporter => 15 + reporter.pending
  | .stopping _ _ _ reporter _ => 7 + reporter.pending
  | .closing .. => 6
  | .discard .. => 5
  | .persistTerminal _ => 4
  | .refreshKey => 3
  | .deregister => 2
  | .freeSlot => 1
  | .done => 0

/-- The same for a submission, up to the launch or the rollback's `releaseSlot`. -/
def SubmitPhase.toGo : SubmitPhase → Nat
  | .admitting => 5
  | .put _ => 4
  | .lease _ => 3
  | .launch _ | .dropEntry _ => 2
  | .freeSlot _ => 1
  | _ => 0

variable (now : Time)

theorem complete_toGo_le (run : Run) (next : QueryState) :
    (complete now run next).phase.toGo ≤ 4 := by
  unfold complete
  split
  · exact Nat.le_refl 4
  · exact show 2 ≤ 4 by decide

theorem afterClose_toGo_le (run : Run) (dbDur storeDur : Duration) (ref : ResultRef)
    (encoded : Encoded) (closeErr : Option GoError) (checksum : String) :
    (afterClose now run dbDur storeDur ref encoded closeErr checksum).phase.toGo ≤ 5 := by
  unfold afterClose
  split
  · exact Nat.le_refl 5
  · exact Nat.le_refl 5
  · exact Nat.le_succ_of_le (complete_toGo_le ..)

theorem Reporter.pending_le (reporter : Reporter) : reporter.pending ≤ 3 := by
  unfold pending
  (repeat' split) <;> decide

variable (m : MetaStore)

theorem Reporter.closer {reporter : Reporter} (busy : reporter.drained = false) :
    (∃ next, reporter.take = some next ∧ next.pending < reporter.pending) ∨
      ∃ after next, reporter.progress m .ok = some (after, next) ∧
        next.pending < reporter.pending := by
  obtain ⟨mailbox, writing, _⟩ := reporter
  simp only [Reporter.drained, Bool.or_eq_false_iff, Bool.and_eq_false_iff] at busy
  obtain ⟨rfl, busy⟩ := busy
  cases writing with
  | none =>
    obtain ⟨snapshot, rfl⟩ : ∃ snapshot, mailbox = some snapshot := by
      simpa [Option.isSome_iff_exists] using busy
    exact .inl ⟨_, rfl, by simp [Reporter.pending]⟩
  | some =>
    right
    simp only [Reporter.progress]
    split
    · exact ⟨_, _, rfl, by simp [Reporter.pending]⟩
    · refine ⟨_, _, rfl, ?_⟩
      simp only [Reporter.pending]
      split <;> simp

variable (p : Process)

theorem runStep_closer (objects : List ObjectName) {run : Run} (running : run.phase ≠ .done) :
    ∃ choice out, runStep now m p objects run choice = some out ∧
      out.run.phase.toGo < run.phase.toGo := by
  cases phase : run.phase with
  | start =>
    by_cases allowed : run.record.state.canTransitionTo .running = true
    · exact ⟨.go, _, by simp only [runStep, phase, if_pos allowed]; rfl, by simp [RunPhase.toGo]⟩
    · exact ⟨.go, _, by simp only [runStep, phase, if_neg allowed]; rfl, by simp [RunPhase.toGo]⟩
  | persistRunning =>
    exact ⟨.persist .ok false, _, by simp only [runStep, phase]; rfl, by
      simp [persistAttempt, RunPhase.toGo]⟩
  | exec =>
    exact ⟨.exec (some {}) none, _, by simp only [runStep, phase]; rfl,
      Nat.lt_of_le_of_lt (complete_toGo_le ..) (show 4 < 25 by decide)⟩
  | openWriter =>
    exact ⟨.storeMissing, _, by simp only [runStep, phase]; rfl,
      Nat.lt_of_le_of_lt (complete_toGo_le ..) (show 4 < 24 by decide)⟩
  | stream =>
    refine ⟨.encoded ⟨0, 0, none⟩ (some 0), _, by simp only [runStep, phase]; rfl, ?_⟩
    have few := Reporter.pending_le
    exact Nat.lt_of_le_of_lt (Nat.add_le_add_left (few _) 7) (Nat.lt_add_right _ (by decide))
  | stopping _ _ _ reporter =>
    cases drained : reporter.drained with
    | true =>
      refine ⟨.go, _, by simp only [runStep, phase, drained, if_true]; rfl, ?_⟩
      simp only [RunPhase.toGo]
      omega
    | false =>
      rcases reporter.closer m drained with ⟨next, taken, less⟩ | ⟨_, next, written, less⟩
      · refine ⟨.take, _, by simp only [runStep, phase, taken, Option.map_some]; rfl, ?_⟩
        simp only [RunPhase.toGo]
        omega
      · refine ⟨.progress .ok, _,
          by simp only [runStep, phase, written, Option.map_some]; rfl, ?_⟩
        simp only [RunPhase.toGo]
        omega
  | closing =>
    exact ⟨.close none "", _, by simp only [runStep, phase]; rfl,
      Nat.lt_of_le_of_lt (afterClose_toGo_le ..) (show 5 < 6 by decide)⟩
  | discard =>
    exact ⟨.discarded true none, _, by simp only [runStep, phase]; rfl,
      Nat.lt_of_le_of_lt (complete_toGo_le ..) (show 4 < 5 by decide)⟩
  | persistTerminal =>
    refine ⟨.persist .ok false, _, by simp only [runStep, phase]; rfl, ?_⟩
    simp only [persistAttempt, true_or, if_true, afterPersist]
    split <;> simp [RunPhase.toGo]
  | refreshKey => exact ⟨.refresh .ok, _, by simp only [runStep, phase]; rfl, by simp [RunPhase.toGo]⟩
  | deregister | freeSlot =>
    exact ⟨.go, _, by simp only [runStep, phase]; rfl, by simp [RunPhase.toGo]⟩
  | done => exact (running phase).elim

theorem submitStep_closer {s : Submission} (holds : s.phase.holdsSlot = true) :
    ∃ out, submitStep now m p s .ok = some out ∧
      (out.phase.holdsSlot = true → out.phase.toGo < s.phase.toGo) := by
  cases phase : s.phase with
  | admitting =>
    cases admitted : p.registry.admitQuery s.queryID s.dbID with
    | ok | error =>
      exact ⟨_, by simp only [submitStep, phase, admitted]; rfl, fun _ => by simp [SubmitPhase.toGo]⟩
  | put =>
    exact ⟨_, by simp only [submitStep, phase, if_true]; rfl, fun _ => by simp [SubmitPhase.toGo]⟩
  | lease | dropEntry | freeSlot =>
    exact ⟨_, by simp only [submitStep, phase]; rfl, fun _ => by simp [SubmitPhase.toGo]⟩
  | launch =>
    refine ⟨_, by simp only [submitStep, phase]; rfl, ?_⟩
    dsimp only
    split <;> simp [SubmitPhase.holdsSlot]
  | _ => simp [phase, SubmitPhase.holdsSlot] at holds

namespace Deployment

/-! ## The ledger -/

/-- A deployment with the slots taken and given back so far for each query. -/
structure Ledger where
  deployment : Deployment
  acquired : String → Nat := fun _ => 0
  released : String → Nat := fun _ => 0

namespace Ledger

variable {ledger : Ledger} {pid : Nat} {queryID : String}

def enter (ledger : Ledger) : Option SlotCall → Ledger
  | some (.acquired _ queryID) =>
    { ledger with acquired :=
        Function.update ledger.acquired queryID (ledger.acquired queryID + 1) }
  | some (.released _ queryID) =>
    { ledger with released :=
        Function.update ledger.released queryID (ledger.released queryID + 1) }
  | none => ledger

def step (env : Env) (ledger : Ledger) (action : Action) : Option Ledger :=
  (Deployment.step env ledger.deployment action).map fun after =>
    { ledger.enter (slotCall ledger.deployment action) with deployment := after }

/-- Slots are taken once, and those that are not held have been given back. -/
structure Settles (ledger : Ledger) : Prop where
  early : ∀ queryID, BeforeSlot ledger.deployment queryID → ledger.acquired queryID = 0
  held : ∀ queryID, Holding ledger.deployment queryID →
    ledger.acquired queryID = 1 ∧ ledger.released queryID = 0
  free : ∀ queryID, ¬ Holding ledger.deployment queryID →
    ledger.released queryID = ledger.acquired queryID ∧ ledger.acquired queryID ≤ 1

theorem Settles.enter {after : Deployment} {call : Option SlotCall} (settles : Settles ledger)
    (slots : SlotMove ledger.deployment after call)
    (early : ∀ queryID, BeforeSlot after queryID → BeforeSlot ledger.deployment queryID) :
    Settles { ledger.enter call with deployment := after } := by
  cases slots with
  | kept _ holding =>
    refine ⟨fun id before => settles.early id (early id before), fun id holds => ?_,
      fun id free => ?_⟩
    · exact settles.held id ((holding id).mp holds)
    · exact settles.free id fun holds => free ((holding id).mpr holds)
  | acquired _ queryID _ _ _ _ _ before late unheld _ _ holding =>
    have zero := settles.early queryID before
    have none_ := (settles.free queryID unheld).1
    refine ⟨fun id earlier => ?_, fun id holds => ?_, fun id free => ?_⟩
    · have ne : id ≠ queryID := by
        rintro rfl
        exact late earlier
      simpa [Ledger.enter, Function.update_of_ne ne] using settles.early id (early id earlier)
    · by_cases same : id = queryID
      · subst same
        simp [Ledger.enter, none_, zero]
      · simpa [Ledger.enter, Function.update_of_ne same] using
          settles.held id (((holding id).mp holds).resolve_right same)
    · have ne : id ≠ queryID := fun same => free ((holding id).mpr (.inr same))
      simpa [Ledger.enter, Function.update_of_ne ne] using
        settles.free id fun holds => free ((holding id).mpr (.inl holds))
  | released _ queryID _ _ _ _ _ held _ _ holding =>
    obtain ⟨one, none_⟩ := settles.held queryID held
    refine ⟨fun id earlier => settles.early id (early id earlier), fun id holds => ?_,
      fun id free => ?_⟩
    · obtain ⟨before, ne⟩ := (holding id).mp holds
      simpa [Ledger.enter, Function.update_of_ne ne] using settles.held id before
    · by_cases same : id = queryID
      · subst same
        simp [Ledger.enter, one, none_]
      · simpa [Ledger.enter, Function.update_of_ne same] using
          settles.free id fun holds => free ((holding id).mpr ⟨holds, same⟩)

structure Sound (ledger : Ledger) : Prop where
  shape : Shape ledger.deployment
  entered : Entered ledger.deployment
  counted : SlotsCounted ledger.deployment
  settles : Settles ledger

theorem Sound.initial (now : Time) : Sound { deployment := Deployment.initial now } where
  shape := Shape.initial now
  entered := by simp [Entered, Deployment.initial]
  counted := by simp [SlotsCounted, Deployment.initial]
  settles := ⟨by simp, by simp [Holding, Deployment.initial], by simp⟩

theorem Sound.step {env : Env} {after : Ledger} {action : Action} (sound : Sound ledger)
    (taken : Ledger.step env ledger action = some after) : Sound after := by
  obtain ⟨_, stepped, rfl⟩ := Option.map_eq_some_iff.mp taken
  have move := step_move stepped
  exact
    { shape := sound.shape.step move
      entered := sound.entered.step sound.shape move
      counted := sound.counted.step sound.shape move
      settles := sound.settles.enter (move.slotMove sound.shape)
        fun _ => move.beforeSlot sound.shape }

def toGo (d : Deployment) (queryID : String) : Nat :=
  match d.runs queryID with
  | some run => run.phase.toGo
  | none =>
    match d.subs queryID with
    | some s => 30 + s.phase.toGo
    | none => 0

def Serves (d : Deployment) (pid : Nat) (queryID : String) : Prop :=
  SubmittedTo d pid queryID ∧ ∃ p, d.procs pid = some p ∧ p.alive = true

variable (env : Env)

section
variable (sound : Sound ledger) (serves : Serves ledger.deployment pid queryID)
include sound serves

theorem Sound.closer (holding : Holding ledger.deployment queryID) :
    ∃ action after, Ledger.step env ledger action = some after ∧
      Serves after.deployment pid queryID ∧
      (¬ Holding after.deployment queryID ∨
        toGo after.deployment queryID < toGo ledger.deployment queryID) := by
  obtain ⟨submitted, p, found, alive⟩ := serves
  have shape := sound.shape
  rcases holding with ⟨s, sub, holds⟩ | ⟨run, executed, holds⟩
  · rw [Option.mem_def] at sub
    obtain ⟨rfl, _⟩ := shape.sub queryID s sub
    obtain rfl := submitted.unique ⟨s, sub, rfl⟩
    have unlaunched := shape.no_run sub (SubmitPhase.not_past_of_holdsSlot holds)
    obtain ⟨out, taken, closer⟩ :=
      submitStep_closer ledger.deployment.now ledger.deployment.store p holds
    have living := (ledger.deployment.live_eq_some_iff s.pid p).mpr ⟨found, alive⟩
    have stepped : Deployment.step env ledger.deployment (.submission s.queryID .ok) =
        some (ledger.deployment.applySubmit s out) := by
      simp [Deployment.step, sub, living, taken]
    refine ⟨.submission s.queryID .ok, _, by rw [Ledger.step, stepped]; rfl, ⟨?_, ?_⟩, ?_⟩
    · exact submitted.step shape (step_move stepped)
    · obtain ⟨registry, slots, same⟩ := submitStep_process taken
      exact ⟨out.process, by rw [applySubmit_procs, setProc_procs_self], by rw [same]; exact alive⟩
    · dsimp only
      rw [applySubmit_holding_self _ s out unlaunched]
      cases launched : out.launched with
      | some =>
        -- the execution starts with fewer steps to go than any submission
        right
        have before : toGo ledger.deployment s.queryID = 30 + s.phase.toGo := by
          simp [toGo, unlaunched, sub]
        rw [before]
        simp only [toGo, applySubmit_runs, launched, Function.update_self, RunPhase.toGo]
        omega
      | none =>
        by_cases still : out.phase.holdsSlot = true
        · right
          simpa [toGo, applySubmit_runs, applySubmit_subs, launched, unlaunched, sub] using
            closer still
        · left
          simpa using still
  · rw [Option.mem_def] at executed
    obtain ⟨_, s, sub, own, _⟩ := shape.run queryID run executed
    obtain rfl : run.pid = pid := submitted.unique ⟨s, sub, own⟩
    have running : run.phase ≠ .done := by
      intro phase
      rw [phase] at holds
      contradiction
    obtain ⟨choice, out, taken, closer⟩ := runStep_closer ledger.deployment.now
      ledger.deployment.store p ledger.deployment.objects running
    have living := (ledger.deployment.live_eq_some_iff run.pid p).mpr ⟨found, alive⟩
    have stepped : Deployment.step env ledger.deployment (.execution queryID choice) =
        some (ledger.deployment.applyRun queryID out) := by
      simp [Deployment.step, executed, living, taken]
    obtain ⟨where_, registry, slots, same⟩ := runStep_process taken
    refine ⟨.execution queryID choice, _, by rw [Ledger.step, stepped]; rfl, ⟨?_, ?_⟩, ?_⟩
    · exact submitted.step shape (step_move stepped)
    · refine ⟨out.process, ?_, by rw [same]; exact alive⟩
      simp [applyRun, setRun, setProc, where_]
    · right
      simpa [toGo, applyRun, setRun, executed] using closer

theorem Sound.can_release :
    ∃ later, Reaches (Ledger.step env) Always ledger later ∧
      later.released queryID = later.acquired queryID := by
  obtain ⟨later, path, sound, unheld⟩ := reaches_of_measure
    (fun ledger => Sound ledger ∧ Serves ledger.deployment pid queryID)
    (fun ledger => Sound ledger ∧ ¬ Holding ledger.deployment queryID)
    (fun ledger => toGo ledger.deployment queryID)
    (fun ledger holds short => by
      have holding : Holding ledger.deployment queryID :=
        not_not.mp fun unheld => short ⟨holds.1, unheld⟩
      obtain ⟨action, after, taken, serves, closer⟩ := holds.1.closer env holds.2 holding
      have sound := holds.1.step taken
      exact ⟨action, after, trivial, taken, ⟨sound, serves⟩, closer.imp_left fun free =>
        ⟨sound, free⟩⟩)
    ledger ⟨sound, serves⟩
  exact ⟨later, path, (sound.settles.free queryID unheld).1⟩

end

def InProgress (d : Deployment) (pid : Nat) (queryID : String) : Prop :=
  (∃ s ∈ d.subs queryID, s.pid = pid ∧ ∀ result, s.phase ≠ .returned result) ∨
    ∃ run ∈ d.runs queryID, run.pid = pid ∧ run.phase ≠ .done

theorem InProgress.of_holding {d : Deployment} (shape : Shape d)
    (holder : queryID ∈ slotHolders d pid) : InProgress d pid queryID := by
  obtain ⟨submitted, ⟨s, sub, holds⟩ | ⟨run, executed, holds⟩⟩ := holder
  · refine .inl ⟨s, sub, (SubmittedTo.unique ⟨s, sub, rfl⟩ submitted).symm, ?_⟩
    intro result phase
    rw [phase] at holds
    contradiction
  · obtain ⟨_, s, sub, own, _⟩ := shape.run queryID run executed
    refine .inr ⟨run, executed, submitted.unique ⟨s, sub, own⟩, ?_⟩
    intro phase
    rw [phase] at holds
    contradiction

theorem slotHolders_of_inFlight {d : Deployment} (shape : Shape d) (flying : InFlight d pid queryID)
    : queryID ∈ slotHolders d pid := by
  rcases flying with ⟨s, sub, own, registered⟩ | ⟨run, executed, own, registered⟩
  · exact ⟨⟨s, sub, own⟩, .inl ⟨s, sub, SubmitPhase.holdsSlot_of_registered registered⟩⟩
  · obtain ⟨_, s, sub, same, _⟩ := shape.run queryID run executed
    exact ⟨⟨s, sub, same.trans own⟩,
      .inr ⟨run, executed, RunPhase.holdsSlot_of_registered registered⟩⟩

section
variable (sound : Sound ledger)
include sound

theorem Sound.size_le {p : Process} (found : ledger.deployment.procs pid = some p) :
    (p.registry.size : ℕ∞) ≤ (slotHolders ledger.deployment pid).encard := by
  have size : p.registry.size = p.registry.activeReg.keys.toFinset.card := by
    rw [List.toFinset_card_of_nodup (AList.keys_nodup _)]
    simp [Registry.size, AList.keys, List.keys]
  rw [size, ← Set.encard_coe_eq_coe_finsetCard]
  refine Set.encard_le_encard fun queryID listed => ?_
  have member : queryID ∈ p.registry.activeReg := AList.mem_keys.mpr (by simpa using listed)
  exact slotHolders_of_inFlight sound.shape (sound.entered pid p queryID found member)

theorem Sound.holding_iff (queryID : String) :
    Holding ledger.deployment queryID ↔ ledger.released queryID < ledger.acquired queryID := by
  constructor
  · intro holding
    obtain ⟨_, _⟩ := sound.settles.held queryID holding
    omega
  · intro more
    by_contra unheld
    have same := (sound.settles.free queryID unheld).1
    omega

theorem Sound.balance {n : Nat} {p : Process} (found : ledger.deployment.procs pid = some p)
    (limit : p.slots.limit = some n) :
    { queryID | SubmittedTo ledger.deployment pid queryID ∧
        ledger.released queryID < ledger.acquired queryID }.encard = p.slots.used ∧
      p.slots.used ≤ n ∧ p.registry.size ≤ p.slots.used := by
  obtain ⟨count, room⟩ := sound.counted pid p n found limit
  have holders : { queryID | SubmittedTo ledger.deployment pid queryID ∧
      ledger.released queryID < ledger.acquired queryID } =
        slotHolders ledger.deployment pid := by
    ext queryID
    exact and_congr_right' (sound.holding_iff queryID).symm
  have small := sound.size_le found
  rw [count] at small
  exact ⟨holders ▸ count, room, Nat.cast_le.mp small⟩

end

/-- Slots are neither exceeded nor leaked. A process starts with
`max_concurrent_queries` = `n` > 0 in any reachable state, and whatever happens then:
the occupied slots are as many as the queries that took one and have not given it
back; a query takes at most one slot and gives back no more than it took, it has given
back what it took once it has ended, and as long as the process runs it can; neither
the occupied slots nor the registry exceed `n`, and both are empty when nothing is in
progress. -/
theorem slots_neither_exceeded_nor_leaked (now : Time) (earlier begun ledger : Ledger) (pid n : Nat)
    (given cfg : Config) (pools : List String) (reached : Reaches (Ledger.step env) Always
      { deployment := Deployment.initial now } earlier) (accepted : validate given = .ok cfg)
    (limited : cfg.defaults.maxConcurrentQueries = n) (positive : 0 < n)
    (started : Ledger.step env earlier (.start pid given pools) = some begun)
    (run : Reaches (Ledger.step env) Always begun ledger) :
    ∃ p, ledger.deployment.procs pid = some p ∧
      { queryID | SubmittedTo ledger.deployment pid queryID ∧
        ledger.released queryID < ledger.acquired queryID }.encard = p.slots.used ∧
      (∀ queryID, ledger.released queryID ≤ ledger.acquired queryID ∧
        ledger.acquired queryID ≤ 1) ∧
      (∀ queryID, SubmittedTo ledger.deployment pid queryID →
        ¬ InProgress ledger.deployment pid queryID →
        ledger.released queryID = ledger.acquired queryID) ∧
      (p.alive = true → ∀ queryID, SubmittedTo ledger.deployment pid queryID →
        ∃ later, Reaches (Ledger.step env) Always ledger later ∧
          later.released queryID = later.acquired queryID) ∧
      p.slots.used ≤ n ∧ p.registry.size ≤ n ∧
      ((∀ queryID, ¬ InProgress ledger.deployment pid queryID) →
        p.slots.used = 0 ∧ p.registry.size = 0) := by
  have step : ∀ before action after, Sound before → Always before action →
      Ledger.step env before action = some after → Sound after :=
    fun _ _ _ sound _ taken => sound.step taken
  have sound := reached.invariant Sound (Sound.initial now) step
  -- the process starts with a channel of capacity `n`, and keeps it
  have capacity : ∃ p, begun.deployment.procs pid = some p ∧ p.slots.limit = some n := by
    obtain ⟨after, taken, rfl⟩ := Option.map_eq_some_iff.mp started
    cases step_move taken with
    | started _ _ _ _ _ valid =>
      cases accepted.symm.trans valid
      refine ⟨_, setProc_procs_self .., ?_⟩
      simp [Process.new, limited, positive]
    | operated _ _ _ _ _ _ operated => cases operated
  obtain ⟨sound, p, found, limit⟩ := run.invariant
    (fun ledger => Sound ledger ∧
      ∃ p, ledger.deployment.procs pid = some p ∧ p.slots.limit = some n)
    ⟨sound.step started, capacity⟩ (by
      rintro before action after ⟨sound, p, found, limit⟩ _ taken
      refine ⟨sound.step taken, ?_⟩
      obtain ⟨_, stepped, rfl⟩ := Option.map_eq_some_iff.mp taken
      obtain ⟨q, present, same⟩ := (step_move stepped).slots_limit sound.shape found
      exact ⟨q, present, same.trans limit⟩)
  obtain ⟨balance, room, small⟩ := sound.balance found limit
  refine ⟨p, found, balance, fun queryID => ?_, fun queryID submitted ended => ?_,
    fun alive queryID submitted => sound.can_release env ⟨submitted, p, found, alive⟩,
    room, small.trans room, fun idle => ?_⟩
  · by_cases holding : Holding ledger.deployment queryID
    · obtain ⟨_, none_⟩ := sound.settles.held queryID holding
      omega
    · obtain ⟨same, _⟩ := sound.settles.free queryID holding
      omega
  · refine (sound.settles.free queryID fun holding => ended ?_).1
    exact .of_holding sound.shape ⟨submitted, holding⟩
  · have nobody : slotHolders ledger.deployment pid = ∅ :=
      Set.eq_empty_of_forall_notMem fun queryID holder =>
        idle queryID (.of_holding sound.shape holder)
    have count := (sound.counted pid p n found limit).1
    rw [nobody, Set.encard_empty] at count
    have none_ : p.slots.used = 0 := by exact_mod_cast count.symm
    exact ⟨none_, Nat.le_zero.mp (none_ ▸ small)⟩

def oneSlotConfig : Config :=
  { sampleConfig "a" with defaults := { maxConcurrentQueries := 1 } }

def crowded : List Action :=
  [.reaper 1 (.listed .ok []), .reaper 1 .next] ++
    .submit 1 none "q" "db" "SELECT 1" {} :: List.replicate 6 (.submission "q" .ok) ++
    .submit 1 none "r" "db" "SELECT 1" {} :: List.replicate 3 (.submission "r" .ok)

def slotsView (ledger : Ledger) : Option (Nat × Nat) × List (Nat × Nat) :=
  ((ledger.deployment.procs 1).map fun p => (p.slots.used, p.registry.size),
    ["q", "r"].map fun queryID => (ledger.acquired queryID, ledger.released queryID))

theorem one_slot_is_kept_for_the_running_query :
    ∃ begun ledger, Reaches (Ledger.step sampleEnv) Always begun ledger ∧
      slotsView ledger = (some (1, 1), [(1, 0), (0, 0)]) ∧
      ∃ p, ledger.deployment.procs 1 = some p ∧ p.slots.used ≤ 1 := by
  obtain ⟨begun, started, ledger, replayed, view⟩ :
      ∃ begun ∈ Ledger.step sampleEnv { deployment := Deployment.initial 1 }
        (.start 1 oneSlotConfig ["db"]),
        ∃ ledger ∈ execute (Ledger.step sampleEnv) Always crowded begun,
          slotsView ledger = (some (1, 1), [(1, 0), (0, 0)]) := by
    decide +kernel
  have path := reaches_of_execute _ _ _ replayed
  have accepted : ∃ cfg, validate oneSlotConfig = .ok cfg ∧
      cfg.defaults.maxConcurrentQueries = (1 : Nat) := by
    have valid : (validate oneSlotConfig).toOption.map (·.defaults.maxConcurrentQueries) =
        some 1 := by
      decide +kernel
    cases result : validate oneSlotConfig with
    | error => simp [result, Except.toOption] at valid
    | ok cfg => exact ⟨cfg, rfl, by simpa [result, Except.toOption] using valid⟩
  obtain ⟨cfg, accepted, limited⟩ := accepted
  obtain ⟨p, found, _, _, _, _, room, _⟩ := slots_neither_exceeded_nor_leaked sampleEnv 1
    { deployment := Deployment.initial 1 } begun ledger 1 1 oneSlotConfig cfg ["db"] (.refl _)
    accepted limited Nat.one_pos started path
  exact ⟨begun, ledger, path, view, p, found, room⟩

end Ledger

end Deployment

end DbBridge.Cluster
