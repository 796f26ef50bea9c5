import DbBridge.Cluster.Writes

/-!
# The registry of a process

A goroutine between `admit` and `deregister` has an entry in the registry of its
process, and every entry is that of a query submitted to this process.
-/

namespace DbBridge.Cluster

open Domain State

/-! ## Who has a registry entry -/

/-- Between `admit` and the hand-over to `run`, or before the rollback's
`deregister`. -/
def SubmitPhase.registered : SubmitPhase → Bool
  | .put _ | .lease _ | .launch _ | .dropEntry _ => true
  | _ => false

def RunPhase.registered : RunPhase → Bool
  | .freeSlot | .done => false
  | _ => true

theorem SubmitPhase.not_registered_of_past {phase : SubmitPhase} (past : phase.past = true) :
    phase.registered = false := by
  cases phase <;> first | rfl | simp [SubmitPhase.past] at past

variable {phase : RunPhase}

theorem RunPhase.registered_of_writing {snapshot : QueryRecord}
    (writing : phase.writing? = some snapshot) : phase.registered = true := by
  cases phase <;> first | rfl | simp [RunPhase.writing?] at writing

variable {m : MetaStore}

theorem submitStep_registry {now : Time} {p : Process} {s : Submission} {reply : Reply}
    {out : SubmitOutcome} (taken : submitStep now m p s reply = some out) :
    (out.process.registry = p.registry ∧
        (out.phase.registered = true ∨ out.launched.isSome = true ↔
          s.phase.registered = true)) ∨
      (s.phase = .admitting ∧
        p.registry.admitQuery s.queryID s.dbID = .ok out.process.registry ∧
        out.phase.registered = true) ∨
      (out.process.registry = p.registry.deregister s.queryID ∧
        out.phase.registered = false ∧ out.launched = none ∧ s.phase.past = false) := by
  cases submitStep_move taken with
  | admitted _ _ phase listed => exact .inr (.inl ⟨phase, listed, rfl⟩)
  | dropped _ _ phase => exact .inr (.inr ⟨rfl, rfl, rfl, by rw [phase]; rfl⟩)
  | claimed phase | unclaimed _ _ _ phase =>
    rcases phase with phase | phase <;> simp [phase, SubmitPhase.registered]
  | replied _ _ _ phase =>
    rcases phase with phase | phase | ⟨phase, _⟩ <;> simp [phase, SubmitPhase.registered]
  | launched _ _ _ phase => simp [phase, SubmitPhase.registered]
  | _ => simp_all [SubmitPhase.registered]

theorem complete_registered (now : Time) (run : Run) (next : QueryState) :
    (complete now run next).phase.registered = true := by
  unfold complete
  split <;> rfl

theorem RunPhase.registered_of_reporter {reporter : Reporter}
    (reporting : phase.reporter? = some reporter) : phase.registered = true := by
  cases phase <;> first | rfl | contradiction

section
variable {now : Time} {choice : RunChoice} {run : Run} {objects : List ObjectName}
  {out : RunOutcome} {p : Process} (taken : runStep now m p objects run choice = some out)
include taken

/-- The body of `run` keeps the registry entry and the slot; its two deferred calls
give them up, in this order. -/
theorem runStep_deferred :
    (out.process = p ∧ run.phase.registered = true ∧ out.run.phase.registered = true) ∨
      (run.phase = .deregister ∧ out.run.phase = .freeSlot ∧
        out.process = { p with registry := p.registry.deregister run.record.id }) ∨
      (run.phase = .freeSlot ∧ out.run.phase = .done ∧
        out.process = { p with slots := p.slots.release }) := by
  cases runStep_move taken with
  | deregistered phase => exact .inr (.inl ⟨phase, rfl, rfl⟩)
  | freed phase => exact .inr (.inr ⟨phase, rfl, rfl⟩)
  | took _ next _ reporting _ stays | progressed _ next _ _ _ reporting _ stays =>
    subst stays
    exact .inl ⟨rfl, RunPhase.registered_of_reporter reporting,
      RunPhase.registered_of_reporter (RunPhase.withReporter_reporter? reporting next)⟩
  | execFailed _ _ _ phase | storeFailed _ _ _ phase | discarded _ _ _ _ _ _ _ phase =>
    exact .inl ⟨rfl, by rw [phase]; rfl, complete_registered ..⟩
  | closed _ _ _ _ _ _ phase =>
    refine .inl ⟨rfl, by rw [phase]; rfl, ?_⟩
    dsimp only
    unfold afterClose
    split
    · rfl
    · rfl
    · exact complete_registered ..
  | begun _ _ _ _ phase continues =>
    refine .inl ⟨rfl, by rw [phase]; rfl, ?_⟩
    rcases continues with rfl | ⟨_, rfl⟩ <;> rfl
  | ended _ _ _ _ phase continues =>
    refine .inl ⟨rfl, by rw [phase]; rfl, ?_⟩
    rcases continues with ⟨rfl, _⟩ | ⟨_, rfl⟩
    · simp only [afterPersist]
      split <;> rfl
    · rfl
  | started phase | refused phase | executed _ _ phase | opened _ _ phase
  | reported _ _ _ _ _ _ phase | encoded _ _ _ _ _ _ phase | unread _ _ _ _ _ phase
  | stopped _ _ _ _ _ phase | refreshed _ phase => exact .inl ⟨rfl, by rw [phase]; rfl, rfl⟩

theorem runStep_registry : (out.process.registry = p.registry ∧
        (out.run.phase.registered = true ↔ run.phase.registered = true)) ∨
      (out.process.registry = p.registry.deregister run.record.id ∧
        out.run.phase.registered = false) := by
  rcases runStep_deferred taken with ⟨same, was, is⟩ | ⟨_, phase, process⟩ |
    ⟨was, phase, process⟩
  · exact .inl ⟨by rw [same], by simp [was, is]⟩
  · exact .inr ⟨by rw [process], by rw [phase]; rfl⟩
  · exact .inl ⟨by rw [process], by rw [phase, was]; simp [RunPhase.registered]⟩

end

variable {d : Deployment} {pid : Nat} {before : Process}

namespace Deployment

/-- A goroutine of process `pid` works on `queryID` and has its registry entry. -/
def InFlight (d : Deployment) (pid : Nat) (queryID : String) : Prop :=
  (∃ s, d.subs queryID = some s ∧ s.pid = pid ∧ s.phase.registered = true) ∨
    ∃ run, d.runs queryID = some run ∧ run.pid = pid ∧ run.phase.registered = true

def Registered (d : Deployment) : Prop :=
  ∀ pid p queryID, d.procs pid = some p → InFlight d pid queryID →
    queryID ∈ p.registry.activeReg

variable {queryID : String}

theorem Shape.inFlight_proc (shape : Shape d) (flying : InFlight d pid queryID) :
    ∃ p, d.procs pid = some p := by
  rcases flying with ⟨s, sub, rfl, _⟩ | ⟨run, executed, rfl, _⟩
  · obtain ⟨_, p, found, _⟩ := shape.sub queryID s sub
    exact ⟨p, found⟩
  · obtain ⟨_, s, sub, same, _⟩ := shape.run queryID run executed
    obtain ⟨_, p, found, _⟩ := shape.sub queryID s sub
    exact ⟨p, same ▸ found⟩

section
variable {env : Env} {after : Deployment} {action : Action} {next : Process}

section
variable (shape : Shape d) (move : Move env d action after)
include shape move

theorem Move.inFlight (present : after.procs pid = some next)
    (flying : InFlight after pid queryID) :
    InFlight d pid queryID ∨ queryID ∈ next.registry.activeReg := by
  rcases flying with ⟨s, sub, own, registered⟩ | ⟨run, executed, own, registered⟩
  · rcases move.sub_origin shape sub with
      same | first | ⟨_, before, p, out, _, known, _, taken, rfl, moved⟩
    · exact .inl (.inl ⟨s, same, own, registered⟩)
    · rw [first, Submission.firstPhase] at registered
      split at registered <;> contradiction
    · rcases submitStep_registry taken with ⟨_, before_⟩ | ⟨_, admitted, _⟩ | ⟨_, dropped, _⟩
      · exact .inl (.inl ⟨before, known, own, before_.mp (.inl registered)⟩)
      · obtain ⟨rfl, _⟩ := shape.sub queryID before known
        rw [own, present] at moved
        rw [Option.some.inj moved, Registry.admitQuery_activeReg admitted]
        exact .inr (AList.mem_insert _ |>.mpr (.inl rfl))
      · rw [dropped] at registered
        contradiction
  · rcases move.run_origin shape executed with
      same | ⟨_, s, _, _, sub, phase, rfl⟩ | ⟨_, before, p, out, _, known, _, taken, rfl⟩
    · exact .inl (.inr ⟨run, same, own, registered⟩)
    · exact .inl (.inl ⟨s, sub, own, by rw [phase]; rfl⟩)
    · rcases runStep_registry taken with ⟨_, before_⟩ | ⟨_, dropped⟩
      · exact .inl (.inr ⟨before, known, (runStep_process taken).1 ▸ own,
          before_.mp registered⟩)
      · rw [dropped] at registered
        contradiction

theorem Move.registry (was : d.procs pid = some before) (present : after.procs pid = some next) :
    next.registry = before.registry ∨ next.registry = before.registry.drain ∨
      (∃ s, d.subs s.queryID = some s ∧ s.pid = pid ∧ s.phase = .admitting ∧
        before.registry.admitQuery s.queryID s.dbID = .ok next.registry ∧
        InFlight after pid s.queryID) ∨
      ∃ queryID, next.registry = before.registry.deregister queryID ∧
        ¬ InFlight after pid queryID := by
  obtain ⟨same, kept, evolves⟩ := move.evolves was
  rw [present] at kept
  cases kept
  cases evolves with
  | kept => exact .inl rfl
  | submission id _ s out sub own taken =>
    obtain ⟨rfl, _⟩ := shape.sub id s sub
    rcases submitStep_registry taken with
      ⟨same, _⟩ | ⟨phase, admitted, entered⟩ | ⟨dropped, ended, quiet, early⟩
    · exact .inl same
    · have flying : InFlight (d.applySubmit s out) pid s.queryID :=
        .inl ⟨{ s with phase := out.phase }, by simp [applySubmit_subs], own, entered⟩
      exact .inr (.inr (.inl ⟨s, sub, own, phase, admitted, flying⟩))
    · refine .inr (.inr (.inr ⟨s.queryID, dropped, ?_⟩))
      rintro (⟨t, changed, _, registered⟩ | ⟨run, executed, _⟩)
      · rw [applySubmit_subs, Function.update_self] at changed
        cases changed
        rw [ended] at registered
        contradiction
      · simp only [applySubmit_runs, quiet] at executed
        rw [shape.no_run sub early] at executed
        contradiction
  | execution id _ run _ executed _ taken =>
    obtain ⟨⟨rfl, _⟩, s, sub, _, past⟩ := shape.run id run executed
    rcases runStep_registry taken with ⟨same, _⟩ | ⟨dropped, ended⟩
    · exact .inl same
    · refine .inr (.inr (.inr ⟨run.record.id, dropped, ?_⟩))
      rintro (⟨t, waiting, _, registered⟩ | ⟨_, changed, _, registered⟩)
      · rw [show d.subs run.record.id = some t from waiting] at sub
        cases sub
        rw [SubmitPhase.not_registered_of_past past] at registered
        contradiction
      · simp only [applyRun, setRun, Function.update_self, Option.some.injEq] at changed
        subst changed
        rw [ended] at registered
        contradiction
  | reaper _ _ _ taken =>
    obtain ⟨reaper, _, process⟩ := reaperStep_process taken
    exact .inl (by rw [process])
  | gc _ _ taken =>
    obtain ⟨gc, process⟩ := gcStep_process taken
    exact .inl (by rw [process])
  | heart _ _ _ taken =>
    obtain ⟨_, heart, _, process, _⟩ := heartStep_process taken
    exact .inl (by rw [process])
  | operated _ _ operated =>
    cases operated with
    | drained => exact .inr (.inl rfl)
    | reloaded | stopped | crashed => exact .inl rfl

end

theorem Registered.step (shape : Shape d) (registered : Registered d)
    (move : Move env d action after) : Registered after := by
  intro pid next queryID present flying
  rcases move.inFlight shape present flying with before | admitted
  · obtain ⟨p, was⟩ := shape.inFlight_proc before
    have member := registered pid p queryID was before
    rcases move.registry shape was present with
      same | drained | ⟨_, _, _, _, admitted, _⟩ | ⟨_, removed, landed⟩
    · rwa [same]
    · rwa [drained]
    · rw [Registry.admitQuery_activeReg admitted]
      exact (AList.mem_insert _).mpr (.inr member)
    · rw [removed]
      refine AList.mem_erase.mpr ⟨?_, member⟩
      rintro rfl
      exact landed flying
  · exact admitted

theorem Reachable.registered {guard : Deployment → Action → Prop}
    (reached : Reachable env guard d) : Registered d :=
  reached.invariant Registered (by simp [Registered, initial])
    fun shape registered _ move => registered.step shape move

theorem Move.inFlight_next (shape : Shape d) (move : Move env d action after)
    (present : after.procs pid = some next) (flying : InFlight d pid queryID)
    (listed : queryID ∈ next.registry.activeReg) : InFlight after pid queryID := by
  have erased : ∀ registry : Registry, queryID ∉ (registry.deregister queryID).activeReg :=
    fun registry member => (AList.mem_erase.mp member).1 rfl
  rcases flying with ⟨s, sub, rfl, registered⟩ | ⟨run, executed, rfl, registered⟩
  · obtain ⟨rfl, _⟩ := shape.sub queryID s sub
    rcases move.sub_next shape sub with ⟨same, _⟩ | ⟨_, p, out, _, taken, moved, rfl⟩
    · exact .inl ⟨s, same, rfl, registered⟩
    · rcases submitStep_registry taken with ⟨_, carried⟩ | ⟨phase, _⟩ | ⟨dropped, _⟩
      · rcases carried.mpr registered with stays | launched
        · exact .inl ⟨_, moved, rfl, stays⟩
        · obtain ⟨record, launched⟩ := Option.isSome_iff_exists.mp launched
          exact .inr ⟨{ pid := s.pid, record := record },
            by simp [applySubmit_runs, launched], rfl, rfl⟩
      · rw [phase] at registered
        contradiction
      · rw [applySubmit_procs, setProc_procs_self, Option.some.injEq] at present
        rw [← present, dropped] at listed
        exact (erased _ listed).elim
  · obtain ⟨⟨rfl, _⟩, _⟩ := shape.run queryID run executed
    rcases move.run_next shape executed with same | ⟨_, p, out, _, _, _, taken, rfl⟩
    · exact .inr ⟨run, same, rfl, registered⟩
    · have where_ := (runStep_process taken).1
      rcases runStep_registry taken with ⟨_, carried⟩ | ⟨dropped, _⟩
      · exact .inr ⟨out.run, by simp [applyRun, setRun], where_, carried.mpr registered⟩
      · rw [← where_, applyRun] at present
        simp only [setRun, setProc, Function.update_self, Option.some.injEq] at present
        rw [← present, dropped] at listed
        exact (erased _ listed).elim

def Entered (d : Deployment) : Prop :=
  ∀ pid p queryID, d.procs pid = some p → queryID ∈ p.registry.activeReg →
    InFlight d pid queryID

/-- An entry was there before, or the submission of its query has just made it. -/
theorem Move.entry_origin (shape : Shape d) (move : Move env d action after)
    (present : after.procs pid = some next) (member : queryID ∈ next.registry.activeReg) :
    (∃ before, d.procs pid = some before ∧ queryID ∈ before.registry.activeReg) ∨
      (∃ s, d.subs queryID = some s ∧ s.pid = pid) ∧ InFlight after pid queryID := by
  rcases move.origin pid next present with ⟨before, was, _⟩ | ⟨_, _, _, _, _, _, rfl⟩
  · rcases move.registry shape was present with
      same | drained | ⟨s, sub, own, _, admitted, flying⟩ | ⟨_, removed, _⟩
    · exact .inl ⟨before, was, same ▸ member⟩
    · rw [drained] at member
      exact .inl ⟨before, was, member⟩
    · rw [Registry.admitQuery_activeReg admitted] at member
      rcases (AList.mem_insert _).mp member with rfl | known
      · exact .inr ⟨⟨s, sub, own⟩, flying⟩
      · exact .inl ⟨before, was, known⟩
    · rw [removed] at member
      exact .inl ⟨before, was, (AList.mem_erase.mp member).2⟩
  · contradiction

theorem Entered.step (entered : Entered d) (shape : Shape d)
    (move : Move env d action after) : Entered after := by
  intro pid next queryID present member
  rcases move.entry_origin shape present member with ⟨before, was, known⟩ | ⟨_, flying⟩
  · exact move.inFlight_next shape present (entered pid before queryID was known) member
  · exact flying

theorem Move.draining (shape : Shape d) (move : Move env d action after)
    (was : d.procs pid = some before) (present : after.procs pid = some next)
    (draining : before.registry.draining = true) : next.registry.draining = true ∧
      next.registry.activeReg.keys ⊆ before.registry.activeReg.keys := by
  rcases move.registry shape was present with
    same | drained | ⟨_, _, _, _, admitted, _⟩ | ⟨_, removed, _⟩
  · rw [same]
    exact ⟨draining, List.Subset.refl _⟩
  · rw [drained]
    exact ⟨rfl, List.Subset.refl _⟩
  · simp [Registry.admitQuery, draining] at admitted
  · rw [removed]
    refine ⟨draining, fun id member => ?_⟩
    exact (AList.mem_erase.mp member).2

end

/-! ## Whose the entries are -/

def SubmittedTo (d : Deployment) (pid : Nat) (queryID : String) : Prop :=
  ∃ s, d.subs queryID = some s ∧ s.pid = pid

theorem SubmittedTo.unique {other : Nat} (here : SubmittedTo d pid queryID)
    (there : SubmittedTo d other queryID) : other = pid := by
  obtain ⟨_, sub, rfl⟩ := here
  obtain ⟨_, same, rfl⟩ := there
  rw [sub] at same
  cases same
  rfl

section
variable {env : Env} {after : Deployment} {action : Action}

theorem SubmittedTo.step (owner : SubmittedTo d pid queryID) (shape : Shape d)
    (move : Move env d action after) : SubmittedTo after pid queryID := by
  obtain ⟨_, sub, own⟩ := owner
  obtain ⟨_, kept⟩ := move.sub_kept shape sub
  exact ⟨_, kept, own⟩

def OwnEntries (d : Deployment) : Prop :=
  ∀ pid p queryID, d.procs pid = some p → queryID ∈ p.registry.activeReg →
    SubmittedTo d pid queryID

theorem OwnEntries.step (entries : OwnEntries d) (shape : Shape d)
    (move : Move env d action after) : OwnEntries after := by
  intro pid next queryID present member
  rcases move.entry_origin shape present member with ⟨before, was, known⟩ | ⟨made, _⟩
  · exact (entries pid before queryID was known).step shape move
  · exact SubmittedTo.step made shape move

end

end Deployment

end DbBridge.Cluster
