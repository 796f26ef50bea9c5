import Mathlib.Data.Set.Card
import DbBridge.Cluster.Registry

/-!
# Concurrency slots

`SubmitQuery` takes a slot, and `run` gives it back in a deferred call, or the
rollback of `SubmitQuery` does. `releaseSlot` on an empty channel does nothing, so a
slot given back twice would go unnoticed by the channel. `Holding` says which
goroutines hold a slot by where they are; `SlotMove` lists what an action does to the
slots, and the occupied slots of a process are as many as its holders.
-/

namespace DbBridge.Cluster

open Domain State

/-! ## Who holds a slot -/

/-- Between `acquireSlot` and the hand-over to `run`, or before the rollback's
`releaseSlot`. -/
def SubmitPhase.holdsSlot : SubmitPhase → Bool
  | .admitting | .put _ | .lease _ | .launch _ | .dropEntry _ | .freeSlot _ => true
  | _ => false

def SubmitPhase.beforeSlot : SubmitPhase → Bool
  | .acquire | .lookup _ | .reclaim _ | .reacquire | .relookup _ | .ping | .slot => true
  | _ => false

def RunPhase.holdsSlot : RunPhase → Bool
  | .done => false
  | _ => true

variable {phase : SubmitPhase}

theorem SubmitPhase.holdsSlot_of_registered (registered : phase.registered = true) :
    phase.holdsSlot = true := by
  cases phase <;> first | rfl | contradiction

theorem SubmitPhase.not_holdsSlot_of_past (past : phase.past = true) : phase.holdsSlot = false := by
  cases phase <;> first | rfl | contradiction

theorem SubmitPhase.not_past_of_holdsSlot (holds : phase.holdsSlot = true) :
    phase.past = false := by
  cases phase <;> first | rfl | contradiction

theorem RunPhase.holdsSlot_of_registered {phase : RunPhase}
    (registered : phase.registered = true) : phase.holdsSlot = true := by
  cases phase <;> first | rfl | contradiction

theorem Submission.firstPhase_beforeSlot (opts : QueryOptions) :
    (Submission.firstPhase opts).beforeSlot = true ∧
      (Submission.firstPhase opts).holdsSlot = false := by
  unfold Submission.firstPhase
  split <;> exact ⟨rfl, rfl⟩

theorem Slots.acquire_limit {slots taken : Slots} (acquired : slots.acquire = some taken) :
    taken.limit = slots.limit := by
  unfold Slots.acquire at acquired
  split at acquired
  · cases acquired
    rfl
  · split at acquired <;> cases acquired
    rfl

@[simp] theorem Slots.release_limit (slots : Slots) : slots.release.limit = slots.limit := by
  unfold Slots.release
  split <;> rfl

variable {out : SubmitOutcome} {reply : Reply}

theorem submitStep_slots {now : Time} {m : MetaStore} {p : Process} {s : Submission}
    (taken : submitStep now m p s reply = some out) :
    (out.process.slots = p.slots ∧ s.phase ≠ .slot ∧ (∀ err, s.phase ≠ .freeSlot err) ∧
        (out.phase.holdsSlot = true ∨ out.launched.isSome = true ↔
          s.phase.holdsSlot = true) ∧
        (out.phase.beforeSlot = true → s.phase.beforeSlot = true)) ∨
      (s.phase = .slot ∧ p.slots.acquire = none ∧ out.process.slots = p.slots ∧
        out.phase.holdsSlot = false ∧ out.launched = none ∧ out.phase.beforeSlot = false) ∨
      (s.phase = .slot ∧ p.slots.acquire = some out.process.slots ∧
        out.phase.holdsSlot = true ∧ out.phase.beforeSlot = false) ∨
      (∃ err, s.phase = .freeSlot err) ∧ out.process.slots = p.slots.release ∧
        out.phase.holdsSlot = false ∧ out.launched = none ∧ out.phase.beforeSlot = false := by
  cases submitStep_move taken with
  | seated _ _ phase acquired => exact .inr (.inr (.inl ⟨phase, acquired, rfl, rfl⟩))
  | crowded _ _ phase full => exact .inr (.inl ⟨phase, full, rfl, rfl, rfl, rfl⟩)
  | unseated _ err phase => exact .inr (.inr (.inr ⟨⟨err, phase⟩, rfl, rfl, rfl, rfl⟩))
  | claimed phase | unclaimed _ _ _ phase =>
    rcases phase with phase | phase <;>
      simp [phase, SubmitPhase.holdsSlot, SubmitPhase.beforeSlot]
  | replied _ _ _ phase =>
    rcases phase with phase | phase | ⟨phase, _⟩ <;>
      simp [phase, SubmitPhase.holdsSlot, SubmitPhase.beforeSlot]
  | launched _ _ _ phase continues =>
    rcases continues with rfl | rfl <;>
      simp [phase, SubmitPhase.holdsSlot, SubmitPhase.beforeSlot]
  | _ => simp_all [SubmitPhase.holdsSlot, SubmitPhase.beforeSlot]

namespace Deployment

def Holding (d : Deployment) (queryID : String) : Prop :=
  (∃ s ∈ d.subs queryID, s.phase.holdsSlot = true) ∨
    ∃ run ∈ d.runs queryID, run.phase.holdsSlot = true

def BeforeSlot (d : Deployment) (queryID : String) : Prop :=
  ∀ s ∈ d.subs queryID, s.phase.beforeSlot = true

/-- A call that takes a slot of process `pid` for a query, or gives it back. -/
inductive SlotCall where
  | acquired (pid : Nat) (queryID : String)
  | released (pid : Nat) (queryID : String)

/-- The call an action makes in state `d`; an `acquireSlot` that finds no room takes
nothing. -/
def slotCall (d : Deployment) : Action → Option SlotCall
  | .submission queryID _ => do
      let s ← d.subs queryID
      match s.phase with
      | .slot =>
        let p ← d.procs s.pid
        let _ ← p.slots.acquire
        some (.acquired s.pid queryID)
      | .freeSlot _ => some (.released s.pid queryID)
      | _ => none
  | .execution queryID _ => do
      let run ← d.runs queryID
      match run.phase with
      | .freeSlot => some (.released run.pid queryID)
      | _ => none
  | _ => none

def SameSlots (d after : Deployment) (pid : Option Nat) : Prop :=
  ∀ other before next, some other ≠ pid → d.procs other = some before →
    after.procs other = some next → next.slots = before.slots

variable {before : Process} {next : Process}

theorem SameSlots.none {d after : Deployment} {pid : Nat} (others : SameSlots d after (some pid))
    (was : d.procs pid = some before) (present : after.procs pid = some next)
    (same : next.slots = before.slots) : SameSlots d after none := by
  intro other earlier later _ was_ present_
  by_cases own : some other = some pid
  · cases own
    cases was.symm.trans was_
    cases present.symm.trans present_
    exact same
  · exact others other earlier later own was_ present_

inductive SlotMove (d after : Deployment) : Option SlotCall → Prop
  | kept (slots : SameSlots d after none)
      (holding : ∀ queryID, Holding after queryID ↔ Holding d queryID) :
      SlotMove d after none
  | acquired (pid : Nat) (queryID : String) (before next : Process)
      (was : d.procs pid = some before) (present : after.procs pid = some next)
      (owner : SubmittedTo d pid queryID) (early : BeforeSlot d queryID)
      (late : ¬ BeforeSlot after queryID) (free : ¬ Holding d queryID)
      (taken : before.slots.acquire = some next.slots)
      (others : SameSlots d after (some pid))
      (holding : ∀ id, Holding after id ↔ Holding d id ∨ id = queryID) :
      SlotMove d after (some (.acquired pid queryID))
  | released (pid : Nat) (queryID : String) (before next : Process)
      (was : d.procs pid = some before) (present : after.procs pid = some next)
      (owner : SubmittedTo d pid queryID) (held : Holding d queryID)
      (given : next.slots = before.slots.release)
      (others : SameSlots d after (some pid))
      (holding : ∀ id, Holding after id ↔ Holding d id ∧ id ≠ queryID) :
      SlotMove d after (some (.released pid queryID))

section
variable {env : Env} {d after : Deployment} {action : Action} {queryID : String} {s : Submission}
  {p : Process} {pid : Nat}

theorem Shape.not_holding (shape : Shape d) (sub : d.subs queryID = some s)
    (early : s.phase.beforeSlot = true) : ¬ Holding d queryID := by
  have unpast : s.phase.past = false := by
    cases phase : s.phase <;> simp [phase, SubmitPhase.beforeSlot] at early <;> rfl
  rintro (⟨_, same, holds⟩ | ⟨_, executed, _⟩)
  · cases sub.symm.trans same
    cases phase : s.phase <;> simp [phase, SubmitPhase.beforeSlot, SubmitPhase.holdsSlot]
      at early holds
  · rw [shape.no_run sub unpast] at executed
    contradiction

theorem Move.sameSlots (move : Move env d action after)
    (submission : ∀ queryID reply, action ≠ .submission queryID reply)
    (execution : ∀ queryID choice, action ≠ .execution queryID choice) :
    SameSlots d after none := by
  intro pid before next _ was present
  rcases (move.parts was present).slots with same | ⟨id, reply, rfl⟩ | ⟨id, choice, rfl⟩
  · exact same
  · exact (submission id reply rfl).elim
  · exact (execution id choice rfl).elim

theorem applySubmit_holding (d : Deployment) (s : Submission) (out : SubmitOutcome)
    (ne : queryID ≠ s.queryID) : Holding (d.applySubmit s out) queryID ↔ Holding d queryID := by
  have runs : (d.applySubmit s out).runs queryID = d.runs queryID := by
    rw [applySubmit_runs]
    cases out.launched <;> simp [Function.update_of_ne ne]
  simp only [Holding, applySubmit_subs, runs, Function.update_of_ne ne]

theorem applySubmit_holding_self (d : Deployment) (s : Submission) (out : SubmitOutcome)
    (unlaunched : d.runs s.queryID = none) :
    Holding (d.applySubmit s out) s.queryID ↔
      out.phase.holdsSlot = true ∨ out.launched.isSome = true := by
  have runs : (∃ run ∈ (d.applySubmit s out).runs s.queryID, run.phase.holdsSlot = true) ↔
      out.launched.isSome = true := by
    rw [applySubmit_runs]
    cases out.launched <;> simp [unlaunched, RunPhase.holdsSlot]
  rw [Holding, runs]
  simp [applySubmit_subs]

theorem applySubmit_sameSlots (d : Deployment) (s : Submission) (out : SubmitOutcome) :
    SameSlots d (d.applySubmit s out) (some s.pid) := by
  intro other before next ne was present
  rw [applySubmit_procs, setProc_procs_of_ne _ _ (fun same => ne (congrArg some same)), was]
    at present
  cases present
  rfl

theorem applyRun_holding (d : Deployment) (id : String) (out : RunOutcome) (ne : queryID ≠ id) :
    Holding (d.applyRun id out) queryID ↔ Holding d queryID := by
  simp only [Holding, applyRun, setRun, setProc, Function.update_of_ne ne]

section
variable (shape : Shape d)
include shape

theorem applySubmit_holding_kept (sub : d.subs s.queryID = some s)
    (taken : submitStep d.now d.store p s reply = some out)
    (carried : out.phase.holdsSlot = true ∨ out.launched.isSome = true ↔ s.phase.holdsSlot = true)
    (queryID : String) : Holding (d.applySubmit s out) queryID ↔ Holding d queryID := by
  by_cases same : queryID = s.queryID
  · subst same
    cases past : s.phase.past with
    | false =>
      have unlaunched := shape.no_run sub past
      rw [applySubmit_holding_self d s out unlaunched, carried]
      simp [Holding, sub, unlaunched]
    | true =>
      -- past the launch only the execution can hold the slot
      have quiet : out.launched = none := by
        cases launched : out.launched with
        | none => rfl
        | some =>
          rw [(submitStep_launched taken launched).1] at past
          contradiction
      have before := SubmitPhase.not_holdsSlot_of_past past
      have after := SubmitPhase.not_holdsSlot_of_past (submitStep_past taken past)
      simp [Holding, sub, before, after, applySubmit_subs, applySubmit_runs, quiet]
  · exact applySubmit_holding d s out same

theorem applySubmit_slotMove (sub : d.subs s.queryID = some s) (found : d.procs s.pid = some p)
    (taken : submitStep d.now d.store p s reply = some out) :
    SlotMove d (d.applySubmit s out) (slotCall d (.submission s.queryID reply)) := by
  have owner : SubmittedTo d s.pid s.queryID := ⟨s, sub, rfl⟩
  have present : (d.applySubmit s out).procs s.pid = some out.process := by
    rw [applySubmit_procs, setProc_procs_self]
  have others := d.applySubmit_sameSlots s out
  rcases submitStep_slots taken with ⟨same, early, _, carried, _⟩ |
    ⟨phase, full, same, free, quiet, _⟩ | ⟨phase, acquired, holds, past⟩ |
    ⟨⟨_, phase⟩, given, free, quiet, _⟩
  · have call : slotCall d (.submission s.queryID reply) = none := by
      simp only [slotCall, sub, Option.bind_eq_bind, Option.bind_some]
    rw [call]
    exact .kept (others.none found present same)
      (applySubmit_holding_kept shape sub taken carried)
  · have call : slotCall d (.submission s.queryID reply) = none := by
      simp [slotCall, sub, phase, found, full]
    have carried : out.phase.holdsSlot = true ∨ out.launched.isSome = true ↔
        s.phase.holdsSlot = true := by
      simp only [free, quiet, phase]
      decide
    rw [call]
    exact .kept (others.none found present same)
      (applySubmit_holding_kept shape sub taken carried)
  · have call : slotCall d (.submission s.queryID reply) =
        some (.acquired s.pid s.queryID) := by
      simp [slotCall, sub, phase, found, acquired]
    have early : s.phase.beforeSlot = true := by
      rw [phase]
      rfl
    have unlaunched := shape.no_run sub (by rw [phase]; rfl)
    rw [call]
    refine .acquired s.pid s.queryID p out.process found present owner ?_ ?_
      (shape.not_holding sub early) acquired others fun id => ?_
    · intro t same
      cases sub.symm.trans same
      exact early
    · intro before
      have still := before { s with phase := out.phase } (by simp [applySubmit_subs])
      rw [past] at still
      contradiction
    · by_cases same : id = s.queryID
      · subst same
        simp [applySubmit_holding_self d s out unlaunched, holds]
      · simp [applySubmit_holding d s out same, same]
  · have call : slotCall d (.submission s.queryID reply) =
        some (.released s.pid s.queryID) := by
      simp [slotCall, sub, phase]
    have unlaunched := shape.no_run sub (by rw [phase]; rfl)
    rw [call]
    refine .released s.pid s.queryID p out.process found present owner
      (.inl ⟨s, sub, by rw [phase]; rfl⟩) given others fun id => ?_
    by_cases same : id = s.queryID
    · subst same
      simp [applySubmit_holding_self d s out unlaunched, free, quiet]
    · simp [applySubmit_holding d s out same, same]

theorem applyRun_slotMove {id : String} {choice : RunChoice} {run : Run} {out : RunOutcome}
    (executed : d.runs id = some run) (found : d.procs run.pid = some p)
    (taken : runStep d.now d.store p d.objects run choice = some out) :
    SlotMove d (d.applyRun id out) (slotCall d (.execution id choice)) := by
  obtain ⟨_, s, sub, own, past⟩ := shape.run id run executed
  have where_ := (runStep_process taken).1
  have present : (d.applyRun id out).procs run.pid = some out.process := by
    simp [applyRun, setRun, setProc, where_]
  have others : SameSlots d (d.applyRun id out) (some run.pid) := by
    intro other before next ne was present_
    have kept : (d.applyRun id out).procs other = d.procs other := by
      have ne : other ≠ run.pid := fun same => ne (congrArg some same)
      simp [applyRun, setRun, setProc, where_, Function.update_of_ne ne]
    cases (kept.symm.trans present_).symm.trans was
    rfl
  have self : Holding (d.applyRun id out) id ↔ out.run.phase.holdsSlot = true := by
    have quiet := SubmitPhase.not_holdsSlot_of_past past
    simp [Holding, applyRun, setRun, setProc, sub, quiet]
  -- the body of `run` and `deregister` leave the slot to the last deferred call
  have kept : out.process.slots = p.slots → run.phase ≠ .freeSlot →
      run.phase.holdsSlot = true → out.run.phase.holdsSlot = true →
      SlotMove d (d.applyRun id out) (slotCall d (.execution id choice)) := by
    intro same early was is
    have call : slotCall d (.execution id choice) = none := by
      simp only [slotCall, executed, Option.bind_eq_bind, Option.bind_some]
    rw [call]
    refine .kept (others.none found present same) fun queryID => ?_
    by_cases same : queryID = id
    · subst same
      exact ⟨fun _ => .inr ⟨run, executed, was⟩, fun _ => self.mpr is⟩
    · exact applyRun_holding d id out same
  rcases runStep_deferred taken with ⟨process, was, is⟩ | ⟨was, is, process⟩ |
    ⟨was, is, process⟩
  · refine kept (by rw [process]) ?_ (RunPhase.holdsSlot_of_registered was)
      (RunPhase.holdsSlot_of_registered is)
    intro phase
    rw [phase] at was
    contradiction
  · exact kept (by rw [process]) (by simp [was]) (by rw [was]; rfl) (by rw [is]; rfl)
  · have call : slotCall d (.execution id choice) = some (.released run.pid id) := by
      simp [slotCall, executed, was]
    rw [call]
    refine .released run.pid id p out.process found present ⟨s, sub, own⟩
      (.inr ⟨run, executed, by rw [was]; rfl⟩) (by rw [process]) others fun queryID => ?_
    by_cases same : queryID = id
    · subst same
      simp [self, is, RunPhase.holdsSlot]
    · simp [applyRun_holding d id out same, same]

theorem Move.slotMove (move : Move env d action after) : SlotMove d after (slotCall d action) := by
  have slots := move.sameSlots
  cases move with
  | submission id _ s _ _ sub found _ taken =>
    obtain ⟨rfl, _⟩ := shape.sub id s sub
    exact applySubmit_slotMove shape sub found taken
  | execution _ _ _ _ _ executed found _ taken => exact applyRun_slotMove shape executed found taken
  | submitted _ _ id _ _ _ opts _ _ fresh =>
    refine .kept (slots (by simp) (by simp)) fun queryID => ?_
    by_cases same : queryID = id
    · subst same
      have first := (Submission.firstPhase_beforeSlot opts).2
      simp [Holding, setSub, fresh, shape.fresh fresh, first]
    · simp [Holding, setSub, Function.update_of_ne same]
  | operated _ _ _ _ _ _ operated =>
    have call : slotCall d action = none := by cases operated <;> rfl
    rw [call]
    exact .kept (slots (by rintro _ _ rfl; cases operated) (by rintro _ _ rfl; cases operated))
      fun _ => Iff.rfl
  | tick | started | rejected | reaper | gc | heart | countBegin | countLocal | countRemote =>
    exact .kept (slots (by simp) (by simp)) fun _ => Iff.rfl

theorem Move.beforeSlot (move : Move env d action after) (early : BeforeSlot after queryID) :
    BeforeSlot d queryID := by
  intro s sub
  rcases move.sub_next shape sub with ⟨same, _⟩ | ⟨_, _, _, _, taken, moved, _⟩
  · exact early s same
  · have now := early _ moved
    rcases submitStep_slots taken with ⟨_, _, _, _, before⟩ | ⟨_, _, _, _, _, past⟩ |
      ⟨_, _, _, past⟩ | ⟨_, _, _, _, past⟩
    · exact before now
    all_goals
      rw [past] at now
      contradiction

end

/-! ## The occupied slots are those of the holders -/

def slotHolders (d : Deployment) (pid : Nat) : Set String :=
  { queryID | SubmittedTo d pid queryID ∧ Holding d queryID }

theorem Shape.holding_submitted (shape : Shape d) (holding : Holding d queryID) :
    ∃ pid, SubmittedTo d pid queryID := by
  rcases holding with ⟨s, sub, _⟩ | ⟨run, executed, _⟩
  · exact ⟨s.pid, s, sub, rfl⟩
  · obtain ⟨_, s, sub, _⟩ := shape.run queryID run executed
    exact ⟨s.pid, s, sub, rfl⟩

theorem Move.submittedTo_iff (shape : Shape d) (move : Move env d action after)
    (holding : Holding d queryID) : SubmittedTo after pid queryID ↔ SubmittedTo d pid queryID := by
  obtain ⟨_, submitted⟩ := shape.holding_submitted holding
  have kept := submitted.step shape move
  constructor
  · intro later
    rwa [kept.unique later]
  · intro earlier
    exact earlier.step shape move

/-- Every occupied slot is that of a holder, and there is room for it. -/
def SlotsCounted (d : Deployment) : Prop :=
  ∀ pid p n, d.procs pid = some p → p.slots.limit = some n →
    (slotHolders d pid).encard = p.slots.used ∧ p.slots.used ≤ n

theorem Move.mem_slotHolders_iff (shape : Shape d) (move : Move env d action after) :
    SubmittedTo after pid queryID ∧ Holding d queryID ↔ queryID ∈ slotHolders d pid :=
  and_congr_left (move.submittedTo_iff shape)

def holdersAfter (pid : Nat) (holders : Set String) : Option SlotCall → Set String
  | some (.acquired owner queryID) => if owner = pid then insert queryID holders else holders
  | some (.released _ queryID) => holders \ {queryID}
  | none => holders

section
variable (shape : Shape d) (move : Move env d action after)
include shape move

theorem SlotMove.slotHolders_eq {call : Option SlotCall} (slots : SlotMove d after call)
    (pid : Nat) : slotHolders after pid = holdersAfter pid (slotHolders d pid) call := by
  ext id
  cases slots with
  | kept _ holding => exact (and_congr_right' (holding id)).trans (move.mem_slotHolders_iff shape)
  | released _ _ _ _ _ _ _ _ _ _ holding =>
    rw [holdersAfter, Set.mem_sdiff, Set.mem_singleton_iff, ← move.mem_slotHolders_iff shape]
    exact (and_congr_right' (holding id)).trans and_assoc.symm
  | acquired _ queryID _ _ _ _ submitted _ _ _ _ _ holding =>
    have later := submitted.step shape move
    have split : id ∈ slotHolders after pid ↔
        id ∈ slotHolders d pid ∨ SubmittedTo after pid id ∧ id = queryID := by
      rw [← move.mem_slotHolders_iff shape, ← and_or_left]
      exact and_congr_right' (holding id)
    rw [split, holdersAfter]
    split_ifs with own
    · subst own
      rw [Set.mem_insert_iff, or_comm]
      exact or_congr_left (and_iff_right_of_imp fun same => same ▸ later)
    · refine or_iff_left ?_
      rintro ⟨there, rfl⟩
      exact own (there.unique later)

theorem Move.slots_cases (was : d.procs pid = some before) (present : after.procs pid = some next) :
    (next.slots = before.slots ∧ slotHolders after pid = slotHolders d pid) ∨
      (∃ queryID, before.slots.acquire = some next.slots ∧ queryID ∉ slotHolders d pid ∧
        slotHolders after pid = insert queryID (slotHolders d pid)) ∨
      ∃ queryID, next.slots = before.slots.release ∧ queryID ∈ slotHolders d pid ∧
        slotHolders after pid = slotHolders d pid \ {queryID} := by
  have slots := move.slotMove shape
  have holders := slots.slotHolders_eq shape move pid
  generalize slotCall d action = call at slots holders
  cases slots with
  | kept same _ => exact .inl ⟨same pid before next nofun was present, holders⟩
  | acquired owner queryID p q was_ present_ submitted _ _ free taken others _ =>
    by_cases own : owner = pid
    · subst own
      cases was_.symm.trans was
      cases present_.symm.trans present
      simp only [holdersAfter, if_true] at holders
      exact .inr (.inl ⟨queryID, taken, fun member => free member.2, holders⟩)
    · simp only [holdersAfter, if_neg own] at holders
      exact .inl ⟨others pid before next (by simpa using Ne.symm own) was present, holders⟩
  | released owner queryID p q was_ present_ submitted held given others _ =>
    by_cases own : owner = pid
    · subst own
      cases was_.symm.trans was
      cases present_.symm.trans present
      exact .inr (.inr ⟨queryID, given, ⟨submitted, held⟩, holders⟩)
    · refine .inl ⟨others pid before next (by simpa using Ne.symm own) was present, ?_⟩
      rw [holders]
      exact Set.sdiff_singleton_eq_self fun member => own (member.1.unique submitted)

theorem Move.slots_limit (was : d.procs pid = some before) :
    ∃ next, after.procs pid = some next ∧ next.slots.limit = before.slots.limit := by
  obtain ⟨next, present, _⟩ := move.continues pid before was
  refine ⟨next, present, ?_⟩
  rcases move.slots_cases shape was present with ⟨same, _⟩ | ⟨_, taken, _⟩ | ⟨_, given, _⟩
  · rw [same]
  · exact Slots.acquire_limit taken
  · rw [given, Slots.release_limit]

end

theorem SlotsCounted.step (counted : SlotsCounted d) (shape : Shape d)
    (move : Move env d action after) : SlotsCounted after := by
  intro pid next n present limit
  rcases move.origin pid next present with ⟨before, was, _⟩ |
    ⟨unused, given, cfg, pools, rfl, _, rfl⟩
  · obtain ⟨same, kept, fixed⟩ := move.slots_limit shape was
    cases present.symm.trans kept
    rw [fixed] at limit
    obtain ⟨count, room⟩ := counted pid before n was limit
    rcases move.slots_cases shape was present with ⟨same, holders⟩ |
      ⟨queryID, taken, free, holders⟩ | ⟨queryID, given, held, holders⟩
    · rw [holders, same]
      exact ⟨count, room⟩
    · rw [holders, Set.encard_insert_of_notMem free, count]
      simp only [Slots.acquire, limit] at taken
      split at taken
      · rename_i room
        rw [← Option.some.inj taken]
        exact ⟨rfl, room⟩
      · contradiction
    · rw [holders, Set.encard_sdiff_singleton_of_mem held, count]
      simp only [given, Slots.release, limit]
      exact ⟨rfl, Nat.le_trans (Nat.sub_le _ _) room⟩
  · have empty : slotHolders after pid = ∅ := by
      refine Set.eq_empty_of_forall_notMem ?_
      rintro queryID ⟨⟨s, sub, rfl⟩, holding⟩
      have same : slotHolders after s.pid = slotHolders d s.pid :=
        (move.slotMove shape).slotHolders_eq shape move s.pid
      have before : queryID ∈ slotHolders d s.pid := same ▸ ⟨⟨s, sub, rfl⟩, holding⟩
      obtain ⟨t, earlier, own⟩ := before.1
      obtain ⟨_, p, found, _⟩ := shape.sub queryID t earlier
      rw [own, unused] at found
      contradiction
    simp [empty, Process.new]

end

end Deployment

end DbBridge.Cluster
