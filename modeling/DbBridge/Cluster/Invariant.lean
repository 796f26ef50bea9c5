import DbBridge.Cluster.Move

/-!
# Structural invariant of a deployment

Every goroutine belongs to a process that exists, carries the record of its own
query, and an execution exists only once its submission is past the launch. A record
in a worker's hands is in the state that the worker is about to store.
-/

namespace DbBridge.Cluster

open Domain State Settings Function

variable {now : Time} {m : MetaStore} {p next : Process}

structure Process.Continues (before after : Process) : Prop where
  instanceID : after.instanceID = before.instanceID
  alive : after.alive = true → before.alive = true
  reaper : before.reaper.Sound → after.reaper.Sound
  gc : before.gc.Sound → after.gc.Sound

namespace Deployment

variable {pid : Nat} {env : Env} {d after : Deployment} {action : Action} {queryID : String}
  {s : Submission} {run : Run}

/-! ## What a move leaves in place -/

@[simp] theorem setProc_procs_self (d : Deployment) (pid : Nat) (p : Process) :
    (d.setProc pid p).procs pid = some p := by
  simp [setProc]

theorem setProc_procs_of_ne (d : Deployment) {other : Nat} (p : Process) (ne : other ≠ pid) :
    (d.setProc pid p).procs other = d.procs other := by
  simp [setProc, update_of_ne ne]

theorem applySubmit_procs (d : Deployment) (s : Submission) (out : SubmitOutcome) :
    (d.applySubmit s out).procs = (d.setProc s.pid out.process).procs := by
  unfold applySubmit
  split <;> rfl

theorem applySubmit_store (d : Deployment) (s : Submission) (out : SubmitOutcome) :
    (d.applySubmit s out).store = out.store := by
  unfold applySubmit
  split <;> rfl

theorem applySubmit_now (d : Deployment) (s : Submission) (out : SubmitOutcome) :
    (d.applySubmit s out).now = d.now := by
  unfold applySubmit
  split <;> rfl

theorem applySubmit_subs (d : Deployment) (s : Submission) (out : SubmitOutcome) :
    (d.applySubmit s out).subs = update d.subs s.queryID (some { s with phase := out.phase }) := by
  unfold applySubmit
  split <;> rfl

theorem Move.now_cases (move : Move env d action after) :
    (∃ elapsed, action = .tick elapsed ∧ after.now = d.now + elapsed) ∨ after.now = d.now := by
  cases move with
  | tick elapsed => exact .inl ⟨elapsed, rfl, rfl⟩
  | submission _ _ s _ out => exact .inr (d.applySubmit_now s out)
  | _ => exact .inr rfl

theorem Move.now_le (move : Move env d action after) : d.now ≤ after.now := by
  rcases move.now_cases with ⟨elapsed, _, later⟩ | same
  · rw [later]
    exact Int.le_add_of_nonneg_right (Int.natCast_nonneg elapsed)
  · exact le_of_eq same.symm

def actor (d : Deployment) : Action → Option Nat
  | .submission queryID _ => (d.subs queryID).map (·.pid)
  | .execution queryID _ => (d.runs queryID).map (·.pid)
  | .reaper pid _ | .gc pid _ | .heart pid _ | .drain pid | .reload pid _ _ | .shutdown pid
  | .crash pid => some pid
  | .tick _ | .start .. | .submit .. | .countBegin .. | .countLocal _ | .countRemote .. => none

/-- What becomes of process `pid` in a step: nothing, unless the step is its own. -/
inductive Evolves (env : Env) (d : Deployment) (pid : Nat) (p : Process) :
    Action → Deployment → Process → Prop
  | kept (action : Action) (after : Deployment) (other : d.actor action ≠ some pid) :
      Evolves env d pid p action after p
  | submission (queryID : String) (reply : Reply) (s : Submission) (out : SubmitOutcome)
      (sub : d.subs queryID = some s) (own : s.pid = pid)
      (taken : submitStep d.now d.store p s reply = some out) :
      Evolves env d pid p (.submission queryID reply) (d.applySubmit s out) out.process
  | execution (queryID : String) (choice : RunChoice) (run : Run) (out : RunOutcome)
      (executed : d.runs queryID = some run) (own : run.pid = pid)
      (taken : runStep d.now d.store p d.objects run choice = some out) :
      Evolves env d pid p (.execution queryID choice) (d.applyRun queryID out) out.process
  | reaper (choice : ReapChoice) (next : Process) (store : MetaStore)
      (taken : reaperStep d.now d.store p choice = some (store, next)) :
      Evolves env d pid p (.reaper pid choice) ({ d with store := store }.setProc pid next) next
  | gc (choice : GcChoice) (out : GcOutcome)
      (taken : gcStep env d.now d.store p d.objects choice = some out) :
      Evolves env d pid p (.gc pid choice)
        ({ d with store := out.store, objects := out.objects }.setProc pid out.process)
        out.process
  | heart (choice : HeartChoice) (next : Process) (store : MetaStore)
      (taken : heartStep d.now d.store p choice = some (store, next)) :
      Evolves env d pid p (.heart pid choice) ({ d with store := store }.setProc pid next) next
  | operated (action : Action) (next : Process) (operated : Operated pid p action next) :
      Evolves env d pid p action (d.setProc pid next) next

/-- What a step can do to the parts of a process. -/
structure Parts (env : Env) (d : Deployment) (pid : Nat) (p : Process) (action : Action)
    (after : Deployment) (next : Process) : Prop where
  instanceID : next.instanceID = p.instanceID
  gcPeriodDur : next.gcPeriodDur = p.gcPeriodDur
  cfg : next.cfg = p.cfg ∨
    ∃ given pools, action = .reload pid given pools ∧ validate given = .ok next.cfg
  alive : next.alive = p.alive ∨ next.alive = false ∧ after.store = d.store ∧
    (action = .crash pid ∨ action = .heart pid .begin ∧ p.heartbeatTTL.tdiv 2 ≤ 0)
  slots : next.slots = p.slots ∨ (∃ queryID reply, action = .submission queryID reply) ∨
    ∃ queryID choice, action = .execution queryID choice
  reaper : next.reaper = p.reaper ∨
    ∃ choice, reaperStep d.now d.store p choice = some (after.store, next)
  gc : next.gc = p.gc ∨ ∃ choice out, next = out.process ∧ after.objects = out.objects ∧
    gcStep env d.now d.store p d.objects choice = some out
  heart : next.heart = p.heart ∧ next.heartbeatPeriod = p.heartbeatPeriod ∨
    ∃ choice store, action = .heart pid choice ∧
      heartStep d.now d.store p choice = some (store, next)

theorem Evolves.parts (evolves : Evolves env d pid p action after next) :
    Parts env d pid p action after next := by
  cases evolves with
  | kept => constructor <;> simp
  | submission _ _ _ _ _ _ taken =>
    obtain ⟨registry, slots, same⟩ := submitStep_process taken
    constructor <;> simp [same]
  | execution _ _ _ _ _ _ taken =>
    obtain ⟨_, registry, slots, same⟩ := runStep_process taken
    constructor <;> simp [same]
  | reaper choice _ _ taken =>
    obtain ⟨reaper, ready, same⟩ := reaperStep_process taken
    constructor
    case reaper => exact .inr ⟨choice, taken⟩
    all_goals simp [same]
  | gc choice out taken =>
    obtain ⟨gc, same⟩ := gcStep_process taken
    constructor
    case gc => exact .inr ⟨choice, out, rfl, rfl, taken⟩
    all_goals simp [same]
  | heart choice _ store taken =>
    obtain ⟨period, heart, alive, same, _⟩ := heartStep_process taken
    constructor
    case heart => exact .inr ⟨choice, store, rfl, taken⟩
    case alive =>
      simp only [heartStep] at taken
      (repeat' split at taken) <;> cases taken
      · rename_i panics
        exact .inr ⟨rfl, rfl, .inr ⟨rfl, panics⟩⟩
      all_goals exact .inl rfl
    all_goals simp [same]
  | operated _ _ operated =>
    cases operated with
    | reloaded given cfg pools accepted =>
      constructor
      case cfg => exact .inr ⟨given, pools, rfl, accepted⟩
      all_goals simp
    | crashed => constructor <;> simp [setProc]
    | drained | stopped => constructor <;> simp

theorem Operated.actor (operated : Operated pid p action next) : d.actor action = some pid := by
  cases operated <;> rfl

section
variable (move : Move env d action after)
include move

variable {before : Process}

theorem Move.evolves (present : d.procs pid = some before) :
    ∃ next, after.procs pid = some next ∧ Evolves env d pid before action after next := by
  have other : ∀ {e : Deployment} {moved : Nat} {p : Process}, e.procs = d.procs →
      pid ≠ moved → (e.setProc moved p).procs pid = some before := by
    intro e moved p procs ne
    rw [e.setProc_procs_of_ne p ne, procs, present]
  cases move with
  | started moved _ _ _ unused =>
    have ne : pid ≠ moved := by
      rintro rfl
      rw [unused] at present
      contradiction
    exact ⟨before, other rfl ne, .kept _ _ (by simp [actor])⟩
  | submission queryID reply s _ out sub found _ taken =>
    rw [applySubmit_procs]
    by_cases same : pid = s.pid
    · subst same
      rw [present] at found
      cases found
      exact ⟨_, setProc_procs_self .., .submission queryID reply s out sub rfl taken⟩
    · exact ⟨before, other rfl same, .kept _ _ (by simp [actor, sub, Ne.symm same])⟩
  | execution queryID choice run _ out executed found _ taken =>
    have where_ := (runStep_process taken).1
    by_cases same : pid = run.pid
    · subst same
      rw [present] at found
      cases found
      refine ⟨out.process, ?_, .execution queryID choice run out executed rfl taken⟩
      exact where_ ▸ setProc_procs_self ..
    · exact ⟨before, other rfl (where_ ▸ same),
        .kept _ _ (by simp [actor, executed, Ne.symm same])⟩
  | reaper moved choice p next store found alive taken =>
    by_cases same : pid = moved
    · subst same
      rw [present] at found
      cases found
      exact ⟨next, setProc_procs_self .., .reaper choice next store taken⟩
    · exact ⟨before, other rfl same, .kept _ _ (by simp [actor, Ne.symm same])⟩
  | gc moved choice _ out found _ taken =>
    by_cases same : pid = moved
    · subst same
      rw [present] at found
      cases found
      exact ⟨out.process, setProc_procs_self .., .gc choice out taken⟩
    · exact ⟨before, other rfl same, .kept _ _ (by simp [actor, Ne.symm same])⟩
  | heart moved choice p next store found alive taken =>
    by_cases same : pid = moved
    · subst same
      rw [present] at found
      cases found
      exact ⟨next, setProc_procs_self .., .heart choice next store taken⟩
    · exact ⟨before, other rfl same, .kept _ _ (by simp [actor, Ne.symm same])⟩
  | operated _ moved p next found alive operated =>
    by_cases same : pid = moved
    · subst same
      rw [present] at found
      cases found
      exact ⟨next, setProc_procs_self .., .operated _ next operated⟩
    · refine ⟨before, other rfl same, .kept _ _ ?_⟩
      rw [operated.actor]
      simpa using Ne.symm same
  | tick | rejected | submitted | countBegin | countLocal | countRemote =>
    exact ⟨before, present, .kept _ _ (by simp [actor])⟩

theorem Move.parts (was : d.procs pid = some before) (present : after.procs pid = some next) :
    Parts env d pid before action after next := by
  obtain ⟨_, kept, evolves⟩ := move.evolves was
  rw [present] at kept
  cases kept
  exact evolves.parts

/-- A process never disappears, is never renamed and never comes back to life. -/
theorem Move.continues (pid : Nat) (before : Process) (present : d.procs pid = some before) :
    ∃ next, after.procs pid = some next ∧ before.Continues next := by
  obtain ⟨next, kept, evolves⟩ := move.evolves present
  have parts := evolves.parts
  refine ⟨next, kept, parts.instanceID, ?_, ?_, ?_⟩
  · rcases parts.alive with same | ⟨dead, _⟩
    · rw [same]
      exact id
    · simp [dead]
  · rcases parts.reaper with same | ⟨_, taken⟩
    · rw [same]
      exact id
    · exact fun _ => reaperStep_sound taken
  · rcases parts.gc with same | ⟨_, _, rfl, _, taken⟩
    · rw [same]
      exact id
    · exact (gcStep_advances taken).sound

theorem Move.origin (pid : Nat) (next : Process) (present : after.procs pid = some next) :
    (∃ before, d.procs pid = some before ∧ before.Continues next) ∨
      (d.procs pid = none ∧ ∃ given cfg pools, action = .start pid given pools ∧
        validate given = .ok cfg ∧ next = Process.new cfg pools) := by
  cases known : d.procs pid with
  | some before =>
    obtain ⟨same, kept, continues⟩ := move.continues pid before known
    rw [present] at kept
    cases kept
    exact .inl ⟨before, rfl, continues⟩
  | none =>
    -- only a start fills an empty place
    have elsewhere : ∀ other p q, d.procs other = some p →
        (d.setProc other q).procs pid = some next → False := by
      intro other p q found filled
      have ne : pid ≠ other := by
        rintro rfl
        rw [known] at found
        contradiction
      rw [d.setProc_procs_of_ne q ne, known] at filled
      contradiction
    cases move with
    | started other given cfg pools _ accepted =>
      by_cases same : pid = other
      · subst same
        rw [setProc_procs_self] at present
        cases present
        exact .inr ⟨rfl, given, cfg, pools, rfl, accepted, rfl⟩
      · rw [d.setProc_procs_of_ne _ same, known] at present
        contradiction
    | submission _ _ _ _ _ _ found =>
      rw [applySubmit_procs] at present
      exact (elsewhere _ _ _ found present).elim
    | execution _ _ _ _ _ _ found _ taken =>
      have where_ := (runStep_process taken).1
      exact (elsewhere _ _ _ (where_ ▸ found) present).elim
    | gc _ _ _ _ found => exact (elsewhere _ _ _ found present).elim
    | reaper _ _ _ _ _ found | heart _ _ _ _ _ found | operated _ _ _ _ found =>
      exact (elsewhere _ _ _ found present).elim
    | tick | rejected | submitted | countBegin | countLocal | countRemote =>
      rw [show d.procs pid = some next from present] at known
      contradiction

theorem Move.gc_cases (present : after.procs pid = some next) :
    next.gc = .idle ∨ ∃ before, d.procs pid = some before ∧
      (next.gc = before.gc ∨ GcAdvances d.now d.store before.gc next.gc) := by
  rcases move.origin pid next present with ⟨before, found, _⟩ | ⟨_, _, _, _, _, _, rfl⟩
  · refine .inr ⟨before, found, ?_⟩
    rcases (move.parts found present).gc with same | ⟨_, _, rfl, _, taken⟩
    · exact .inl same
    · exact .inr (gcStep_advances taken)
  · exact .inl rfl

/-- What holds of a collector's phase while it has a certain record in hand held before the
step, unless the record has just been read. -/
theorem Move.gc_origin (holds : GcPhase → Prop) (present : after.procs pid = some next)
    (taken : holds next.gc) (free : ¬ holds .idle ∧ ¬ holds .list ∧ ∀ ids, ¬ holds (.loop ids))
    (keeps : ∀ record ids, (holds (.dispose record ids) → holds (.mark record ids)) ∧
      (holds (.release record ids) → holds (.dispose record ids)) ∧
      (holds (.drop record.id ids) → holds (.release record ids))) :
    ∃ before, d.procs pid = some before ∧ (holds before.gc ∨
      ∃ id ids read, before.gc = .loop (id :: ids) ∧ d.store.getQuery id = some read ∧
        read.state.isTerminal = true ∧ (holds (.mark { read with state := .expired } ids) ∨
          holds (.dispose { read with state := .expired } ids))) := by
  rcases move.gc_cases present with idle | ⟨before, found, same | advances⟩
  · simp [idle, free] at taken
  · exact ⟨before, found, .inl (same ▸ taken)⟩
  refine ⟨before, found, ?_⟩
  generalize before.gc = phase at advances ⊢
  generalize next.gc = reached at advances taken
  cases advances with
  | read id ids =>
    rcases collectRead_cases d.store id ids with skip | ⟨read, got, ended, hand | hand⟩
    · simp [skip, free] at taken
    · exact .inr ⟨id, ids, read, rfl, got, ended, .inl (hand ▸ taken)⟩
    · exact .inr ⟨id, ids, read, rfl, got, ended, .inr (hand ▸ taken)⟩
  | marked record ids => exact .inl ((keeps record ids).1 taken)
  | disposed record ids => exact .inl ((keeps record ids).2.1 taken)
  | released record ids => exact .inl ((keeps record ids).2.2 taken)
  | stopped | locked | listed | skipped | left => simp [free] at taken

end

/-- A record that a collector has in hand was stored last in a terminal state. -/
def InHand (d : Deployment) : Prop :=
  ∀ pid p queryID, d.procs pid = some p → p.gc.target? = some queryID →
    d.store.ended queryID = true

theorem InHand.step (inHand : InHand d) (move : Move env d action after)
    (kept : ∀ queryID, d.store.ended queryID = true → after.store.ended queryID = true) :
    InHand after := by
  intro pid next queryID present hand
  refine kept queryID ?_
  obtain ⟨before, found, earlier | ⟨id, _, read, _, got, ended, held⟩⟩ :=
    move.gc_origin (·.target? = some queryID) present hand ⟨nofun, nofun, nofun⟩
      fun _ _ => ⟨id, id, id⟩
  · exact inHand pid before queryID found earlier
  · obtain rfl : read.id = queryID := by simpa [GcPhase.target?] using held
    rw [d.store.getQuery_ended ((d.store.getQuery_id got).symm ▸ got)]
    exact ended

/-! ## The invariant -/

structure Shape (d : Deployment) : Prop where
  sub : ∀ queryID s, d.subs queryID = some s → s.queryID = queryID ∧
    ∃ p, d.procs s.pid = some p ∧ s.Sound p.instanceID
  run : ∀ queryID run, d.runs queryID = some run → run.Sound queryID ∧
    ∃ s, d.subs queryID = some s ∧ s.pid = run.pid ∧ s.phase.past = true
  workers : ∀ pid p, d.procs pid = some p → p.reaper.Sound ∧ p.gc.Sound

theorem Shape.initial (now : Time) : Shape (initial now) where
  sub := by simp [Deployment.initial]
  run := by simp [Deployment.initial]
  workers := by simp [Deployment.initial]

section
variable (shape : Shape d)
include shape

theorem Shape.no_run (sub : d.subs queryID = some s) (early : s.phase.past = false) :
    d.runs queryID = none := by
  cases executed : d.runs queryID with
  | none => rfl
  | some run =>
    obtain ⟨_, _, found, _, past⟩ := shape.run queryID run executed
    rw [sub] at found
    cases found
    rw [early] at past
    contradiction

theorem Shape.fresh (unused : d.subs queryID = none) : d.runs queryID = none := by
  cases executed : d.runs queryID with
  | none => rfl
  | some run =>
    obtain ⟨_, _, found, _⟩ := shape.run queryID run executed
    rw [unused] at found
    contradiction

section
variable (move : Move env d action after)
include move

theorem Shape.move_workers (pid : Nat) (p : Process) (present : after.procs pid = some p) :
    p.reaper.Sound ∧ p.gc.Sound := by
  rcases move.origin pid p present with
    ⟨before, found, continues⟩ | ⟨_, _, _, _, _, _, rfl⟩
  · have sound := shape.workers pid before found
    exact ⟨continues.reaper sound.1, continues.gc sound.2⟩
  · exact ⟨trivial, trivial⟩

theorem Shape.move_sub (found : d.subs queryID = some s) :
    s.queryID = queryID ∧ ∃ p, after.procs s.pid = some p ∧ s.Sound p.instanceID := by
  obtain ⟨id, p, present, sound⟩ := shape.sub queryID s found
  obtain ⟨next, kept, continues⟩ := move.continues s.pid p present
  exact ⟨id, next, kept, continues.instanceID ▸ sound⟩

theorem Shape.of_same (subs : after.subs = d.subs) (runs : after.runs = d.runs) : Shape after where
  sub := fun queryID s found => shape.move_sub move (subs ▸ found)
  run := by
    intro queryID run found
    rw [runs] at found
    rw [subs]
    exact shape.run queryID run found
  workers := shape.move_workers move

end

theorem Shape.submitted (move : Move env d action (d.setSub s)) (fresh : d.subs s.queryID = none)
    (found : d.procs s.pid = some p) (early : s.phase.record? = none) :
    Shape (d.setSub s) where
  sub := by
    intro queryID other member
    rcases Tables.update_some_cases member with ⟨rfl, rfl⟩ | ⟨_, member⟩
    · exact ⟨rfl, p, found, by simp [Submission.Sound, early]⟩
    · exact shape.move_sub move member
  run := by
    intro queryID run executed
    have ne : queryID ≠ s.queryID := by
      rintro rfl
      have executed : d.runs s.queryID = some run := executed
      rw [shape.fresh fresh] at executed
      contradiction
    obtain ⟨sound, other, member, rest⟩ := shape.run queryID run executed
    exact ⟨sound, other, by simpa [setSub, update_of_ne ne] using member, rest⟩
  workers := shape.move_workers move

end

theorem applySubmit_runs (d : Deployment) (s : Submission) (out : SubmitOutcome) :
    (d.applySubmit s out).runs =
      match out.launched with
      | none => d.runs
      | some record =>
        update d.runs s.queryID (some { pid := s.pid, record := record }) := by
  cases launched : out.launched <;> simp [applySubmit, launched, setProc, setSub, setRun]

theorem Shape.submission (shape : Shape d) {reply : Reply} {out : SubmitOutcome}
    (move : Move env d (.submission queryID reply) (d.applySubmit s out))
    (sub : d.subs queryID = some s) (found : d.procs s.pid = some p)
    (taken : submitStep d.now d.store p s reply = some out) : Shape (d.applySubmit s out) where
  sub := by
    intro other t member
    rw [applySubmit_subs] at member
    rcases Tables.update_some_cases member with ⟨rfl, rfl⟩ | ⟨_, member⟩
    · refine ⟨rfl, out.process, by simp [applySubmit_procs], ?_⟩
      intro record carried
      obtain ⟨_, _, same⟩ := submitStep_process taken
      rw [same]
      obtain ⟨_, q, present, sound⟩ := shape.sub queryID s sub
      rw [found] at present
      cases present
      rcases submitStep_record taken carried with built | before
      · exact ⟨d.now, built⟩
      · exact sound record before
    · exact shape.move_sub move member
  run := by
    obtain ⟨own, q, present, sound⟩ := shape.sub queryID s sub
    rw [found] at present
    cases present
    intro other run executed
    rw [applySubmit_runs] at executed
    rw [applySubmit_subs]
    by_cases same : other = s.queryID
    · subst same
      refine ⟨?_, { s with phase := out.phase }, by simp, ?_⟩
      all_goals
        cases launched : out.launched with
        | none =>
          simp only [launched] at executed
          obtain ⟨runSound, t, member, pid, past⟩ := shape.run _ run executed
          rw [own, sub] at member
          cases member
          first
          | exact runSound
          | exact ⟨pid, submitStep_past taken past⟩
        | some record =>
          simp only [launched, update_self, Option.some.injEq] at executed
          subst executed
          obtain ⟨phase, past⟩ := submitStep_launched taken launched
          have carried : s.phase.record? = some record := by
            simp [phase, SubmitPhase.record?]
          have built := sound.record carried
          first
          | exact ⟨built.1, built.2.1⟩
          | exact ⟨rfl, past⟩
    · have before : d.runs other = some run := by
        cases launched : out.launched with
        | none => simpa [launched] using executed
        | some => simpa [launched, update_of_ne same] using executed
      rw [update_of_ne same]
      exact shape.run other run before
  workers := shape.move_workers move

theorem Shape.execution (shape : Shape d) {choice : RunChoice} {out : RunOutcome}
    (move : Move env d (.execution queryID choice) (d.applyRun queryID out))
    (executed : d.runs queryID = some run)
    (taken : runStep d.now d.store p d.objects run choice = some out) :
    Shape (d.applyRun queryID out) where
  sub := fun other s member => shape.move_sub move member
  run := by
    intro other moved member
    rcases Tables.update_some_cases member with ⟨rfl, rfl⟩ | ⟨_, member⟩
    · obtain ⟨sound, s, sub, pid, past⟩ := shape.run other run executed
      exact ⟨runStep_sound sound taken, s, sub, pid.trans (runStep_process taken).1.symm, past⟩
    · exact shape.run other moved member
  workers := shape.move_workers move

theorem firstPhase_record? (opts : QueryOptions) : (Submission.firstPhase opts).record? = none := by
  unfold Submission.firstPhase
  split <;> rfl

theorem Shape.step (shape : Shape d) (move : Move env d action after) : Shape after := by
  have again := move
  cases move with
  | rejected => exact shape
  | submitted _ _ _ _ _ _ opts _ found fresh =>
    exact shape.submitted again fresh found (firstPhase_record? opts)
  | submission _ _ _ _ _ sub found _ taken => exact shape.submission again sub found taken
  | execution _ _ _ _ _ executed _ _ taken => exact shape.execution again executed taken
  | tick | started | reaper | gc | heart | countBegin | countLocal | countRemote
  | operated => exact shape.of_same again rfl rfl

variable {guard : Deployment → Action → Prop}

theorem Reachable.shape (reached : Reachable env guard d) : Shape d := by
  obtain ⟨now, _, run⟩ := reached
  exact run.invariant Shape (Shape.initial now) fun _ _ _ shape _ taken =>
    shape.step (step_move taken)

/-- The rule for an invariant whose proof uses `Shape`. -/
theorem Reachable.invariant (reached : Reachable env guard d) (inv : Deployment → Prop)
    (start : ∀ now > 0, inv (initial now))
    (step : ∀ {d action after}, Shape d → inv d → guard d action → Move env d action after →
      inv after) : inv d := by
  obtain ⟨now, positive, run⟩ := reached
  have both := run.invariant (fun d => Shape d ∧ inv d) ⟨Shape.initial now, start now positive⟩
    fun _ _ _ holds allowed taken => ⟨holds.1.step (step_move taken),
      step holds.1 holds.2 allowed (step_move taken)⟩
  exact both.2

section
variable (shape : Shape d) (move : Move env d action after)
include shape move

theorem Move.sub_origin (sub : after.subs queryID = some s) :
    d.subs queryID = some s ∨ s.phase = Submission.firstPhase s.opts ∨
      ∃ reply before p out, action = .submission queryID reply ∧
        d.subs queryID = some before ∧ d.procs before.pid = some p ∧
        submitStep d.now d.store p before reply = some out ∧
        s = { before with phase := out.phase } ∧ after.procs before.pid = some out.process := by
  cases move with
  | submitted =>
    rcases Tables.update_some_cases sub with ⟨rfl, rfl⟩ | ⟨_, sub⟩
    · exact .inr (.inl rfl)
    · exact .inl sub
  | submission id reply before p out known found _ taken =>
    obtain ⟨rfl, _⟩ := shape.sub id before known
    rw [applySubmit_subs] at sub
    rcases Tables.update_some_cases sub with ⟨rfl, rfl⟩ | ⟨_, sub⟩
    · exact .inr (.inr ⟨reply, before, p, out, rfl, known, found, taken, rfl,
        by rw [applySubmit_procs, setProc_procs_self]⟩)
    · exact .inl sub
  | tick | started | rejected | execution | reaper | gc | heart | countBegin | countLocal
  | countRemote | operated => exact .inl sub

theorem Move.run_origin (executed : after.runs queryID = some run) :
    d.runs queryID = some run ∨
      (∃ reply s record, action = .submission queryID reply ∧ d.subs queryID = some s ∧
        s.phase = .launch record ∧ run = { pid := s.pid, record := record }) ∨
      ∃ choice before p out, action = .execution queryID choice ∧
        d.runs queryID = some before ∧ d.procs before.pid = some p ∧
        runStep d.now d.store p d.objects before choice = some out ∧ run = out.run := by
  cases move with
  | submission id reply s _ out sub _ _ taken =>
    obtain ⟨rfl, _⟩ := shape.sub id s sub
    rw [applySubmit_runs] at executed
    cases launched : out.launched with
    | none =>
      simp only [launched] at executed
      exact .inl executed
    | some record =>
      simp only [launched] at executed
      rcases Tables.update_some_cases executed with ⟨rfl, rfl⟩ | ⟨_, executed⟩
      · exact .inr (.inl ⟨reply, s, record, rfl, sub,
          (submitStep_launched taken launched).1, rfl⟩)
      · exact .inl executed
  | execution _ choice before p out known found _ taken =>
    rcases Tables.update_some_cases executed with ⟨rfl, rfl⟩ | ⟨_, executed⟩
    · exact .inr (.inr ⟨choice, before, p, out, rfl, known, found, taken, rfl⟩)
    · exact .inl executed
  | tick | started | rejected | submitted | reaper | gc | heart | countBegin | countLocal
  | countRemote | operated => exact .inl executed

end

theorem Move.run_kept (move : Move env d action after) (executed : (d.runs queryID).isSome = true) :
    (after.runs queryID).isSome = true := by
  cases move with
  | submission _ _ s _ out =>
    rw [applySubmit_runs]
    cases out.launched with
    | none => exact executed
    | some =>
      by_cases same : queryID = s.queryID
      · subst same
        simp
      · simpa [update_of_ne same] using executed
  | execution id =>
    by_cases same : queryID = id
    · subst same
      simp [applyRun, setRun]
    · simpa [applyRun, setRun, setProc, update_of_ne same] using executed
  | rejected | submitted | tick | started | reaper | gc | heart | countBegin | countLocal
  | countRemote | operated => exact executed

section
variable (shape : Shape d) (move : Move env d action after)
include shape move

theorem Move.run_next (executed : d.runs queryID = some run) :
    after.runs queryID = some run ∨
      ∃ choice p out, action = .execution queryID choice ∧ d.procs run.pid = some p ∧
        p.alive = true ∧ runStep d.now d.store p d.objects run choice = some out ∧
        after = d.applyRun queryID out := by
  cases move with
  | submission id _ s _ out sub _ _ taken =>
    left
    obtain ⟨rfl, _⟩ := shape.sub id s sub
    rw [applySubmit_runs]
    cases launched : out.launched with
    | none => exact executed
    | some =>
      -- a submission that launches has no execution yet
      have ne : queryID ≠ s.queryID := by
        rintro rfl
        have early : s.phase.past = false := by
          rw [(submitStep_launched taken launched).1]
          rfl
        rw [shape.no_run sub early] at executed
        contradiction
      simpa [update_of_ne ne] using executed
  | execution id choice _ p out known found alive taken =>
    by_cases same : queryID = id
    · subst same
      rw [known] at executed
      cases executed
      exact .inr ⟨choice, p, out, rfl, found, alive, taken, rfl⟩
    · exact .inl (by simpa [applyRun, setRun, setProc, update_of_ne same]
        using executed)
  | tick | started | rejected | submitted | reaper | gc | heart | countBegin | countLocal
  | countRemote | operated => exact .inl executed

theorem Move.sub_next (sub : d.subs queryID = some s) :
    (after.subs queryID = some s ∧ ∀ reply, action ≠ .submission queryID reply) ∨
      ∃ reply p out, action = .submission queryID reply ∧
        submitStep d.now d.store p s reply = some out ∧
        after.subs queryID = some { s with phase := out.phase } ∧ after = d.applySubmit s out := by
  cases move with
  | submitted _ _ id _ _ _ _ _ _ fresh =>
    have ne : queryID ≠ id := by
      rintro rfl
      rw [fresh] at sub
      contradiction
    exact .inl ⟨by simpa [setSub, update_of_ne ne] using sub, by simp⟩
  | submission id reply t p out moved _ _ taken =>
    rw [applySubmit_subs]
    have own := (shape.sub id t moved).1
    by_cases same : queryID = t.queryID
    · subst same
      rw [own, moved] at sub
      cases sub
      exact .inr ⟨reply, p, out, by rw [own], taken, by simp, rfl⟩
    · refine .inl ⟨by simpa [update_of_ne same] using sub, ?_⟩
      rintro _ ⟨⟩
      exact same own.symm
  | operated _ _ _ _ _ _ operated => exact .inl ⟨sub, by rintro _ rfl; cases operated⟩
  | rejected | tick | started | execution | reaper | gc | heart | countBegin | countLocal
  | countRemote => exact .inl ⟨sub, by simp⟩

/-- A submission is never forgotten, and its request never changes. -/
theorem Move.sub_kept (sub : d.subs queryID = some s) :
    ∃ phase, after.subs queryID = some { s with phase := phase } := by
  rcases move.sub_next shape sub with ⟨same, _⟩ | ⟨_, _, out, _, _, moved, _⟩
  · exact ⟨s.phase, same⟩
  · exact ⟨out.phase, moved⟩

end

end Deployment

end DbBridge.Cluster
