import DbBridge.Cluster.Shape

/-!
# The moves of a deployment

`Move` lists what a step can be, with the state it leads to written out.
`step_move` is the only place where the system's step function is opened; every
invariant of a deployment is proved by cases on the move.
-/

namespace DbBridge.Cluster

open Domain State Authn Settings

namespace Deployment

theorem live_eq_some_iff (d : Deployment) (pid : Nat) (p : Process) :
    d.live pid = some p ↔ d.procs pid = some p ∧ p.alive = true := by
  simp [live, Option.filter_eq_some_iff]

inductive Operated (pid : Nat) (p : Process) : Action → Process → Prop
  | drained : Operated pid p (.drain pid) { p with registry := p.registry.drain }
  | reloaded (given cfg : Config) (pools : List String)
      (accepted : validate given = .ok cfg) :
      Operated pid p (.reload pid given pools) { p with cfg := cfg, pools := pools }
  | stopped : Operated pid p (.shutdown pid) { p with ctxDone := true }
  | crashed : Operated pid p (.crash pid) { p with alive := false }

inductive Move (env : Env) (d : Deployment) : Action → Deployment → Prop
  | tick (elapsed : Nat) : Move env d (.tick elapsed) { d with now := d.now + elapsed }
  | started (pid : Nat) (given cfg : Config) (pools : List String)
      (unused : d.procs pid = none) (accepted : validate given = .ok cfg) :
      Move env d (.start pid given pools) (d.setProc pid (Process.new cfg pools))
  | rejected (pid : Nat) (caller : Option Identity) (queryID dbID sql : String)
      (given : QueryOptions) : Move env d (.submit pid caller queryID dbID sql given) d
  | submitted (pid : Nat) (caller : Option Identity) (queryID dbID sql : String)
      (given opts : QueryOptions) (p : Process) (found : d.procs pid = some p)
      (fresh : d.subs queryID = none)
      (admitted : admission env p dbID sql given = .ok opts) :
      Move env d (.submit pid caller queryID dbID sql given) (d.setSub
        { pid, queryID, dbID, sql, opts, caller, phase := Submission.firstPhase opts })
  | submission (queryID : String) (reply : Reply) (s : Submission) (p : Process)
      (out : SubmitOutcome) (sub : d.subs queryID = some s)
      (found : d.procs s.pid = some p) (alive : p.alive = true)
      (taken : submitStep d.now d.store p s reply = some out) :
      Move env d (.submission queryID reply) (d.applySubmit s out)
  | execution (queryID : String) (choice : RunChoice) (run : Run) (p : Process)
      (out : RunOutcome) (executed : d.runs queryID = some run)
      (found : d.procs run.pid = some p) (alive : p.alive = true)
      (taken : runStep d.now d.store p d.objects run choice = some out) :
      Move env d (.execution queryID choice) (d.applyRun queryID out)
  | reaper (pid : Nat) (choice : ReapChoice) (p next : Process) (store : MetaStore)
      (found : d.procs pid = some p) (alive : p.alive = true)
      (taken : reaperStep d.now d.store p choice = some (store, next)) :
      Move env d (.reaper pid choice) ({ d with store := store }.setProc pid next)
  | gc (pid : Nat) (choice : GcChoice) (p : Process) (out : GcOutcome)
      (found : d.procs pid = some p) (alive : p.alive = true)
      (taken : gcStep env d.now d.store p d.objects choice = some out) :
      Move env d (.gc pid choice)
        ({ d with store := out.store, objects := out.objects }.setProc pid out.process)
  | heart (pid : Nat) (choice : HeartChoice) (p next : Process) (store : MetaStore)
      (found : d.procs pid = some p) (alive : p.alive = true)
      (taken : heartStep d.now d.store p choice = some (store, next)) :
      Move env d (.heart pid choice) ({ d with store := store }.setProc pid next)
  | countBegin (pid call : Nat) (p : Process) (found : d.procs pid = some p)
      (alive : p.alive = true) (unused : d.counts call = none) :
      Move env d (.countBegin pid call) (d.setCount call { pid })
  | countLocal (call : Nat) (c : CountCall) (p : Process) (counting : d.counts call = some c)
      (found : d.procs c.pid = some p) (alive : p.alive = true)
      (begun : c.phase = .begun) :
      Move env d (.countLocal call)
        (d.setCount call { c with phase := .counted p.registry.size })
  | countRemote (call : Nat) (reply : Reply) (c : CountCall) (p : Process)
      (localCount : Nat) (counting : d.counts call = some c)
      (found : d.procs c.pid = some p) (alive : p.alive = true)
      (counted : c.phase = .counted localCount) :
      Move env d (.countRemote call reply) (d.setCount call { c with
        phase := .returned localCount
          (if reply = .ok then some (d.store.countInFlight p.instanceID) else none) })
  | operated (action : Action) (pid : Nat) (p next : Process)
      (found : d.procs pid = some p) (alive : p.alive = true)
      (operated : Operated pid p action next) :
      Move env d action (d.setProc pid next)

variable {d after : Deployment}

theorem install_eq_some {pid : Nat} {given : Config} {pools : List String}
    {build : Config → Process} (taken : d.install pid given pools build = some after) :
    ∃ cfg, validate given = .ok cfg ∧ after = d.setProc pid (build cfg) := by
  unfold install at taken
  cases accepted : validate given with
  | error => simp [accepted] at taken
  | ok cfg =>
    simp only [accepted] at taken
    split at taken
    · exact ⟨cfg, rfl, (Option.some.inj taken).symm⟩
    · contradiction

theorem step_move {env : Env} {action : Action} (taken : step env d action = some after) :
    Move env d action after := by
  cases action
  all_goals simp only [step, Option.bind_eq_bind, Option.bind_eq_some_iff] at taken
  case tick elapsed =>
    cases Option.some.inj taken
    exact .tick elapsed
  case start pid given pools =>
    split at taken
    · contradiction
    · rename_i unused
      obtain ⟨cfg, accepted, rfl⟩ := install_eq_some taken
      exact .started pid given cfg pools unused accepted
  case submit pid caller queryID dbID sql given =>
    obtain ⟨p, live, taken⟩ := taken
    obtain ⟨found, _⟩ := (d.live_eq_some_iff pid p).mp live
    split at taken
    · contradiction
    · rename_i open_
      have fresh : d.subs queryID = none := by
        simp only [not_or, Option.not_isSome_iff_eq_none] at open_
        exact open_.2
      split at taken
      · cases Option.some.inj taken
        exact .rejected pid caller queryID dbID sql given
      · rename_i opts admitted
        cases Option.some.inj taken
        exact .submitted pid caller queryID dbID sql given opts p found fresh admitted
  case submission queryID reply =>
    obtain ⟨s, sub, p, live, out, moved, taken⟩ := taken
    obtain ⟨found, alive⟩ := (d.live_eq_some_iff s.pid p).mp live
    cases Option.some.inj taken
    exact .submission queryID reply s p out sub found alive moved
  case execution queryID choice =>
    obtain ⟨run, executed, p, live, out, moved, taken⟩ := taken
    obtain ⟨found, alive⟩ := (d.live_eq_some_iff run.pid p).mp live
    cases Option.some.inj taken
    exact .execution queryID choice run p out executed found alive moved
  case reaper pid choice =>
    obtain ⟨p, live, ⟨store, next⟩, moved, taken⟩ := taken
    obtain ⟨found, alive⟩ := (d.live_eq_some_iff pid p).mp live
    cases Option.some.inj taken
    exact .reaper pid choice p next store found alive moved
  case gc pid choice =>
    obtain ⟨p, live, out, moved, taken⟩ := taken
    obtain ⟨found, alive⟩ := (d.live_eq_some_iff pid p).mp live
    cases Option.some.inj taken
    exact .gc pid choice p out found alive moved
  case heart pid choice =>
    obtain ⟨p, live, ⟨store, next⟩, moved, taken⟩ := taken
    obtain ⟨found, alive⟩ := (d.live_eq_some_iff pid p).mp live
    cases Option.some.inj taken
    exact .heart pid choice p next store found alive moved
  case countBegin pid call =>
    obtain ⟨p, live, taken⟩ := taken
    obtain ⟨found, alive⟩ := (d.live_eq_some_iff pid p).mp live
    split at taken
    · contradiction
    · rename_i unused
      cases Option.some.inj taken
      exact .countBegin pid call p found alive (Option.not_isSome_iff_eq_none.mp unused)
  case countLocal call =>
    obtain ⟨c, counting, p, live, taken⟩ := taken
    obtain ⟨found, alive⟩ := (d.live_eq_some_iff c.pid p).mp live
    split at taken <;> cases taken
    rename_i begun
    exact .countLocal call c p counting found alive begun
  case countRemote call reply =>
    obtain ⟨c, counting, p, live, taken⟩ := taken
    obtain ⟨found, alive⟩ := (d.live_eq_some_iff c.pid p).mp live
    split at taken <;> cases taken
    rename_i localCount counted
    exact .countRemote call reply c p localCount counting found alive counted
  case drain pid =>
    obtain ⟨p, live, taken⟩ := taken
    obtain ⟨found, alive⟩ := (d.live_eq_some_iff pid p).mp live
    cases Option.some.inj taken
    exact .operated _ pid p _ found alive .drained
  case reload pid given pools =>
    obtain ⟨p, live, taken⟩ := taken
    obtain ⟨found, alive⟩ := (d.live_eq_some_iff pid p).mp live
    obtain ⟨cfg, accepted, rfl⟩ := install_eq_some taken
    exact .operated _ pid p _ found alive (.reloaded given cfg pools accepted)
  case shutdown pid =>
    obtain ⟨p, live, taken⟩ := taken
    obtain ⟨found, alive⟩ := (d.live_eq_some_iff pid p).mp live
    cases Option.some.inj taken
    exact .operated _ pid p _ found alive .stopped
  case crash pid =>
    obtain ⟨p, live, taken⟩ := taken
    obtain ⟨found, alive⟩ := (d.live_eq_some_iff pid p).mp live
    cases Option.some.inj taken
    exact .operated _ pid p _ found alive .crashed

end Deployment

end DbBridge.Cluster
