import DbBridge.Lib.Runs
import DbBridge.Cluster.Submit
import DbBridge.Cluster.Workers

/-!
# A deployment

Any number of instances sharing one MetaStore. `step` lets one goroutine of one instance take one
step, lets time pass, or lets the operator act (start, drain, reload, shut down, kill). A killed
process stays in `procs`, no longer alive; a restart is a new process, under the same instance ID
if the configuration says so. Submissions and executions are filed under their query ID, which
`uuid.New` is taken never to return twice.
-/

namespace DbBridge.Cluster

open Domain State Authn Settings

/-- A call of `CountInFlight`: the registry is read first, then the store. `none`
in `returned` is a failed store read, after which the local count is returned. -/
inductive CountPhase where
  | begun
  | counted (localCount : Nat)
  | returned (localCount : Nat) (remote : Option Nat)
  deriving DecidableEq, Repr

def countResult (localCount : Nat) : Option Nat → Nat
  | none => localCount
  | some remote => max localCount remote

structure CountCall where
  pid : Nat
  phase : CountPhase := .begun
  deriving DecidableEq, Repr

structure Deployment where
  store : MetaStore
  now : Time
  objects : List ObjectName := []
  procs : Nat → Option Process := fun _ => none
  subs : String → Option Submission := fun _ => none
  runs : String → Option Run := fun _ => none
  counts : Nat → Option CountCall := fun _ => none

inductive Action where
  | tick (elapsed : Nat)
  | start (pid : Nat) (given : Config) (pools : List String)
  | submit (pid : Nat) (caller : Option Identity) (queryID dbID sql : String)
      (opts : QueryOptions)
  | submission (queryID : String) (reply : Reply)
  | execution (queryID : String) (choice : RunChoice)
  | reaper (pid : Nat) (choice : ReapChoice)
  | gc (pid : Nat) (choice : GcChoice)
  | heart (pid : Nat) (choice : HeartChoice)
  | countBegin (pid call : Nat)
  | countLocal (call : Nat)
  | countRemote (call : Nat) (reply : Reply)
  | drain (pid : Nat)
  | reload (pid : Nat) (given : Config) (pools : List String)
  | shutdown (pid : Nat)
  | crash (pid : Nat)

namespace Deployment

def initial (now : Time) : Deployment where
  store := .empty
  now := now

def live (d : Deployment) (pid : Nat) : Option Process :=
  (d.procs pid).filter (·.alive)

def setProc (d : Deployment) (pid : Nat) (p : Process) : Deployment :=
  { d with procs := Function.update d.procs pid (some p) }

def setSub (d : Deployment) (s : Submission) : Deployment :=
  { d with subs := Function.update d.subs s.queryID (some s) }

def setRun (d : Deployment) (queryID : String) (run : Run) : Deployment :=
  { d with runs := Function.update d.runs queryID (some run) }

def setCount (d : Deployment) (call : Nat) (c : CountCall) : Deployment :=
  { d with counts := Function.update d.counts call (some c) }

def applySubmit (d : Deployment) (s : Submission) (out : SubmitOutcome) : Deployment :=
  let moved := ({ d with store := out.store }.setProc s.pid out.process).setSub
    { s with phase := out.phase }
  match out.launched with
  | none => moved
  | some record => moved.setRun s.queryID { pid := s.pid, record := record }

def applyRun (d : Deployment) (queryID : String) (out : RunOutcome) : Deployment :=
  ({ d with store := out.store, objects := out.objects }.setProc out.run.pid
    out.process).setRun queryID out.run

/-- A configuration the operator installs, with the databases whose pools are open
afterwards. -/
def install (d : Deployment) (pid : Nat) (given : Config) (pools : List String)
    (build : Config → Process) : Option Deployment :=
  match validate given with
  | .error _ => none
  | .ok cfg =>
    if pools ⊆ cfg.databases.map (·.id) then some (d.setProc pid (build cfg)) else none

def step (env : Env) (d : Deployment) : Action → Option Deployment
  | .tick elapsed => some { d with now := d.now + elapsed }
  | .start pid given pools =>
    match d.procs pid with
    | some _ => none
    | none => d.install pid given pools fun cfg => Process.new cfg pools
  | .submit pid caller queryID dbID sql opts => do
      let p ← d.live pid
      if ¬ p.ready ∨ (d.subs queryID).isSome then none
      else
        match admission env p dbID sql opts with
        | .error _ => some d
        | .ok opts => some (d.setSub
            { pid, queryID, dbID, sql, opts, caller, phase := Submission.firstPhase opts })
  | .submission queryID reply => do
      let s ← d.subs queryID
      let p ← d.live s.pid
      let out ← submitStep d.now d.store p s reply
      some (d.applySubmit s out)
  | .execution queryID choice => do
      let run ← d.runs queryID
      let p ← d.live run.pid
      let out ← runStep d.now d.store p d.objects run choice
      some (d.applyRun queryID out)
  | .reaper pid choice => do
      let p ← d.live pid
      let out ← reaperStep d.now d.store p choice
      some ({ d with store := out.1 }.setProc pid out.2)
  | .gc pid choice => do
      let p ← d.live pid
      let out ← gcStep env d.now d.store p d.objects choice
      some ({ d with store := out.store, objects := out.objects }.setProc pid out.process)
  | .heart pid choice => do
      let p ← d.live pid
      let out ← heartStep d.now d.store p choice
      some ({ d with store := out.1 }.setProc pid out.2)
  | .countBegin pid call => do
      let _ ← d.live pid
      if (d.counts call).isSome then none else some (d.setCount call { pid })
  | .countLocal call => do
      let c ← d.counts call
      let p ← d.live c.pid
      if c.phase = .begun then
        some (d.setCount call { c with phase := .counted p.registry.size })
      else none
  | .countRemote call reply => do
      let c ← d.counts call
      let p ← d.live c.pid
      match c.phase with
      | .counted localCount => some (d.setCount call { c with
          phase := .returned localCount
            (if reply = .ok then some (d.store.countInFlight p.instanceID) else none) })
      | _ => none
  | .drain pid => do
      let p ← d.live pid
      some (d.setProc pid { p with registry := p.registry.drain })
  | .reload pid given pools => do
      let p ← d.live pid
      d.install pid given pools fun cfg => { p with cfg, pools }
  | .shutdown pid => do
      let p ← d.live pid
      some (d.setProc pid { p with ctxDone := true })
  | .crash pid => do
      let p ← d.live pid
      some (d.setProc pid { p with alive := false })

/-- The states of a deployment that starts empty, in runs that meet `guard`. -/
def Reachable (env : Env) (guard : Deployment → Action → Prop) (d : Deployment) : Prop :=
  ∃ now > 0, Runs.Reaches (step env) guard (initial now) d

theorem exists_reachable {env : Env} {guard : Deployment → Action → Prop}
    [∀ d action, Decidable (guard d action)] {facts : Deployment → Prop} (schedule : List Action)
    (replayed : ∃ d ∈ Runs.execute (step env) guard schedule (initial 1), facts d) :
    ∃ d, Reachable env guard d ∧ facts d := by
  obtain ⟨d, run, holds⟩ := Runs.exists_reaches schedule replayed
  exact ⟨d, ⟨1, by decide, run⟩, holds⟩

end Deployment

/-! ## A small deployment

Two instances, `a` as process 1 and `b` as process 2, with one PostgreSQL database
and the file system store. The runs exhibited in other modules start from it. -/

def sampleConfig (id : String) : Config where
  inst := { id := id, metaStore := "memory" }
  databases := [{ id := "db", engine := "postgres", dsn := "dsn" }]

def sampleEnv : Env where
  backend := .memory
  tables := SqlGuard.asciiTables
  stores := AList.insert "fs" {} ∅

def startInstance (pid : Nat) (id : String) : List Action :=
  [.start pid (sampleConfig id) ["db"], .reaper pid (.listed .ok []), .reaper pid .next]

def runningQuery : List Action :=
  startInstance 1 "a" ++ startInstance 2 "b" ++
    .submit 1 none "q" "db" "SELECT 1" {} :: List.replicate 6 (.submission "q" .ok) ++
    [.execution "q" .go, .execution "q" (.persist .ok false)]

def reapQuery : List Action :=
  [.tick 20000000000, .reaper 2 .begin, .reaper 2 (.listed .ok ["q"]), .reaper 2 .next,
    .reaper 2 (.fetched .ok), .reaper 2 .next, .reaper 2 (.written .ok)]

def finishQuery : List Action :=
  [.execution "q" (.exec none none),
    .execution "q" (.opened { backend := "fs", locator := "q.jsonl", format := "jsonl" }),
    .execution "q" (.encoded ⟨0, 0, none⟩ (some 0)), .execution "q" .take,
    .execution "q" (.progress .ok), .execution "q" .go, .execution "q" (.close none ""),
    .execution "q" (.persist .ok false)]

end DbBridge.Cluster
