import DbBridge.Lib.Keyspace
import DbBridge.Lib.Runs

/-!
# Many clients of one server

Clients that run programs against one server, one request at a time and in any order; a
client can vanish between two requests, and time passes. A client is labelled with what
it was asked to do. `Guarded.of_run` is the rule for what all requests keep.
-/

namespace Keyspace

variable {α κ ρ σ : Type}

/-! ## What a program can send -/

def Program.Sends (allowed : Request α → Prop) : Program α ρ → Prop
  | .done _ => True
  | .call request next => allowed request ∧ ∀ answer, (next answer).Sends allowed

namespace Program

def isDone : Program α ρ → Bool
  | done _ => true
  | call _ _ => false

variable {allowed : Request α → Prop}

section
variable {program : Program α ρ} (sends : program.Sends allowed)
include sends

theorem Sends.mono {weaker : Request α → Prop}
    (implies : ∀ request, allowed request → weaker request) : program.Sends weaker := by
  induction program with
  | done => trivial
  | call request _ ih => exact ⟨implies request sends.1, fun answer => ih answer (sends.2 answer)⟩

theorem Sends.bind {next : ρ → Program α σ} (later : ∀ result, (next result).Sends allowed) :
    (program.bind next).Sends allowed := by
  induction program with
  | done result => exact later result
  | call _ _ ih => exact ⟨sends.1, fun answer => ih answer (sends.2 answer)⟩

theorem Sends.map (f : ρ → σ) : (program.map f).Sends allowed :=
  sends.bind fun _ => trivial

end

theorem sends_pipeline {writes : List (Write α)}
    (commands : ∀ write ∈ writes, allowed (.write write)) {next : Bool → Program α ρ}
    (later : ∀ failed, (next failed).Sends allowed) (failed : Bool) :
    (pipeline writes failed next).Sends allowed := by
  induction writes generalizing failed with
  | nil => exact later failed
  | cons _ _ ih =>
    rw [List.forall_mem_cons] at commands
    exact ⟨commands.1, fun answer => ih commands.2 _⟩

end Program

def Program.Within : Nat → Program α ρ → Prop
  | _, .done _ => True
  | 0, .call _ _ => False
  | n + 1, .call _ next => ∀ answer, (next answer).Within n

/-! ## A client alone -/

/-- A program alone: its requests are sent at the instants of a clock, counted from those
sent before. -/
def Program.runFrom [DecidableEq α] (clock : Nat → Int) :
    Program α ρ → Nat → Server α → ρ × Nat × Server α
  | .done result, sent, server => (result, sent, server)
  | .call request next, sent, server =>
    let (answer, after) := request.run (clock sent) server
    (next answer).runFrom clock (sent + 1) after

theorem Program.bind_runFrom [DecidableEq α] (clock : Nat → Int) (program : Program α ρ)
    (next : ρ → Program α σ) (sent : Nat) (server : Server α) :
    (program.bind next).runFrom clock sent server =
      (next (program.runFrom clock sent server).1).runFrom clock
        (program.runFrom clock sent server).2.1 (program.runFrom clock sent server).2.2 := by
  induction program generalizing sent server with
  | done => rfl
  | call _ _ ih =>
    simp only [Program.bind, Program.runFrom]
    exact ih _ _ _

/-! ## Clients -/

/-- A client at work: what it is doing, what is left of it, and whether it has sent a
request yet. -/
structure Session (α κ ρ : Type) where
  label : κ
  program : Program α ρ
  started : Bool

structure Pool (α κ ρ : Type) where
  now : Int
  server : Server α
  clients : Nat → Option (Session α κ ρ)

inductive Action (κ : Type) where
  | begin (client : Nat) (label : κ)
  | request (client : Nat)
  | finish (client : Nat)
  | crash (client : Nat)
  | advance (elapsed : Nat)

variable {program : Int → κ → Program α ρ} {pool after : Pool α κ ρ} {action : Action κ}

namespace Pool

def initial (now : Int) : Pool α κ ρ := ⟨now, {}, fun _ => none⟩

def Quiet (pool : Pool α κ ρ) : Prop := ∀ client, pool.clients client = none

def update (pool : Pool α κ ρ) (client : Nat) (session : Option (Session α κ ρ)) :
    Pool α κ ρ :=
  { pool with clients := Function.update pool.clients client session }

theorem update_clients (pool : Pool α κ ρ) (client other : Nat) (session : Option (Session α κ ρ)) :
    (pool.update client session).clients other =
      if other = client then session else pool.clients other := by
  simp only [update, Function.update_apply]

variable [DecidableEq α]

/-- `program` is what a client does, begun at an instant. -/
def step (program : Int → κ → Program α ρ) (pool : Pool α κ ρ) :
    Action κ → Option (Pool α κ ρ)
  | .begin client label =>
    match pool.clients client with
    | none => some (pool.update client (some ⟨label, program pool.now label, false⟩))
    | some _ => none
  | .request client =>
    match pool.clients client with
    | some ⟨label, .call request next, _⟩ =>
      let (answer, server) := request.run pool.now pool.server
      some ({ pool with server }.update client (some ⟨label, next answer, true⟩))
    | _ => none
  | .finish client =>
    match pool.clients client with
    | some ⟨_, .done _, _⟩ => some (pool.update client none)
    | _ => none
  | .crash client =>
    match pool.clients client with
    | some _ => some (pool.update client none)
    | none => none
  | .advance elapsed => some { pool with now := pool.now + elapsed }

inductive Move (program : Int → κ → Program α ρ) (pool : Pool α κ ρ) :
    Action κ → Pool α κ ρ → Prop where
  | begin (client : Nat) (label : κ) (free : pool.clients client = none) :
      Move program pool (.begin client label)
        (pool.update client (some ⟨label, program pool.now label, false⟩))
  | request (client : Nat) (label : κ) (started : Bool) (request : Request α)
      (next : request.Answer → Program α ρ)
      (working : pool.clients client = some ⟨label, .call request next, started⟩) :
      Move program pool (.request client)
        ({ pool with server := (request.run pool.now pool.server).2 }.update client
          (some ⟨label, next (request.run pool.now pool.server).1, true⟩))
  | finish (client : Nat) (label : κ) (started : Bool) (result : ρ)
      (working : pool.clients client = some ⟨label, .done result, started⟩) :
      Move program pool (.finish client) (pool.update client none)
  | crash (client : Nat) (session : Session α κ ρ)
      (working : pool.clients client = some session) :
      Move program pool (.crash client) (pool.update client none)
  | advance (elapsed : Nat) :
      Move program pool (.advance elapsed) { pool with now := pool.now + elapsed }

theorem step_move (taken : pool.step program action = some after) :
    Move program pool action after := by
  cases action
  all_goals simp only [step] at taken
  case begin client label =>
    split at taken <;> cases taken
    rename_i free
    exact .begin client label free
  case request client =>
    split at taken <;> cases taken
    rename_i label request next started working
    exact .request client label started request next working
  case finish client =>
    split at taken <;> cases taken
    rename_i label result started working
    exact .finish client label started result working
  case crash client =>
    split at taken <;> cases taken
    rename_i session working
    exact .crash client session working
  case advance elapsed =>
    cases taken
    exact .advance elapsed

theorem Move.session_origin (move : Move program pool action after) {client : Nat}
    {session : Session α κ ρ} (found : after.clients client = some session) :
    pool.clients client = some session ∨
      (pool.clients client = none ∧ session.program = program pool.now session.label) ∨
      ∃ request next started, action = .request client ∧
        pool.clients client = some ⟨session.label, .call request next, started⟩ ∧
        session.program = next (request.run pool.now pool.server).1 ∧
        after.now = pool.now ∧ after.server = (request.run pool.now pool.server).2 := by
  cases move with
  | begin actor label free =>
    rw [update_clients] at found
    split at found
    · rename_i same
      subst same
      cases found
      exact .inr (.inl ⟨free, rfl⟩)
    · exact .inl found
  | request actor label started request next working =>
    rw [update_clients] at found
    split at found
    · rename_i same
      subst same
      cases found
      exact .inr (.inr ⟨request, next, started, rfl, working, rfl, rfl, rfl⟩)
    · exact .inl found
  | finish | crash =>
    rw [update_clients] at found
    split at found
    · contradiction
    · exact .inl found
  | advance => exact .inl found

section
variable {allowed : Request α → Prop} {inv : Int → Server α → Prop}

structure Guarded (allowed : Request α → Prop) (inv : Int → Server α → Prop)
    (pool : Pool α κ ρ) : Prop where
  server : inv pool.now pool.server
  sends : ∀ client session, pool.clients client = some session →
    session.program.Sends allowed

omit [DecidableEq α] in
theorem Guarded.update {pool : Pool α κ ρ} (guarded : Guarded allowed inv pool)
    {server : Server α} (kept : inv pool.now server) (client : Nat)
    {session : Option (Session α κ ρ)}
    (sends : ∀ working ∈ session, working.program.Sends allowed) :
    Guarded allowed inv ({ pool with server }.update client session) where
  server := kept
  sends := by
    intro other working found
    rw [update_clients] at found
    split at found
    · exact sends working found
    · exact guarded.sends other working found

variable
  (kept : ∀ request now server, allowed request → inv now server → inv now (request.run now server).2)
  (time : ∀ now later server, now ≤ later → inv now server → inv later server)

include kept time in
theorem Guarded.move {pool after : Pool α κ ρ} {action : Action κ}
    (guarded : Guarded allowed inv pool) (move : Move program pool action after)
    (begun : ∀ client label, action = .begin client label →
      (program pool.now label).Sends allowed) : Guarded allowed inv after := by
  cases move with
  | begin client label =>
    refine guarded.update guarded.server client ?_
    rintro working ⟨⟩
    exact begun client label rfl
  | request client _ _ request _ working =>
    have sends := guarded.sends client _ working
    refine guarded.update (kept request _ _ sends.1 guarded.server) client ?_
    rintro session ⟨⟩
    exact sends.2 _
  | finish client | crash client => exact guarded.update guarded.server client (by simp)
  | advance elapsed =>
    exact ⟨time _ _ _ (Int.le_add_of_nonneg_right (Int.natCast_nonneg elapsed)) guarded.server,
      guarded.sends⟩

include kept time in
theorem Guarded.of_run {guard : Pool α κ ρ → Action κ → Prop} {first last : Pool α κ ρ}
    (run : Runs.Reaches (step program) guard first last)
    (begun : ∀ pool client label, guard pool (.begin client label) →
      (program pool.now label).Sends allowed)
    (initial : Guarded allowed inv first) : Guarded allowed inv last := by
  refine run.invariant (Guarded allowed inv) initial ?_
  intro before action after guarded allows taken
  refine guarded.move kept time (step_move taken) ?_
  rintro client label rfl
  exact begun before client label allows

end

end Pool

end Keyspace
