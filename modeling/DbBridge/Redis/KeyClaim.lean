import DbBridge.Lib.Clients
import DbBridge.Redis.KeyAgreement

/-!
# Claiming a key among other clients

`AcquireIdempotency` on Redis is `SETNX` and, if the key was there, `GET`. Between the two
other clients release, refresh and claim the key, and it may expire. `seen` is a history
variable: the queries that held the key of a call since it began.
-/

namespace DbBridge.State

open Domain Keyspace Redis

/-! ## Clients and their history -/

def KeyCall.redisKey : KeyCall → String
  | acquire dbID key _ _ | release dbID key _ | refresh dbID key _ _ => idempotencyKey dbID key

abbrev Claimants := Pool Data KeyCall Outcome

def KeyCall.program (now : Time) (c : KeyCall) : Client Outcome := c.call.program now

structure Watched where
  pool : Claimants
  seen : Nat → List String

variable {dbID queryID : String}

namespace Watched

variable {now : Time} {server : Server Data} {ttl : Duration} {key : String} {w : Watched}
  {client : Nat}

def initial (now : Time) : Watched := ⟨Pool.initial now, fun _ => []⟩

def holders (pool : Claimants) (key : String) : List String :=
  match pool.server.find pool.now key with
  | some (.text (.text id) _) => [id]
  | _ => []

/-- What a client has seen: whoever holds its key now and, if its call had begun before,
what it had seen then. -/
def record (w : Watched) (after : Claimants) (client : Nat) : List String :=
  match after.clients client with
  | none => []
  | some session =>
    holders after session.label.redisKey ++
      match w.pool.clients client with
      | none => []
      | some _ => w.seen client

def step (w : Watched) (action : Action KeyCall) : Option Watched :=
  (w.pool.step KeyCall.program action).map fun after => ⟨after, w.record after⟩

def keyThere (client : Nat) (w : Watched) : Action KeyCall → Bool
  | .request actor => actor ≠ client ||
      match w.pool.clients client with
      | some ⟨_, .call (.read (.get key)) _, _⟩ => (w.pool.server.find w.pool.now key).isSome
      | _ => true
  | _ => true

def KeyThere (client : Nat) (w : Watched) (action : Action KeyCall) : Prop :=
  w.keyThere client action = true

instance (client : Nat) (w : Watched) (action : Action KeyCall) :
    Decidable (KeyThere client w action) := inferInstanceAs (Decidable (_ = true))

/-! ## The server holds nothing but query IDs -/

def AllText (_ : Time) (server : Server Data) : Prop :=
  ∀ key entry, server.entries.lookup key = some entry → ∃ id expiry, entry = .text (.text id) expiry

def Asks : Request Data → Prop
  | .read _ => True
  | .setNX _ value _ | .expireIfEqual _ value _ => ∃ id, value = .text id
  | .delIfEqual _ _ => True
  | _ => False

section
variable (texts : AllText now server)
include texts

theorem AllText.put (key id : String) (expiry : Option Int) :
    AllText now (server.put key (.text (.text id) expiry)) := by
  intro other entry found
  rcases Tables.insert_cases found with ⟨_, rfl⟩ | ⟨_, found⟩
  · exact ⟨id, expiry, rfl⟩
  · exact texts other entry found

theorem AllText.remove (key : String) : AllText now (server.remove key) := by
  intro other entry found
  exact texts other entry (Tables.lookup_of_erase found)

theorem AllText.request {request : Request Data} (asks : Asks request) :
    AllText now (request.run now server).2 := by
  cases request with
  | read => exact texts
  | setNX key =>
    obtain ⟨id, rfl⟩ := asks
    simp only [Request.run]
    split
    · exact texts
    · exact texts.put key id _
  | delIfEqual key =>
    simp only [Request.run]
    (repeat' split) <;> first | exact texts | exact texts.remove key
  | expireIfEqual key =>
    obtain ⟨id, rfl⟩ := asks
    simp only [Request.run]
    (repeat' split) <;> first | exact texts | exact texts.put key id _
  | write | watch | exec => exact asks.elim

end

theorem program_asks (now : Time) (c : KeyCall) : (c.program now).Sends Asks := by
  cases c with
  | acquire _ _ queryID =>
    apply Program.Sends.map
    unfold Redis.acquireIdempotency
    split
    · trivial
    · refine ⟨⟨queryID, rfl⟩, ?_⟩
      intro set
      cases set with
      | true => trivial
      | false => exact ⟨trivial, fun _ => trivial⟩
  | release => exact ⟨trivial, fun _ => trivial⟩
  | refresh _ _ queryID =>
    apply Program.Sends.map
    unfold Redis.refreshIdempotency
    split
    · trivial
    · exact ⟨⟨queryID, rfl⟩, fun _ => trivial⟩

/-! ## One claim -/

def lookupClaim (dbID key : String) : Client Outcome :=
  .call (.read (.get (idempotencyKey dbID key))) fun get =>
    .done (.ofResult (fun claim : String × Bool => .claim claim.1 claim.2)
      (match get with
        | .ok (some (.text value)) => .ok (value, false)
        | _ => .error (.failed "redis get existing idempotency failed")))

theorem acquire_program (now : Time) (dbID key queryID : String) {expire : Option Int}
    (valid : setNXExpire ttl = some expire) :
    (KeyCall.acquire dbID key queryID ttl).program now =
      .call (.setNX (idempotencyKey dbID key) (.text queryID) expire) fun set =>
        if set then .done (.claim queryID true) else lookupClaim dbID key := by
  simp only [KeyCall.program, KeyCall.call, Call.program, Redis.acquireIdempotency, valid,
    Program.map, Program.bind]
  congr 1
  funext set
  cases set with
  | true | false => rfl

theorem acquire_within (now : Time) (dbID key queryID : String) (ttl : Duration) :
    ((KeyCall.acquire dbID key queryID ttl).program now).Within 2 := by
  cases valid : setNXExpire ttl with
  | none => simp [KeyCall.program, KeyCall.call, Call.program, Redis.acquireIdempotency, valid,
      Program.map, Program.bind, Program.Within]
  | some =>
    rw [acquire_program now dbID key queryID valid]
    intro set
    cases set with
    | true => trivial
    | false => exact fun _ => trivial

inductive Claiming (dbID key queryID : String) (ttl : Duration) (seen : List String) :
    Client Outcome → Prop where
  | begun (now : Time) :
      Claiming dbID key queryID ttl seen ((KeyCall.acquire dbID key queryID ttl).program now)
  | lookup : Claiming dbID key queryID ttl seen (lookupClaim dbID key)
  | acquired : Claiming dbID key queryID ttl seen (.done (.claim queryID true))
  | existing (id : String) (held : id ∈ seen) :
      Claiming dbID key queryID ttl seen (.done (.claim id false))

theorem Claiming.mono {seen more : List String} {program : Client Outcome}
    (claiming : Claiming dbID key queryID ttl seen program) (grows : ∀ id ∈ seen, id ∈ more) :
    Claiming dbID key queryID ttl more program := by
  cases claiming with
  | begun now => exact .begun now
  | lookup => exact .lookup
  | acquired => exact .acquired
  | existing id held => exact .existing id (grows id held)

/-! ## Every interleaving -/

theorem find_text {pool : Claimants} (texts : AllText pool.now pool.server)
    (there : (pool.server.find pool.now key).isSome = true) :
    ∃ id expiry, pool.server.find pool.now key = some (.text (.text id) expiry) := by
  obtain ⟨entry, found⟩ := Option.isSome_iff_exists.mp there
  obtain ⟨id, expiry, rfl⟩ := texts key entry (Option.filter_eq_some_iff.mp found).1
  exact ⟨id, expiry, found⟩

structure Claims (client : Nat) (w : Watched) : Prop where
  guarded : Pool.Guarded Asks AllText w.pool
  claiming : ∀ dbID key queryID ttl program started,
    w.pool.clients client = some ⟨.acquire dbID key queryID ttl, program, started⟩ →
    setNXExpire ttl ≠ none → Claiming dbID key queryID ttl (w.seen client) program

theorem Claims.initial (client : Nat) (now : Time) : Claims client (initial now) where
  guarded :=
    { server := by
        intro key entry found
        contradiction
      sends := by
        intro other session found
        contradiction }
  claiming := by
    intro dbID key queryID ttl program started found
    contradiction

theorem Claiming.answered {after : Claimants} {request : Request Data}
    {next : request.Answer → Client Outcome} {started : Bool}
    {session : Session Data KeyCall Outcome}
    (claiming : Claiming dbID key queryID ttl (w.seen client) (.call request next))
    (valid : setNXExpire ttl ≠ none) (texts : AllText w.pool.now w.pool.server)
    (there : KeyThere client w (.request client))
    (working : w.pool.clients client =
      some ⟨.acquire dbID key queryID ttl, .call request next, started⟩)
    (label : session.label = .acquire dbID key queryID ttl)
    (found : after.clients client = some session) (now : after.now = w.pool.now)
    (server : after.server = (request.run w.pool.now w.pool.server).2) :
    Claiming dbID key queryID ttl (w.record after client)
      (next (request.run w.pool.now w.pool.server).1) := by
  generalize point : Program.call request next = program at claiming
  cases claiming with
  | begun began =>
    obtain ⟨expire, valid⟩ := Option.ne_none_iff_exists'.mp valid
    rw [acquire_program began dbID key queryID valid] at point
    cases point
    cases (Request.run w.pool.now w.pool.server
      (.setNX (idempotencyKey dbID key) (.text queryID) expire)).1 with
    | true => exact .acquired
    | false => exact .lookup
  | lookup =>
    unfold lookupClaim at point
    cases point
    simp only [KeyThere, keyThere, working, ne_eq, not_true, decide_false, Bool.false_or]
      at there
    obtain ⟨id, expiry, holds⟩ := find_text texts there
    have answer : Read.run w.pool.now w.pool.server (.get (idempotencyKey dbID key)) =
        .ok (some (.text id)) := by simp only [Read.run, holds]
    simp only [Request.run, answer, Outcome.ofResult]
    refine .existing id ?_
    have kept : after.server.find after.now (idempotencyKey dbID key) =
        some (.text (.text id) expiry) := by
      rw [now, server]
      exact holds
    simp [record, found, label, KeyCall.redisKey, holders, kept]
  | acquired | existing => cases point

theorem Claims.step {after : Watched} {action : Action KeyCall} (claims : Claims client w)
    (there : KeyThere client w action) (taken : w.step action = some after) :
    Claims client after := by
  obtain ⟨pool, moved, rfl⟩ := Option.map_eq_some_iff.mp taken
  have move := Pool.step_move moved
  constructor
  · exact claims.guarded.move (fun request now server asks texts => texts.request asks)
      (fun _ _ _ _ texts => texts) move fun _ label _ => program_asks w.pool.now label
  · intro dbID key queryID ttl program started found valid
    rcases move.session_origin found with
      before | ⟨_, begun⟩ | ⟨request, _, _, rfl, working, answered, now, server⟩
    · refine (claims.claiming _ _ _ _ _ _ before valid).mono fun id held => ?_
      change pool.clients client = some _ at found
      simp only [record, found, before]
      exact List.mem_append_right _ held
    · change program = KeyCall.program w.pool.now (.acquire dbID key queryID ttl) at begun
      subst begun
      exact .begun w.pool.now
    · change program = _ at answered
      subst answered
      exact (claims.claiming _ _ _ _ _ _ working valid).answered valid claims.guarded.server there
        working rfl found now server

/-- In every run in which the `GET` of the client finds its key, a claim ends after at most
two requests, and with the key or with a query that held it meanwhile. -/
theorem claim_answers {client : Nat} {now : Time} {w : Watched}
    (run : Runs.Reaches step (KeyThere client) (initial now) w)
    {dbID key queryID : String} {ttl : Duration} (valid : setNXExpire ttl ≠ none) :
    (∀ start, ((KeyCall.acquire dbID key queryID ttl).program start).Within 2) ∧
      ∀ outcome started,
        w.pool.clients client =
          some ⟨.acquire dbID key queryID ttl, .done outcome, started⟩ →
        outcome = .claim queryID true ∨ ∃ id ∈ w.seen client, outcome = .claim id false := by
  refine ⟨fun start => acquire_within start dbID key queryID ttl, ?_⟩
  intro outcome started found
  have claims : Claims client w := run.invariant (Claims client) (Claims.initial client now)
    fun _ _ _ claims there taken => claims.step there taken
  have claiming := claims.claiming _ _ _ _ _ _ found valid
  generalize point : Program.done outcome = program at claiming
  cases claiming with
  | begun began =>
    obtain ⟨_, valid⟩ := Option.ne_none_iff_exists'.mp valid
    rw [acquire_program began dbID key queryID valid] at point
    cases point
  | lookup => cases point
  | acquired =>
    cases point
    exact .inl rfl
  | existing id held =>
    cases point
    exact .inr ⟨id, held, rfl⟩

/-! ### Two clients and one key

Client 1 holds the key for query `q` when client 2 asks for it. -/

def contested : List (Action KeyCall) :=
  [.begin 1 (.acquire "db" "k" "q" second), .request 1, .finish 1,
    .begin 2 (.acquire "db" "k" "r" second), .request 2]

def answer (w : Watched) : Option (Duration × Outcome) :=
  match w.pool.clients 2 with
  | some ⟨.acquire "db" "k" "r" ttl, .done outcome, _⟩ => some (ttl, outcome)
  | _ => none

theorem answer_eq_some {outcome : Outcome} (answered : w.answer = some (ttl, outcome)) :
    ∃ started, w.pool.clients 2 = some ⟨.acquire "db" "k" "r" ttl, .done outcome, started⟩ := by
  unfold answer at answered
  split at answered <;> cases answered
  rename_i started found
  exact ⟨started, found⟩

theorem existing_claim_is_named :
    ∃ w started, Runs.Reaches step (KeyThere 2) (initial 1) w ∧ setNXExpire second ≠ none ∧
      w.pool.clients 2 =
        some ⟨.acquire "db" "k" "r" second, .done (.claim "q" false), started⟩ ∧
      "q" ∈ w.seen 2 := by
  obtain ⟨w, run, answered⟩ : ∃ w, Runs.Reaches step (KeyThere 2) (initial 1) w ∧
      answer w = some (second, .claim "q" false) :=
    Runs.exists_reaches (contested ++ [.request 2]) (by decide +kernel)
  have valid : setNXExpire second ≠ none := by decide
  obtain ⟨started, found⟩ := answer_eq_some answered
  refine ⟨w, started, run, valid, found, ?_⟩
  rcases (claim_answers run valid).2 _ _ found with acquired | ⟨_, held, same⟩
  · contradiction
  · cases same
    exact held

/-- The key is released between the `SETNX` and the `GET`: the claim fails, although every
command succeeded. -/
theorem released_key_fails_claim :
    ∃ w started, Runs.Reaches step Runs.Always (initial 1) w ∧ setNXExpire second ≠ none ∧
      w.pool.clients 2 = some ⟨.acquire "db" "k" "r" second, .done .failed, started⟩ := by
  obtain ⟨w, run, answered⟩ : ∃ w, Runs.Reaches step Runs.Always (initial 1) w ∧
      answer w = some (second, .failed) :=
    Runs.exists_reaches (contested ++ [.begin 3 (.release "db" "k" "q"), .request 3, .request 2])
      (by decide +kernel)
  obtain ⟨started, found⟩ := answer_eq_some answered
  exact ⟨w, started, run, by decide, found⟩

end Watched

end DbBridge.State
