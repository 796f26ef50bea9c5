import DbBridge.Lib.Clients

/-!
# Optimistic transactions

A client watches a key, reads it, chooses what to write and sends a transaction that the
server aborts if the key has changed. Among any other clients, with answers that get
lost, keys that expire and clients that vanish, a transaction that is executed finds under
its key what the client chose upon.

Beside the clients stands what each of them did: what its transaction found, and whether
it changed anything.
-/

namespace Keyspace

open Function

variable {α κ ρ : Type}

/-! ## Changes are counted -/

namespace Server

/-- A key that was not changed holds what it held. -/
structure Evolves (before after : Server α) : Prop where
  counts : ∀ key, before.changes key ≤ after.changes key
  holds : ∀ key, after.changes key = before.changes key →
    after.entries.lookup key = before.entries.lookup key

namespace Evolves

theorem refl (server : Server α) : server.Evolves server := ⟨fun _ => le_rfl, fun _ _ => rfl⟩

theorem trans {first middle last : Server α} (before : first.Evolves middle)
    (after : middle.Evolves last) : first.Evolves last where
  counts := fun key => (before.counts key).trans (after.counts key)
  holds := by
    intro key same
    have early := before.counts key
    have late := after.counts key
    rw [after.holds key (by omega), before.holds key (by omega)]

theorem find_eq {before after : Server α} (evolves : before.Evolves after) {key : String}
    (same : after.changes key = before.changes key) (now : Int) :
    after.find now key = before.find now key := by
  simp only [find, evolves.holds key same]

end Evolves

theorem put_evolves (server : Server α) (key : String) (entry : Entry α) :
    server.Evolves (server.put key entry) where
  counts := by
    intro other
    by_cases same : other = key
    · subst same
      simp [put]
    · simp [put, update_of_ne same]
  holds := by
    intro other unchanged
    have ne : other ≠ key := by
      rintro rfl
      simp [put] at unchanged
    simp [put, AList.lookup_insert_ne ne]

theorem remove_evolves (server : Server α) (key : String) :
    server.Evolves (server.remove key) where
  counts := by
    intro other
    by_cases same : other = key
    · subst same
      simp [remove]
    · simp [remove, update_of_ne same]
  holds := by
    intro other unchanged
    have ne : other ≠ key := by
      rintro rfl
      simp [remove] at unchanged
    simp [remove, AList.lookup_erase_ne ne]

end Server

theorem Write.run_evolves (write : Write α) (now : Int) (server : Server α) :
    server.Evolves (write.run now server).2 := by
  cases write <;> simp only [run] <;> (repeat' split) <;>
    first
    | exact .refl server
    | exact server.put_evolves ..
    | exact server.remove_evolves ..

theorem runAll_evolves (now : Int) (server : Server α) (writes : List (Write α)) :
    server.Evolves (runAll now server writes).2 := by
  induction writes generalizing server with
  | nil => exact .refl server
  | cons first _ ih => exact (first.run_evolves now server).trans (ih _)

theorem Request.run_evolves [DecidableEq α] (request : Request α) (now : Int)
    (server : Server α) : server.Evolves (request.run now server).2 := by
  cases request with
  | write command => exact command.run_evolves now server
  | exec _ _ writes =>
    simp only [run]
    split
    · exact runAll_evolves now server writes
    · exact .refl server
  | read | watch | setNX | delIfEqual | expireIfEqual =>
    simp only [run]
    (repeat' split) <;>
      first
      | exact .refl server
      | exact server.put_evolves ..
      | exact server.remove_evolves ..

/-! ## What clients did -/

/-- A step of the clients, or a request whose answer does not come; it may have been
executed. -/
inductive Event (κ : Type) where
  | act (action : Action κ)
  | cut (client : Nat) (executed : Bool)

section
variable [DecidableEq α]

/-- What a transaction finds under the key it watches, if it is executed. -/
def Request.ran (now : Int) (server : Server α) :
    Request α → Option (Except WrongType (Option α))
  | .exec key seen _ =>
    if server.unchanged now key seen then some ((Read.get key).run now server) else none
  | _ => none

def Pool.cut (broken : ρ) (pool : Pool α κ ρ) (client : Nat) (executed : Bool) :
    Option (Pool α κ ρ) :=
  match pool.clients client with
  | some ⟨label, .call request _, _⟩ =>
    let server := if executed then (request.run pool.now pool.server).2 else pool.server
    some ({ pool with server }.update client (some ⟨label, .done broken, true⟩))
  | _ => none

structure Observed (α κ ρ : Type) where
  pool : Pool α κ ρ
  ran : Nat → Option (Except WrongType (Option α)) := fun _ => none
  changed : Nat → Bool := fun _ => false

namespace Observed

def fresh (observed : Observed α κ ρ) (client : Nat) : Observed α κ ρ :=
  { observed with
    ran := Function.update observed.ran client none
    changed := Function.update observed.changed client false }

def note (observed : Observed α κ ρ) (client : Nat) (request : Request α) :
    Observed α κ ρ :=
  let pool := observed.pool
  { observed with
    ran := Function.update observed.ran client
      ((request.ran pool.now pool.server).or (observed.ran client))
    changed := Function.update observed.changed client (observed.changed client ||
      (request.run pool.now pool.server).2.entries.entries ≠ pool.server.entries.entries) }

def executed (observed : Observed α κ ρ) (client : Nat) : Observed α κ ρ :=
  match observed.pool.clients client with
  | some ⟨_, .call request _, _⟩ => observed.note client request
  | _ => observed

def step (program : Int → κ → Program α ρ) (broken : ρ) (observed : Observed α κ ρ) :
    Event κ → Option (Observed α κ ρ)
  | .act action =>
    (observed.pool.step program action).map fun pool =>
      match action with
      | .begin client _ => { observed.fresh client with pool }
      | .request client => { observed.executed client with pool }
      | _ => { observed with pool }
  | .cut client executed =>
    (observed.pool.cut broken client executed).map fun pool =>
      if executed then { observed.executed client with pool } else { observed with pool }

end Observed

end

/-! ## Plans -/

/-- A transaction on one key: what to write, or what to end with, upon what the key holds;
and what to end with upon the answer. -/
structure Plan (α ρ : Type) where
  key : String
  choose : Except WrongType (Option α) → Except ρ (List (Write α))
  result : Option Bool → ρ

namespace Plan

def commit (plan : Plan α ρ) (seen : Token) (writes : List (Write α)) : Program α ρ :=
  .call (.exec plan.key seen writes) fun answer => .done (plan.result answer)

def proceed (plan : Plan α ρ) (seen : Token) (reply : Except WrongType (Option α)) :
    Program α ρ :=
  match plan.choose reply with
  | .error outcome => .done outcome
  | .ok writes => plan.commit seen writes

def program (plan : Plan α ρ) : Program α ρ :=
  .call (.watch plan.key) fun seen => .read (.get plan.key) (plan.proceed seen)

/-- If the key has not changed since it was watched, it was there if it is there. -/
def Watched (plan : Plan α ρ) (seen : Token) (now : Int) (server : Server α) : Prop :=
  seen.changes ≤ server.changes plan.key ∧
    (server.changes plan.key = seen.changes → (server.find now plan.key).isSome = true →
      seen.present = true)

/-- If the key has not changed since it was watched, it held at some instant what the
client read. -/
def Decided (plan : Plan α ρ) (seen : Token) (reply : Except WrongType (Option α))
    (now : Int) (server : Server α) : Prop :=
  seen.changes ≤ server.changes plan.key ∧
    (server.changes plan.key = seen.changes → ∃ earlier ≤ now,
      (Read.get plan.key).run earlier server = reply ∧
      ((server.find earlier plan.key).isSome = true → seen.present = true))

inductive Stage (plan : Plan α ρ) (broken : ρ) (now : Int) (server : Server α) :
    Option (Except WrongType (Option α)) → Bool → Program α ρ → Prop
  | begun : Stage plan broken now server none false plan.program
  | watched (seen : Token) (watched : plan.Watched seen now server) :
      Stage plan broken now server none false (.read (.get plan.key) (plan.proceed seen))
  | decided (seen : Token) (reply : Except WrongType (Option α)) (writes : List (Write α))
      (chosen : plan.choose reply = .ok writes) (decided : plan.Decided seen reply now server) :
      Stage plan broken now server none false (plan.commit seen writes)
  | refused (reply : Except WrongType (Option α)) (outcome : ρ)
      (chosen : plan.choose reply = .error outcome) :
      Stage plan broken now server none false (.done outcome)
  | aborted : Stage plan broken now server none false (.done (plan.result none))
  | cut : Stage plan broken now server none false (.done broken)
  | committed (reply : Except WrongType (Option α)) (writes : List (Write α))
      (chosen : plan.choose reply = .ok writes) (changed : Bool) (outcome : ρ)
      (ends : outcome = broken ∨ ∃ failed, outcome = plan.result (some failed)) :
      Stage plan broken now server (some reply) changed (.done outcome)

section
variable {plan : Plan α ρ} {broken : ρ} {now later : Int} {server after : Server α}
  {seen : Token} {reply : Except WrongType (Option α)}

theorem Watched.evolve (watched : plan.Watched seen now server) (le : now ≤ later)
    (evolves : server.Evolves after) : plan.Watched seen later after := by
  refine ⟨watched.1.trans (evolves.counts _), fun same there => ?_⟩
  have unchanged : after.changes plan.key = server.changes plan.key := by
    have before := watched.1
    have grows := evolves.counts plan.key
    omega
  refine watched.2 (unchanged ▸ same) ?_
  rw [evolves.find_eq unchanged, server.find_of_le le] at there
  exact Option.isSome_of_isSome_filter _ _ there

theorem Decided.evolve (decided : plan.Decided seen reply now server) (le : now ≤ later)
    (evolves : server.Evolves after) : plan.Decided seen reply later after := by
  refine ⟨decided.1.trans (evolves.counts _), fun same => ?_⟩
  have unchanged : after.changes plan.key = server.changes plan.key := by
    have before := decided.1
    have grows := evolves.counts plan.key
    omega
  obtain ⟨earlier, past, read, _⟩ := decided.2 (unchanged ▸ same)
  refine ⟨earlier, past.trans le, ?_, ?_⟩
  · simpa only [Read.run, evolves.find_eq unchanged] using read
  · rwa [evolves.find_eq unchanged]

variable {ran : Option (Except WrongType (Option α))} {changed : Bool}

theorem Stage.evolve {program : Program α ρ}
    (stage : plan.Stage broken now server ran changed program) (le : now ≤ later)
    (evolves : server.Evolves after) : plan.Stage broken later after ran changed program := by
  cases stage with
  | begun => exact .begun
  | watched seen watched => exact .watched seen (watched.evolve le evolves)
  | decided seen reply writes chosen decided =>
    exact .decided seen reply writes chosen (decided.evolve le evolves)
  | refused reply outcome chosen => exact .refused reply outcome chosen
  | aborted => exact .aborted
  | cut => exact .cut
  | committed reply writes chosen changed outcome ends =>
    exact .committed reply writes chosen changed outcome ends

theorem Decided.get_eq (decided : plan.Decided seen reply now server)
    (unchanged : server.unchanged now plan.key seen = true) :
    (Read.get plan.key).run now server = reply := by
  simp only [Server.unchanged, Bool.and_eq_true, decide_eq_true_eq, Bool.or_eq_true,
    Bool.not_eq_true'] at unchanged
  obtain ⟨same, still⟩ := unchanged
  obtain ⟨earlier, past, read, there⟩ := decided.2 same
  have find : server.find now plan.key = server.find earlier plan.key := by
    rw [server.find_of_le past]
    cases found : server.find earlier plan.key with
    | none => rfl
    | some =>
      have present := there (by rw [found]; rfl)
      have alive := still.resolve_left (by simp [present])
      rw [server.find_of_le past, found, Option.isSome_filter] at alive
      exact Option.filter_eq_some_iff.mpr ⟨rfl, alive⟩
  rw [← read]
  simp only [Read.run, find]

variable [DecidableEq α]

theorem Stage.request {request : Request α} {next : request.Answer → Program α ρ}
    (stage : plan.Stage broken now server ran changed (.call request next)) :
    plan.Stage broken now (request.run now server).2
        ((request.ran now server).or ran)
        (changed || (request.run now server).2.entries.entries ≠ server.entries.entries)
        (next (request.run now server).1) ∧
      plan.Stage broken now (request.run now server).2
        ((request.ran now server).or ran)
        (changed || (request.run now server).2.entries.entries ≠ server.entries.entries)
        (.done broken) := by
  generalize shape : Program.call request next = program at stage
  cases stage with
  | begun =>
    cases shape
    refine ⟨?_, ?_⟩
    · simp only [Request.run, Request.ran, Option.none_or, ne_eq, not_true_eq_false, decide_false,
        Bool.or_false]
      exact .watched _ ⟨le_rfl, fun _ there => there⟩
    · simpa [Request.run, Request.ran] using Stage.cut
  | watched seen watched =>
    cases shape
    refine ⟨?_, ?_⟩
    · simp only [Request.run, Request.ran, Option.none_or, ne_eq, not_true_eq_false, decide_false,
        Bool.or_false, proceed]
      split
      · rename_i outcome chosen
        exact .refused _ outcome chosen
      · rename_i writes chosen
        exact .decided seen _ writes chosen
          ⟨watched.1, fun same => ⟨now, le_rfl, rfl, watched.2 same⟩⟩
    · simpa [Request.run, Request.ran] using Stage.cut
  | decided seen reply writes chosen decided =>
    cases shape
    cases unchanged : server.unchanged now plan.key seen with
    | false =>
      simp only [Request.run, Request.ran, unchanged, Bool.false_eq_true, if_false,
        Option.none_or, ne_eq, not_true_eq_false, decide_false, Bool.or_false]
      exact ⟨.aborted, .cut⟩
    | true =>
      simp only [Request.run, Request.ran, unchanged, if_true, decided.get_eq unchanged,
        Option.some_or]
      exact ⟨.committed reply writes chosen _ _ (.inr ⟨_, rfl⟩),
        .committed reply writes chosen _ _ (.inl rfl)⟩
  | refused | aborted | cut | committed => contradiction

omit [DecidableEq α] in
theorem Stage.lost {request : Request α} {next : request.Answer → Program α ρ}
    (stage : plan.Stage broken now server ran changed (.call request next)) :
    plan.Stage broken now server ran changed (.done broken) := by
  generalize shape : Program.call request next = program at stage
  cases stage with
  | begun | watched | decided => exact .cut
  | refused | aborted | cut | committed => contradiction

end

end Plan

/-! ## Any number of clients with plans -/

namespace Observed

variable [DecidableEq α] {program : Int → κ → Program α ρ} {broken : ρ}
  {observed after : Observed α κ ρ} {event : Event κ}

  {planOf : κ → Option (Plan α ρ)}

def Fenced (planOf : κ → Option (Plan α ρ)) (broken : ρ) (observed : Observed α κ ρ) : Prop :=
  ∀ client session plan, observed.pool.clients client = some session →
    planOf session.label = some plan →
    plan.Stage broken observed.pool.now observed.pool.server (observed.ran client)
      (observed.changed client) session.program

variable {session : Option (Session α κ ρ)} {client : Nat}

omit [DecidableEq α] in
theorem Fenced.update (fenced : Fenced planOf broken observed) {server : Server α}
    (evolves : observed.pool.server.Evolves server)
    (pool : after.pool = { observed.pool with server }.update client session)
    (others : ∀ other, other ≠ client → after.ran other = observed.ran other ∧ after.changed other =
      observed.changed other)
    (own : ∀ working ∈ session, ∀ plan, planOf working.label = some plan → plan.Stage broken
      observed.pool.now server (after.ran client) (after.changed client) working.program) :
    Fenced planOf broken after := by
  intro other working plan found planned
  rw [pool, Pool.update_clients] at found
  rw [pool]
  split at found
  · rename_i same
    subst same
    exact own working found plan planned
  · rename_i ne
    rw [(others other ne).1, (others other ne).2]
    exact (fenced other working plan found planned).evolve le_rfl evolves

theorem note_others (observed : Observed α κ ρ) (client : Nat) (request : Request α)
    (pool : Pool α κ ρ) (other : Nat) (ne : other ≠ client) :
    { observed.note client request with pool }.ran other = observed.ran other ∧
      { observed.note client request with pool }.changed other = observed.changed other := by
  simp [note, update_of_ne ne]

inductive Move (program : Int → κ → Program α ρ) (broken : ρ) (observed : Observed α κ ρ) :
    Event κ → Observed α κ ρ → Prop
  | begin (client : Nat) (label : κ) (free : observed.pool.clients client = none) :
      Move program broken observed (.act (.begin client label))
        { observed.fresh client with
          pool := observed.pool.update client
            (some ⟨label, program observed.pool.now label, false⟩) }
  | request (client : Nat) (label : κ) (started : Bool) (request : Request α)
      (next : request.Answer → Program α ρ)
      (working : observed.pool.clients client = some ⟨label, .call request next, started⟩) :
      Move program broken observed (.act (.request client))
        { observed.note client request with
          pool := { observed.pool with
              server := (request.run observed.pool.now observed.pool.server).2 }.update client
            (some ⟨label, next (request.run observed.pool.now observed.pool.server).1, true⟩) }
  | stopped (action : Action κ) (client : Nat) (silent : ∀ other, action ≠ .request other) :
      Move program broken observed (.act action)
        { observed with pool := observed.pool.update client none }
  | advance (elapsed : Nat) :
      Move program broken observed (.act (.advance elapsed))
        { observed with pool := { observed.pool with now := observed.pool.now + elapsed } }
  | executed (client : Nat) (label : κ) (started : Bool) (request : Request α)
      (next : request.Answer → Program α ρ)
      (working : observed.pool.clients client = some ⟨label, .call request next, started⟩) :
      Move program broken observed (.cut client true)
        { observed.note client request with
          pool := { observed.pool with
              server := (request.run observed.pool.now observed.pool.server).2 }.update client
            (some ⟨label, .done broken, true⟩) }
  | lost (client : Nat) (label : κ) (started : Bool) (request : Request α)
      (next : request.Answer → Program α ρ)
      (working : observed.pool.clients client = some ⟨label, .call request next, started⟩) :
      Move program broken observed (.cut client false)
        { observed with
          pool := observed.pool.update client (some ⟨label, .done broken, true⟩) }

theorem step_move (taken : observed.step program broken event = some after) :
    Move program broken observed event after := by
  cases event with
  | act action =>
    obtain ⟨pool, stepped, rfl⟩ := Option.map_eq_some_iff.mp taken
    cases Pool.step_move stepped with
    | begin client label free => exact .begin client label free
    | request client label started request next working =>
      have same : observed.executed client = observed.note client request := by
        simp [executed, working]
      simp only [same]
      exact .request client label started request next working
    | finish client | crash client => exact .stopped _ client nofun
    | advance elapsed => exact .advance elapsed
  | cut client executed =>
    obtain ⟨pool, stepped, rfl⟩ := Option.map_eq_some_iff.mp taken
    unfold Pool.cut at stepped
    split at stepped <;> cases stepped
    rename_i label request next started working
    cases executed with
    | true =>
      have same : observed.executed client = observed.note client request := by
        simp [Observed.executed, working]
      simp only [same, if_true]
      exact .executed client label started request next working
    | false => exact .lost client label started request next working

theorem Fenced.move
    (planned : ∀ now label plan, planOf label = some plan → program now label = plan.program)
    (fenced : Fenced planOf broken observed) (move : Move program broken observed event after) :
    Fenced planOf broken after := by
  cases move with
  | begin =>
    refine fenced.update (.refl _) rfl ?_ ?_
    · intro other ne
      simp [fresh, update_of_ne ne]
    · rintro session ⟨⟩ plan known
      simp only [fresh, update_self, planned _ _ plan known]
      exact .begun
  | request client _ _ request _ working =>
    refine fenced.update (request.run_evolves _ _) rfl (observed.note_others client request _) ?_
    rintro session ⟨⟩ plan known
    simp only [note, update_self]
    exact (fenced client _ plan working known).request.1
  | stopped => exact fenced.update (.refl _) rfl (fun _ _ => ⟨rfl, rfl⟩) (by simp)
  | advance elapsed =>
    intro client session plan found known
    exact (fenced client session plan found known).evolve
      (Int.le_add_of_nonneg_right (Int.natCast_nonneg elapsed)) (.refl _)
  | executed client _ _ request _ working =>
    refine fenced.update (request.run_evolves _ _) rfl (observed.note_others client request _) ?_
    rintro session ⟨⟩ plan known
    simp only [note, update_self]
    exact (fenced client _ plan working known).request.2
  | lost client _ _ _ _ working =>
    refine fenced.update (.refl _) rfl (fun _ _ => ⟨rfl, rfl⟩) ?_
    rintro session ⟨⟩ plan known
    exact (fenced client _ plan working known).lost

def Labelled (allowed : κ → Request α → Prop) (observed : Observed α κ ρ) : Prop :=
  ∀ client session, observed.pool.clients client = some session →
    session.program.Sends (allowed session.label)

variable {allowed : κ → Request α → Prop}

omit [DecidableEq α] in
theorem Labelled.update (labelled : Labelled allowed observed) {server : Server α}
    (pool : after.pool = { observed.pool with server }.update client session)
    (own : ∀ working ∈ session, working.program.Sends (allowed working.label)) :
    Labelled allowed after := by
  intro other working found
  rw [pool, Pool.update_clients] at found
  split at found
  · exact own working found
  · exact labelled other working found

theorem Labelled.move (sends : ∀ now label, (program now label).Sends (allowed label))
    (labelled : Labelled allowed observed) (move : Move program broken observed event after) :
    Labelled allowed after := by
  cases move with
  | begin _ label => exact labelled.update rfl (by rintro session ⟨⟩; exact sends _ label)
  | request client _ _ _ _ working =>
    exact labelled.update rfl
      (by rintro session ⟨⟩; exact (labelled client _ working).2 _)
  | stopped => exact labelled.update rfl (by simp)
  | advance => exact labelled
  | executed | lost =>
    exact labelled.update rfl (by rintro session ⟨⟩; trivial)

end Observed

end Keyspace
