import DbBridge.Cluster.Workers
import DbBridge.Lib.Optimistic
import DbBridge.Redis.Clients

/-!
# Fenced writes

`UpdateQueryIfState` among any other calls, of any number of instances, command by
command. A command can fail to reach Redis, and its answer can fail to come back; the
call then returns an error. The calls of `failOwnerLost` that return written are counted
for each query.
-/

namespace DbBridge.State.Redis

open Domain Cluster Keyspace Runs

/-! ## The conditional write as a plan -/

def conditional (record : QueryRecord) (expected : List QueryState) : Plan Data Outcome where
  key := queryKey record.id
  choose
    | .error _ | .ok (some (.text _)) => .error .failed
    | .ok none => .error .notFound
    | .ok (some (.record current)) =>
      if current.state ∉ expected then .error (.flag false) else .ok (writeQuery record)
  result answer := .ofResult .flag (committed answer)

def planOf : Call → Option (Plan Data Outcome)
  | .updateQueryIfState record expected => some (conditional record expected)
  | _ => none

theorem planned (now : Time) (call : Call) (plan : Plan Data Outcome)
    (known : planOf call = some plan) : call.program now = plan.program := by
  cases call with
  | updateQueryIfState record expected =>
    cases known
    simp only [Call.program, updateQueryIfState, Program.map, Program.bind, Program.read,
      Plan.program, conditional]
    congr 1
    funext seen
    congr 1
    funext get
    simp only [commitIfState, Plan.proceed, Plan.commit]
    rcases get with err | _ | current | text
    · rfl
    · rfl
    · by_cases member : current.state ∈ expected <;> simp [member, commit, Program.bind,
        Outcome.ofResult]
    · rfl
  | _ => cases known

variable {record : QueryRecord} {expected : List QueryState}
  {reply : Except WrongType (Option Data)}

theorem choose_ok {writes : List (Write Data)}
    (chosen : (conditional record expected).choose reply = .ok writes) :
    writes = writeQuery record ∧
      ∃ current, reply = .ok (some (.record current)) ∧ current.state ∈ expected := by
  match reply with
  | .error _ => cases chosen
  | .ok none => cases chosen
  | .ok (some (.text _)) => cases chosen
  | .ok (some (.record current)) =>
    simp only [conditional] at chosen
    split at chosen
    · cases chosen
    · rename_i member
      cases chosen
      exact ⟨rfl, current, rfl, not_not.mp member⟩

variable {outcome : Outcome}

theorem choose_error (chosen : (conditional record expected).choose reply = .error outcome) :
    outcome ≠ .flag true := by
  match reply with
  | .error _ => cases chosen; simp
  | .ok none => cases chosen; simp
  | .ok (some (.text _)) => cases chosen; simp
  | .ok (some (.record current)) =>
    simp only [conditional] at chosen
    split at chosen
    · cases chosen
      simp
    · cases chosen

/-- A call that returned written executed its transaction while the key held a record in
an expected state; one that returned not written, or not found, changed nothing; one that
returned an error changed nothing or executed its transaction, in an expected state. -/
theorem Stage.returned {now : Time} {server : Server Data}
    {ran : Option (Except WrongType (Option Data))} {changed : Bool}
    (stage : (conditional record expected).Stage .failed now server ran changed (.done outcome)) :
    (outcome ≠ .flag true ∧ changed = false) ∨
      (outcome = .flag true ∨ outcome = .failed) ∧
        ∃ current, ran = some (.ok (some (.record current))) ∧ current.state ∈ expected := by
  generalize shape : Program.done outcome = program at stage
  cases stage with
  | refused _ _ chosen =>
    cases shape
    exact .inl ⟨choose_error chosen, rfl⟩
  | aborted =>
    cases shape
    exact .inl ⟨by simp [conditional, committed, Outcome.ofResult], rfl⟩
  | cut =>
    cases shape
    exact .inl ⟨by simp, rfl⟩
  | committed _ _ chosen _ _ ends =>
    cases shape
    obtain ⟨_, current, rfl, member⟩ := choose_ok chosen
    refine .inr ⟨?_, current, rfl, member⟩
    rcases ends with rfl | ⟨failed, rfl⟩
    · exact .inr rfl
    · cases failed <;> simp [conditional, committed, Outcome.ofResult]
  | begun | watched | decided => contradiction

/-! ## The instances, and who has failed a query -/

def Call.ownerLost? : Call → Option String
  | .updateQueryIfState record expected =>
    if record = ownerLost record record.finishedAt ∧ expected = ownerLostExpected then
      some record.id
    else none
  | _ => none

/-- The instances with what their calls did, and how many calls of `failOwnerLost`
returned written for each query. -/
structure Fence where
  observed : Observed Data Call Outcome
  written : String → Nat := fun _ => 0

namespace Fence

def initial (now : Time) : Fence := { observed := { pool := .initial now } }

def announces (before after : Instances) : Event Call → Option String
  | .act (.request client) =>
    match before.clients client, after.clients client with
    | some ⟨call, .call _ _, _⟩, some ⟨_, .done (.flag true), _⟩ => call.ownerLost?
    | _, _ => none
  | _ => none

def step (fence : Fence) (event : Event Call) : Option Fence :=
  (fence.observed.step Call.program .failed event).map fun observed =>
    { observed
      written := fun id => fence.written id +
        if announces fence.observed.pool observed.pool event = some id then 1 else 0 }

end Fence

/-! ## A query that has ended stays ended -/

/-- The calls that leave a query ended: no `PutQuery` of the query; `UpdateQuery` marks it
`EXPIRED`; the conditional writes, of the progress reporter and of `failOwnerLost`, expect
it in a state that is not terminal. -/
def Call.Respects (id : String) : Call → Prop
  | .putQuery record => record.id ≠ id
  | .updateQuery record => record.id = id → record.state.isTerminal = true
  | .updateQueryIfState record expected =>
    record.id = id → ∀ state ∈ expected, state.isTerminal = false
  | _ => True

instance (id : String) (call : Call) : Decidable (call.Respects id) := by
  apply Call.casesOn (motive := fun call => Decidable (call.Respects id)) call
  case putQuery => exact fun _ => inferInstanceAs (Decidable (_ ≠ _))
  case updateQuery => exact fun _ => inferInstanceAs (Decidable (_ → _ = _))
  case updateQueryIfState => exact fun _ expected => inferInstanceAs (Decidable
    (_ → ∀ state ∈ expected, state.isTerminal = false))
  all_goals intros; exact instDecidableTrue

def Call.isConditional (id : String) : Call → Bool
  | .updateQueryIfState record _ => record.id = id
  | _ => false

/-- A write after which the key of `id` holds no record that has not ended, unless it did
before. -/
def Keeps (id : String) : Write Data → Prop
  | .set key (.record record) _ => key = queryKey id → record.state.isTerminal = true
  | .set key (.text _) _ | .sAdd key _ => key ≠ queryKey id
  | .del _ | .sRem _ _ => True

def Spares (id : String) : Request Data → Prop
  | .read _ | .watch _ | .delIfEqual _ _ => True
  | .write command => Keeps id command
  | .exec _ _ writes => ∀ command ∈ writes, Keeps id command
  | .setNX key _ _ | .expireIfEqual key _ _ => key ≠ queryKey id

theorem writeQuery_keeps {id : String} (ended : record.id = id → record.state.isTerminal = true) :
    ∀ write ∈ writeQuery record, Keeps id write := by
  intro write listed
  rcases (mem_writeQuery_iff record write).mp listed with rfl | ⟨_, rfl⟩ | rfl | ⟨_, rfl⟩
  · exact fun same => ended ((queryKey_inj _ _).mp same)
  · exact ne_of_kind (by simp)
  · unfold indexWrite
    split
    · trivial
    · exact ne_of_kind (by simp)
  · trivial

variable {call : Call}

theorem Call.Commands.spares {id : String} {request : Request Data}
    (command : call.Commands request) (respects : call.Respects id)
    (other : call.isConditional id = false) : Spares id request := by
  cases command with
  | put _ write listed => exact writeQuery_keeps (fun same => absurd same respects) write listed
  | update _ write listed => exact writeQuery_keeps respects write listed
  | exec =>
    refine writeQuery_keeps fun same => ?_
    simp [Call.isConditional, same] at other
  | delete deleted found write listed =>
    rcases (mem_deletion_iff deleted found write).mp listed with rfl | rfl | ⟨_, _, rfl⟩ <;>
      trivial
  | heartbeat _ _ _ _ listed =>
    simp only [heartbeatWrites, List.mem_cons, List.mem_map] at listed
    rcases listed with rfl | ⟨_, _, rfl⟩
    · exact ne_of_kind (by simp)
    · exact ne_of_kind (by simp)
  | acquire | refresh | lock => exact ne_of_kind (by simp)
  | read | watch | release => trivial

def Ended (id : String) (now : Time) (server : Server Data) : Prop :=
  ∀ current expiry, server.find now (queryKey id) = some (.text (.record current) expiry) →
    current.state.isTerminal = true

namespace Ended

variable {id : String} {now later : Time} {server after : Server Data}

section
variable (ended : Ended id now server)
include ended

theorem congr (same : after.find now (queryKey id) = server.find now (queryKey id)) :
    Ended id now after := by
  intro current expiry found
  exact ended current expiry (same ▸ found)

theorem of_le (le : now ≤ later) : Ended id later server := by
  intro current expiry found
  rw [server.find_of_le le, Option.filter_eq_some_iff] at found
  exact ended current expiry found.1

theorem remove (key : String) : Ended id now (server.remove key) := by
  by_cases same : queryKey id = key
  · subst same
    intro current expiry found
    simp at found
  · exact ended.congr (server.find_remove_of_ne same now)

theorem write {write : Write Data} (keeps : Keeps id write) :
    Ended id now (write.run now server).2 := by
  by_cases same : queryKey id = write.key
  · cases write with
    | set key value =>
      cases value with
      | record =>
        obtain rfl : key = queryKey id := same.symm
        intro current expiry found
        simp only [Write.run, Server.find_put_self] at found
        split at found <;> cases found
        exact keeps rfl
      | text => exact absurd same.symm keeps
    | del key =>
      simp only [Write.run]
      split
      · exact ended.remove key
      · exact ended
    | sAdd => exact absurd same.symm keeps
    | sRem key =>
      simp only [Write.run]
      split
      · exact ended
      · (repeat' split)
        · exact ended
        · exact ended.remove key
        · obtain rfl : key = queryKey id := same.symm
          intro current expiry found
          simp [Server.find_put_self, Entry.alive] at found
      · exact ended
  · exact ended.congr (write.run_find_of_ne now server same now)

theorem writes {writes : List (Write Data)} (keeps : ∀ write ∈ writes, Keeps id write) :
    Ended id now (runAll now server writes).2 := by
  induction writes generalizing server with
  | nil => exact ended
  | cons _ _ ih =>
    rw [List.forall_mem_cons] at keeps
    exact ih (ended.write keeps.1) keeps.2

theorem request {request : Request Data} (spares : Spares id request) :
    Ended id now (request.run now server).2 := by
  cases request with
  | read | watch => exact ended
  | write => exact ended.write spares
  | setNX =>
    simp only [Request.run]
    split
    · exact ended
    · exact ended.congr (server.find_put_of_ne (Ne.symm spares) now _)
  | delIfEqual key =>
    simp only [Request.run]
    (repeat' split) <;> first | exact ended | exact ended.remove key
  | expireIfEqual =>
    simp only [Request.run]
    (repeat' split) <;>
      first | exact ended | exact ended.congr (server.find_put_of_ne (Ne.symm spares) now _)
  | exec _ _ writes =>
    simp only [Request.run]
    split
    · exact ended.writes spares
    · exact ended

end

end Ended

section
variable {now : Time} {server : Server Data} {ran : Option (Except WrongType (Option Data))}
  {changed : Bool} {request : Request Data} {next : request.Answer → Client Outcome}

section
variable
  (stage : (conditional record expected).Stage .failed now server ran changed (.call request next))
include stage

theorem Stage.stopped (open_ : ∀ state ∈ expected, state.isTerminal = false)
    (ended : Ended record.id now server) :
    (request.run now server).2 = server ∧ next (request.run now server).1 ≠ .done (.flag true) := by
  generalize shape : Program.call request next = program at stage
  cases stage with
  | begun =>
    cases shape
    exact ⟨rfl, by simp [Program.read]⟩
  | watched seen watched =>
    cases shape
    refine ⟨rfl, ?_⟩
    simp only [Plan.proceed]
    split
    · rename_i outcome chosen
      intro same
      cases same
      exact choose_error chosen rfl
    · simp [Plan.commit]
  | decided seen _ _ chosen decided =>
    cases shape
    cases unchanged : server.unchanged now (queryKey record.id) seen with
    | false => simp [Request.run, unchanged, conditional, committed, Outcome.ofResult]
    | true =>
      obtain ⟨_, current, found, member⟩ := choose_ok chosen
      rw [← decided.get_eq unchanged, Server.get_eq_some_iff] at found
      obtain ⟨expiry, found⟩ := found
      have terminal := ended current expiry found
      rw [open_ _ member] at terminal
      contradiction
  | refused | aborted | cut | committed => contradiction

theorem Stage.wrote (written : next (request.run now server).1 = .done (.flag true))
    (terminal : record.state.isTerminal = true) :
    Ended record.id now (request.run now server).2 := by
  generalize shape : Program.call request next = program at stage
  cases stage with
  | begun =>
    cases shape
    contradiction
  | watched seen watched =>
    cases shape
    simp only [Plan.proceed] at written
    split at written <;> cases written
    rename_i outcome chosen
    exact absurd rfl (choose_error chosen)
  | decided seen _ _ chosen =>
    cases shape
    obtain ⟨rfl, _⟩ := choose_ok chosen
    cases unchanged : server.unchanged now (queryKey record.id) seen with
    | false =>
      simp [Request.run, unchanged, conditional, committed, Outcome.ofResult] at written
    | true =>
      simp only [Request.run, conditional, unchanged, if_true]
      intro current expiry found
      rw [writeQuery_find_query, if_pos rfl] at found
      cases found
      exact terminal
  | refused | aborted | cut | committed => contradiction

end

end

/-! ## One winner -/

variable {fence after : Fence}

namespace Fence

/-- The commands that are executed are of calls that leave query `id` ended. -/
def Unhindered (id : String) (fence : Fence) : Event Call → Prop
  | .act (.request client) | .cut client _ =>
    ∀ session ∈ fence.observed.pool.clients client, session.label.Respects id
  | _ => True

instance (id : String) (fence : Fence) (event : Event Call) :
    Decidable (Unhindered id fence event) := by
  cases event with
  | act action => cases action <;> unfold Unhindered <;> infer_instance
  | cut =>
    unfold Unhindered
    infer_instance

def Allowed (id : String) (call : Call) (request : Request Data) : Prop :=
  call.Respects id → call.isConditional id = false → Spares id request

structure Sound (id : String) (fence : Fence) : Prop where
  fenced : Observed.Fenced planOf .failed fence.observed
  labelled : Observed.Labelled (Allowed id) fence.observed

theorem Sound.initial (id : String) (now : Time) : Sound id (Fence.initial now) where
  fenced := by rintro client session plan ⟨⟩
  labelled := by rintro client session ⟨⟩

variable {event : Event Call} {id : String}

theorem Sound.step (sound : Sound id fence) (taken : fence.step event = some after) :
    Sound id after := by
  obtain ⟨_, stepped, rfl⟩ := Option.map_eq_some_iff.mp taken
  have move := Observed.step_move stepped
  refine ⟨sound.fenced.move planned move, sound.labelled.move (fun now call => ?_) move⟩
  exact (call.program_commands now).mono fun _ command => command.spares

theorem announces_cases {before after : Instances}
    (announced : announces before after event = some id) :
    ∃ client record expected request next started ended,
      event = .act (.request client) ∧ record.id = id ∧ record.state = .failed ∧
      before.clients client =
        some ⟨.updateQueryIfState record expected, .call request next, started⟩ ∧
      after.clients client = some ended ∧ ended.program = .done (.flag true) := by
  unfold announces at announced
  split at announced
  · rename_i client
    split at announced
    · rename_i call request next started label ended was is
      cases call with
      | updateQueryIfState record expected =>
        simp only [Call.ownerLost?, Option.ite_none_right_eq_some, Option.some.injEq]
          at announced
        obtain ⟨⟨failed, _⟩, rfl⟩ := announced
        exact ⟨client, record, expected, request, next, started, _, rfl, rfl,
          by rw [failed]; rfl, was, is, rfl⟩
      | _ => simp [Call.ownerLost?] at announced
    · contradiction
  · contradiction

/-- At most one call of `failOwnerLost` has returned written since, and if one has, the
query has ended. -/
def AtMostOne (id : String) (base : Nat) (fence : Fence) : Prop :=
  fence.written id ≤ base ∨ fence.written id ≤ base + 1 ∧
    Ended id fence.observed.pool.now fence.observed.pool.server

theorem Sound.executed (sound : Sound id fence) {client : Nat} {started : Bool}
    {request : Request Data} {next : request.Answer → Client Outcome}
    (working : fence.observed.pool.clients client = some ⟨call, .call request next, started⟩)
    (respects : call.Respects id)
    (ended : Ended id fence.observed.pool.now fence.observed.pool.server) :
    Ended id fence.observed.pool.now
        (request.run fence.observed.pool.now fence.observed.pool.server).2 ∧
      (call.isConditional id = true →
        next (request.run fence.observed.pool.now fence.observed.pool.server).1 ≠
          .done (.flag true)) := by
  cases conditional : call.isConditional id with
  | false =>
    have sends := sound.labelled client _ working
    exact ⟨ended.request (sends.1 respects conditional), nofun⟩
  | true =>
    cases call with
    | updateQueryIfState record =>
      obtain rfl : record.id = id := by simpa [Call.isConditional] using conditional
      obtain ⟨same, unwritten⟩ := Stage.stopped (sound.fenced client _ _ working rfl)
        (respects rfl) ended
      exact ⟨same.symm ▸ ended, fun _ => unwritten⟩
    | _ => simp [Call.isConditional] at conditional

theorem AtMostOne.step {base : Nat} (once : AtMostOne id base fence) (sound : Sound id fence)
    (unhindered : Unhindered id fence event) (taken : fence.step event = some after) :
    AtMostOne id base after := by
  obtain ⟨observed, stepped, rfl⟩ := Option.map_eq_some_iff.mp taken
  have move := Observed.step_move stepped
  by_cases announced : announces fence.observed.pool observed.pool event = some id
  · obtain ⟨client, record, _, request, _, _, ended, rfl, rfl, failed, was, is,
      done⟩ := announces_cases announced
    cases move with
    | stopped _ _ silent => exact absurd rfl (silent client)
    | request _ _ _ _ _ working =>
      cases was.symm.trans working
      simp only [Pool.update_clients, if_true, Option.some.injEq] at is
      subst is
      have respects := unhindered _ working
      have stage := sound.fenced client _ _ working rfl
      have terminal : record.state.isTerminal = true := by
        rw [failed]
        rfl
      refine .inr ⟨?_, Stage.wrote stage done terminal⟩
      dsimp only
      rw [if_pos announced]
      rcases once with few | ⟨_, ended⟩
      · exact Nat.succ_le_succ few
      · exact absurd done ((sound.executed working respects ended).2 (by
          simp [Call.isConditional]))
  · have same : (if announces fence.observed.pool observed.pool event = some id then 1 else 0) =
        0 := if_neg announced
    rcases once with few | ⟨few, ended⟩
    · exact .inl (by simpa [same] using few)
    · refine .inr ⟨by simpa [same] using few, ?_⟩
      cases move with
      | begin | stopped | lost => exact ended
      | advance elapsed =>
        exact ended.of_le (Int.le_add_of_nonneg_right (Int.natCast_nonneg elapsed))
      | request _ _ _ _ _ working | executed _ _ _ _ _ working =>
        exact (sound.executed working (unhindered _ working) ended).1

/-- Among any calls of any instances, command by command, with commands and answers that
get lost: a conditional write returns written only if its transaction was executed while
the record was stored in an expected state; one that returns not written or not found
changed no key, and one that returns another error changed no key unless its transaction
was executed in an expected state. While no `PutQuery` of a query is executed, at most
one `failOwnerLost` returns written for it. -/
theorem fenced_writes_have_one_winner (now : Time) (fence : Fence)
    (run : Reaches Fence.step Always (Fence.initial now) fence) :
    (∀ client record expected outcome started,
      fence.observed.pool.clients client =
        some ⟨.updateQueryIfState record expected, .done outcome, started⟩ →
      (outcome = .flag true → ∃ current, current.state ∈ expected ∧
        fence.observed.ran client = some (.ok (some (.record current)))) ∧
      (outcome = .flag false ∨ outcome = .notFound → fence.observed.changed client = false) ∧
      (outcome = .failed → fence.observed.changed client = false ∨ ∃ current,
        current.state ∈ expected ∧
        fence.observed.ran client = some (.ok (some (.record current))))) ∧
    ∀ id later, Reaches Fence.step (Unhindered id) fence later →
      later.written id ≤ fence.written id + 1 := by
  have sound : ∀ id, Sound id fence := fun id =>
    run.invariant (Sound id) (Sound.initial id now) fun _ _ _ sound _ taken => sound.step taken
  constructor
  · intro client record expected outcome started ended
    have stage := (sound "").fenced client _ _ ended rfl
    rcases Stage.returned stage with ⟨unwritten, unchanged⟩ | ⟨outcomes, current, ran, member⟩
    · exact ⟨fun written => absurd written unwritten, fun _ => unchanged, fun _ => .inl unchanged⟩
    · refine ⟨fun _ => ⟨current, member, ran⟩, fun other => ?_,
        fun _ => .inr ⟨current, member, ran⟩⟩
      rcases outcomes with rfl | rfl <;> simp at other
  · intro id later path
    have once := (path.invariant (fun fence' => Sound id fence' ∧
      AtMostOne id (fence.written id) fence') ⟨sound id, .inl le_rfl⟩
      fun _ _ _ holds unhindered taken =>
        ⟨holds.1.step taken, holds.2.step holds.1 unhindered taken⟩).2
    rcases once with few | ⟨few, _⟩
    · exact Nat.le_succ_of_le few
    · exact few

def stored : List (Event Call) :=
  .act (.begin 0 (.putQuery activeQuery)) :: List.replicate 3 (.act (.request 0))

def failQuery : Call := .updateQueryIfState (ownerLost activeQuery 2) ownerLostExpected

/-- Two instances find the owner of `q` lost; their commands alternate. -/
def bothFail : List (Event Call) :=
  [.act (.begin 1 failQuery), .act (.begin 2 failQuery)] ++
    (List.replicate 3 [.act (.request 1), .act (.request 2)]).flatten

def outcomeOf (fence : Fence) (client : Nat) : Option Outcome :=
  match fence.observed.pool.clients client with
  | some ⟨_, .done outcome, _⟩ => some outcome
  | _ => none

theorem second_reaper_is_fenced_off :
    ∃ fence later, Reaches Fence.step Always (Fence.initial 1) fence ∧
      Reaches Fence.step (Unhindered "q") fence later ∧
      outcomeOf later 1 = some (.flag true) ∧ outcomeOf later 2 = some (.flag false) ∧
      later.written "q" ≤ 1 := by
  obtain ⟨fence, reached, none_, later, replayed, first, second⟩ :
      ∃ fence, Reaches Fence.step Always (Fence.initial 1) fence ∧
        fence.written "q" = 0 ∧ ∃ later ∈ execute Fence.step (Unhindered "q") bothFail fence,
          outcomeOf later 1 = some (.flag true) ∧ outcomeOf later 2 = some (.flag false) :=
    exists_reaches stored (by decide +kernel)
  have path := reaches_of_execute _ _ _ replayed
  have once := (fenced_writes_have_one_winner 1 fence reached).2 "q" later path
  rw [none_] at once
  exact ⟨fence, later, reached, path, first, second, once⟩

def storedState (fence : Fence) (id : String) : Option QueryState :=
  match fence.observed.pool.server.find fence.observed.pool.now (queryKey id) with
  | some (.text (.record current) _) => some current.state
  | _ => none

/-- The transaction is executed and its answer is lost: the call returns an error, and `q`
is stored as `FAILED`. -/
theorem lost_answer_hides_a_write :
    ∃ fence, Reaches Fence.step Always (Fence.initial 1) fence ∧
      (fence.observed.pool.clients 1).map Session.label =
        some (.updateQueryIfState (ownerLost activeQuery 2) ownerLostExpected) ∧
      outcomeOf fence 1 = some .failed ∧ fence.observed.changed 1 = true ∧
      storedState fence "q" = some .failed :=
  exists_reaches
    (stored ++ [.act (.begin 1 failQuery), .act (.request 1), .act (.request 1), .cut 1 true])
    (by decide +kernel)

end Fence

end DbBridge.State.Redis
