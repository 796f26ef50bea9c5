import DbBridge.Lib.Clients
import DbBridge.Redis.Effects

/-!
# The instances as clients of one Redis

Any number of instances call the store at the same time. Each call sends its commands one
by one, a process can die between two of them, and keys expire. Whatever they do, as long
as a query does not change its owner, the key of a record holds a record of that query and
only the set of the owner names the query.
-/

namespace DbBridge.State.Redis

open Domain Keyspace

abbrev Instances := Pool Data Call Outcome

def Instances.step : Instances → Action Call → Option Instances := Pool.step Call.program

/-! ## The commands that are sent -/

inductive Call.Commands : Call → Request Data → Prop
  | read (call : Call) (command : Read) : Commands call (.read command)
  | put (record : QueryRecord) (write : Write Data) (listed : write ∈ writeQuery record) :
      Commands (.putQuery record) (.write write)
  | update (record : QueryRecord) (write : Write Data) (listed : write ∈ writeQuery record) :
      Commands (.updateQuery record) (.write write)
  | watch (record : QueryRecord) (expected : List QueryState) :
      Commands (.updateQueryIfState record expected) (.watch (queryKey record.id))
  | exec (record : QueryRecord) (expected : List QueryState) (seen : Token) :
      Commands (.updateQueryIfState record expected)
        (.exec (queryKey record.id) seen (writeQuery record))
  | delete (id : String) (found : Except StoreError QueryRecord) (write : Write Data)
      (listed : write ∈ deletion id found) : Commands (.deleteQuery id) (.write write)
  | acquire (dbID key queryID : String) (ttl : Duration) (expire : Option Int) :
      Commands (.acquireIdempotency dbID key queryID ttl)
        (.setNX (idempotencyKey dbID key) (.text queryID) expire)
  | release (dbID key queryID : String) :
      Commands (.releaseIdempotency dbID key queryID)
        (.delIfEqual (idempotencyKey dbID key) (.text queryID))
  | refresh (dbID key queryID : String) (ttl : Duration) :
      Commands (.refreshIdempotency dbID key queryID ttl)
        (.expireIfEqual (idempotencyKey dbID key) (.text queryID) (ttl - ttl % millisecond))
  | heartbeat (instanceID : String) (ids : List String) (ttl : Duration) (write : Write Data)
      (listed : write ∈ heartbeatWrites instanceID ids ttl) :
      Commands (.heartbeat instanceID ids ttl) (.write write)
  | lock (name : String) (ttl : Duration) (expire : Option Int) :
      Commands (.tryLock name ttl) (.setNX (lockKey name) (.text "held") expire)

section
variable {call : Call} {ρ : Type}

theorem piped_sends {writes : List (Write Data)}
    (commands : ∀ write ∈ writes, call.Commands (.write write)) (context : String) :
    (piped context writes).Sends call.Commands := by
  apply Program.sends_pipeline commands
  intro failed
  trivial

section
variable {visit : QueryRecord → (Bool → Client ρ) → Client ρ}
  (visits : ∀ record keep, (∀ kept, (keep kept).Sends call.Commands) →
    (visit record keep).Sends call.Commands)
include visits

theorem scanQueries_sends {next : List String → Client ρ}
    (later : ∀ ids, (next ids).Sends call.Commands) (keys kept : List String) :
    (scanQueries visit next keys kept).Sends call.Commands := by
  induction keys generalizing kept with
  | nil => exact later kept
  | cons _ _ ih =>
    refine ⟨.read call _, fun get => ?_⟩
    dsimp only
    split
    · exact visits _ _ fun keep => ih _
    · exact ih kept

theorem scanned_sends (result : List String → ρ) :
    (scanned visit fun ids => .done (result ids)).Sends call.Commands := by
  refine ⟨.read call _, fun keys => scanQueries_sends visits ?_ keys []⟩
  intro ids
  trivial

end

theorem visitStale_sends (record : QueryRecord) {keep : Bool → Client ρ}
    (sends : ∀ kept, (keep kept).Sends call.Commands) :
    (visitStale record keep).Sends call.Commands := by
  unfold visitStale
  split
  · exact ⟨.read call _, fun present => sends _⟩
  · exact sends false

theorem updateQueryIfState_sends (record : QueryRecord) (expected : List QueryState) :
    (updateQueryIfState record expected).Sends
      (Call.updateQueryIfState record expected).Commands := by
  refine ⟨.watch record expected, fun seen => ⟨.read _ _, fun get => ?_⟩⟩
  unfold commitIfState
  split
  · trivial
  · trivial
  · trivial
  · split
    · trivial
    · exact ⟨.exec record expected seen, fun _ => trivial⟩

theorem acquireIdempotency_sends (dbID key queryID : String) (ttl : Duration) :
    (acquireIdempotency dbID key queryID ttl).Sends
      (Call.acquireIdempotency dbID key queryID ttl).Commands := by
  unfold acquireIdempotency
  split
  · trivial
  · refine ⟨.acquire dbID key queryID ttl _, fun set => ?_⟩
    dsimp only
    split
    · trivial
    · exact ⟨.read _ _, fun get => trivial⟩

theorem refreshIdempotency_sends (dbID key queryID : String) (ttl : Duration) :
    (refreshIdempotency dbID key queryID ttl).Sends
      (Call.refreshIdempotency dbID key queryID ttl).Commands := by
  unfold refreshIdempotency
  split
  · trivial
  · exact ⟨.refresh dbID key queryID ttl, fun _ => trivial⟩

theorem tryLock_sends (name : String) (ttl : Duration) :
    (tryLock name ttl).Sends (Call.tryLock name ttl).Commands := by
  unfold tryLock
  split
  · trivial
  · exact ⟨.lock name ttl _, fun _ => trivial⟩

end

theorem Call.program_commands (call : Call) (now : Time) :
    (call.program now).Sends call.Commands := by
  cases call with
  | putQuery record => exact (piped_sends (fun write => .put record write) _).map _
  | getQuery => exact ⟨.read _ _, fun get => ⟨.read _ _, fun lease => trivial⟩⟩
  | updateQuery record => exact (piped_sends (fun write => .update record write) _).map _
  | updateQueryIfState record expected => exact (updateQueryIfState_sends record expected).map _
  | deleteQuery id =>
    exact ⟨.read _ _, fun get => ⟨.read _ _, fun lease =>
      (piped_sends (fun write => .delete id _ write) _).map _⟩⟩
  | acquireIdempotency dbID key queryID ttl =>
    exact (acquireIdempotency_sends dbID key queryID ttl).map _
  | releaseIdempotency dbID key queryID =>
    exact ⟨.release dbID key queryID, fun _ => trivial⟩
  | refreshIdempotency dbID key queryID ttl =>
    exact (refreshIdempotency_sends dbID key queryID ttl).map _
  | heartbeat instanceID ids ttl =>
    exact (piped_sends (fun write => .heartbeat instanceID ids ttl write) _).map _
  | tryLock name ttl => exact (tryLock_sends name ttl).map _
  | countInFlight | listByInstance => exact ⟨.read _ _, fun _ => trivial⟩
  | listExpiredQueries => exact (scanned_sends (fun _ _ sends => sends _) id).map _
  | listStaleQueries => exact (scanned_sends (fun record _ => visitStale_sends record) id).map _

/-! ## Whose records they write -/

def Call.Own (owner : String → String) : Call → Prop
  | .putQuery record | .updateQuery record | .updateQueryIfState record _ =>
    record.ownerInstanceID = owner record.id
  | _ => True

instance (owner : String → String) (call : Call) : Decidable (call.Own owner) := by
  unfold Call.Own
  split <;> infer_instance

/-- The writes of the store: records under their own keys, members only of the owner's
set, texts under other keys. -/
def Placed (owner : String → String) : Write Data → Prop
  | .set key (.record record) _ =>
    key = queryKey record.id ∧ record.ownerInstanceID = owner record.id
  | .set key (.text _) _ => kind key ≠ kind (queryKey "")
  | .sAdd key member => key = databasesSeenKey ∨ key = instanceQueriesKey (owner member)
  | .del _ | .sRem _ _ => True

def Sound (owner : String → String) : Request Data → Prop
  | .read _ | .watch _ | .delIfEqual _ _ => True
  | .write command => Placed owner command
  | .exec _ _ writes => ∀ command ∈ writes, Placed owner command
  | .setNX key _ _ | .expireIfEqual key _ _ =>
    kind key ≠ kind (queryKey "") ∧ kind key ≠ kind (instanceQueriesKey "")

variable {record : QueryRecord}

section
variable {owner : String → String}

theorem writeQuery_placed (own : record.ownerInstanceID = owner record.id) :
    ∀ write ∈ writeQuery record, Placed owner write := by
  intro write listed
  rcases (mem_writeQuery_iff record write).mp listed with rfl | ⟨_, rfl⟩ | rfl | ⟨_, rfl⟩
  · exact ⟨rfl, own⟩
  · exact .inl rfl
  · unfold indexWrite
    split
    · trivial
    · exact .inr (congrArg instanceQueriesKey own)
  · trivial

theorem deletion_placed (id : String) (read : Except StoreError QueryRecord) :
    ∀ write ∈ deletion id read, Placed owner write := by
  intro write listed
  rcases (mem_deletion_iff id read write).mp listed with rfl | rfl | ⟨_, _, rfl⟩ <;> trivial

theorem heartbeatWrites_placed (instanceID : String) (ids : List String) (ttl : Duration) :
    ∀ write ∈ heartbeatWrites instanceID ids ttl, Placed owner write := by
  simp only [heartbeatWrites, List.forall_mem_cons, List.forall_mem_map]
  refine ⟨?_, fun id _ => ?_⟩ <;> simp [Placed]

theorem Call.Commands.sound {call : Call} {request : Request Data}
    (command : call.Commands request) (own : call.Own owner) : Sound owner request := by
  cases command with
  | put _ write listed | update _ write listed => exact writeQuery_placed own write listed
  | exec => exact writeQuery_placed own
  | delete id found write listed => exact deletion_placed id found write listed
  | heartbeat instanceID ids ttl write listed =>
    exact heartbeatWrites_placed instanceID ids ttl write listed
  | acquire | refresh | lock => exact ⟨by simp, by simp⟩
  | read | watch | release => trivial

theorem Call.program_sends {call : Call} (own : call.Own owner) (now : Time) :
    (call.program now).Sends (Sound owner) :=
  (call.program_commands now).mono fun _ command => command.sound own

end

/-! ## What the keys can hold -/

/-- The set of an instance names only its own queries, and the key of a record holds a
record of that query and that owner. -/
structure Homed (owner : String → String) (now : Time) (server : Server Data) : Prop where
  members : ∀ i id, id ∈ server.members now (instanceQueriesKey i) → owner id = i
  filed : ∀ id entry, server.find now (queryKey id) = some entry →
    ∃ record expiry, entry = .text (.record record) expiry ∧ record.id = id ∧
      record.ownerInstanceID = owner id

namespace Homed

variable {owner : String → String} {now : Time} {server after : Server Data}

theorem empty : Homed owner now {} where
  members := by
    intro i id member
    exact absurd member (Finset.notMem_empty id)
  filed := by
    intro id entry found
    cases found

section
variable (homed : Homed owner now server)
include homed

theorem of_le {later : Time} (le : now ≤ later) : Homed owner later server where
  members := by
    intro i id member
    rw [server.members_of_le le] at member
    exact homed.members i id member
  filed := by
    intro id entry found
    rw [server.find_of_le le, Option.filter_eq_some_iff] at found
    exact homed.filed id entry found.1

theorem change (key : String)
    (frame : ∀ other, other ≠ key → after.find now other = server.find now other)
    (members : ∀ i id, key = instanceQueriesKey i → id ∈ after.members now key → owner id = i)
    (filed : ∀ id entry, key = queryKey id → after.find now key = some entry →
      ∃ record expiry, entry = .text (.record record) expiry ∧ record.id = id ∧
        record.ownerInstanceID = owner id) : Homed owner now after where
  members := by
    intro i id member
    by_cases same : instanceQueriesKey i = key
    · subst same
      exact members i id rfl member
    · rw [Server.members_congr server (frame _ same)] at member
      exact homed.members i id member
  filed := by
    intro id entry found
    by_cases same : queryKey id = key
    · subst same
      exact filed id entry rfl found
    · rw [frame _ same] at found
      exact homed.filed id entry found

variable {key : String}

theorem put_text (plain : kind key ≠ kind (queryKey "")) (text : String) (expiry : Option Time) :
    Homed owner now (server.put key (.text (.text text) expiry)) := by
  refine homed.change key (fun other ne => server.find_put_of_ne ne now _) ?_ ?_
  · intro i id _ member
    simp only [Server.members, Server.find_put_self] at member
    split at member
    · rename_i found
      split at found <;> cases found
    · exact absurd member (Finset.notMem_empty id)
  · rintro id entry rfl
    simp at plain

theorem remove (key : String) : Homed owner now (server.remove key) := by
  refine homed.change key (fun other ne => server.find_remove_of_ne ne now) ?_ ?_
  · intro i id _ member
    simp [Server.members] at member
  · intro id entry _ found
    simp at found

theorem set_record (own : record.ownerInstanceID = owner record.id) (expiry : Option Time) :
    Homed owner now (server.put (queryKey record.id) (.text (.record record) expiry)) := by
  refine homed.change _ (fun other ne => server.find_put_of_ne ne now _) ?_ ?_
  · intro i id same
    exact absurd same (ne_of_kind (by simp))
  · intro id entry same found
    rw [queryKey_inj] at same
    subst same
    rw [Server.find_put_self] at found
    split at found <;> cases found
    exact ⟨record, expiry, rfl, rfl, own⟩

theorem sAdd {member : String}
    (placed : key = databasesSeenKey ∨ key = instanceQueriesKey (owner member)) :
    Homed owner now ((Write.sAdd key member : Write Data).run now server).2 := by
  refine homed.change key (fun other ne => Write.run_find_of_ne _ now server ne now) ?_ ?_
  · rintro i id rfl listed
    have home : owner member = i := by
      rcases placed with seen | home
      · exact absurd seen (ne_of_kind (by simp))
      · exact ((instanceQueriesKey_inj _ _).mp home).symm
    rcases Write.sAdd_cases now server (instanceQueriesKey i) member with
      ⟨_, ran⟩ | ⟨_, ran, _, found⟩
    · rw [ran] at listed
      exact homed.members i id listed
    · simp only [ran, Server.members, found, Finset.mem_insert] at listed
      rcases listed with rfl | before
      · exact home
      · exact homed.members i id before
  · rintro id entry rfl
    rcases placed with seen | home
    · exact absurd seen (ne_of_kind (by simp))
    · exact absurd home (ne_of_kind (by simp))

theorem sRem (key member : String) :
    Homed owner now ((Write.sRem key member : Write Data).run now server).2 := by
  refine homed.change key (fun other ne => Write.run_find_of_ne _ now server ne now) ?_ ?_
  · rintro i id rfl listed
    rw [Write.sRem_members] at listed
    exact homed.members i id (Finset.mem_of_mem_erase listed)
  · rintro id entry rfl found
    -- the key of a record holds no set
    cases before : server.find now (queryKey id) with
    | none =>
      simp only [Write.run, before] at found
      contradiction
    | some held =>
      obtain ⟨record, expiry, rfl, own⟩ := homed.filed id held before
      simp only [Write.run, before, Option.some.injEq] at found
      exact ⟨record, expiry, found.symm, own⟩

theorem write {write : Write Data} (placed : Placed owner write) :
    Homed owner now (write.run now server).2 := by
  cases write with
  | set _ value =>
    cases value with
    | record =>
      obtain ⟨rfl, own⟩ := placed
      exact homed.set_record own _
    | text text => exact homed.put_text placed text _
  | del key =>
    simp only [Write.run]
    split
    · exact homed.remove key
    · exact homed
  | sAdd => exact homed.sAdd placed
  | sRem key member => exact homed.sRem key member

theorem writes {writes : List (Write Data)} (placed : ∀ write ∈ writes, Placed owner write) :
    Homed owner now (runAll now server writes).2 := by
  induction writes generalizing server with
  | nil => exact homed
  | cons _ _ ih =>
    rw [List.forall_mem_cons] at placed
    exact ih (homed.write placed.1) placed.2

theorem put_other (other : kind key ≠ kind (queryKey "") ∧ kind key ≠ kind (instanceQueriesKey ""))
    (entry : Entry Data) : Homed owner now (server.put key entry) := by
  refine homed.change key (fun other ne => server.find_put_of_ne ne now _) ?_ ?_
  · rintro i id rfl
    simp at other
  · rintro id entry rfl
    simp at other

theorem request {request : Request Data} (sound : Sound owner request) :
    Homed owner now (request.run now server).2 := by
  cases request with
  | write => exact homed.write sound
  | setNX =>
    simp only [Request.run]
    split
    · exact homed
    · exact homed.put_other sound _
  | delIfEqual key =>
    simp only [Request.run]
    (repeat' split) <;> first | exact homed | exact homed.remove key
  | expireIfEqual =>
    simp only [Request.run]
    (repeat' split) <;> first | exact homed | exact homed.put_other sound _
  | read | watch => exact homed
  | exec _ _ writes =>
    simp only [Request.run]
    split
    · exact homed.writes sound
    · exact homed

end

end Homed

/-- Only the owner restricts what instances call. -/
def OwnersFixed (owner : String → String) (_ : Instances) : Action Call → Prop
  | .begin _ call => call.Own owner
  | _ => True

/-- In every interleaving, with processes that die and keys that expire. -/
theorem Instances.homed {owner : String → String} {now : Time} {instances : Instances}
    (run : Runs.Reaches Instances.step (OwnersFixed owner) (Pool.initial now) instances) :
    Homed owner instances.now instances.server := by
  have initial : Pool.Guarded (Sound owner) (Homed owner) (Pool.initial now : Instances) :=
    ⟨Homed.empty, by rintro client session ⟨⟩⟩
  refine (Pool.Guarded.of_run (fun request now server sound homed => homed.request sound)
    (fun now later server le homed => homed.of_le le) run ?_ initial).server
  intro pool client call own
  exact call.program_sends own pool.now

end DbBridge.State.Redis
