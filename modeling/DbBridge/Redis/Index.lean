import DbBridge.Redis.Slots

/-!
# When the sets of in-flight queries agree with the records

Every operation leaves a query settled once it has sent all its commands. In between the
two bits may differ, so the operations on one query must not overlap, and the key of an
active record must not expire.
-/

namespace DbBridge.State.Redis

open Domain Keyspace Runs

/-! ## Where an operation stands -/

def Call.queryID : Call → Option String
  | .putQuery record | .updateQuery record | .updateQueryIfState record _ => some record.id
  | .deleteQuery id => some id
  | _ => none

def Call.isPiped : Call → Bool
  | .putQuery _ | .updateQuery _ | .deleteQuery _ => true
  | _ => false

abbrev Working := Session Data Call Outcome

def midway (session : Working) : Bool :=
  session.started && session.label.isPiped && !session.program.isDone

/-- The next command is one that other operations on the query must not be midway of: any
command of a pipeline, and the transaction of `UpdateQueryIfState`. -/
def exclusive (session : Working) : Bool :=
  session.label.isPiped || match session.program with
    | .call (.exec _ _ _) _ => true
    | _ => false

def Filing (owner : String → String) : Request Data → Prop
  | .read _ | .watch _ => True
  | .write command => Placed owner command ∧ Regular command
  | .exec _ _ writes =>
    (∀ command ∈ writes, Placed owner command) ∧ ∀ command ∈ writes, Regular command
  | _ => False

/-- The points at which a record operation can stand, with what is left to be done. A
pipeline that has begun settles the bits that the query has now. -/
inductive Point (owner : String → String) (slots : String → Slot) : Working → Prop where
  | ready {call : Call} {program : Client Outcome} (id context : String)
      (writes : List (Write Data)) (concerned : call.queryID = some id)
      (piped : call.isPiped = true)
      (left : program = (Redis.piped context writes).map (.ofResult fun _ => .ok))
      (concerns : ∀ write ∈ writes, Concerns owner id write)
      (settles : ∀ slot, Settles owner id slot writes) : Point owner slots ⟨call, program, false⟩
  | piping {call : Call} {program : Client Outcome} (id context : String)
      (writes : List (Write Data)) (failed : Bool) (concerned : call.queryID = some id)
      (piped : call.isPiped = true)
      (left : program = (Redis.piped context writes failed).map (.ofResult fun _ => .ok))
      (concerns : ∀ write ∈ writes, Concerns owner id write)
      (settles : Settles owner id (slots id) writes) : Point owner slots ⟨call, program, true⟩
  | deleting {program : Client Outcome} (id : String) (now : Time)
      (left : program = Call.program now (.deleteQuery id)) :
      Point owner slots ⟨.deleteQuery id, program, false⟩
  | reading {program : Client Outcome} (id : String) (now : Time)
      (get : Except WrongType (Option Data))
      (left : program = ((Program.read (.ttl (leaseKey id)) fun lease =>
        .done (readQuery now get lease)).bind fun read =>
          Redis.piped "redis delete query failed" (deletion id read)).map (.ofResult fun _ => .ok))
      (settles : ∀ lease, Settles owner id (slots id) (deletion id (readQuery now get lease))) :
      Point owner slots ⟨.deleteQuery id, program, true⟩
  | watching {program : Client Outcome} (record : QueryRecord) (expected : List QueryState)
      (left : program = (updateQueryIfState record expected).map (.ofResult .flag))
      (own : record.ownerInstanceID = owner record.id) :
      Point owner slots ⟨.updateQueryIfState record expected, program, false⟩
  | checking {program : Client Outcome} (record : QueryRecord) (expected : List QueryState)
      (seen : Token)
      (left : program = (Program.read (.get (queryKey record.id))
        (commitIfState record expected seen)).map (.ofResult .flag))
      (own : record.ownerInstanceID = owner record.id) :
      Point owner slots ⟨.updateQueryIfState record expected, program, true⟩
  | committing {program : Client Outcome} (record : QueryRecord) (expected : List QueryState)
      (seen : Token) (left : program = (commit record seen).map (.ofResult .flag))
      (own : record.ownerInstanceID = owner record.id) :
      Point owner slots ⟨.updateQueryIfState record expected, program, true⟩
  | done (call : Call) (outcome : Outcome) (started : Bool) :
      Point owner slots ⟨call, .done outcome, started⟩

variable {call : Call}

namespace Point

variable {owner : String → String} {slots : String → Slot}

theorem of_slots {session : Working} (point : Point owner slots session) {after : String → Slot}
    (same : midway session = true → ∀ id, session.label.queryID = some id → after id = slots id) :
    Point owner after session := by
  cases point with
  | ready id context writes concerned piped left concerns settles =>
    exact .ready id context writes concerned piped left concerns settles
  | piping id context writes failed concerned piped left concerns settles =>
    cases writes with
    | nil =>
      subst left
      exact .done _ _ _
    | cons =>
      have kept := same (by subst left; simp [midway, piped]; rfl) id concerned
      exact .piping id context _ failed concerned piped left concerns (kept ▸ settles)
  | deleting id now left => exact .deleting id now left
  | reading id now get left settles =>
    have kept := same (by subst left; rfl) id rfl
    exact .reading id now get left (kept ▸ settles)
  | watching record expected left own => exact .watching record expected left own
  | checking record expected seen left own => exact .checking record expected seen left own
  | committing record expected seen left own => exact .committing record expected seen left own
  | done call outcome started => exact .done call outcome started

theorem of_call (concerned : call.queryID.isSome = true) (own : call.Own owner) (now : Time) :
    Point owner slots ⟨call, call.program now, false⟩ := by
  cases call with
  | putQuery record | updateQuery record =>
    exact .ready record.id _ (writeQuery record) rfl rfl rfl (writeQuery_concerns record)
      (writeQuery_settles own)
  | updateQueryIfState record expected => exact .watching record expected rfl own
  | deleteQuery id => exact .deleting id now rfl
  | _ => simp [Call.queryID] at concerned

end Point

structure Advanced (owner : String → String) (now : Time) (before after : Server Data)
    (id : String) (old new : Working) : Prop where
  others : ∀ other, other ≠ id → slotAt owner now after other = slotAt owner now before other
  point : Point owner (slotAt owner now after) new
  settled : exclusive old = true → (slotAt owner now after id).Settled ∨ midway new = true
  idle : exclusive old = false → after = before ∧ midway new = false

variable {id : String} {started : Bool}

section
variable {owner : String → String} {now : Time} {server : Server Data}

theorem advanced_write (tidy : Tidy owner now server) {context : String} {first : Write Data}
    {rest : List (Write Data)} {failed : Bool} (placed : Placed owner first)
    (regular : Regular first) (concerned : call.queryID = some id) (piped : call.isPiped = true)
    (concerns : ∀ write ∈ first :: rest, Concerns owner id write)
    (settles : Settles owner id (slotAt owner now server id) (first :: rest))
    {next : Bool → Client Outcome} (left : ∀ answer, next answer =
      (Redis.piped context rest (failed || answer)).map (.ofResult fun _ => .ok)) :
    Advanced owner now server (first.run now server).2 id
      ⟨call, .call (.write first) next, started⟩ ⟨call, next (first.run now server).1, true⟩ := by
  rw [List.forall_mem_cons] at concerns
  have slot := tidy.slotAt_write placed regular id
  have settles : Settles owner id (slotAt owner now (first.run now server).2 id) rest := by
    rw [slot]
    exact settles
  constructor
  · intro other ne
    rw [tidy.slotAt_write placed regular other]
    exact concerns.1 other ne _
  · exact .piping id context rest _ concerned piped (left _) concerns.2 settles
  · intro _
    rw [left]
    cases rest with
    | nil => exact .inl settles
    | cons =>
      right
      simp only [midway, piped, Bool.true_and]
      rfl
  · intro shared
    simp [exclusive, piped] at shared

theorem advanced_read {old new : Working} (point : Point owner (slotAt owner now server) new)
    (settled : exclusive old = true → (slotAt owner now server id).Settled ∨ midway new = true)
    (idle : exclusive old = false → midway new = false) :
    Advanced owner now server server id old new :=
  ⟨fun _ _ => rfl, point, settled, fun shared => ⟨rfl, idle shared⟩⟩

theorem deletion_settles_of_get (homed : Homed owner now server)
    (settled : (slotAt owner now server id).Settled) (asked : Time)
    (lease : Option (Option Duration)) :
    Settles owner id (slotAt owner now server id)
      (deletion id (readQuery asked ((Read.get (queryKey id)).run now server) lease)) := by
  apply deletion_settles
  · intro record read
    obtain ⟨stored, get, deadline, rfl⟩ := readQuery_eq_ok read
    obtain ⟨_, found⟩ := server.get_eq_some_iff.mp get
    obtain ⟨filed, expiry, entry, _, own⟩ := homed.filed id _ found
    cases entry
    exact own
  · intro missing
    rw [← settled]
    simp only [slotAt, isActive]
    split
    · rename_i stored expiry found
      simp only [Read.run, found, readQuery] at missing
      exact absurd rfl (missing _)
    · rfl

end

variable {owner : String → String}

namespace Point

variable {now : Time} {server : Server Data}

theorem request (tidy : Tidy owner now server) {request : Request Data}
    {next : request.Answer → Client Outcome}
    (point : Point owner (slotAt owner now server) ⟨call, .call request next, started⟩)
    (filing : Filing owner request) (concerned : call.queryID = some id)
    (settled : exclusive ⟨call, .call request next, started⟩ = true →
      midway ⟨call, .call request next, started⟩ = false → (slotAt owner now server id).Settled) :
    Advanced owner now server (request.run now server).2 id ⟨call, .call request next, started⟩
      ⟨call, next (request.run now server).1, true⟩ := by
  generalize is : Program.call request next = program at point
  cases point with
  | ready own context writes named piped left concerns settles =>
    cases concerned.symm.trans named
    cases writes with
    | nil => cases is.trans left
    | cons first rest =>
      have sent : Program.call request next = .call (.write first) fun answer =>
        (Redis.piped context rest (false || answer)).map (.ofResult fun _ => .ok) :=
        is.trans left
      cases sent
      subst is
      exact advanced_write tidy filing.1 filing.2 named piped concerns (settles _) fun _ => rfl
  | piping own context writes failed named piped left concerns settles =>
    cases concerned.symm.trans named
    cases writes with
    | nil => cases is.trans left
    | cons first rest =>
      have sent : Program.call request next = .call (.write first) fun answer =>
        (Redis.piped context rest (failed || answer)).map (.ofResult fun _ => .ok) :=
        is.trans left
      cases sent
      subst is
      exact advanced_write tidy filing.1 filing.2 named piped concerns settles fun _ => rfl
  | deleting own asked left =>
    cases concerned
    have sent : Program.call request next = .call (.read (.get (queryKey id))) fun get =>
      ((Program.read (.ttl (leaseKey id)) fun lease =>
        .done (readQuery asked get lease)).bind fun read =>
          Redis.piped "redis delete query failed" (deletion id read)).map
            (.ofResult fun _ => .ok) := is.trans left
    cases sent
    refine advanced_read (.reading id asked _ rfl ?_) (fun _ => .inr rfl)
      (by simp [exclusive, Call.isPiped])
    exact deletion_settles_of_get tidy.toHomed (settled rfl rfl) asked
  | reading own asked get left settles =>
    cases concerned
    have sent : Program.call request next = .call (.read (.ttl (leaseKey id))) fun lease =>
      (Redis.piped "redis delete query failed" (deletion id (readQuery asked get lease))).map
        (.ofResult fun _ => .ok) := is.trans left
    cases sent
    exact advanced_read (.piping id _ _ false rfl rfl rfl (deletion_concerns id _)
      (settles _)) (fun _ => .inr rfl) (by simp [exclusive, Call.isPiped])
  | watching record expected left own =>
    have sent : Program.call request next = .call (.watch (queryKey record.id)) fun seen =>
      (Program.read (.get (queryKey record.id)) (commitIfState record expected seen)).map
        (.ofResult .flag) := is.trans left
    cases sent
    subst is
    exact advanced_read (.checking record expected _ rfl own) (by simp [exclusive, Call.isPiped])
      fun _ => rfl
  | checking record expected seen left own =>
    have sent : Program.call request next = .call (.read (.get (queryKey record.id))) fun get =>
      (commitIfState record expected seen get).map (.ofResult .flag) := is.trans left
    cases sent
    subst is
    refine advanced_read ?_ (by simp [exclusive, Call.isPiped]) fun _ => ?_
    · generalize (Request.run now server (.read (.get (queryKey record.id)))).1 = get
      change Point owner _ ⟨_, (commitIfState record expected seen get).map _, true⟩
      unfold commitIfState
      split
      · exact .done _ _ _
      · exact .done _ _ _
      · exact .done _ _ _
      · split
        · exact .done _ _ _
        · exact .committing record expected seen rfl own
    · simp [midway, Call.isPiped]
  | committing record expected seen left own =>
    cases concerned
    have sent : Program.call request next =
      .call (.exec (queryKey record.id) seen (writeQuery record)) fun answer =>
        .done (.ofResult .flag (committed answer)) := is.trans left
    cases sent
    subst is
    have write := tidy.writes (writeQuery_placed own) (writeQuery_regular record)
    simp only [Request.run]
    split
    · refine ⟨?_, .done _ _ _, fun _ => .inl ?_, by simp [exclusive]⟩
      · intro other ne
        rw [write.2 other]
        exact foldl_after_of_concerns ne (writeQuery_concerns record) _
      · rw [write.2]
        exact writeQuery_settles own _
    · exact advanced_read (.done _ _ _) (fun needed => .inl (settled needed rfl)) fun _ => rfl
  | done => cases is

end Point

/-! ## Every interleaving -/

theorem Call.program_files (concerned : call.queryID.isSome = true) (own : call.Own owner)
    (now : Time) : (call.program now).Sends (Filing owner) := by
  refine (call.program_commands now).mono fun request command => ?_
  cases command with
  | put record write listed | update record write listed =>
    exact ⟨writeQuery_placed own write listed, writeQuery_regular record write listed⟩
  | exec record => exact ⟨writeQuery_placed own, writeQuery_regular record⟩
  | delete id found write listed =>
    exact ⟨deletion_placed id found write listed, deletion_regular id found write listed⟩
  | read | watch => trivial
  | acquire | release | refresh | heartbeat | lock => simp [Call.queryID] at concerned

variable {server : Server Data}

theorem Tidy.request {now : Time} (tidy : Tidy owner now server) {request : Request Data}
    (filing : Filing owner request) : Tidy owner now (request.run now server).2 := by
  cases request with
  | write => exact tidy.write filing.1 filing.2
  | read | watch => exact tidy
  | exec _ _ writes =>
    simp only [Request.run]
    split
    · exact (tidy.writes filing.1 filing.2).1
    · exact tidy
  | _ => exact filing.elim

theorem slotAt_of_le {now later : Time} (le : now ≤ later)
    (lasting : isActive now server id = true → isActive later server id = true) :
    slotAt owner later server id = slotAt owner now server id := by
  have active : isActive later server id = isActive now server id := by
    cases before : isActive now server id with
    | true => exact lasting before
    | false =>
      unfold isActive at before ⊢
      rw [server.find_of_le le]
      cases found : server.find now (queryKey id) with
      | none => rfl
      | some entry =>
        rw [found] at before
        by_cases alive : entry.alive later = true
        · simpa [Option.filter, alive] using before
        · simp [Option.filter, alive]
  simp only [slotAt, active, server.members_of_le le]

/-- Only record operations are considered; each query has one owner, and no process dies. -/
def Recording (owner : String → String) (_ : Instances) : Action Call → Prop
  | .begin _ call => call.queryID.isSome = true ∧ call.Own owner
  | .crash _ => False
  | _ => True

/-- The condition on a step: a command of a pipeline and a transaction are sent only while no
other operation on the query is midway, and no active record expires. -/
structure Orderly (owner : String → String) (pool : Instances) (action : Action Call) :
    Prop where
  recording : Recording owner pool action
  apart : ∀ client, action = .request client → ∀ session,
    pool.clients client = some session → exclusive session = true →
    ∀ other rival, other ≠ client → pool.clients other = some rival →
      rival.label.queryID = session.label.queryID → midway rival = false
  lasting : ∀ elapsed, action = .advance elapsed → ∀ id,
    isActive pool.now pool.server id = true →
      isActive (pool.now + elapsed) pool.server id = true

structure Indexed (owner : String → String) (pool : Instances) : Prop
    extends Pool.Guarded (Filing owner) (Tidy owner) pool where
  concerned : ∀ client session, pool.clients client = some session →
    session.label.queryID.isSome = true
  point : ∀ client session, pool.clients client = some session →
    Point owner (slotAt owner pool.now pool.server) session
  alone : ∀ client other session rival, pool.clients client = some session →
    pool.clients other = some rival → midway session = true → midway rival = true →
    session.label.queryID = rival.label.queryID → client = other
  settled : ∀ id, (slotAt owner pool.now pool.server id).Settled ∨
    ∃ client session, pool.clients client = some session ∧ midway session = true ∧
      session.label.queryID = some id

variable {client : Nat}

namespace Indexed

variable {pool : Instances}

theorem initial (now : Time) : Indexed owner (Pool.initial now) where
  server := Tidy.empty
  sends := by rintro client session ⟨⟩
  concerned := by rintro client session ⟨⟩
  point := by rintro client session ⟨⟩
  alone := by rintro client other session rival ⟨⟩
  settled := fun _ => .inl rfl

section
variable (indexed : Indexed owner pool)
include indexed

theorem replace {session : Option Working}
    (before : ∀ working, pool.clients client = some working → midway working = false)
    (guarded : Pool.Guarded (Filing owner) (Tidy owner) (pool.update client session))
    (concerned : ∀ working ∈ session, working.label.queryID.isSome = true)
    (point : ∀ working ∈ session, Point owner (slotAt owner pool.now pool.server) working)
    (fresh : ∀ working ∈ session, midway working = false) :
    Indexed owner (pool.update client session) where
  toGuarded := guarded
  concerned := by
    intro other working found
    rw [Pool.update_clients] at found
    split at found
    · exact concerned working found
    · exact indexed.concerned other working found
  point := by
    intro other working found
    rw [Pool.update_clients] at found
    split at found
    · exact point working found
    · exact indexed.point other working found
  alone := by
    intro first second working rival found foundToo isMidway isMidwayToo same
    rw [Pool.update_clients] at found foundToo
    split at found
    · rw [fresh working found] at isMidway
      contradiction
    · split at foundToo
      · rw [fresh rival foundToo] at isMidwayToo
        contradiction
      · exact indexed.alone first second working rival found foundToo isMidway isMidwayToo same
  settled := by
    intro id
    refine (indexed.settled id).imp_right ?_
    rintro ⟨other, working, found, isMidway, about⟩
    refine ⟨other, working, ?_, isMidway, about⟩
    rw [Pool.update_clients, if_neg]
    · exact found
    · rintro rfl
      rw [before working found] at isMidway
      contradiction

theorem request {request : Request Data} {next : request.Answer → Client Outcome}
    (working : pool.clients client = some ⟨call, .call request next, started⟩)
    (orderly : Orderly owner pool (.request client))
    (guarded : Pool.Guarded (Filing owner) (Tidy owner)
      ({ pool with server := (request.run pool.now pool.server).2 }.update client
        (some ⟨call, next (request.run pool.now pool.server).1, true⟩))) :
    Indexed owner ({ pool with server := (request.run pool.now pool.server).2 }.update client
      (some ⟨call, next (request.run pool.now pool.server).1, true⟩)) := by
  obtain ⟨id, about⟩ := Option.isSome_iff_exists.mp (indexed.concerned client _ working)
  have apart := orderly.apart client rfl _ working
  have settled : exclusive ⟨call, .call request next, started⟩ = true →
      midway ⟨call, .call request next, started⟩ = false →
      (slotAt owner pool.now pool.server id).Settled := by
    intro needed idle
    rcases indexed.settled id with settled | ⟨other, rival, found, isMidway, same⟩
    · exact settled
    · by_cases own : other = client
      · subst own
        cases found.symm.trans working
        rw [idle] at isMidway
        contradiction
      · rw [apart needed other rival own found (same.trans about.symm)] at isMidway
        contradiction
  have advanced := (indexed.point client _ working).request indexed.server
    (indexed.sends client _ working).1 about settled
  -- beside an operation that may only read, nothing has changed
  have rivals : ∀ other rival, other ≠ client → pool.clients other = some rival →
      midway rival = true → rival.label.queryID = some id →
      exclusive ⟨call, .call request next, started⟩ = false := by
    intro other rival ne found isMidway same
    by_contra needed
    rw [Bool.not_eq_false] at needed
    rw [apart needed other rival ne found (same.trans about.symm)] at isMidway
    contradiction
  refine ⟨guarded, ?_, ?_, ?_, ?_⟩
  · intro other session found
    rw [Pool.update_clients] at found
    split at found
    · cases found
      exact Option.isSome_iff_exists.mpr ⟨id, about⟩
    · exact indexed.concerned other session found
  · intro other session found
    rw [Pool.update_clients] at found
    split at found
    · cases found
      exact advanced.point
    · rename_i ne
      refine (indexed.point other session found).of_slots ?_
      intro isMidway own same
      by_cases this : own = id
      · subst this
        exact congrArg (slotAt owner pool.now · own)
          (advanced.idle (rivals other session ne found isMidway same)).1
      · exact advanced.others own this
  · intro first second session rival found foundToo isMidway isMidwayToo same
    rw [Pool.update_clients] at found foundToo
    split at found
    · split at foundToo
      · rename_i this thisToo
        exact this.trans thisToo.symm
      · rename_i ne
        cases found
        have shared := rivals second rival ne foundToo isMidwayToo (same.symm.trans about)
        rw [(advanced.idle shared).2] at isMidway
        contradiction
    · rename_i ne
      split at foundToo
      · cases foundToo
        have shared := rivals first session ne found isMidway (same.trans about)
        rw [(advanced.idle shared).2] at isMidwayToo
        contradiction
      · exact indexed.alone first second session rival found foundToo isMidway isMidwayToo same
  · intro own
    by_cases this : own = id
    · subst this
      cases needed : exclusive ⟨call, .call request next, started⟩ with
      | true =>
        refine (advanced.settled needed).imp_right fun isMidway => ?_
        exact ⟨client, _, by rw [Pool.update_clients, if_pos rfl], isMidway, about⟩
      | false =>
        have same := (advanced.idle needed).1
        have waits : ∀ other session, pool.clients other = some session →
            midway session = true → other ≠ client := by
          rintro other session found isMidway rfl
          cases found.symm.trans working
          simp only [exclusive, Bool.or_eq_false_iff] at needed
          simp [midway, needed.1] at isMidway
        refine (same ▸ indexed.settled own).imp_right ?_
        rintro ⟨other, session, found, isMidway, aboutToo⟩
        refine ⟨other, session, ?_, isMidway, aboutToo⟩
        rw [Pool.update_clients, if_neg (waits other session found isMidway)]
        exact found
    · refine (indexed.settled own).imp (congrArg Slot.Settled (advanced.others own this)).mpr ?_
      rintro ⟨other, session, found, isMidway, aboutToo⟩
      refine ⟨other, session, ?_, isMidway, aboutToo⟩
      rw [Pool.update_clients, if_neg]
      · exact found
      · rintro rfl
        cases found.symm.trans working
        exact this (Option.some.inj (aboutToo.symm.trans about))

theorem step {action : Action Call} {after : Instances} (orderly : Orderly owner pool action)
    (taken : pool.step action = some after) : Indexed owner after := by
  have move := Pool.step_move taken
  have guarded : Pool.Guarded (Filing owner) (Tidy owner) after := by
    refine indexed.toGuarded.move (fun request now server filing tidy => tidy.request filing)
      (fun now later server le tidy => tidy.of_le le) move ?_
    rintro client call rfl
    exact call.program_files orderly.recording.1 orderly.recording.2 pool.now
  cases move with
  | begin _ _ free =>
    refine indexed.replace (by simp [free]) guarded ?_ ?_ ?_
    · rintro working ⟨⟩
      exact orderly.recording.1
    · rintro working ⟨⟩
      exact .of_call orderly.recording.1 orderly.recording.2 pool.now
    · rintro working ⟨⟩
      rfl
  | request _ _ _ request _ working => exact indexed.request working orderly guarded
  | finish _ _ _ _ working =>
    refine indexed.replace ?_ guarded (by simp) (by simp) (by simp)
    intro session found
    cases found.symm.trans working
    simp [midway, Program.isDone]
  | crash => exact orderly.recording.elim
  | advance elapsed =>
    have le : pool.now ≤ pool.now + elapsed :=
      Int.le_add_of_nonneg_right (Int.natCast_nonneg elapsed)
    have same : ∀ id, slotAt owner (pool.now + elapsed) pool.server id =
        slotAt owner pool.now pool.server id :=
      fun id => slotAt_of_le le (orderly.lasting elapsed rfl id)
    refine ⟨guarded, indexed.concerned, ?_, indexed.alone, ?_⟩
    · intro client session found
      exact (indexed.point client session found).of_slots fun _ id _ => same id
    · intro id
      exact (same id).symm ▸ indexed.settled id

end

end Indexed

/-- In every run whose steps meet the condition: whenever no operation is in progress,
`ListByInstance` and `CountInFlight` report the queries of the instance whose stored record
is not terminal. -/
theorem index_agrees_with_records {now : Time} {pool : Instances}
    (run : Reaches Instances.step (Orderly owner) (Pool.initial now) pool) (quiet : pool.Quiet)
    (i : String) : ∃ ids : Finset String,
      ((listByInstance i).run pool.now pool.server).1 = .ok ids ∧
      ((countInFlight i).run pool.now pool.server).1 = .ok ids.card ∧
      ∀ id, id ∈ ids ↔ ∃ record,
        (Read.get (queryKey id)).run pool.now pool.server = .ok (some (.record record)) ∧
        record.state.isTerminal = false ∧ record.ownerInstanceID = i := by
  have indexed : Indexed owner pool :=
    run.invariant (Indexed owner) (Indexed.initial now)
      fun before action after indexed orderly taken => indexed.step orderly taken
  have set := pool.server.setAt_of_isText (indexed.server.set i)
  refine ⟨pool.server.members pool.now (instanceQueriesKey i), ?_, ?_, ?_⟩
  · simp only [listByInstance, Program.read, Program.run, Request.run, Read.run, set]
    rfl
  · simp only [countInFlight, Program.read, Program.run, Request.run, Read.run, set]
    rfl
  · intro id
    have settled : (slotAt owner pool.now pool.server id).Settled := by
      refine (indexed.settled id).resolve_right ?_
      rintro ⟨client, session, found, _⟩
      rw [quiet client] at found
      contradiction
    have homed := indexed.server.toHomed
    constructor
    · intro member
      have own := homed.members i id member
      subst own
      have active : isActive pool.now pool.server id = true := by
        exact settled.trans (decide_eq_true member)
      unfold isActive at active
      split at active
      · rename_i record expiry found
        obtain ⟨filed, _, entry, _, own⟩ := homed.filed id _ found
        cases entry
        exact ⟨record, pool.server.get_eq_some_iff.mpr ⟨expiry, found⟩, by simpa using active, own⟩
      · contradiction
    · rintro ⟨record, get, unfinished, rfl⟩
      obtain ⟨expiry, found⟩ := pool.server.get_eq_some_iff.mp get
      obtain ⟨filed, _, entry, _, own⟩ := homed.filed id _ found
      cases entry
      have active : isActive pool.now pool.server id = true := by simp [isActive, found, unfinished]
      rw [own]
      exact of_decide_eq_true (settled.symm.trans active)

/-! ## Runs of a few clients -/

def Only (clients : List Nat) : Action Call → Prop
  | .begin client _ | .request client | .finish client => client ∈ clients
  | .crash _ | .advance _ => False

instance (owner : String → String) (pool : Instances) (action : Action Call) :
    Decidable (Recording owner pool action) :=
  match action with
  | .begin _ call => inferInstanceAs (Decidable (call.queryID.isSome = true ∧ call.Own owner))
  | .crash _ => instDecidableFalse
  | .request _ | .finish _ | .advance _ => instDecidableTrue

instance (clients : List Nat) (action : Action Call) : Decidable (Only clients action) :=
  match action with
  | .begin client _ | .request client | .finish client =>
    inferInstanceAs (Decidable (client ∈ clients))
  | .crash _ | .advance _ => instDecidableFalse

section
variable {clients : List Nat} {now : Time} {pool : Instances}

section
variable
  (run : Reaches Instances.step
    (fun pool action => Recording owner pool action ∧ Only clients action) (Pool.initial now) pool)
include run

theorem idle_of_only : ∀ client, client ∉ clients → pool.clients client = none := by
  refine run.invariant (fun pool => ∀ client, client ∉ clients → pool.clients client = none)
    (fun _ _ => rfl) ?_
  intro before action after idle guard taken client absent
  have kept : ∀ (server : Server Data) (actor : Nat) (session : Option Working), actor ∈ clients →
      ({ before with server }.update actor session).clients client = none := by
    intro server actor session listed
    rw [Pool.update_clients, if_neg (by rintro rfl; exact absent listed)]
    exact idle client absent
  cases Pool.step_move taken with
  | request actor => exact kept _ actor _ guard.2
  | begin actor | finish actor => exact kept before.server actor _ guard.2
  | crash | advance => exact guard.2.elim

theorem quiet_of_only (finished : clients.all fun client => (pool.clients client).isNone) :
    pool.Quiet := by
  intro client
  by_cases listed : client ∈ clients
  · exact Option.isNone_iff_eq_none.mp (List.all_eq_true.mp finished client listed)
  · exact idle_of_only run client listed

end

theorem orderly_of_only
    (run : Reaches Instances.step (fun pool action => Recording owner pool action ∧
      Only [client] action) (Pool.initial now) pool) :
    Reaches Instances.step (Orderly owner) (Pool.initial now) pool := by
  induction run with
  | refl => exact Reaches.refl _
  | tail before last ih =>
    obtain ⟨action, guard, taken⟩ := last
    refine ih.snoc ⟨guard.1, ?_, ?_⟩ taken
    · rintro actor rfl session _ _ other rival ne found
      cases List.mem_singleton.mp guard.2
      rw [idle_of_only before other (by simpa using ne)] at found
      contradiction
    · rintro elapsed rfl
      exact guard.2.elim

end

def storing : List (Action Call) :=
  [.begin 0 (.putQuery activeQuery), .request 0, .request 0, .request 0, .finish 0]

/-- The query is listed once it is stored. -/
theorem stored_query_is_listed :
    ∃ pool : Instances, Reaches Instances.step (Orderly fun _ => "a") (Pool.initial 1) pool ∧
      pool.Quiet ∧ ((listByInstance "a").run pool.now pool.server).1 = .ok {"q"} ∧
      ∃ ids : Finset String,
        ((listByInstance "a").run pool.now pool.server).1 = .ok ids ∧
        ((countInFlight "a").run pool.now pool.server).1 = .ok ids.card ∧
        ∀ id, id ∈ ids ↔ ∃ record,
          (Read.get (queryKey id)).run pool.now pool.server = .ok (some (.record record)) ∧
          record.state.isTerminal = false ∧ record.ownerInstanceID = "a" := by
  obtain ⟨pool, run, finished, listed⟩ : ∃ pool : Instances, Reaches Instances.step
      (fun pool action => Recording (fun _ => "a") pool action ∧ Only [0] action)
      (Pool.initial 1) pool ∧ ([0].all fun client => (pool.clients client).isNone) = true ∧
        ((listByInstance "a").run pool.now pool.server).1 = .ok {"q"} :=
    exists_reaches storing (by decide +kernel)
  have quiet := quiet_of_only run finished
  exact ⟨pool, orderly_of_only run, quiet, listed,
    index_agrees_with_records (orderly_of_only run) quiet "a"⟩

/-- Another client ends the query while the first has sent only its first command. -/
def overlapping : List (Action Call) :=
  [.begin 0 (.putQuery activeQuery), .begin 1 (.putQuery { activeQuery with state := .canceled }),
    .request 0, .request 1, .request 1, .request 1, .request 1, .finish 1, .request 0, .request 0,
    .finish 0]

/-- Without the condition: two pipelines that overlap leave a terminal record in the set, and a
record that expires while it is running leaves its ID there. -/
theorem index_names_finished_and_expired :
    (∃ pool : Instances, ∃ record,
      Reaches Instances.step (Recording fun _ => "a") (Pool.initial 1) pool ∧ pool.Quiet ∧
      ((listByInstance "a").run pool.now pool.server).1 = .ok {"q"} ∧
      (Read.get (queryKey "q")).run pool.now pool.server = .ok (some (.record record)) ∧
      record.state = .canceled) ∧
    ∃ pool : Instances,
      Reaches Instances.step (Recording fun _ => "a") (Pool.initial 1) pool ∧ pool.Quiet ∧
      ((listByInstance "a").run pool.now pool.server).1 = .ok {"q"} ∧
      (Read.get (queryKey "q")).run pool.now pool.server = .ok none := by
  constructor
  · obtain ⟨pool, run, finished, listed, read⟩ : ∃ pool : Instances, Reaches Instances.step
        (fun pool action => Recording (fun _ => "a") pool action ∧ Only [0, 1] action)
        (Pool.initial 1) pool ∧ ([0, 1].all fun client => (pool.clients client).isNone) = true ∧
          ((listByInstance "a").run pool.now pool.server).1 = .ok {"q"} ∧
          (Read.get (queryKey "q")).run pool.now pool.server =
            .ok (some (.record { activeQuery with state := .canceled })) :=
      exists_reaches overlapping (by decide +kernel)
    exact ⟨pool, _, run.mono fun _ _ guard => guard.1, quiet_of_only run finished, listed, read,
      rfl⟩
  · obtain ⟨pool, run, finished, facts⟩ : ∃ pool : Instances, Reaches Instances.step
        (fun pool action => Recording (fun _ => "a") pool action ∧ Only [0] action)
        (Pool.initial 1) pool ∧ ([0].all fun client => (pool.clients client).isNone) = true ∧
          ((listByInstance "a").run (pool.now + (48 * hour).toNat) pool.server).1 = .ok {"q"} ∧
          (Read.get (queryKey "q")).run (pool.now + (48 * hour).toNat) pool.server =
            (.ok none : Except WrongType (Option Data)) :=
      exists_reaches storing (by decide +kernel)
    have later : Instances.step pool (.advance (48 * hour).toNat) =
        some { pool with now := pool.now + (48 * hour).toNat } := rfl
    have waits : Recording (fun _ => "a") pool (.advance (48 * hour).toNat) := trivial
    exact ⟨_, (run.mono fun _ _ guard => guard.1).snoc waits later,
      fun client => quiet_of_only run finished client, facts⟩

end DbBridge.State.Redis
