import Mathlib
import DbBridge.Cluster.Workers
import DbBridge.Redis.Slots

/-!
# Recovery at startup

`recoverOrphans` goes through the set that `CountInFlight` counts, but clears a query from
it only by writing its record, and only while that record is stored and not terminal.
-/

namespace DbBridge.State.Redis

open Domain Keyspace

/-! ## The pass -/

/-- One round of the loop; `now` is what `time.Now` answers in it. -/
def recoverQuery (now : Time) (id : String) : Client Unit :=
  (getQuery now id).bind fun read =>
    match read with
    | .error _ => .done ()
    | .ok record =>
      if record.state.isTerminal then .done ()
      else (updateQueryIfState (Cluster.ownerLost record now) Cluster.ownerLostExpected).map
        fun _ => ()

def recoverQueries (now : String → Time) : List String → Client Unit
  | [] => .done ()
  | id :: rest => (recoverQuery (now id) id).bind fun _ => recoverQueries now rest

/-- `order` is the order in which Redis lists the members of a set. -/
def recoverOrphans (order : Finset String → List String) (now : String → Time)
    (instanceID : String) : Client Unit :=
  (listByInstance instanceID).bind fun listed =>
    match listed with
    | .error _ => .done ()
    | .ok ids => recoverQueries now (order ids)

/-! ## One round -/

variable {record : QueryRecord}

section
variable {owner : String → String} {clock : Nat → Time} {server : Server Data} {sent : Nat}
  {id : String}

theorem isActive_iff (now : Time) (server : Server Data) (id : String) :
    isActive now server id = true ↔ ∃ record expiry,
      server.find now (queryKey id) = some (.text (.record record) expiry) ∧
        record.state.isTerminal = false := by
  unfold isActive
  split
  · rename_i record expiry found
    simp [found]
  · rename_i other
    simp only [Bool.false_eq_true, false_iff]
    rintro ⟨record, expiry, found, _⟩
    exact other record expiry found

theorem find_earlier (server : Server Data) {now later : Time} (le : now ≤ later) {key : String}
    {entry : Entry Data} (found : server.find later key = some entry) :
    server.find now key = some entry := by
  rw [server.find_of_le le, Option.filter_eq_some_iff] at found
  exact found.1

theorem recoverQuery_runFrom
    (get : (Read.get (queryKey id)).run (clock sent) server = .ok (some (.record record)))
    (unfinished : record.state.isTerminal = false) (now : Time) :
    ∃ deadline, ((recoverQuery now id).runFrom clock sent server).2 =
      ((updateQueryIfState (Cluster.ownerLost { record with leaseDeadline := deadline } now)
        Cluster.ownerLostExpected).runFrom clock (sent + 2) server).2 := by
  obtain ⟨_, same, deadline, lease⟩ := readQuery_eq_ok (rfl :
    readQuery now (.ok (some (.record record)))
      ((Read.ttl (leaseKey id)).run (clock (sent + 1)) server) = _)
  cases same
  refine ⟨deadline, ?_⟩
  have read : (getQuery now id).runFrom clock sent server =
      (.ok { record with leaseDeadline := deadline }, sent + 2, server) := by
    rw [← lease]
    simp only [getQuery, Program.read, Program.runFrom, Request.run, get, readQuery]
  rw [recoverQuery, Program.bind_runFrom, read]
  simp only [unfinished, Bool.false_eq_true, if_false, Program.map, Program.bind_runFrom,
    Program.runFrom]

theorem updateQueryIfState_found {current : QueryRecord} {expected : List QueryState}
    {expiry : Option Time} (forward : Monotone clock)
    (found : server.find (clock (sent + 2)) (queryKey record.id) =
      some (.text (.record current) expiry)) (member : current.state ∈ expected) :
    ((updateQueryIfState record expected).runFrom clock sent server).2 =
      (sent + 3, (runAll (clock (sent + 2)) server (writeQuery record)).2) := by
  have get : (Read.get (queryKey record.id)).run (clock (sent + 1)) server =
      .ok (some (.record current)) :=
    server.get_eq_some_iff.mpr ⟨expiry, find_earlier server (forward (Nat.le_succ _)) found⟩
  have unchanged : ∀ present, server.unchanged (clock (sent + 2)) (queryKey record.id)
      ⟨server.changes (queryKey record.id), present⟩ = true := by
    intro present
    simp [Server.unchanged, found]
  simp only [updateQueryIfState, Program.read, Program.runFrom, Request.run, get, commitIfState,
    member, not_true, if_false, commit]
  rw [if_pos (unchanged _)]

theorem updateQueryIfState_gone (record : QueryRecord) (expected : List QueryState)
    (forward : Monotone clock) (gone : server.find (clock (sent + 2)) (queryKey record.id) = none) :
    ∃ later, sent ≤ later ∧
      ((updateQueryIfState record expected).runFrom clock sent server).2 = (later, server) := by
  simp only [updateQueryIfState, Program.read, Program.runFrom, Request.run, commitIfState]
  split
  · exact ⟨_, Nat.le_add_right sent 2, rfl⟩
  · exact ⟨_, Nat.le_add_right sent 2, rfl⟩
  · exact ⟨_, Nat.le_add_right sent 2, rfl⟩
  · rename_i current get
    split
    · exact ⟨_, Nat.le_add_right sent 2, rfl⟩
    · -- `WATCH` has seen the key
      obtain ⟨expiry, found⟩ := server.get_eq_some_iff.mp get
      have seen := find_earlier server (forward (Nat.le_succ sent)) found
      refine ⟨_, Nat.le_add_right sent 3, ?_⟩
      simp only [commit, Program.runFrom, Request.run, Server.unchanged, seen, gone]
      simp

section
variable (homed : Homed owner (clock sent) server) (forward : Monotone clock) (now : Time)
include homed forward now

theorem recoverQuery_active (active : isActive (clock (sent + 4)) server id = true) :
    ∃ failed : QueryRecord, failed.id = id ∧ failed.ownerInstanceID = owner id ∧
      failed.state = .failed ∧
      ((recoverQuery now id).runFrom clock sent server).2 =
        (sent + 5, (runAll (clock (sent + 4)) server (writeQuery failed)).2) := by
  obtain ⟨record, expiry, found, unfinished⟩ := (isActive_iff _ _ _).mp active
  have first := find_earlier server (forward (Nat.le_add_right sent 4)) found
  obtain ⟨filed, _, entry, rfl, own⟩ := homed.filed id _ first
  cases entry
  obtain ⟨deadline, round⟩ := recoverQuery_runFrom
    (server.get_eq_some_iff.mpr ⟨expiry, first⟩) unfinished now
  have expected : record.state ∈ Cluster.ownerLostExpected := by
    simpa [Cluster.ownerLostExpected] using (record.state.isTerminal_eq_false_iff).mp unfinished
  refine ⟨Cluster.ownerLost { record with leaseDeadline := deadline } now, rfl, own, rfl, ?_⟩
  rw [round]
  exact updateQueryIfState_found forward found expected

theorem recoverQuery_inactive (inactive : isActive (clock (sent + 4)) server id = false) :
    ∃ later, sent ≤ later ∧
      ((recoverQuery now id).runFrom clock sent server).2 = (later, server) := by
  cases started : isActive (clock sent) server id with
  | false =>
    refine ⟨sent + 2, Nat.le_add_right sent 2, ?_⟩
    have read : (getQuery now id).runFrom clock sent server =
        (readQuery now ((Read.get (queryKey id)).run (clock sent) server)
          ((Read.ttl (leaseKey id)).run (clock (sent + 1)) server), sent + 2, server) := rfl
    rw [recoverQuery, Program.bind_runFrom, read]
    dsimp only
    split
    · rfl
    · rename_i record found
      obtain ⟨stored, get, deadline, rfl⟩ := readQuery_eq_ok found
      obtain ⟨expiry, entry⟩ := server.get_eq_some_iff.mp get
      have ended : stored.state.isTerminal = true := by
        simpa [isActive, entry] using started
      rw [if_pos ended]
      rfl
  | true =>
    obtain ⟨record, expiry, found, unfinished⟩ := (isActive_iff _ _ _).mp started
    obtain ⟨filed, _, entry, rfl, _⟩ := homed.filed id _ found
    cases entry
    obtain ⟨deadline, round⟩ := recoverQuery_runFrom
      (server.get_eq_some_iff.mpr ⟨expiry, found⟩) unfinished now
    have gone : server.find (clock (sent + 4)) (queryKey record.id) = none := by
      rw [Option.eq_none_iff_forall_not_mem]
      intro entry still
      have same := find_earlier server (forward (Nat.le_add_right sent 4)) still
      cases found.symm.trans same
      rw [(isActive_iff _ _ _).mpr ⟨record, expiry, still, unfinished⟩] at inactive
      contradiction
    rw [round]
    obtain ⟨later, le, ran⟩ := updateQueryIfState_gone
      (Cluster.ownerLost { record with leaseDeadline := deadline } now)
      Cluster.ownerLostExpected forward gone
    exact ⟨later, (Nat.le_add_right sent 2).trans le, ran⟩

end

structure Rounded (owner : String → String) (clock : Nat → Time) (i id : String) (sent : Nat)
    (server : Server Data) (ended : Nat × Server Data) : Prop where
  le : sent ≤ ended.1
  homed : Homed owner (clock ended.1) ended.2
  set : ended.2.isText (clock ended.1) (instanceQueriesKey i) = false
  others : ∀ other, other ≠ id →
    (other ∈ ended.2.members (clock ended.1) (instanceQueriesKey i) ↔
      other ∈ server.members (clock sent) (instanceQueriesKey i))
  records : ∀ other, other ≠ id → ∀ instant,
    isActive instant ended.2 other = isActive instant server other
  cleared : isActive (clock (sent + 4)) server id = true →
    ended.1 = sent + 5 ∧ id ∉ ended.2.members (clock ended.1) (instanceQueriesKey i)
  kept : isActive (clock (sent + 4)) server id = false →
    ended.2.members (clock ended.1) (instanceQueriesKey i) =
      server.members (clock sent) (instanceQueriesKey i)

theorem recoverQuery_rounded (homed : Homed owner (clock sent) server) (forward : Monotone clock)
    (set : server.isText (clock sent) (instanceQueriesKey (owner id)) = false) (now : Time) :
    Rounded owner clock (owner id) id sent server
      ((recoverQuery now id).runFrom clock sent server).2 := by
  cases active : isActive (clock (sent + 4)) server id with
  | true =>
    obtain ⟨failed, rfl, own, state, ran⟩ := recoverQuery_active homed forward now active
    have until4 : clock sent ≤ clock (sent + 4) := forward (Nat.le_add_right sent 4)
    have after : clock (sent + 4) ≤ clock (sent + 5) := forward (Nat.le_succ _)
    have ended : failed.state.isTerminal = true := by rw [state]; rfl
    have text := server.isText_of_le until4 set
    have members : (runAll (clock (sent + 4)) server (writeQuery failed)).2.members
        (clock (sent + 5)) (instanceQueriesKey (owner failed.id)) =
        (server.members (clock sent) (instanceQueriesKey (owner failed.id))).erase failed.id := by
      rw [Server.members_of_le _ after, writeQuery_members failed _ _ _ (own ▸ text), own,
        if_pos rfl, if_pos ended, server.members_of_le until4]
    rw [ran]
    constructor
    · exact Nat.le_add_right sent 5
    · exact ((homed.of_le until4).writes (writeQuery_placed own)).of_le after
    · refine Server.isText_of_le _ after ?_
      rw [writeQuery_isText_index]
      exact text
    · intro other ne
      simp [members, ne]
    · intro other ne instant
      unfold isActive
      rw [writeQuery_find_of_ne failed _ server (by simpa using ne) (ne_of_kind (by simp))
        (ne_of_kind (by simp)) (fun _ => ne_of_kind (by simp))]
    · intro _
      exact ⟨rfl, by simp [members]⟩
    · intro inactive
      rw [active] at inactive
      contradiction
  | false =>
    obtain ⟨later, le, ran⟩ := recoverQuery_inactive homed forward now active
    have time : clock sent ≤ clock later := forward le
    rw [ran]
    constructor
    · exact le
    · exact homed.of_le time
    · exact server.isText_of_le time set
    · intro other _
      rw [server.members_of_le time]
    · intro other _ instant
      rfl
    · intro cleared
      rw [active] at cleared
      contradiction
    · intro _
      exact server.members_of_le time _

end

/-! ## The loop -/

variable {server : Server Data}

section
variable {owner : String → String} {clock : Nat → Time} {i : String}

/-- The rounds over queries of the instance: other members stay, and all of these are cleared
if and only if each is active until the fifth command of its round. -/
theorem recoverQueries_members (forward : Monotone clock) (now : String → Time)
    {ids : List String} (own : ∀ id ∈ ids, owner id = i) (distinct : ids.Nodup) {sent : Nat}
    (homed : Homed owner (clock sent) server)
    (set : server.isText (clock sent) (instanceQueriesKey i) = false) :
    let ended := ((recoverQueries now ids).runFrom clock sent server).2
    ended.2.isText (clock ended.1) (instanceQueriesKey i) = false ∧
      (∀ id, id ∉ ids → (id ∈ ended.2.members (clock ended.1) (instanceQueriesKey i) ↔
        id ∈ server.members (clock sent) (instanceQueriesKey i))) ∧
      ((∀ id ∈ ids, id ∈ server.members (clock sent) (instanceQueriesKey i)) →
        ((∀ id ∈ ids, id ∉ ended.2.members (clock ended.1) (instanceQueriesKey i)) ↔
          ∀ k id, ids[k]? = some id → isActive (clock (sent + 5 * k + 4)) server id = true)) := by
  induction ids generalizing sent server with
  | nil => exact ⟨set, fun _ _ => Iff.rfl, fun _ => by simp⟩
  | cons first rest ih =>
    rw [List.forall_mem_cons] at own
    rw [List.nodup_cons] at distinct
    have round : Rounded owner clock i first sent server
        ((recoverQuery (now first) first).runFrom clock sent server).2 := by
      rw [← own.1] at set ⊢
      exact recoverQuery_rounded homed forward set (now first)
    simp only [recoverQueries, Program.bind_runFrom]
    generalize ((recoverQuery (now first) first).runFrom clock sent server).2 = middle at round ⊢
    obtain ⟨text, others, cleared⟩ := ih own.2 distinct.2 round.homed round.set
    refine ⟨text, ?_, ?_⟩
    · intro id absent
      rw [List.mem_cons, not_or] at absent
      rw [others id absent.2, round.others id absent.1]
    · intro listed
      rw [List.forall_mem_cons] at listed ⊢
      have restListed : ∀ id ∈ rest, id ∈ middle.2.members (clock middle.1)
          (instanceQueriesKey i) := by
        intro id member
        exact (round.others id (by rintro rfl; exact distinct.1 member)).mpr (listed.2 id member)
      rw [others first distinct.1, cleared restListed]
      cases active : isActive (clock (sent + 4)) server first with
      | true =>
        obtain ⟨count, gone⟩ := round.cleared active
        have later : ∀ k id, rest[k]? = some id →
            isActive (clock (middle.1 + 5 * k + 4)) middle.2 id =
              isActive (clock (sent + 5 * (k + 1) + 4)) server id := by
          intro k id found
          have ne : id ≠ first := by
            rintro rfl
            exact distinct.1 (List.mem_of_getElem? found)
          rw [round.records id ne, count, show sent + 5 + 5 * k = sent + 5 * (k + 1) by omega]
        constructor
        · rintro ⟨_, all⟩ k id found
          cases k with
          | zero =>
            cases found
            exact active
          | succ k =>
            rw [List.getElem?_cons_succ] at found
            rw [← later k id found]
            exact all k id found
        · intro all
          refine ⟨gone, fun k id found => ?_⟩
          rw [later k id found]
          exact all (k + 1) id (by rwa [List.getElem?_cons_succ])
      | false =>
        -- the first member that is not active stays
        refine iff_of_false ?_ ?_
        · rintro ⟨gone, _⟩
          rw [round.kept active] at gone
          exact gone listed.1
        · intro all
          have now := all 0 first rfl
          rw [active] at now
          contradiction

end

theorem setAt_of_listed {now : Time} {i : String} {ids : Finset String}
    (listed : ((listByInstance i).run now server).1 = .ok ids) :
    server.setAt now (instanceQueriesKey i) = .ok ids := by
  simp only [listByInstance, Program.read, Program.run, Request.run, Read.run] at listed
  cases answer : server.setAt now (instanceQueriesKey i) with
  | error => simp [answer, Except.mapError] at listed
  | ok =>
    simp only [answer, Except.mapError, Except.ok.injEq] at listed
    rw [listed]

theorem countInFlight_eq_zero_iff {now : Time} {i : String}
    (set : server.isText now (instanceQueriesKey i) = false) :
    ((countInFlight i).run now server).1 = .ok 0 ↔
      server.members now (instanceQueriesKey i) = ∅ := by
  simp only [countInFlight, Program.read, Program.run, Request.run, Read.run,
    server.setAt_of_isText set, Except.map, Except.mapError, Except.ok.injEq, Finset.card_eq_zero]

/-- Recovery of an instance, alone, from any state that the processes of the cluster can
leave: afterwards nothing is counted for the instance if and only if every listed query has a
record that is not terminal and does not expire before the query's turn is over. -/
theorem recovery_clears_iff {owner : String → String} {start : Time} {left : Instances}
    (run : Runs.Reaches Instances.step (OwnersFixed owner) (Pool.initial start) left)
    {clock : Nat → Time} (forward : Monotone clock) (later : left.now ≤ clock 0)
    {order : Finset String → List String} {i : String} {ids : Finset String}
    (listed : ((listByInstance i).run (clock 0) left.server).1 = .ok ids)
    (ordered : (order ids).Nodup ∧ (order ids).toFinset = ids) (now : String → Time) :
    let ended := ((recoverOrphans order now i).runFrom clock 0 left.server).2
    ((countInFlight i).run (clock ended.1) ended.2).1 = .ok 0 ↔
      ∀ k id, (order ids)[k]? = some id → isActive (clock (5 * k + 5)) left.server id = true := by
  have homed := (Instances.homed run).of_le (later.trans (forward (Nat.zero_le 1)))
  have set := left.server.setAt_eq_ok (setAt_of_listed listed)
  have text := left.server.isText_of_le (forward (Nat.zero_le 1)) set.1
  have members : left.server.members (clock 1) (instanceQueriesKey i) = (order ids).toFinset := by
    rw [left.server.members_of_le (forward (Nat.zero_le 1)), set.2, ordered.2]
  have own : ∀ id ∈ order ids, owner id = i := by
    intro id member
    refine homed.members i id ?_
    rw [members]
    exact List.mem_toFinset.mpr member
  obtain ⟨still, others, cleared⟩ :=
    recoverQueries_members forward now own ordered.1 homed text
  have ran : ((recoverOrphans order now i).runFrom clock 0 left.server).2 =
      ((recoverQueries now (order ids)).runFrom clock 1 left.server).2 := by
    have first : (listByInstance i).runFrom clock 0 left.server = (.ok ids, 1, left.server) :=
      congrArg (·, 1, left.server) listed
    rw [recoverOrphans, Program.bind_runFrom, first]
  dsimp only
  rw [ran, countInFlight_eq_zero_iff still]
  have all : ∀ id ∈ order ids, id ∈ left.server.members (clock 1) (instanceQueriesKey i) := by
    intro id member
    rw [members]
    exact List.mem_toFinset.mpr member
  have turns : (∀ k id, (order ids)[k]? = some id →
      isActive (clock (1 + 5 * k + 4)) left.server id = true) ↔
      ∀ k id, (order ids)[k]? = some id → isActive (clock (5 * k + 5)) left.server id = true := by
    simp only [show ∀ k, 1 + 5 * k + 4 = 5 * k + 5 by omega]
  rw [← turns, ← cleared all, Finset.eq_empty_iff_forall_notMem]
  constructor
  · intro none id _
    exact none id
  · intro none id
    by_cases member : id ∈ order ids
    · exact none id member
    · rw [others id member, members, List.mem_toFinset]
      exact member

instance (owner : String → String) (pool : Instances) (action : Action Call) :
    Decidable (OwnersFixed owner pool action) :=
  match action with
  | .begin _ call => inferInstanceAs (Decidable (call.Own owner))
  | .request _ | .finish _ | .crash _ | .advance _ => instDecidableTrue

def orphaning : List (Action Call) :=
  [.begin 0 (.putQuery activeQuery), .request 0, .request 0, .request 0, .crash 0]

/-- The query of the dead process is cleared. -/
theorem orphan_is_cleared :
    ∃ left : Instances,
      Runs.Reaches Instances.step (OwnersFixed fun _ => "a") (Pool.initial 1) left ∧
      ((countInFlight "a").run 2 left.server).1 = .ok 1 ∧
      let ended := ((recoverOrphans (fun _ => ["q"]) (fun _ => 2) "a").runFrom (fun _ => 2) 0
        left.server).2
      ((countInFlight "a").run 2 ended.2).1 = .ok 0 := by
  obtain ⟨left, run, later, counted, listed, active⟩ : ∃ left : Instances,
      Runs.Reaches Instances.step (OwnersFixed fun _ => "a") (Pool.initial 1) left ∧
        left.now ≤ 2 ∧ ((countInFlight "a").run 2 left.server).1 = .ok 1 ∧
        ((listByInstance "a").run 2 left.server).1 = .ok {"q"} ∧
        isActive 2 left.server "q" = true :=
    Runs.exists_reaches orphaning (by decide +kernel)
  refine ⟨left, run, counted, ?_⟩
  refine (recovery_clears_iff run monotone_const later listed
    ⟨by decide, by decide⟩ fun _ => 2).mpr ?_
  intro k id found
  cases k with
  | zero =>
    cases found
    exact active
  | succ => cases found

/-- A process stores a running query, and dies when the record of its end is stored but the
set not yet updated. -/
def halfEnding : List (Action Call) :=
  [.begin 0 (.putQuery activeQuery), .request 0, .request 0, .request 0, .finish 0,
    .begin 0 (.putQuery { activeQuery with state := .canceled }), .request 0, .crash 0]

/-- Without the condition: the record is terminal, recovery passes it by, and the query is
counted for ever. -/
theorem terminal_record_stays_counted :
    ∃ left : Instances,
      Runs.Reaches Instances.step (OwnersFixed fun _ => "a") (Pool.initial 1) left ∧
      ((listByInstance "a").run 2 left.server).1 = .ok {"q"} ∧
      let ended := ((recoverOrphans (fun _ => ["q"]) (fun _ => 2) "a").runFrom (fun _ => 2) 0
        left.server).2
      ((countInFlight "a").run 2 ended.2).1 = .ok 1 :=
  Runs.exists_reaches halfEnding (by decide +kernel)

end DbBridge.State.Redis
