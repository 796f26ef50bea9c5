import DbBridge.Watch.Truth

/-!
# Sync submissions

`SubmitQuery` in mode `sync` subscribes to its query before it launches `run`, reads its
channel until a terminal event comes or the channel is closed, and returns what the
MetaStore has then. The control worker is taken apart here: between its look at
`activeReg` and its delivery anything may happen.
-/

namespace DbBridge.Watch

open Domain State
open Cluster (ownerLost ownerLostExpected)

/-- Where a sync submission is: in `Watch` or in the loop over its channel, behind the loop,
or back with what `GetQuery` answered. -/
inductive SyncPhase where
  | looping
  | reading
  | returned (record : Option QueryRecord)

/-- A sync submission past its announcement; its channel is that of the `Watch` call. -/
structure SyncCall where
  instanceID : String
  call : Nat
  phase : SyncPhase := .looping

/-- `held` is the event that the control worker of an instance is about to deliver. -/
structure SyncNet where
  net : Net := {}
  held : String → Option QueryEvent := fun _ => none
  syncs : String → Option SyncCall := fun _ => none

inductive SyncAction where
  | net (action : NetAction)
  | pick (instanceID : String)
  | deliver (instanceID : String)
  | watch (queryID : String) (call : Nat)
  | receive (queryID : String)
  | exhausted (queryID : String)
  | unwatchable (queryID : String)
  | getQuery (queryID : String) (ok : Bool)

namespace SyncNet

def setSync (s : SyncNet) (queryID : String) (sync : SyncCall) : SyncNet :=
  { s with syncs := Function.update s.syncs queryID (some sync) }

def watched (s : SyncNet) (queryID : String) : Bool :=
  (s.syncs queryID).any fun sync =>
    ((s.net.posts sync.instanceID).calls sync.call).any fun w =>
      w.phase = .returned ∨ w.phase = .failed

def private? (s : SyncNet) (instanceID : String) (call : Nat) : Bool :=
  ((s.net.posts instanceID).calls call).any fun w =>
    (s.syncs w.queryID).any fun sync => sync.instanceID = instanceID ∧ sync.call = call

/-- What the rest of the system may do: `run` of a sync submission is launched once its
`Watch` is back, and its channel has no other reader. -/
def permits (s : SyncNet) : NetAction → Bool
  | .start queryID _ _ =>
    (s.net.runs queryID).all fun run => run.record.options.mode ≠ "sync" ∨ s.watched queryID
  | .receive instanceID call => !s.private? instanceID call
  | .control _ => false
  | _ => true

def step (backend : Backend) (s : SyncNet) : SyncAction → Option SyncNet
  | .net action =>
    if s.permits action then (s.net.step backend action).map fun net => { s with net } else none
  -- controlWorker: the message, and the test of activeReg
  | .pick instanceID =>
    match s.held instanceID with
    | some _ => none
    | none => do
        let ((senderID, ev), bus) ← s.net.bus.next instanceID
        let net := { s.net with bus }
        some { s with
          net
          held := if senderID = instanceID ∨ net.active instanceID ev.queryID then s.held
            else Function.update s.held instanceID (some ev) }
  | .deliver instanceID => do
      let ev ← s.held instanceID
      some { s with
        net := s.net.deliverAt instanceID ev
        held := Function.update s.held instanceID none }
  | .watch queryID call => do
      let run ← s.net.idleRun queryID .pending
      if run.record.options.mode = "sync" ∧ (s.syncs queryID).isNone then
        let instanceID := run.record.ownerInstanceID
        let net ← s.net.step backend (.watch instanceID call queryID)
        some ({ s with net }.setSync queryID { instanceID, call })
      else none
  | .receive queryID => do
      let sync ← s.syncs queryID
      match sync.phase with
      | .looping =>
        let (ev, _) ← (s.net.posts sync.instanceID).hub.receive sync.call
        let net ← s.net.step backend (.receive sync.instanceID sync.call)
        some ({ s with net }.setSync queryID
          { sync with phase := if ev.state.isTerminal then .reading else .looping })
      | _ => none
  -- the range loop ends on a closed channel that is empty
  | .exhausted queryID => do
      let sync ← s.syncs queryID
      match sync.phase with
      | .looping =>
        if (s.net.posts sync.instanceID).hub.channels sync.call = { closed := true } then
          some (s.setSync queryID { sync with phase := .reading })
        else none
      | _ => none
  -- Watch has failed: there is no channel to wait for
  | .unwatchable queryID => do
      let sync ← s.syncs queryID
      let w ← (s.net.posts sync.instanceID).calls sync.call
      match sync.phase with
      | .looping =>
        if w.phase = .failed then some (s.setSync queryID { sync with phase := .reading })
        else none
      | _ => none
  | .getQuery queryID ok => do
      let sync ← s.syncs queryID
      match sync.phase with
      | .reading => some (s.setSync queryID { sync with
          phase := .returned (if ok then s.net.store.getQuery queryID else none) })
      | _ => none

/-- What the claimed behaviour of one sync submission rests on: the MetaStore answers, the
caller's context does not end, and nobody collects the query or stores an owner-lost
verdict for it. -/
def Undisturbed (queryID : String) (s : SyncNet) : SyncAction → Prop
  | .net action => s.net.Undisturbed queryID action ∧ ∀ sync ∈ s.syncs queryID,
      action ≠ .unwatch sync.instanceID sync.call ∧
        action ≠ .getQuery sync.instanceID sync.call false
  | .getQuery id ok => id = queryID → ok = true
  | _ => True

instance (queryID : String) (s : SyncNet) (action : SyncAction) :
    Decidable (s.Undisturbed queryID action) := by
  unfold Undisturbed
  split <;> infer_instance

end SyncNet

/-! ## The subscription of a sync submission -/

variable {run : Run} {net : Net} {action : NetAction}

namespace Net

theorem RunMove.finished {after : Net} {queryID : String}
    (moved : RunMove net after queryID run action) (terminal : run.record.state.isTerminal = true) :
    after.Over queryID := by
  cases moved with
  | kept _ same => exact ⟨run, same, terminal⟩
  | moved _ next found _ _ state => exact ⟨next, found, state ▸ terminal⟩
  | delivered _ _ _ found => exact ⟨_, found, terminal⟩
  | advanced _ _ _ _ _ active =>
    rw [active] at terminal
    contradiction

structure Attends (queryID : String) (net : Net) (instanceID : String) (call : Nat) : Prop where
  run : ∃ run, net.runs queryID = some run ∧ run.record.ownerInstanceID = instanceID ∧
    run.record.options.mode = "sync"
  watch : ∃ w, (net.posts instanceID).calls call = some w ∧ w.queryID = queryID ∧
    w.phase ≠ .failed
  launched : ∀ run, net.runs queryID = some run → run.record.state ≠ .pending →
    (net.posts instanceID).calls call = some { queryID, phase := .returned }
  own : ∀ ev ∈ ((net.posts instanceID).hub.channels call).buffer, ev.queryID = queryID
  closed : ((net.posts instanceID).hub.channels call).closed = true → net.Over queryID
  heard : ∀ run, net.runs queryID = some run → run.record.state.isTerminal = true →
    (∀ ev, run.notice ≠ some (.deliver ev)) → call ∉ (net.posts instanceID).hub.subs queryID

namespace Attends

variable {queryID : String} {after : Net} {instanceID : String} {call : Nat}

section
variable (attends : Attends queryID net instanceID call)
include attends

theorem subscribed (safe : (net.posts instanceID).Safe) {other : String}
    (listed : call ∈ (net.posts instanceID).hub.subs other) : other = queryID := by
  obtain ⟨⟨_, phase⟩, found, rfl, _⟩ := attends.watch
  have owner := safe.owned other call listed
  unfold Post.owner at owner
  rw [found] at owner
  cases phase <;> simp_all

theorem step (truthful : Truthful queryID net) (safe : (net.posts instanceID).Safe)
    (posts : PostMove (net.Honest queryID) net instanceID action (after.posts instanceID))
    (runs : ∀ run, net.runs queryID = some run → RunMove net after queryID run action)
    (starts : ∀ now stored, action = .start queryID now stored →
      (net.posts instanceID).calls call = some { queryID, phase := .returned })
    (kept : action ≠ .unwatch instanceID call)
    (answered : action ≠ .getQuery instanceID call false) :
    Attends queryID after instanceID call := by
  obtain ⟨run, ran, owner, mode⟩ := attends.run
  obtain ⟨_, found, about, sound⟩ := attends.watch
  have moved := runs run ran
  obtain ⟨w', found', same, settled, failing⟩ := posts.call found
  have finished : net.Over queryID → after.Over queryID := by
    rintro ⟨run', ran', terminal⟩
    exact (runs run' ran').finished terminal
  have stays : (net.posts instanceID).calls call = some { queryID, phase := .returned } →
      (after.posts instanceID).calls call = some { queryID, phase := .returned } := by
    intro returned
    rw [found] at returned
    cases returned
    rw [found', settled rfl]
  refine ⟨?_, ⟨w', found', same.trans about, ?_⟩, ?_, ?_, ?_, ?_⟩
  · cases moved with
    | kept _ same => exact ⟨run, same, owner, mode⟩
    | delivered _ _ _ now => exact ⟨_, now, owner, mode⟩
    | moved _ next now kept options | advanced _ next now kept options =>
      exact ⟨next, now, kept.trans owner, options ▸ mode⟩
  · intro failed
    rcases failing failed with before | ⟨ok, acted, missing⟩
    · exact sound before
    · -- the record of a query that executes is there to be read
      obtain rfl : ok = true := by
        cases ok with
        | true => rfl
        | false => exact absurd acted answered
      obtain ⟨record, lookup, _⟩ := truthful.filed run ran
      obtain ⟨_, got⟩ := net.store.getQuery_of_lookup lookup
      rw [← about, missing rfl] at got
      contradiction
  · intro next now launched
    apply stays
    cases moved with
    | moved _ _ now' _ _ state =>
      rw [now'] at now
      cases now
      exact attends.launched run ran (state ▸ launched)
    | kept _ same | delivered _ _ _ same =>
      rw [same] at now
      cases now
      exact attends.launched run ran launched
    | advanced _ _ _ _ _ _ start =>
      by_cases pending : run.record.state = .pending
      · obtain ⟨time, stored, acted⟩ := start pending
        exact starts time stored acted
      · exact attends.launched run ran pending
  · intro ev listed
    rcases posts.buffer listed with before | subscribed | ⟨u, record, known, rfl⟩
    · exact attends.own ev before
    · exact attends.subscribed safe subscribed
    · rw [found] at known
      cases known
      exact about
  · intro closed
    apply finished
    rcases posts.closed closed with
      before | ended | ⟨ev, honest, terminal, listed⟩ | ⟨u, record, known, phase, terminal⟩
    · exact attends.closed before
    · exact absurd ended kept
    · exact honest (attends.subscribed safe listed) terminal
    · rw [found] at known
      cases known
      exact truthful.snapshots instanceID call _ record found phase about terminal
  · intro next now terminal quiet listed
    -- a query that has ended was launched, so the call has passed its registration
    have absent : ∀ old, net.runs queryID = some old → old.record.state.isTerminal = true →
        (∀ ev, old.notice ≠ some (.deliver ev)) → False := by
      intro old earlier ended silent
      rcases posts.member listed with before | ⟨u, record, known, phase⟩
      · exact attends.heard old earlier ended silent before
      · have returned := attends.launched old earlier (by
          intro pending
          rw [pending] at ended
          contradiction)
        rw [known] at returned
        cases returned
        contradiction
    cases moved with
    | kept _ same =>
      rw [same] at now
      cases now
      exact absent run ran terminal quiet
    | moved _ _ now' _ _ state silent =>
      rw [now'] at now
      cases now
      exact absent run ran (state ▸ terminal) (silent quiet)
    | delivered _ _ making now' delivered =>
      rw [now'] at now
      cases now
      obtain ⟨about, state⟩ := (truthful.named queryID run ran).2 _ making
      rw [delivered, owner, Net.deliverAt, setPost_posts, if_pos rfl] at listed
      dsimp only at listed
      rw [Hub.deliverEvent_subs, if_pos] at listed
      · contradiction
      · exact ⟨state ▸ terminal, about.symm⟩
    | advanced _ _ now' _ _ _ _ notice =>
      rw [now'] at now
      cases now
      obtain ⟨ev, making⟩ := notice
      exact quiet ev making

end

end Attends

end Net

/-! ## The invariant of a sync submission -/

namespace SyncNet

structure Sound (queryID : String) (net : Net) (sync : SyncCall) : Prop where
  attends : net.Attends queryID sync.instanceID sync.call
  finished : sync.phase ≠ .looping → net.Over queryID
  returned : ∀ result, sync.phase = .returned result →
    ∃ record, result = some record ∧ record.state.isTerminal = true

structure Inv (queryID : String) (s : SyncNet) : Prop where
  truthful : s.net.Truthful queryID
  safe : ∀ instanceID, (s.net.posts instanceID).Safe
  held : ∀ instanceID ev, s.held instanceID = some ev → s.net.Honest queryID ev
  sync : ∀ sync, s.syncs queryID = some sync → Sound queryID s.net sync

variable {queryID : String} {s after : SyncNet}

theorem Inv.initial (queryID : String) : Inv queryID {} where
  truthful := Net.Truthful.initial queryID
  safe := fun _ => Hub.Safe.empty
  held := by simp
  sync := by simp

variable {sync : SyncCall}

section
variable (inv : Inv queryID s)
include inv

theorem Inv.move (truthful : net.Truthful queryID)
    (posts : ∀ instanceID,
      Net.PostMove (s.net.Honest queryID) s.net instanceID action (net.posts instanceID))
    (runs : ∀ run, s.net.runs queryID = some run → Net.RunMove s.net net queryID run action)
    (starts : ∀ sync, s.syncs queryID = some sync →
      ∀ now stored, action = .start queryID now stored →
      (s.net.posts sync.instanceID).calls sync.call = some { queryID, phase := .returned })
    (kept : ∀ sync ∈ s.syncs queryID, action ≠ .unwatch sync.instanceID sync.call ∧
      action ≠ .getQuery sync.instanceID sync.call false) : Inv queryID { s with net } := by
  have finished : s.net.Over queryID → net.Over queryID := by
    rintro ⟨run, ran, terminal⟩
    exact (runs run ran).finished terminal
  refine ⟨truthful, ?_, ?_, ?_⟩
  · intro instanceID
    exact (posts instanceID).safe (inv.safe instanceID)
  · intro instanceID ev holds own terminal
    exact finished (inv.held instanceID ev holds own terminal)
  · intro sync found
    obtain ⟨attends, past, returned⟩ := inv.sync sync found
    obtain ⟨unwatched, answered⟩ := kept sync found
    refine ⟨?_, fun left => finished (past left), returned⟩
    exact attends.step inv.truthful (inv.safe sync.instanceID) (posts sync.instanceID) runs
      (starts sync found) unwatched answered

theorem Inv.netMove (move : Net.NetMove s.net action net)
    (undisturbed : s.net.Undisturbed queryID action)
    (starts : ∀ sync, s.syncs queryID = some sync →
      ∀ now stored, action = .start queryID now stored →
      (s.net.posts sync.instanceID).calls sync.call = some { queryID, phase := .returned })
    (kept : ∀ sync ∈ s.syncs queryID, action ≠ .unwatch sync.instanceID sync.call ∧
      action ≠ .getQuery sync.instanceID sync.call false) : Inv queryID { s with net } :=
  inv.move (inv.truthful.step undisturbed move) (move.postMove inv.truthful.said)
    (fun _ ran => move.runMove ran) starts kept

theorem Inv.setSync {id : String} (sound : id = queryID → Sound queryID s.net sync) :
    Inv queryID (s.setSync id sync) := by
  refine ⟨inv.truthful, inv.safe, inv.held, ?_⟩
  intro current found
  rcases Tables.update_some_cases found with ⟨rfl, rfl⟩ | ⟨_, found⟩
  · exact sound rfl
  · exact inv.sync current found

theorem Inv.permitted (permitted : s.permits action = true) (sync : SyncCall)
    (found : s.syncs queryID = some sync) (now : Time) (stored : Bool)
    (acted : action = .start queryID now stored) :
    (s.net.posts sync.instanceID).calls sync.call = some { queryID, phase := .returned } := by
  subst acted
  have attends := (inv.sync sync found).attends
  obtain ⟨run, ran, _, mode⟩ := attends.run
  obtain ⟨⟨_, phase⟩, known, about, sound⟩ := attends.watch
  subst about
  simp only [permits, ran, Option.all_some, mode, ne_eq, not_true_eq_false, false_or, watched,
    found, Option.any_some, known, decide_eq_true_eq] at permitted
  rw [known, permitted.resolve_right sound]

theorem Inv.read (finished : s.net.Over queryID) :
    ∃ record, s.net.store.getQuery queryID = some record ∧ record.state.isTerminal = true := by
  obtain ⟨run, ran, terminal⟩ := finished
  obtain ⟨_, lookup, state, _⟩ := inv.truthful.filed run ran
  obtain ⟨_, got⟩ := s.net.store.getQuery_of_lookup lookup
  exact ⟨_, got, state ▸ terminal⟩

theorem Inv.attends {call : Nat} (idle : s.net.idleRun queryID .pending = some run)
    (mode : run.record.options.mode = "sync")
    (unused : (s.net.posts run.record.ownerInstanceID).calls call = none) :
    (s.net.setCall run.record.ownerInstanceID call { queryID }).Attends queryID
      run.record.ownerInstanceID call := by
  obtain ⟨ran, _, pending⟩ := Net.idleRun_eq_some idle
  have only : ∀ current, s.net.runs queryID = some current → current.record.state = .pending := by
    intro current found
    rw [ran] at found
    cases found
    exact pending
  have new : (s.net.posts run.record.ownerInstanceID).hub.channels call = {} :=
    (inv.safe run.record.ownerInstanceID).fresh call (by simp [Post.owner, unused])
  have channel : ((s.net.setCall run.record.ownerInstanceID call { queryID }).posts
      run.record.ownerInstanceID).hub.channels call = {} := by
    simpa [Net.setCall, Net.setPost] using new
  refine ⟨⟨run, ran, rfl, mode⟩, ⟨{ queryID }, ?_, rfl, by simp⟩, ?_, ?_, ?_, ?_⟩
  · simp [Net.setCall, Net.setPost]
  · intro current found launched
    exact absurd (only current found) launched
  · rw [channel]
    simp
  · rw [channel]
    simp
  · intro current found terminal
    rw [only current found] at terminal
    contradiction

theorem Inv.step {backend : Backend} {action : SyncAction}
    (undisturbed : s.Undisturbed queryID action) (taken : s.step backend action = some after) :
    Inv queryID after := by
  cases action
  all_goals simp only [SyncNet.step, Option.bind_eq_bind, Option.bind_eq_some_iff] at taken
  case net action =>
    split at taken
    · rename_i permitted
      obtain ⟨net, stepped, rfl⟩ := Option.map_eq_some_iff.mp taken
      exact inv.netMove (Net.step_move stepped) undisturbed.1 (inv.permitted permitted)
        undisturbed.2
    · contradiction
  case pick instanceID =>
    split at taken
    · contradiction
    · obtain ⟨⟨⟨senderID, ev⟩, bus⟩, first, taken⟩ := Option.bind_eq_some_iff.mp taken
      cases taken
      have moved : Inv queryID { s with net := { s.net with bus } } :=
        inv.netMove (.carried (.lose instanceID) bus (Bus.way_next_sublist first)) trivial
          (by simp) (by simp)
      refine ⟨moved.truthful, moved.safe, ?_, moved.sync⟩
      intro other seen holds
      dsimp only at holds
      split at holds
      · exact moved.held other seen holds
      · rcases Tables.update_some_cases holds with ⟨rfl, rfl⟩ | ⟨_, holds⟩
        · exact inv.truthful.first_honest first
        · exact moved.held other seen holds
  case deliver instanceID =>
    obtain ⟨ev, holds, taken⟩ := taken
    cases taken
    have honest := inv.held instanceID ev holds
    have moved : Inv queryID { s with net := s.net.deliverAt instanceID ev } :=
      inv.move (inv.truthful.deliverAt honest)
        (fun _ => (Net.PostMove.delivered (.control instanceID) ev honest).of_setPost)
        (fun run ran => .kept _ ran) (by simp) (by simp)
    refine ⟨moved.truthful, moved.safe, ?_, moved.sync⟩
    intro other seen still
    by_cases own : other = instanceID
    · subst own
      simp at still
    · exact moved.held other seen (by simpa [own] using still)
  case watch id call =>
    obtain ⟨run, idle, taken⟩ := taken
    split at taken
    · rename_i enabled
      obtain ⟨net, stepped, taken⟩ := Option.bind_eq_some_iff.mp taken
      cases taken
      simp only [Net.step] at stepped
      split at stepped
      · contradiction
      rename_i unused
      cases stepped
      have moved := inv.netMove (.watched run.record.ownerInstanceID call id unused) trivial
        (by simp) (by simp)
      apply moved.setSync
      rintro rfl
      exact ⟨inv.attends idle enabled.1 unused, by simp, by simp⟩
    · contradiction
  case receive id =>
    obtain ⟨sync, found, taken⟩ := taken
    split at taken
    · obtain ⟨⟨ev, hub⟩, received, taken⟩ := Option.bind_eq_some_iff.mp taken
      obtain ⟨net, stepped, taken⟩ := Option.bind_eq_some_iff.mp taken
      cases taken
      have moved := inv.netMove (Net.step_move stepped) trivial (by simp) (by simp)
      apply moved.setSync
      rintro rfl
      obtain ⟨attends, _, _⟩ := moved.sync sync found
      refine ⟨attends, ?_, ?_⟩
      · intro left
        by_cases terminal : ev.state.isTerminal = true
        · have listed := Hub.mem_buffer_of_receive received
          have own := (inv.sync sync found).attends.own ev listed
          obtain ⟨run, ran, ended⟩ :=
            inv.truthful.buffered sync.instanceID sync.call ev listed own terminal
          exact ((Net.step_move stepped).runMove ran).finished ended
        · simp [terminal] at left
      · intro result returned
        dsimp only at returned
        split at returned <;> contradiction
    · contradiction
  case exhausted id =>
    obtain ⟨sync, found, taken⟩ := taken
    split at taken
    · split at taken
      · rename_i closed
        cases taken
        apply inv.setSync
        rintro rfl
        have attends := (inv.sync sync found).attends
        exact ⟨attends, fun _ => attends.closed (by rw [closed]), by simp⟩
      · contradiction
    · contradiction
  case unwatchable id =>
    obtain ⟨sync, found, w, known, taken⟩ := taken
    split at taken
    · split at taken
      · rename_i failed
        cases taken
        apply inv.setSync
        rintro rfl
        obtain ⟨_, same, _, sound⟩ := (inv.sync sync found).attends.watch
        rw [known] at same
        cases same
        exact absurd failed sound
      · contradiction
    · contradiction
  case getQuery id ok =>
    obtain ⟨sync, found, taken⟩ := taken
    split at taken <;> cases taken
    rename_i reading
    apply inv.setSync
    rintro rfl
    obtain rfl : ok = true := undisturbed rfl
    obtain ⟨attends, past, _⟩ := inv.sync sync found
    have finished := past (by simp [reading])
    obtain ⟨record, got, terminal⟩ := inv.read finished
    refine ⟨attends, fun _ => finished, ?_⟩
    intro result returned
    cases returned
    exact ⟨record, by simpa using got, terminal⟩

end

/-! ## The wait ends -/

def Own (queryID : String) (_ : SyncNet) : SyncAction → Prop
  | .receive id | .exhausted id => id = queryID
  | .getQuery id ok => id = queryID ∧ ok = true
  | _ => False

theorem undisturbed_of_own {action : SyncAction} (own : Own queryID s action) :
    s.Undisturbed queryID action := by
  cases action with
  | receive | exhausted => trivial
  | getQuery => exact fun _ => own.2
  | _ => exact own.elim

def Returned (queryID : String) (s : SyncNet) : Prop :=
  ∃ sync record, s.syncs queryID = some sync ∧ sync.phase = .returned (some record)

def Woken (queryID : String) (s : SyncNet) : Prop :=
  ∃ sync, s.syncs queryID = some sync ∧
    ((s.net.posts sync.instanceID).hub.channels sync.call).closed = true

def toGo (queryID : String) (s : SyncNet) : Nat :=
  match s.syncs queryID with
  | some sync =>
    match sync.phase with
    | .looping => ((s.net.posts sync.instanceID).hub.channels sync.call).buffer.length + 2
    | .reading => 1
    | .returned _ => 0
  | none => 0

theorem Inv.woken (inv : Inv queryID s) (found : s.syncs queryID = some sync)
    (ran : s.net.runs queryID = some run) (terminal : run.record.state.isTerminal = true)
    (announced : ∀ ev, run.notice ≠ some (.deliver ev)) : Woken queryID s := by
  have attends := (inv.sync sync found).attends
  refine ⟨sync, found, ?_⟩
  have returned := attends.launched run ran (by
    intro pending
    rw [pending] at terminal
    contradiction)
  apply (inv.safe sync.instanceID).closed queryID sync.call
  · simp [Post.owner, returned]
  · exact attends.heard run ran terminal announced

variable (backend : Backend)

theorem Woken.loop (found : s.syncs queryID = some sync) (looping : sync.phase = .looping)
    (closed : ((s.net.posts sync.instanceID).hub.channels sync.call).closed = true) :
    ∃ action after, Own queryID s action ∧ s.step backend action = some after ∧
      Woken queryID after ∧ toGo queryID after < toGo queryID s := by
  have before : toGo queryID s =
      ((s.net.posts sync.instanceID).hub.channels sync.call).buffer.length + 2 := by
    simp [toGo, found, looping]
  cases buffer : ((s.net.posts sync.instanceID).hub.channels sync.call).buffer with
  | nil =>
    have channel : (s.net.posts sync.instanceID).hub.channels sync.call = { closed := true } := by
      cases held : (s.net.posts sync.instanceID).hub.channels sync.call
      simp_all
    refine ⟨.exhausted queryID, s.setSync queryID { sync with phase := .reading }, rfl, ?_, ?_, ?_⟩
    · simp [step, found, looping, channel]
    · exact ⟨_, Function.update_self .., closed⟩
    · rw [before]
      simp [toGo, setSync]
  | cons ev rest =>
    have received : (s.net.posts sync.instanceID).hub.receive sync.call = some (ev,
        (s.net.posts sync.instanceID).hub.setChannel sync.call
          { (s.net.posts sync.instanceID).hub.channels sync.call with buffer := rest }) := by
      simp [Hub.receive, buffer]
    obtain ⟨net, stepped, hub⟩ := Net.step_receive backend received
    have taken : s.step backend (.receive queryID) = some ({ s with net }.setSync queryID
        { sync with phase := if ev.state.isTerminal then .reading else .looping }) := by
      simp only [step, found, looping, received, stepped, Option.bind_eq_bind,
        Option.bind_some]
    refine ⟨.receive queryID, _, rfl, taken, ⟨_, Function.update_self .., ?_⟩, ?_⟩
    · dsimp only [setSync]
      rw [hub]
      simpa [Hub.setChannel] using closed
    · rw [before, buffer]
      simp only [toGo, setSync, Function.update_self]
      split
      · rw [hub]
        simp [Hub.setChannel]
      · simp
      · simp

theorem Inv.returns (inv : Inv queryID s) (woken : Woken queryID s) :
    ∃ later, Runs.Reaches (SyncNet.step backend) (Own queryID) s later ∧
      Returned queryID later := by
  refine Runs.reaches_of_measure (fun s => Inv queryID s ∧ Woken queryID s) (Returned queryID)
    (toGo queryID) ?_ s ⟨inv, woken⟩
  rintro s ⟨inv, sync, found, closed⟩ short
  cases phase : sync.phase with
  | looping =>
    obtain ⟨action, after, own, taken, woken, closer⟩ := Woken.loop backend found phase closed
    exact ⟨action, after, own, taken,
      ⟨inv.step (undisturbed_of_own own) taken, woken⟩, .inr closer⟩
  | reading =>
    obtain ⟨record, got, _⟩ := inv.read ((inv.sync sync found).finished (by simp [phase]))
    have taken : s.step backend (.getQuery queryID true) = some (s.setSync queryID
        { sync with phase := .returned (some record) }) := by
      simp [SyncNet.step, found, phase, got]
    have own : Own queryID s (.getQuery queryID true) := ⟨rfl, rfl⟩
    refine ⟨_, _, own, taken, ⟨inv.step (undisturbed_of_own own) taken, ?_⟩, .inl ?_⟩
    · exact ⟨_, Function.update_self .., closed⟩
    · exact ⟨_, record, Function.update_self .., rfl⟩
  | returned result =>
    obtain ⟨record, rfl, _⟩ := (inv.sync sync found).returned result phase
    exact absurd ⟨sync, record, found, phase⟩ short

/-- In every undisturbed run of a sync submission that has begun to watch its query: it is
past its loop only when `run` has stored its terminal record, which the MetaStore then has;
what it returns is a terminal record; and once `run` has delivered its terminal event, the
submission can go on to its return by steps of its own. -/
theorem sync_submission_returns_finished_query (queryID : String) (s : SyncNet)
    (reached : Runs.Reaches (SyncNet.step backend) (Undisturbed queryID) {} s) (sync : SyncCall)
    (found : s.syncs queryID = some sync) :
    (sync.phase ≠ .looping → ∃ run, s.net.runs queryID = some run ∧
      run.record.state.isTerminal = true ∧
      s.net.store.queries.lookup queryID = some { run.record with leaseDeadline := 0 }) ∧
    (∀ result, sync.phase = .returned result →
      ∃ record, result = some record ∧ record.state.isTerminal = true) ∧
    ∀ run, s.net.runs queryID = some run → run.record.state.isTerminal = true →
      (∀ ev, run.notice ≠ some (.deliver ev)) →
      ∃ later, Runs.Reaches (SyncNet.step backend) (Own queryID) s later ∧
        Returned queryID later := by
  have inv : Inv queryID s := reached.invariant (Inv queryID) (Inv.initial queryID)
    fun _ _ _ inv undisturbed taken => inv.step undisturbed taken
  obtain ⟨_, past, returned⟩ := inv.sync sync found
  refine ⟨?_, returned, ?_⟩
  · intro left
    obtain ⟨run, ran, terminal⟩ := past left
    obtain ⟨record, lookup, _, filed⟩ := inv.truthful.filed run ran
    exact ⟨run, ran, terminal, filed terminal ▸ lookup⟩
  · intro run ran terminal announced
    exact inv.returns backend (inv.woken found ran terminal announced)

/-- A sync submission of `q`, whose progress fills the channel before it ends: the terminal
event is dropped, and the submission goes on when the channel is closed and empty. -/
def filledChannel : List SyncAction :=
  [.net (.submit { Board.sampleRecord .pending with options := { mode := "sync" } }),
    .net (.notify "q" false), .net (.notify "q" false), .watch "q" 0,
    .net (.getQuery "a" 0 true), .net (.register "a" 0), .net (.start "q" 2 true),
    .net (.notify "q" false), .net (.notify "q" false)] ++
  (List.replicate 18 [.net (.progress "q" {}), .net (.notify "q" false),
    .net (.notify "q" false)]).flatten ++
  [.net (.complete "q" .succeeded {} none 3 true), .net (.notify "q" false)] ++
  List.replicate 20 (.receive "q") ++ [.exhausted "q", .getQuery "q" true]

def answer (s : SyncNet) (queryID : String) : Option QueryState :=
  match (s.syncs queryID).map SyncCall.phase with
  | some (.returned (some record)) => some record.state
  | _ => none

theorem returned_of_answer {state : QueryState} (seen : s.answer queryID = some state) :
    ∃ sync record, s.syncs queryID = some sync ∧ sync.phase = .returned (some record) ∧
      record.state = state := by
  unfold answer at seen
  split at seen
  · rename_i record phase
    obtain ⟨sync, found, phase⟩ := Option.map_eq_some_iff.mp phase
    exact ⟨sync, record, found, phase, Option.some.inj seen⟩
  · contradiction

theorem full_channel_does_not_keep_submission :
    ∃ s sync record, Runs.Reaches (step .redis) (Undisturbed "q") {} s ∧
      s.syncs "q" = some sync ∧ sync.phase = .returned (some record) ∧
      record.state = .succeeded ∧ record.state.isTerminal = true := by
  obtain ⟨s, reached, seen⟩ : ∃ s, Runs.Reaches (step .redis) (Undisturbed "q") {} s ∧
      s.answer "q" = some .succeeded :=
    Runs.exists_reaches filledChannel (by decide +kernel)
  obtain ⟨sync, record, found, phase, state⟩ := returned_of_answer seen
  obtain ⟨_, terminal, _⟩ :=
    sync_submission_returns_finished_query .redis "q" s reached sync found
  obtain ⟨_, same, ended⟩ := terminal (some record) phase
  exact ⟨s, sync, record, reached, found, phase, state, Option.some.inj same ▸ ended⟩

end SyncNet

end DbBridge.Watch
