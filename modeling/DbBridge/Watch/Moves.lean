import DbBridge.Watch.Relay
import DbBridge.Watch.Safe

/-!
# What a step of the instances does

`NetMove` lists what one step can do, with the guards of the branch that was taken; the
proofs about runs split on it and do not open `step` again. `PostMove` is the same for the
subscriptions of one instance.
-/

namespace DbBridge.Watch

open Domain State Function
open Cluster (ownerLost ownerLostExpected)

variable {ev : QueryEvent} {queryID instanceID : String} {action : NetAction}

namespace Net

variable {net : Net}

theorem idleRun_eq_some {state : QueryState} {run : Run}
    (found : net.idleRun queryID state = some run) :
    net.runs queryID = some run ∧ run.notice = none ∧ run.record.state = state := by
  unfold idleRun at found
  split at found
  · rename_i run' ran
    split at found <;> cases found
    rename_i idle
    exact ⟨ran, idle⟩
  · contradiction

variable {giveUp : Bool}

theorem offer_cases {after : Net} (offered : net.offer instanceID ev giveUp = some after) :
    after = net ∨ after = { net with bus := net.bus.push instanceID ev } := by
  unfold offer at offered
  split at offered
  · split at offered
    · exact .inl (Option.some.inj offered).symm
    · contradiction
  · split at offered
    · exact .inr (Option.some.inj offered).symm
    · contradiction

theorem setPost_posts (instanceID : String) (post : Post) (other : String) :
    (net.setPost instanceID post).posts other =
      if other = instanceID then post else net.posts other := by
  simp only [setPost, update_apply]

inductive NetMove (net : Net) : NetAction → Net → Prop
  | submitted (record : QueryRecord) (fresh : net.runs record.id = none)
      (pending : record.state = .pending) :
      NetMove net (.submit record) ((net.persist record true).setRun record.id
        { record, notice := some (.deliver { queryID := record.id, state := .pending }) })
  | notified (queryID : String) (giveUp : Bool) (run : Run) (notice : Notice) (after : Net)
      (left : Option Notice) (ran : net.runs queryID = some run)
      (making : run.notice = some notice)
      (announced : net.announce run.record.ownerInstanceID notice giveUp = some (after, left)) :
      NetMove net (.notify queryID giveUp) (after.setRun queryID { run with notice := left })
  | started (queryID : String) (now : Time) (stored : Bool) (run : Run)
      (ran : net.runs queryID = some run) (idle : run.notice = none)
      (pending : run.record.state = .pending) :
      NetMove net (.start queryID now stored)
        ((net.persist { run.record with state := .running, startedAt := now } stored).setRun
          queryID { run with
            record := { run.record with state := .running, startedAt := now }
            notice := some (.deliver { queryID, state := .running }) })
  | progressed (queryID : String) (stats : QueryStats) (run : Run)
      (ran : net.runs queryID = some run) (idle : run.notice = none)
      (running : run.record.state = .running) :
      NetMove net (.progress queryID stats) (net.setRun queryID { run with
        record := { run.record with stats }
        notice := some (.deliver { queryID, state := run.record.state, stats }) })
  | progressRefused (queryID : String) (stats : QueryStats) :
      NetMove net (.persistProgress queryID stats) net
  | progressStored (queryID : String) (stats : QueryStats) (run : Run)
      (ran : net.runs queryID = some run) (running : run.record.state = .running) :
      NetMove net (.persistProgress queryID stats)
        { net with store := net.store.store { run.record with stats } }
  | completed (queryID : String) (next : QueryState) (stats : QueryStats)
      (error : Option QueryError) (now : Time) (stored : Bool) (run : Run)
      (ran : net.runs queryID = some run) (idle : run.notice = none)
      (running : run.record.state = .running) (terminal : next.isTerminal = true) :
      NetMove net (.complete queryID next stats error now stored)
        ((net.persist { run.record with state := next, stats, error, finishedAt := now }
          stored).setRun queryID { run with
            record := { run.record with state := next, stats, error, finishedAt := now }
            notice := some (.deliver { queryID, state := next, stats, error }) })
  | deregistered (queryID : String) (run : Run) (ran : net.runs queryID = some run)
      (idle : run.notice = none) (terminal : run.record.state.isTerminal = true) :
      NetMove net (.deregister queryID) (net.setRun queryID { run with registered := false })
  | read (worker : Nat) (instanceID queryID : String) (record : QueryRecord)
      (found : net.store.getQuery queryID = some record) :
      NetMove net (.read worker instanceID queryID)
        (net.setWorker worker (some (instanceID, .read record)))
  | expired (worker : Nat) (instanceID : String) (record : QueryRecord)
      (working : net.workers worker = some (instanceID, .read record)) :
      NetMove net (.expire worker)
        ({ net with store := net.store.store { record with state := .expired } }.setWorker worker
          (some (instanceID, .notifying (.deliver { queryID := record.id, state := .expired }))))
  | condemned (worker : Nat) (now : Time) (instanceID : String) (record : QueryRecord)
      (working : net.workers worker = some (instanceID, .read record))
      (written : net.store.updateQueryIfState (ownerLost record now) ownerLostExpected =
        some (true, net.store.store (ownerLost record now))) :
      NetMove net (.failOwnerLost worker now)
        ({ net with store := net.store.store (ownerLost record now) }.setWorker worker
          (some (instanceID, .notifying (.deliver
            { queryID := record.id, state := .failed, error := (ownerLost record now).error }))))
  | passedOver (action : NetAction) (worker : Nat) : NetMove net action (net.setWorker worker none)
  | workerNotified (worker : Nat) (giveUp : Bool) (instanceID : String) (notice : Notice)
      (after : Net) (left : Option Notice)
      (working : net.workers worker = some (instanceID, .notifying notice))
      (announced : net.announce instanceID notice giveUp = some (after, left)) :
      NetMove net (.workerNotify worker giveUp)
        (after.setWorker worker (left.map fun notice => (instanceID, .notifying notice)))
  | removed (queryID : String) :
      NetMove net (.remove queryID) { net with store := net.store.deleteQuery queryID }
  | carried (action : NetAction) (bus : Bus String QueryEvent)
      (fewer : ∀ receiver sender,
        (bus.way receiver sender).Sublist (net.bus.way receiver sender)) :
      NetMove net action { net with bus }
  | controlled (instanceID senderID : String) (ev : QueryEvent) (bus : Bus String QueryEvent)
      (first : net.bus.next instanceID = some ((senderID, ev), bus)) :
      NetMove net (.control instanceID) (({ net with bus } : Net).control instanceID senderID ev)
  | watched (instanceID : String) (call : Nat) (queryID : String)
      (unused : (net.posts instanceID).calls call = none) :
      NetMove net (.watch instanceID call queryID) (net.setCall instanceID call { queryID })
  | answered (instanceID : String) (call : Nat) (w : WatchCall) (record : QueryRecord)
      (found : (net.posts instanceID).calls call = some w) (begun : w.phase = .begun)
      (got : net.store.getQuery w.queryID = some record) :
      NetMove net (.getQuery instanceID call true)
        (net.setCall instanceID call { w with phase := .read record })
  | unanswered (instanceID : String) (call : Nat) (ok : Bool) (w : WatchCall)
      (found : (net.posts instanceID).calls call = some w) (begun : w.phase = .begun)
      (missing : ok = true → net.store.getQuery w.queryID = none) :
      NetMove net (.getQuery instanceID call ok)
        (net.setCall instanceID call { w with phase := .failed })
  | registered (instanceID : String) (call : Nat) (w : WatchCall) (record : QueryRecord)
      (found : (net.posts instanceID).calls call = some w) (phase : w.phase = .read record) :
      NetMove net (.register instanceID call) (net.setPost instanceID
        { net.posts instanceID with
          hub := (net.posts instanceID).hub.register call (eventOf w.queryID record)
          calls := Function.update (net.posts instanceID).calls call
            (some { w with phase := .returned }) })
  | unwatched (instanceID : String) (call : Nat) (w : WatchCall)
      (found : (net.posts instanceID).calls call = some w) (returned : w.phase = .returned) :
      NetMove net (.unwatch instanceID call) (net.setPost instanceID
        { net.posts instanceID with hub := (net.posts instanceID).hub.unwatch w.queryID call })
  | received (instanceID : String) (call : Nat) (ev : QueryEvent) (hub : Hub)
      (taken : (net.posts instanceID).hub.receive call = some (ev, hub)) :
      NetMove net (.receive instanceID call) (net.setPost instanceID
        { net.posts instanceID with
          hub
          received := Function.update (net.posts instanceID).received call
            ((net.posts instanceID).received call ++ [ev]) })

theorem step_move {backend : Backend} {after : Net} (taken : net.step backend action = some after) :
    NetMove net action after := by
  cases action
  all_goals simp only [Net.step, Option.bind_eq_bind, Option.bind_eq_some_iff] at taken
  case submit record =>
    split at taken <;> cases taken
    rename_i enabled
    exact .submitted record enabled.1 enabled.2
  case notify queryID giveUp =>
    obtain ⟨run, ran, notice, making, ⟨net', left⟩, announced, taken⟩ := taken
    cases taken
    exact .notified queryID giveUp run notice net' left ran making announced
  case start queryID now stored =>
    obtain ⟨run, idle, taken⟩ := taken
    cases taken
    obtain ⟨ran, idle, pending⟩ := idleRun_eq_some idle
    exact .started queryID now stored run ran idle pending
  case progress queryID stats =>
    obtain ⟨run, idle, taken⟩ := taken
    cases taken
    obtain ⟨ran, idle, running⟩ := idleRun_eq_some idle
    exact .progressed queryID stats run ran idle running
  case persistProgress queryID stats =>
    obtain ⟨run, ran, taken⟩ := taken
    split at taken
    · rename_i running
      split at taken
      · rename_i written store answer
        cases taken
        rcases net.store.updateQueryIfState_eq_some answer with ⟨_, rfl⟩ | ⟨_, rfl, _⟩
        · exact .progressRefused queryID stats
        · exact .progressStored queryID stats run ran running
      · cases taken
        exact .progressRefused queryID stats
    · contradiction
  case complete queryID next stats error now stored =>
    obtain ⟨run, idle, taken⟩ := taken
    split at taken <;> cases taken
    rename_i legal
    obtain ⟨ran, idle, running⟩ := idleRun_eq_some idle
    exact .completed queryID next stats error now stored run ran idle running legal.1
  case deregister queryID =>
    obtain ⟨run, ran, taken⟩ := taken
    split at taken <;> cases taken
    rename_i ended
    exact .deregistered queryID run ran ended.1 ended.2
  case read worker instanceID queryID =>
    obtain ⟨record, found, taken⟩ := taken
    split at taken <;> cases taken
    exact .read worker instanceID queryID record found
  case expire worker =>
    split at taken
    · rename_i instanceID record working
      split at taken
      · split at taken
        · rename_i store answer
          cases taken
          rw [net.store.updateQuery_eq_some answer]
          exact .expired worker instanceID record working
        · cases taken
          exact .passedOver _ worker
      · contradiction
    · contradiction
  case failOwnerLost worker now =>
    split at taken
    · rename_i instanceID record working
      split at taken
      · rename_i store answer
        cases taken
        rcases net.store.updateQueryIfState_eq_some answer with ⟨refused, _⟩ | ⟨_, rfl, _⟩
        · contradiction
        · exact .condemned worker now instanceID record working answer
      · cases taken
        exact .passedOver _ worker
    · contradiction
  case leave worker =>
    split at taken <;> cases taken
    exact .passedOver _ worker
  case workerNotify worker giveUp =>
    split at taken
    · rename_i instanceID notice working
      obtain ⟨⟨net', left⟩, announced, taken⟩ := Option.bind_eq_some_iff.mp taken
      cases taken
      exact .workerNotified worker giveUp instanceID notice net' left working announced
    · contradiction
  case remove queryID =>
    cases Option.some.inj taken
    exact .removed queryID
  case take instanceID =>
    obtain ⟨bus, moved, rfl⟩ := Option.map_eq_some_iff.mp taken
    exact .carried _ bus fun receiver sender => by rw [Bus.way_take moved]
  case publish instanceID published =>
    obtain ⟨bus, moved, rfl⟩ := Option.map_eq_some_iff.mp taken
    exact .carried _ bus (Bus.way_publish moved)
  case lose instanceID =>
    obtain ⟨⟨message, bus⟩, moved, taken⟩ := taken
    cases taken
    exact .carried _ bus (Bus.way_next_sublist moved)
  case control instanceID =>
    obtain ⟨⟨⟨senderID, ev⟩, bus⟩, moved, taken⟩ := taken
    cases taken
    exact .controlled instanceID senderID ev bus moved
  case watch instanceID call queryID =>
    split at taken
    · contradiction
    · rename_i unused
      cases taken
      exact .watched instanceID call queryID unused
  case getQuery instanceID call ok =>
    obtain ⟨w, found, taken⟩ := taken
    split at taken <;> cases taken
    rename_i begun
    cases ok with
    | false => exact .unanswered instanceID call false w found begun (by simp)
    | true =>
      cases got : net.store.getQuery w.queryID with
      | none => exact .unanswered instanceID call true w found begun fun _ => got
      | some record => exact .answered instanceID call w record found begun got
  case register instanceID call =>
    obtain ⟨w, found, taken⟩ := taken
    split at taken <;> cases taken
    rename_i record phase
    have move := NetMove.registered instanceID call w record found phase
    simpa only [Net.setCall, Net.setPost, update_self, update_idem] using move
  case unwatch instanceID call =>
    obtain ⟨w, found, taken⟩ := taken
    split at taken <;> cases taken
    rename_i returned
    exact .unwatched instanceID call w found returned
  case receive instanceID call =>
    obtain ⟨⟨ev, hub⟩, received, taken⟩ := taken
    cases taken
    exact .received instanceID call ev hub received

theorem step_receive (backend : Backend) {call : Nat} {hub : Hub}
    (taken : (net.posts instanceID).hub.receive call = some (ev, hub)) :
    ∃ after, net.step backend (.receive instanceID call) = some after ∧
      (after.posts instanceID).hub = hub := by
  refine ⟨net.setPost instanceID { net.posts instanceID with
    hub, received := update (net.posts instanceID).received call
      ((net.posts instanceID).received call ++ [ev]) }, ?_, ?_⟩
  · simp [Net.step, taken]
  · rw [setPost_posts, if_pos rfl]

/-! ## The goroutine of a query -/

variable {left : Option Notice} {notice : Notice}

section
variable {after : Net} {run : Run}

theorem announce_runs (taken : net.announce instanceID notice giveUp = some (after, left)) :
    after.runs = net.runs := by
  cases notice with
  | deliver =>
    cases Option.some.inj taken
    rfl
  | enqueue =>
    simp only [Net.announce, Option.map_eq_some_iff, Prod.mk.injEq] at taken
    obtain ⟨_, offered, rfl, rfl⟩ := taken
    rcases offer_cases offered with rfl | rfl <;> rfl

theorem control_runs (instanceID senderID : String) (ev : QueryEvent) :
    (net.control instanceID senderID ev).runs = net.runs := by
  unfold Net.control
  (repeat' split) <;> rfl

/-- What a step makes of the goroutine of a query: nothing, something in the same state, the
delivery of its event to its own instance, or a new state with an event to deliver. -/
inductive RunMove (net after : Net) (queryID : String) (run : Run) : NetAction → Prop
  | kept (action : NetAction) (same : after.runs queryID = some run) :
      RunMove net after queryID run action
  | moved (action : NetAction) (next : Run) (found : after.runs queryID = some next)
      (owner : next.record.ownerInstanceID = run.record.ownerInstanceID)
      (options : next.record.options = run.record.options)
      (state : next.record.state = run.record.state)
      (quiet : (∀ ev, next.notice ≠ some (.deliver ev)) →
        ∀ ev, run.notice ≠ some (.deliver ev)) :
      RunMove net after queryID run action
  | delivered (giveUp : Bool) (ev : QueryEvent) (making : run.notice = some (.deliver ev))
      (found : after.runs queryID = some { run with notice := some (.enqueue ev) })
      (posts : after.posts = (net.deliverAt run.record.ownerInstanceID ev).posts) :
      RunMove net after queryID run (.notify queryID giveUp)
  | advanced (action : NetAction) (next : Run) (found : after.runs queryID = some next)
      (owner : next.record.ownerInstanceID = run.record.ownerInstanceID)
      (options : next.record.options = run.record.options)
      (active : run.record.state.isTerminal = false)
      (launched : run.record.state = .pending → ∃ now stored, action = .start queryID now stored)
      (notice : ∃ ev, next.notice = some (.deliver ev)) :
      RunMove net after queryID run action

theorem NetMove.runMove (move : NetMove net action after) (ran : net.runs queryID = some run) :
    RunMove net after queryID run action := by
  have elsewhere : ∀ {mid : Net} {id : String} {next : Run}, mid.runs = net.runs →
      queryID ≠ id → (mid.setRun id next).runs queryID = some run := by
    intro mid id next same other
    simp [setRun, other, same, ran]
  cases move with
  | submitted _ fresh =>
    refine .kept _ (elsewhere rfl ?_)
    rintro rfl
    rw [fresh] at ran
    contradiction
  | notified id giveUp _ notice _ left found making announced =>
    have runs := announce_runs announced
    by_cases own : queryID = id
    · subst own
      rw [ran] at found
      cases found
      cases notice with
      | deliver ev =>
        cases Option.some.inj announced
        exact .delivered giveUp ev making (by simp [setRun]) rfl
      | enqueue =>
        refine .moved _ { run with notice := left } (by simp [setRun]) rfl rfl rfl ?_
        intro _ other
        rw [making]
        simp
    · exact .kept _ (elsewhere runs own)
  | started id now stored _ found _ pending =>
    by_cases own : queryID = id
    · subst own
      rw [ran] at found
      cases found
      refine .advanced _ _ (update_self ..) rfl rfl ?_ (fun _ => ⟨now, stored, rfl⟩)
        ⟨_, rfl⟩
      rw [pending]
      rfl
    · exact .kept _ (elsewhere rfl own)
  | completed id _ _ _ _ _ _ found _ running =>
    by_cases own : queryID = id
    · subst own
      rw [ran] at found
      cases found
      refine .advanced _ _ (update_self ..) rfl rfl ?_ ?_ ⟨_, rfl⟩
      · rw [running]
        rfl
      · intro pending
        rw [running] at pending
        contradiction
    · exact .kept _ (elsewhere rfl own)
  | progressed id _ _ found =>
    by_cases own : queryID = id
    · subst own
      rw [ran] at found
      cases found
      exact .moved _ _ (update_self ..) rfl rfl rfl fun quiet => absurd rfl (quiet _)
    · exact .kept _ (elsewhere rfl own)
  | deregistered id _ found idle =>
    by_cases own : queryID = id
    · subst own
      rw [ran] at found
      cases found
      refine .moved _ _ (update_self ..) rfl rfl rfl fun _ ev => ?_
      rw [idle]
      simp
    · exact .kept _ (elsewhere rfl own)
  | workerNotified _ _ _ _ _ _ _ announced =>
    exact .kept _ ((congrFun (announce_runs announced) queryID).trans ran)
  | controlled => exact .kept _ ((congrFun (control_runs _ _ _) queryID).trans ran)
  | progressRefused | progressStored | read | expired | condemned | passedOver | removed
  | carried | watched | answered | unanswered | registered | unwatched | received =>
    exact .kept _ ran

end

/-! ## The subscriptions of an instance -/

/-- Somebody is about to deliver the event, or it is on its way. -/
inductive Says (net : Net) (ev : QueryEvent) : Prop
  | run (id : String) (run : Run) (ran : net.runs id = some run)
      (making : run.notice = some (.deliver ev))
  | worker (worker : Nat) (instanceID : String)
      (working : net.workers worker = some (instanceID, .notifying (.deliver ev)))
  | message (receiver sender : String) (listed : ev ∈ net.bus.way receiver sender)

inductive PostMove (good : QueryEvent → Prop) (net : Net) (instanceID : String) :
    NetAction → Post → Prop
  | kept (action : NetAction) : PostMove good net instanceID action (net.posts instanceID)
  | delivered (action : NetAction) (ev : QueryEvent) (said : good ev) :
      PostMove good net instanceID action { net.posts instanceID with
        hub := (net.posts instanceID).hub.deliverEvent ev }
  | watched (call : Nat) (queryID : String) (unused : (net.posts instanceID).calls call = none) :
      PostMove good net instanceID (.watch instanceID call queryID) { net.posts instanceID with
        calls := Function.update (net.posts instanceID).calls call (some { queryID }) }
  | answered (call : Nat) (w : WatchCall) (record : QueryRecord)
      (found : (net.posts instanceID).calls call = some w) (begun : w.phase = .begun) :
      PostMove good net instanceID (.getQuery instanceID call true)
        { net.posts instanceID with
          calls := Function.update (net.posts instanceID).calls call
            (some { w with phase := .read record }) }
  | unanswered (call : Nat) (ok : Bool) (w : WatchCall)
      (found : (net.posts instanceID).calls call = some w) (begun : w.phase = .begun)
      (missing : ok = true → net.store.getQuery w.queryID = none) :
      PostMove good net instanceID (.getQuery instanceID call ok)
        { net.posts instanceID with
          calls := Function.update (net.posts instanceID).calls call
            (some { w with phase := .failed }) }
  | registered (call : Nat) (w : WatchCall) (record : QueryRecord)
      (found : (net.posts instanceID).calls call = some w) (phase : w.phase = .read record) :
      PostMove good net instanceID (.register instanceID call)
        { net.posts instanceID with
          hub := (net.posts instanceID).hub.register call (eventOf w.queryID record)
          calls := Function.update (net.posts instanceID).calls call
            (some { w with phase := .returned }) }
  | unwatched (call : Nat) (w : WatchCall)
      (found : (net.posts instanceID).calls call = some w) :
      PostMove good net instanceID (.unwatch instanceID call) { net.posts instanceID with
        hub := (net.posts instanceID).hub.unwatch w.queryID call }
  | received (call : Nat) (ev : QueryEvent) (hub : Hub)
      (taken : (net.posts instanceID).hub.receive call = some (ev, hub)) :
      PostMove good net instanceID (.receive instanceID call) { net.posts instanceID with
        hub
        received := Function.update (net.posts instanceID).received call
          ((net.posts instanceID).received call ++ [ev]) }

section
variable {good : QueryEvent → Prop} {after : Net} {here : String}

theorem PostMove.of_setPost {post : Post} (moved : PostMove good net here action post) :
    PostMove good net instanceID action ((net.setPost here post).posts instanceID) := by
  rw [setPost_posts]
  split
  · rename_i same
    exact same ▸ moved
  · exact .kept action

theorem PostMove.announce (taken : net.announce here notice giveUp = some (after, left))
    (said : ∀ ev, notice = .deliver ev → good ev) :
    PostMove good net instanceID action (after.posts instanceID) := by
  cases notice with
  | deliver ev =>
    cases Option.some.inj taken
    exact (PostMove.delivered action ev (said ev rfl)).of_setPost
  | enqueue =>
    simp only [Net.announce, Option.map_eq_some_iff, Prod.mk.injEq] at taken
    obtain ⟨_, offered, rfl, rfl⟩ := taken
    rcases offer_cases offered with rfl | rfl <;> exact .kept action

theorem NetMove.postMove (move : NetMove net action after) (said : ∀ ev, net.Says ev → good ev)
    (instanceID : String) : PostMove good net instanceID action (after.posts instanceID) := by
  cases move with
  | notified id _ run _ mid _ ran making announced =>
    show PostMove good net instanceID _ (mid.posts instanceID)
    refine PostMove.announce announced ?_
    rintro ev rfl
    exact said ev (.run id run ran making)
  | workerNotified worker _ here _ mid _ working announced =>
    show PostMove good net instanceID _ (mid.posts instanceID)
    refine PostMove.announce announced ?_
    rintro ev rfl
    exact said ev (.worker worker here working)
  | controlled here senderID ev bus first =>
    unfold Net.control
    split
    · exact .kept _
    · split
      · exact .kept _
      · refine (PostMove.delivered _ ev (said ev (.message here senderID ?_))).of_setPost
        rw [Bus.way_next first, if_pos ⟨rfl, rfl⟩]
        exact List.mem_cons_self
  | watched _ call queryID unused => exact (PostMove.watched call queryID unused).of_setPost
  | answered _ call w record found begun =>
    exact (PostMove.answered call w record found begun).of_setPost
  | unanswered _ call ok w found begun missing =>
    exact (PostMove.unanswered call ok w found begun missing).of_setPost
  | registered _ call w record found phase =>
    exact (PostMove.registered call w record found phase).of_setPost
  | unwatched _ call w found => exact (PostMove.unwatched call w found).of_setPost
  | received _ call ev hub taken => exact (PostMove.received call ev hub taken).of_setPost
  | submitted | started | progressed | progressRefused | progressStored | completed
  | deregistered | read | expired | condemned | passedOver | removed | carried => exact .kept _

end

end Net

/-! ## Safe subscriptions -/

namespace Post

def owner (post : Post) (ch : Nat) : Option String :=
  match post.calls ch with
  | some ⟨queryID, .returned⟩ => some queryID
  | _ => none

def Safe (post : Post) : Prop := post.hub.Safe post.owner

variable {post : Post} {call : Nat} {w : WatchCall}

theorem owner_update (calls : Nat → Option WatchCall) (ch : Nat) (hub : Hub)
    (received : Nat → List QueryEvent) :
    ({ hub, calls := update calls call (some w), received } : Post).owner ch =
      if ch = call then (if w.phase = .returned then some w.queryID else none)
      else ({ hub, calls, received } : Post).owner ch := by
  by_cases same : ch = call
  · subst same
    obtain ⟨queryID, phase⟩ := w
    simp only [owner, update_self]
    cases phase <;> simp
  · simp [owner, same]

theorem owner_of_unreturned (found : post.calls call = some w) (phase : w.phase ≠ .returned) :
    post.owner call = none := by
  unfold owner
  split
  · rename_i queryID returned
    rw [found] at returned
    cases returned
    exact absurd rfl phase
  · rfl

theorem Safe.setCall (safe : post.Safe) (before : post.owner call = none)
    (short : w.phase ≠ .returned) :
    ({ post with calls := update post.calls call (some w) } : Post).Safe := by
  have same : ({ post with calls := update post.calls call (some w) } : Post).owner =
      post.owner := by
    funext ch
    rw [owner_update]
    by_cases equal : ch = call
    · subst equal
      simp [short, before]
    · simp [equal]
  rw [Safe, same]
  exact safe

theorem Safe.register (safe : post.Safe) {record : QueryRecord}
    (found : post.calls call = some w) (phase : w.phase = .read record) :
    ({ post with
      hub := post.hub.register call (eventOf w.queryID record)
      calls := update post.calls call (some { w with phase := .returned }) } :
        Post).Safe := by
  have free : post.owner call = none := owner_of_unreturned found (by simp [phase])
  have owners : ({ post with
      hub := post.hub.register call (eventOf w.queryID record)
      calls := update post.calls call (some { w with phase := .returned }) } :
        Post).owner = update post.owner call (some w.queryID) := by
    funext ch
    rw [owner_update]
    by_cases same : ch = call
    · subst same
      simp
    · simp [same, owner]
  rw [Safe, owners]
  exact Hub.Safe.register safe free (eventOf w.queryID record)

end Post

theorem Net.PostMove.safe {good : QueryEvent → Prop} {net : Net} {post : Post}
    (moved : PostMove good net instanceID action post) (safe : (net.posts instanceID).Safe) :
    post.Safe := by
  cases moved with
  | kept => exact safe
  | delivered _ ev => exact Hub.Safe.deliverEvent safe ev
  | watched _ _ unused => exact safe.setCall (by simp [Post.owner, unused]) (by simp)
  | answered _ _ _ found begun | unanswered _ _ _ found begun =>
    exact safe.setCall (Post.owner_of_unreturned found (by simp [begun])) (by simp)
  | registered _ _ _ found phase => exact safe.register found phase
  | unwatched _ w => exact Hub.Safe.dropWatcherLocked safe w.queryID
  | received _ _ _ taken => exact Hub.Safe.receive safe taken

/-! ## One channel -/

namespace Net.PostMove

variable {good : QueryEvent → Prop} {net : Net} {post : Post} {ch : Nat} {w : WatchCall}

section
variable (moved : PostMove good net instanceID action post)
include moved

theorem call (found : (net.posts instanceID).calls ch = some w) :
    ∃ next, post.calls ch = some next ∧ next.queryID = w.queryID ∧
      (w.phase = .returned → next = w) ∧
      (next.phase = .failed → w.phase = .failed ∨ ∃ ok, action = .getQuery instanceID ch ok ∧
        (ok = true → net.store.getQuery w.queryID = none)) := by
  have same : ∃ next, (net.posts instanceID).calls ch = some next ∧ next.queryID = w.queryID ∧
      (w.phase = .returned → next = w) ∧
      (next.phase = .failed → w.phase = .failed ∨ ∃ ok, action = .getQuery instanceID ch ok ∧
        (ok = true → net.store.getQuery w.queryID = none)) :=
    ⟨w, found, rfl, fun _ => rfl, .inl⟩
  -- a step of another call
  have other : ∀ {call : Nat} {next : WatchCall}, ch ≠ call →
      update (net.posts instanceID).calls call (some next) ch = some w := by
    intro call next ne
    rw [update_of_ne ne, found]
  cases moved with
  | kept | delivered | unwatched | received => exact same
  | watched call _ unused =>
    have ne : ch ≠ call := by
      rintro rfl
      rw [unused] at found
      contradiction
    exact ⟨w, other ne, rfl, fun _ => rfl, .inl⟩
  | unanswered call ok _ known begun missing =>
    by_cases own : ch = call
    · subst own
      rw [found] at known
      cases known
      exact ⟨_, update_self .., rfl, by simp [begun], fun _ =>
        .inr ⟨ok, rfl, missing⟩⟩
    · exact ⟨w, other own, rfl, fun _ => rfl, .inl⟩
  | answered call _ _ known begun | registered call _ _ known begun =>
    by_cases own : ch = call
    · subst own
      rw [found] at known
      cases known
      exact ⟨_, update_self .., rfl, by simp [begun], by simp⟩
    · exact ⟨w, other own, rfl, fun _ => rfl, .inl⟩

theorem member (listed : ch ∈ post.hub.subs queryID) :
    ch ∈ (net.posts instanceID).hub.subs queryID ∨
      ∃ w record, (net.posts instanceID).calls ch = some w ∧ w.phase = .read record := by
  cases moved with
  | kept | watched | answered | unanswered => exact .inl listed
  | delivered => exact .inl (Hub.mem_deliverEvent_subs.mp listed).1
  | registered call w record found phase =>
    rcases Hub.mem_register_subs.mp listed with ⟨before, _⟩ | ⟨rfl, _⟩
    · exact .inl before
    · exact .inr ⟨w, record, found, phase⟩
  | unwatched => exact .inl (Hub.mem_dropWatcherLocked_subs.mp listed).1
  | received _ _ _ taken =>
    obtain ⟨rest, _, rfl⟩ := Hub.receive_eq_some taken
    exact .inl listed

theorem closed (closed : (post.hub.channels ch).closed = true) :
    ((net.posts instanceID).hub.channels ch).closed = true ∨
      action = .unwatch instanceID ch ∨
      (∃ ev, good ev ∧ ev.state.isTerminal = true ∧
        ch ∈ (net.posts instanceID).hub.subs ev.queryID) ∨
      ∃ w record, (net.posts instanceID).calls ch = some w ∧ w.phase = .read record ∧
        record.state.isTerminal = true := by
  cases moved with
  | kept | watched | answered | unanswered => exact .inl closed
  | delivered _ ev said =>
    rcases (Hub.deliverEvent_closed _ ev ch).mp closed with ⟨terminal, listed⟩ | before
    · exact .inr (.inr (.inl ⟨ev, said, terminal, listed⟩))
    · exact .inl before
  | registered _ w record found phase =>
    rw [Hub.register_closed, Bool.or_eq_true, Bool.and_eq_true] at closed
    rcases closed with ⟨own, terminal⟩ | before
    · obtain rfl := of_decide_eq_true own
      exact .inr (.inr (.inr ⟨w, record, found, phase, terminal⟩))
    · exact .inl before
  | unwatched =>
    rw [Hub.unwatch, Hub.dropWatcherLocked_closed, Bool.or_eq_true, Bool.and_eq_true] at closed
    rcases closed with ⟨own, _⟩ | before
    · exact .inr (.inl (by rw [of_decide_eq_true own]))
    · exact .inl before
  | received _ _ _ taken =>
    obtain ⟨_, _, rfl⟩ := Hub.receive_eq_some taken
    rw [Hub.setChannel_closed] at closed
    exact .inl closed

theorem buffer (listed : ev ∈ (post.hub.channels ch).buffer) :
    ev ∈ ((net.posts instanceID).hub.channels ch).buffer ∨
      ch ∈ (net.posts instanceID).hub.subs ev.queryID ∨
      ∃ w record, (net.posts instanceID).calls ch = some w ∧ ev = eventOf w.queryID record := by
  cases moved with
  | kept | watched | answered | unanswered => exact .inl listed
  | delivered _ sent =>
    obtain ⟨_, buffer, among⟩ := Hub.deliverEvent_buffer _ sent ch
    rw [buffer, List.mem_append, List.mem_replicate] at listed
    rcases listed with before | ⟨some, rfl⟩
    · exact .inl before
    · exact .inr (.inl (among some))
  | registered call w record found =>
    rcases Hub.register_buffer _ call (eventOf w.queryID record) ch with kept | ⟨rfl, pushed⟩
    · rw [kept] at listed
      exact .inl listed
    · rw [pushed, List.mem_append] at listed
      rcases listed with before | new
      · exact .inl before
      · exact .inr (.inr ⟨w, record, found, List.mem_singleton.mp new⟩)
  | unwatched =>
    rw [Hub.unwatch, Hub.dropWatcherLocked_buffer] at listed
    exact .inl listed
  | received call taken _ received =>
    obtain ⟨_, held, rfl⟩ := Hub.receive_eq_some received
    left
    by_cases own : ch = call
    · subst own
      rw [held]
      simp only [Hub.setChannel, update_self] at listed
      exact List.mem_cons_of_mem taken listed
    · simpa [Hub.setChannel, own] using listed

end

end Net.PostMove

end DbBridge.Watch
