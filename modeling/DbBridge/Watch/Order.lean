import DbBridge.Watch.Delivery
import DbBridge.Watch.Moves

/-!
# What a subscriber sees, and in which order

Events of one goroutine stay in order on their way, so a subscriber can see a query go
backwards only where its snapshot overtakes an announcement: a `Watch` that has read
`RUNNING` against the `PENDING` announcement that is still on its way. `CaughtUp` excludes
that.
-/

namespace DbBridge.Watch

open Domain State List

def Regress (before after : QueryEvent) : Prop :=
  before.queryID = after.queryID ∧ before.state = .running ∧ after.state = .pending

namespace Net

def Launched (net : Net) (queryID : String) : Prop :=
  ∃ run, net.runs queryID = some run ∧ run.record.state ≠ .pending

def Clear (net : Net) (instanceID queryID : String) : Prop :=
  ∀ sender, sender ≠ instanceID → ∀ ev ∈ net.bus.way instanceID sender,
    ev.queryID = queryID → ev.state ≠ .pending

/-- The condition on a step: a `Watch` that read `RUNNING` registers on the owner, or when
the owner's `PENDING` announcement is no longer on its way: neither in the publish queue,
nor with the publisher, nor among the control messages the instance has yet to take. -/
def CaughtUp (net : Net) : NetAction → Prop
  | .register instanceID call =>
    ∀ w ∈ (net.posts instanceID).calls call, ∀ record ∈ w.phase.snapshot?,
      record.state = .running → ∀ run ∈ net.runs w.queryID,
        run.record.ownerInstanceID ≠ instanceID →
          ∀ ev ∈ net.bus.way instanceID run.record.ownerInstanceID,
            ev.queryID = w.queryID → ev.state ≠ .pending
  | _ => True

instance (net : Net) (action : NetAction) : Decidable (CaughtUp net action) := by
  unfold CaughtUp
  split <;> infer_instance

/-- The event was announced by the goroutine that executes its query, on `sender`, if it is
one that only this goroutine announces. -/
def Authentic (net : Net) (sender : String) (ev : QueryEvent) : Prop :=
  ev.state.isTerminal = false → ∃ run, net.runs ev.queryID = some run ∧
    run.record.ownerInstanceID = sender ∧ (ev.state = .running → run.record.state ≠ .pending)

structure Authored (net : Net) : Prop where
  stored : ∀ queryID record, net.store.queries.lookup queryID = some record →
    record.state = .running → net.Launched queryID
  snapshots : ∀ instanceID call w record, (net.posts instanceID).calls call = some w →
    w.phase = .read record → record.state = .running → net.Launched w.queryID
  runs : ∀ queryID run, net.runs queryID = some run → run.record.id = queryID ∧
    ∀ notice ∈ run.notice, notice.event.queryID = queryID ∧
      notice.event.state = run.record.state
  workers : ∀ worker instanceID notice,
    net.workers worker = some (instanceID, .notifying notice) →
      notice.event.state.isTerminal = true
  sent : ∀ receiver sender, ∀ ev ∈ net.bus.way receiver sender, net.Authentic sender ev
  logged : ∀ instanceID ch, ∀ ev ∈ (net.posts instanceID).log ch, ev.state = .running →
    net.Launched ev.queryID

structure Inv (net : Net) : Prop where
  authored : net.Authored
  inOrder : ∀ receiver sender,
    (net.bus.way receiver sender).Pairwise fun a b => ¬ Regress a b
  posts : ∀ instanceID, (net.posts instanceID).Orderly (net.Clear instanceID)

theorem Inv.initial : Inv {} where
  authored := by
    refine ⟨?_, ?_, ?_, ?_, ?_, ?_⟩ <;> simp [MetaStore.empty, Bus.way, Post.log]
  inOrder := by simp [Bus.way]
  posts := fun instanceID => by
    refine ⟨?_, ?_, ?_, ?_, ?_⟩ <;> simp [Hub.subs, Post.log]

/-! ### What one step changes -/

variable {net : Net} {queryID : String} {run : Run} {record : QueryRecord} {ev : QueryEvent}
  {instanceID : String} {call : Nat} {w : WatchCall}

theorem Launched.setRun
    (onward : ∀ old, net.runs queryID = some old → old.record.state ≠ .pending → run.record.state ≠
      .pending) {other : String} (launched : net.Launched other) :
    (net.setRun queryID run).Launched other := by
  obtain ⟨old, found, state⟩ := launched
  by_cases same : other = queryID
  · subst same
    exact ⟨run, by simp [Net.setRun], onward old found state⟩
  · exact ⟨old, by simp [Net.setRun, same, found], state⟩

variable {bus : Bus String QueryEvent}

section
variable (inv : net.Inv)
include inv

theorem Inv.setRun (named : run.record.id = queryID)
    (notices : ∀ notice ∈ run.notice, notice.event.queryID = queryID ∧ notice.event.state =
      run.record.state) (onward : ∀ old, net.runs queryID = some old → run.record.ownerInstanceID =
      old.record.ownerInstanceID ∧ (old.record.state ≠ .pending → run.record.state ≠ .pending)) :
    (net.setRun queryID run).Inv := by
  have launched : ∀ {other}, net.Launched other → (net.setRun queryID run).Launched other :=
    fun {_} => Launched.setRun fun old found => (onward old found).2
  refine ⟨⟨?_, ?_, ?_, inv.authored.workers, ?_, ?_⟩, inv.inOrder, inv.posts⟩
  · exact fun other record found running => launched (inv.authored.stored other record found running)
  · exact fun instanceID call w record found phase running =>
      launched (inv.authored.snapshots instanceID call w record found phase running)
  · intro other run' found
    rcases Tables.update_some_cases found with ⟨rfl, rfl⟩ | ⟨_, found⟩
    · exact ⟨named, notices⟩
    · exact inv.authored.runs other run' found
  · intro receiver sender ev listed active
    obtain ⟨old, found, owner, state⟩ := inv.authored.sent receiver sender ev listed active
    by_cases same : ev.queryID = queryID
    · obtain ⟨sameOwner, further⟩ := onward old (same ▸ found)
      exact ⟨run, by simp [Net.setRun, same], sameOwner.trans owner,
        fun running => further (state running)⟩
    · exact ⟨old, by simp [Net.setRun, same, found], owner, state⟩
  · exact fun instanceID ch ev logged running =>
      launched (inv.authored.logged instanceID ch ev logged running)

theorem Inv.withStore {store : MetaStore}
    (stored : ∀ queryID record, store.queries.lookup queryID = some record →
      record.state = .running → net.Launched queryID) : ({ net with store } : Net).Inv :=
  ⟨⟨stored, inv.authored.snapshots, inv.authored.runs, inv.authored.workers, inv.authored.sent,
    inv.authored.logged⟩, inv.inOrder, inv.posts⟩

theorem Inv.store (launched : record.state = .running → net.Launched record.id) :
    ({ net with store := net.store.store record } : Net).Inv := by
  refine inv.withStore fun queryID stored found running => ?_
  rcases Tables.insert_cases found with ⟨rfl, rfl⟩ | ⟨_, found⟩
  · exact launched running
  · exact inv.authored.stored queryID stored found running

theorem Inv.persist (stored : Bool) (launched : record.state = .running → net.Launched record.id) :
    (net.persist record stored).Inv := by
  cases stored with
  | true => exact inv.store launched
  | false => exact inv

theorem Inv.setWorker {worker : Nat} {pass : Option (String × Pass)}
    (terminal : ∀ instanceID notice, pass = some (instanceID, .notifying notice) →
      notice.event.state.isTerminal = true) : (net.setWorker worker pass).Inv := by
  refine ⟨⟨inv.authored.stored, inv.authored.snapshots, inv.authored.runs, ?_,
    inv.authored.sent, inv.authored.logged⟩, inv.inOrder, inv.posts⟩
  intro other instanceID notice found
  rcases Tables.update_cases found with ⟨rfl, put⟩ | ⟨_, found⟩
  · exact terminal instanceID notice put
  · exact inv.authored.workers other instanceID notice found

theorem Inv.withBus
    (fewer : ∀ receiver sender, (bus.way receiver sender).Sublist (net.bus.way receiver sender)) :
    ({ net with bus } : Net).Inv := by
  refine ⟨⟨inv.authored.stored, inv.authored.snapshots, inv.authored.runs, inv.authored.workers,
    ?_, inv.authored.logged⟩, ?_, ?_⟩
  · exact fun receiver sender ev listed =>
      inv.authored.sent receiver sender ev ((fewer receiver sender).subset listed)
  · exact fun receiver sender => (inv.inOrder receiver sender).sublist (fewer receiver sender)
  · exact fun instanceID => (inv.posts instanceID).mono fun _ _ _ _ _ _ clear sender other ev listed =>
      clear sender other ev ((fewer instanceID sender).subset listed)

theorem Inv.push {node : String} (authentic : net.Authentic node ev)
    (early : ev.state = .pending → ¬ net.Launched ev.queryID) :
    ({ net with bus := net.bus.push node ev } : Net).Inv := by
  have listed_or : ∀ receiver sender, ∀ seen ∈ (net.bus.push node ev).way receiver sender,
      seen ∈ net.bus.way receiver sender ∨ sender = node ∧ seen = ev := by
    intro receiver sender seen listed
    rw [Bus.way_push] at listed
    split at listed
    · rename_i same
      exact (mem_append.mp listed).imp_right fun new => ⟨same, mem_singleton.mp new⟩
    · exact .inl listed
  refine ⟨⟨inv.authored.stored, inv.authored.snapshots, inv.authored.runs, inv.authored.workers,
    ?_, inv.authored.logged⟩, ?_, ?_⟩
  · intro receiver sender seen listed
    rcases listed_or receiver sender seen listed with old | ⟨rfl, rfl⟩
    · exact inv.authored.sent receiver sender seen old
    · exact authentic
  · intro receiver sender
    show ((net.bus.push node ev).way receiver sender).Pairwise _
    rw [Bus.way_push]
    split
    · refine pairwise_append.mpr ⟨inv.inOrder receiver sender, pairwise_singleton _ _, ?_⟩
      intro seen old new one back
      obtain rfl := mem_singleton.mp one
      obtain ⟨sameQuery, running, pending⟩ := back
      obtain ⟨run, found, _, state⟩ := inv.authored.sent receiver sender seen old
        (by rw [running]; rfl)
      exact early pending ⟨run, sameQuery ▸ found, state running⟩
    · exact inv.inOrder receiver sender
  · intro instanceID
    refine (inv.posts instanceID).mono ?_
    intro queryID ch subscribed seen logged running clear sender other late listed same pending
    rcases listed_or instanceID sender late listed with old | ⟨_, rfl⟩
    · exact clear sender other late old same pending
    · have own := (inv.posts instanceID).queryID_eq subscribed logged
      refine early pending ?_
      rw [same, ← own]
      exact inv.authored.logged instanceID ch seen logged running

theorem Inv.setPost {post : Post} (orderly : post.Orderly (net.Clear instanceID))
    (snapshots : ∀ call w record, post.calls call = some w → w.phase = .read record → record.state =
      .running → net.Launched w.queryID)
    (logged : ∀ ch, ∀ ev ∈ post.log ch, ev.state = .running → net.Launched ev.queryID) :
    (net.setPost instanceID post).Inv := by
  refine ⟨⟨inv.authored.stored, ?_, inv.authored.runs, inv.authored.workers, inv.authored.sent,
    ?_⟩, inv.inOrder, ?_⟩
  · intro other call w record found
    rw [setPost_posts] at found
    split at found
    · exact snapshots call w record found
    · exact inv.authored.snapshots other call w record found
  · intro other ch ev listed
    rw [setPost_posts] at listed
    split at listed
    · exact logged ch ev listed
    · exact inv.authored.logged other ch ev listed
  · intro other
    rw [setPost_posts]
    split
    · rename_i same
      exact same ▸ orderly
    · exact inv.posts other

theorem Inv.deliverAt (launched : ev.state = .running → net.Launched ev.queryID)
    (forward : ev.state = .pending → ∀ ch ∈ (net.posts instanceID).hub.subs ev.queryID, ∀ seen ∈
      (net.posts instanceID).log ch, seen.state ≠ .running)
    (passed : ev.state = .running → net.Clear instanceID ev.queryID) :
    (net.deliverAt instanceID ev).Inv := by
  refine inv.setPost ((inv.posts instanceID).deliver forward passed)
    (inv.authored.snapshots instanceID) ?_
  intro ch seen logged running
  obtain ⟨_, buffer, _⟩ := Hub.deliverEvent_buffer (net.posts instanceID).hub ev ch
  rw [Post.log, buffer, ← append_assoc, mem_append, mem_replicate] at logged
  rcases logged with old | ⟨_, rfl⟩
  · exact inv.authored.logged instanceID ch seen old running
  · exact launched running

end

theorem Authentic.launched {sender : String} (authentic : net.Authentic sender ev)
    (running : ev.state = .running) : net.Launched ev.queryID := by
  obtain ⟨run, found, _, state⟩ := authentic (by rw [running]; rfl)
  exact ⟨run, found, state running⟩

theorem Authentic.clear (inv : net.Inv) (authentic : net.Authentic instanceID ev)
    (running : ev.state = .running) : net.Clear instanceID ev.queryID := by
  obtain ⟨_, found, owner, _⟩ := authentic (by rw [running]; rfl)
  intro sender other late listed same pending
  obtain ⟨_, found', owner', _⟩ := inv.authored.sent instanceID sender late listed
    (by rw [pending]; rfl)
  rw [same, found] at found'
  cases found'
  exact other (owner'.symm.trans owner)

variable {after : Net}

theorem Inv.announce (inv : net.Inv) {notice : Notice} {giveUp : Bool} {left : Option Notice}
    (taken : net.announce instanceID notice giveUp = some (after, left))
    (authentic : net.Authentic instanceID notice.event)
    (early : notice.event.state = .pending → ¬ net.Launched notice.event.queryID) :
    after.Inv ∧ after.runs = net.runs ∧ ∀ rest ∈ left, rest.event = notice.event := by
  cases notice with
  | deliver ev =>
    cases Option.some.inj taken
    change net.Authentic instanceID ev at authentic
    refine ⟨inv.deliverAt authentic.launched ?_ (authentic.clear inv), rfl, by simp [Notice.event]⟩
    intro pending ch listed seen logged running
    have own := (inv.posts instanceID).queryID_eq listed logged
    exact early pending (own ▸ inv.authored.logged instanceID ch seen logged running)
  | enqueue =>
    simp only [Net.announce, Option.map_eq_some_iff, Prod.mk.injEq] at taken
    obtain ⟨_, offered, rfl, rfl⟩ := taken
    rcases offer_cases offered with rfl | rfl
    · exact ⟨inv, rfl, by simp⟩
    · exact ⟨inv.push authentic early, rfl, by simp⟩

theorem Inv.control (inv : net.Inv) {senderID : String}
    (taken : net.bus.next instanceID = some ((senderID, ev), bus)) :
    (({ net with bus } : Net).control instanceID senderID ev).Inv := by
  have rest : ({ net with bus } : Net).Inv := inv.withBus (Bus.way_next_sublist taken)
  unfold Net.control
  split
  · exact rest
  · split
    · exact rest
    · rename_i foreign _
      have first : net.bus.way instanceID senderID = ev :: bus.way instanceID senderID := by
        rw [Bus.way_next taken, if_pos ⟨rfl, rfl⟩]
      have authentic : net.Authentic senderID ev :=
        inv.authored.sent instanceID senderID ev (first ▸ mem_cons_self)
      refine rest.deliverAt authentic.launched ?_ ?_
      · intro pending ch listed seen logged running
        exact (inv.posts instanceID).ahead _ ch listed seen logged running senderID foreign ev
          (first ▸ mem_cons_self) rfl pending
      · intro running sender other late listed same pending
        by_cases sameSender : sender = senderID
        · subst sameSender
          have ordered := inv.inOrder instanceID sender
          rw [first, pairwise_cons] at ordered
          exact ordered.1 late listed ⟨same.symm, running, pending⟩
        · obtain ⟨run, found, owner, _⟩ := authentic (by rw [running]; rfl)
          obtain ⟨run', found', owner', _⟩ := rest.authored.sent instanceID sender late listed
            (by rw [pending]; rfl)
          have sameRun : run' = run := by
            have found' : net.runs late.queryID = some run' := found'
            rw [same, found] at found'
            exact (Option.some.inj found').symm
          subst sameRun
          exact sameSender (owner'.symm.trans owner)

/-! ### The calls of `Watch` -/

theorem Inv.setCall (inv : net.Inv)
    (before : ∀ queryID, (net.posts instanceID).calls call ≠ some { queryID, phase := .returned })
    (snapshot : ∀ record, w.phase = .read record → record.state = .running → net.Launched w.queryID)
    : (net.setCall instanceID call w).Inv := by
  refine inv.setPost ((inv.posts instanceID).setCall before) ?_
    (inv.authored.logged instanceID)
  intro other w' record found
  rcases Tables.update_some_cases found with ⟨rfl, rfl⟩ | ⟨_, found⟩
  · exact snapshot record
  · exact inv.authored.snapshots instanceID other w' record found

theorem unreturned (found : (net.posts instanceID).calls call = some w)
    (phase : w.phase ≠ .returned) (queryID : String) :
    (net.posts instanceID).calls call ≠ some { queryID, phase := .returned } := by
  intro registered
  rw [found] at registered
  cases registered
  exact phase rfl

section
variable (inv : net.Inv)
include inv

theorem Inv.register (found : (net.posts instanceID).calls call = some w)
    (phase : w.phase = .read record) (caught : net.CaughtUp (.register instanceID call)) :
    (net.setPost instanceID { net.posts instanceID with
      hub := (net.posts instanceID).hub.register call (eventOf w.queryID record)
      calls := Function.update (net.posts instanceID).calls call
        (some { w with phase := .returned }) }).Inv := by
  have launched := inv.authored.snapshots instanceID call w record found phase
  have before := unreturned found (by simp [phase])
  have settled : record.state = .running → net.Clear instanceID w.queryID := by
    intro running sender other late listed same pending
    -- only the owner announces PENDING, and the condition is about its way
    obtain ⟨run, ran, owner, _⟩ := inv.authored.sent instanceID sender late listed
      (by rw [pending]; rfl)
    rw [same] at ran
    subst owner
    exact caught w found record (by rw [phase]; rfl) running run ran other late listed same pending
  refine inv.setPost ((inv.posts instanceID).register before settled) ?_ ?_
  · intro other w' record' found' phase'
    rcases Tables.update_some_cases found' with ⟨rfl, rfl⟩ | ⟨_, found'⟩
    · contradiction
    · exact inv.authored.snapshots instanceID other w' record' found' phase'
  · intro ch ev logged running
    rcases Hub.register_buffer (net.posts instanceID).hub call (eventOf w.queryID record) ch with
      kept | ⟨_, pushed⟩
    · rw [Post.log, kept] at logged
      exact inv.authored.logged instanceID ch ev logged running
    · rw [Post.log, pushed, ← append_assoc, mem_append] at logged
      rcases logged with old | new
      · exact inv.authored.logged instanceID ch ev old running
      · obtain rfl := mem_singleton.mp new
        exact launched running

theorem Inv.fewer {hub : Hub} {received : Nat → List QueryEvent}
    (subs : ∀ queryID, ∀ ch ∈ hub.subs queryID, ch ∈ (net.posts instanceID).hub.subs queryID)
    (logs : ∀ ch, received ch ++ (hub.channels ch).buffer = (net.posts instanceID).log ch) :
    (net.setPost instanceID { net.posts instanceID with hub, received }).Inv := by
  refine inv.setPost ((inv.posts instanceID).fewer subs logs)
    (inv.authored.snapshots instanceID) ?_
  intro ch ev logged
  rw [Post.log, logs] at logged
  exact inv.authored.logged instanceID ch ev logged

theorem Inv.advance (ran : net.runs queryID = some run)
    (same : record.id = run.record.id ∧ record.ownerInstanceID = run.record.ownerInstanceID)
    (launched : record.state ≠ .pending) (about : ev.queryID = queryID ∧ ev.state = record.state)
    (stored : Bool) :
    ((net.persist record stored).setRun queryID
      { run with record, notice := some (.deliver ev) }).Inv := by
  have id := same.1.trans (inv.authored.runs queryID run ran).1
  have moved : (net.setRun queryID { run with record, notice := some (.deliver ev) }).Inv := by
    refine inv.setRun id (by simp [Notice.event, about]) fun old found => ?_
    rw [ran] at found
    cases found
    exact ⟨same.2, fun _ => launched⟩
  exact moved.persist stored fun _ => ⟨_, by rw [id]; exact Function.update_self .., launched⟩

theorem Inv.step {backend : Backend} {action : NetAction} (caught : net.CaughtUp action)
    (taken : net.step backend action = some after) : after.Inv := by
  cases step_move taken with
  | submitted record fresh pending =>
    have begun : (net.setRun record.id { record, notice := some (.deliver
        { queryID := record.id, state := .pending }) }).Inv :=
      inv.setRun rfl (by simp [Notice.event, pending]) (by simp [fresh])
    exact begun.persist true (by simp [pending])
  | notified queryID _ run notice _ _ ran making announced =>
    obtain ⟨named, notices⟩ := inv.authored.runs queryID run ran
    obtain ⟨about, state⟩ := notices notice making
    obtain ⟨inv', runs, rest⟩ := inv.announce announced
      (fun _ => ⟨run, about.symm ▸ ran, rfl, fun running => by simp [← state, running]⟩)
      (by
        rintro pending ⟨run', found, launched⟩
        rw [about, ran] at found
        cases found
        exact launched (state.symm.trans pending))
    refine inv'.setRun named (fun further member => ?_) fun old found => ?_
    · rw [rest further member]
      exact ⟨about, state⟩
    · rw [runs, ran] at found
      cases found
      exact ⟨rfl, id⟩
  | started _ _ stored _ ran =>
    refine inv.advance ran ?_ ?_ ?_ stored
    · exact ⟨rfl, rfl⟩
    · exact QueryState.noConfusion
    · exact ⟨rfl, rfl⟩
  | progressed queryID stats run ran _ running =>
    change ((net.persist { run.record with stats } false).setRun queryID _).Inv
    refine inv.advance ran ?_ ?_ ?_ false
    · exact ⟨rfl, rfl⟩
    · simp [running]
    · exact ⟨rfl, rfl⟩
  | progressRefused => exact inv
  | progressStored queryID _ run ran running =>
    obtain ⟨named, _⟩ := inv.authored.runs queryID run ran
    exact inv.store fun _ => ⟨run, named.symm ▸ ran, by simp [running]⟩
  | completed _ _ _ _ _ stored _ ran _ _ terminal =>
    refine inv.advance ran ?_ ?_ ?_ stored
    · exact ⟨rfl, rfl⟩
    · rintro rfl
      exact absurd terminal (by decide)
    · exact ⟨rfl, rfl⟩
  | deregistered queryID run ran =>
    obtain ⟨named, notices⟩ := inv.authored.runs queryID run ran
    refine inv.setRun named notices fun old found => ?_
    rw [ran] at found
    cases found
    exact ⟨rfl, id⟩
  | expired =>
    exact (inv.store (by simp)).setWorker (by simp [Notice.event, QueryState.isTerminal])
  | condemned =>
    exact (inv.store (by simp [Cluster.ownerLost])).setWorker
      (by simp [Notice.event, QueryState.isTerminal])
  | read | passedOver => exact inv.setWorker (by simp)
  | workerNotified worker _ instanceID notice _ _ working announced =>
    have terminal := inv.authored.workers worker instanceID notice working
    obtain ⟨inv', _, rest⟩ := inv.announce announced
      (fun active => by simp [terminal] at active)
      (fun pending => by simp [pending, QueryState.isTerminal] at terminal)
    refine inv'.setWorker fun other further same => ?_
    obtain ⟨notice', member, equal⟩ := Option.map_eq_some_iff.mp same
    cases equal
    rw [rest _ member]
    exact terminal
  | removed =>
    refine inv.withStore fun other record found => ?_
    exact inv.authored.stored other record (Tables.lookup_of_erase found)
  | carried _ _ fewer => exact inv.withBus fewer
  | controlled _ _ _ _ first => exact inv.control first
  | watched _ _ _ unused => exact inv.setCall (by simp [unused]) (by simp)
  | answered _ _ w _ found begun got =>
    refine inv.setCall (unreturned found (by simp [begun])) ?_
    intro read phase running
    cases phase
    obtain ⟨stored, deadline, lookup, rfl⟩ := net.store.getQuery_eq_some got
    exact inv.authored.stored w.queryID stored lookup running
  | unanswered _ _ _ _ found begun =>
    exact inv.setCall (unreturned found (by simp [begun])) (by simp)
  | registered _ _ _ _ found phase => exact inv.register found phase caught
  | unwatched instanceID call w =>
    refine inv.fewer (fun _ _ listed => (Hub.mem_dropWatcherLocked_subs.mp listed).1) fun ch => ?_
    rw [Hub.unwatch, Hub.dropWatcherLocked_buffer, Post.log]
  | received _ call _ _ received =>
    obtain ⟨rest, held, rfl⟩ := Hub.receive_eq_some received
    refine inv.fewer (fun _ _ listed => listed) fun ch => ?_
    by_cases same : ch = call
    · subst same
      simp [Hub.setChannel, Post.log, held]
    · simp [Hub.setChannel, Post.log, same]

end

/-! ## Every run -/

/-- In every run whose registrations are caught up: what a subscriber receives is about one
query, and from each state it receives steps of `CanTransitionTo` lead to every later
one. -/
theorem subscriber_never_sees_regress (backend : Backend) (net : Net)
    (run : Runs.Reaches (step backend) CaughtUp {} net) (instanceID : String) (call : Nat) :
    ((net.posts instanceID).received call).Pairwise fun earlier later =>
      earlier.queryID = later.queryID ∧ Leads earlier.state later.state := by
  have inv : net.Inv := run.invariant Inv Inv.initial fun _ _ _ inv caught taken =>
    inv.step caught taken
  have orderly := inv.posts instanceID
  have taken : ((net.posts instanceID).received call).Sublist ((net.posts instanceID).log call) :=
    sublist_append_left _ _
  refine ((orderly.ordered call).sublist taken).imp_of_mem ?_
  intro earlier later first second leads
  have same := (orderly.own call earlier (taken.subset first)).symm.trans
    (orderly.own call later (taken.subset second))
  exact ⟨by simpa using same, leads⟩

/-- Query `q`, which instance `a` executes, up to its `PENDING` announcement in the publish
queue. -/
def announced : List NetAction :=
  [.submit (Board.sampleRecord .pending), .notify "q" false, .notify "q" false]

def passed : List NetAction := [.take "a", .publish "a" true, .control "b"]

def started : List NetAction := [.start "q" 2 true, .notify "q" false, .notify "q" false]

def subscribed : List NetAction := [.watch "b" 0 "q", .getQuery "b" 0 true, .register "b" 0]

def completed : List NetAction :=
  [.complete "q" .succeeded {} none 3 true, .notify "q" false, .notify "q" false]

theorem caught_up_subscriber_sees_progress :
    ∃ net, Runs.Reaches (step .redis) CaughtUp {} net ∧
      ((net.posts "b").received 0).map (·.state) = [.running, .running, .succeeded] ∧
      ((net.posts "b").received 0).Pairwise fun earlier later =>
        earlier.queryID = later.queryID ∧ Leads earlier.state later.state := by
  obtain ⟨net, reached, seen⟩ : ∃ net, Runs.Reaches (step .redis) CaughtUp {} net ∧
      ((net.posts "b").received 0).map (·.state) = [.running, .running, .succeeded] :=
    Runs.exists_reaches (announced ++ passed ++ started ++ subscribed ++ passed ++ completed ++
      passed ++ [.receive "b" 0, .receive "b" 0, .receive "b" 0]) (by decide +kernel)
  exact ⟨net, reached, seen, subscriber_never_sees_regress .redis net reached "b" 0⟩

/-- A subscription through `b` that reads `RUNNING` while the `PENDING` announcement is
still in the publish queue of `a`. -/
theorem late_announcement_goes_back :
    ∃ net, Runs.Reaches (step .redis) Runs.Always {} net ∧
      ((net.posts "b").received 0).map (·.state) = [.running, .pending] ∧
      ¬ Leads .running .pending := by
  obtain ⟨net, reached, seen⟩ : ∃ net, Runs.Reaches (step .redis) Runs.Always {} net ∧
      ((net.posts "b").received 0).map (·.state) = [.running, .pending] :=
    Runs.exists_reaches (announced ++ started ++ subscribed ++ passed ++
      [.receive "b" 0, .receive "b" 0]) (by decide +kernel)
  exact ⟨net, reached, seen, fun leads => ne_pending_of_leads leads (by decide) rfl⟩

end Net

end DbBridge.Watch
