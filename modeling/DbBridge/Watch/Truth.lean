import DbBridge.Watch.Moves

/-!
# What is said about the end of a query

As long as the MetaStore takes what the goroutine of a query stores, and neither the
collector nor an owner reaper writes to its record, every terminal event about the query
and every terminal record of it that anybody has seen was preceded by the goroutine's own
terminal record.
-/

namespace DbBridge.Watch

open Domain State
open Cluster (ownerLost ownerLostExpected)

def Pass.record? : Pass → Option QueryRecord
  | .read record => some record
  | .notifying _ => none

namespace Net

def Over (net : Net) (queryID : String) : Prop :=
  ∃ run, net.runs queryID = some run ∧ run.record.state.isTerminal = true

def Honest (net : Net) (queryID : String) (ev : QueryEvent) : Prop :=
  ev.queryID = queryID → ev.state.isTerminal = true → net.Over queryID

def Filed (net : Net) (queryID : String) : Prop :=
  ∀ run, net.runs queryID = some run → ∃ record,
    net.store.queries.lookup queryID = some record ∧ record.state = run.record.state ∧
      (run.record.state.isTerminal = true → record = { run.record with leaseDeadline := 0 })

structure Truthful (queryID : String) (net : Net) : Prop where
  named : ∀ id run, net.runs id = some run → run.record.id = id ∧
    ∀ notice ∈ run.notice, notice.event.queryID = id ∧ notice.event.state = run.record.state
  filed : net.Filed queryID
  begun : net.store.has queryID = true → (net.runs queryID).isSome = true
  quiet : ∀ worker instanceID notice,
    net.workers worker = some (instanceID, .notifying notice) → notice.event.queryID ≠ queryID
  sent : ∀ receiver sender, ∀ ev ∈ net.bus.way receiver sender, net.Honest queryID ev
  buffered : ∀ instanceID ch, ∀ ev ∈ ((net.posts instanceID).hub.channels ch).buffer,
    net.Honest queryID ev
  snapshots : ∀ instanceID call w record, (net.posts instanceID).calls call = some w →
    w.phase = .read record → net.Honest queryID (eventOf w.queryID record)

variable {after : Net}

namespace Truthful

variable {queryID : String} {net : Net} {record : QueryRecord} {id : String} {run : Run}
  {ev : QueryEvent} {instanceID : String}

theorem initial (queryID : String) : Truthful queryID {} := by
  refine ⟨?_, ?_, ?_, ?_, ?_, ?_, ?_⟩ <;>
    simp [Filed, MetaStore.has, MetaStore.empty, Bus.way]

theorem over_of_stored (truthful : Truthful queryID net)
    (lookup : net.store.queries.lookup queryID = some record)
    (terminal : record.state.isTerminal = true) : net.Over queryID := by
  obtain ⟨run, ran⟩ := Option.isSome_iff_exists.mp
    (truthful.begun (by simp [MetaStore.has, lookup]))
  obtain ⟨_, found, same, _⟩ := truthful.filed run ran
  rw [lookup] at found
  cases found
  exact ⟨run, ran, same ▸ terminal⟩

variable {notice : Notice}

theorem honest_notice (truthful : Truthful queryID net) (ran : net.runs id = some run)
    (making : run.notice = some notice) : net.Honest queryID notice.event := by
  obtain ⟨about, state⟩ := (truthful.named id run ran).2 notice making
  intro own terminal
  rw [about] at own
  subst own
  exact ⟨run, ran, state ▸ terminal⟩

theorem said (truthful : Truthful queryID net) (ev : QueryEvent) (source : net.Says ev) :
    net.Honest queryID ev := by
  cases source with
  | run _ _ ran making => exact truthful.honest_notice ran making
  | worker worker instanceID working =>
    exact fun own => absurd own (truthful.quiet worker instanceID _ working)
  | message receiver sender listed => exact truthful.sent receiver sender ev listed

/-! ## The parts of a state -/

section
variable (truthful : Truthful queryID net)
include truthful

theorem mono (named : ∀ id run, after.runs id = some run → run.record.id = id ∧
      ∀ notice ∈ run.notice, notice.event.queryID = id ∧ notice.event.state = run.record.state)
    (filed : after.Filed queryID)
    (begun : after.store.has queryID = true → (after.runs queryID).isSome = true)
    (finished : net.Over queryID → after.Over queryID) (workers : after.workers = net.workers)
    (bus : after.bus = net.bus) (posts : after.posts = net.posts) : Truthful queryID after := by
  have honest : ∀ ev, net.Honest queryID ev → after.Honest queryID ev :=
    fun ev honest about terminal => finished (honest about terminal)
  refine ⟨named, filed, begun, workers ▸ truthful.quiet, ?_, ?_, ?_⟩
  · rw [bus]
    exact fun receiver sender ev listed => honest ev (truthful.sent receiver sender ev listed)
  · rw [posts]
    exact fun instanceID ch ev listed => honest ev (truthful.buffered instanceID ch ev listed)
  · rw [posts]
    exact fun instanceID call w record found phase =>
      honest _ (truthful.snapshots instanceID call w record found phase)

theorem named_setRun
    (named : run.record.id = id ∧ ∀ notice ∈ run.notice, notice.event.queryID = id ∧
      notice.event.state = run.record.state) (other : String) (current : Run)
    (found : Function.update net.runs id (some run) other = some current) :
    current.record.id = other ∧ ∀ notice ∈ current.notice, notice.event.queryID = other ∧
      notice.event.state = current.record.state := by
  rcases Tables.update_some_cases found with ⟨rfl, rfl⟩ | ⟨_, found⟩
  · exact named
  · exact truthful.named other current found

theorem advance {stored : Bool} (named : record.id = id) (same : run.record = record)
    (notices : ∀ notice ∈ run.notice, notice.event.queryID = id ∧ notice.event.state =
      run.record.state)
    (onward : ∀ old, net.runs id = some old → old.record.state.isTerminal = false)
    (taken : id = queryID → stored = true) :
    Truthful queryID ((net.persist record stored).setRun id run) := by
  subst named same
  by_cases own : queryID = run.record.id
  · subst own
    obtain rfl := taken rfl
    refine truthful.mono (truthful.named_setRun ⟨rfl, notices⟩) ?_ ?_ ?_ rfl rfl rfl
    · intro current found
      simp only [setRun, Function.update_self, Option.some.injEq] at found
      subst found
      exact ⟨_, net.store.store_lookup_self run.record, rfl, fun _ => rfl⟩
    · simp [setRun]
    · rintro ⟨old, ran, terminal⟩
      rw [onward old ran] at terminal
      contradiction
  · have lookup : (net.persist run.record stored).store.queries.lookup queryID =
        net.store.queries.lookup queryID := by
      cases stored with
      | false => rfl
      | true => exact net.store.store_lookup_of_ne run.record own
    have same : ((net.persist run.record stored).setRun run.record.id run).runs queryID =
        net.runs queryID := by
      simp [setRun, persist, own]
    refine truthful.mono (truthful.named_setRun ⟨rfl, notices⟩) ?_ ?_ ?_ rfl rfl rfl
    · intro current found
      rw [same] at found
      obtain ⟨record, filed, rest⟩ := truthful.filed current found
      exact ⟨record, lookup.trans filed, rest⟩
    · intro has
      rw [same]
      apply truthful.begun
      rw [MetaStore.has, ← lookup]
      exact has
    · rintro ⟨old, ran, terminal⟩
      exact ⟨old, same.trans ran, terminal⟩

theorem setRun {old : Run} (ran : net.runs id = some old) (same : run.record.id = old.record.id)
    (state : run.record.state = old.record.state)
    (settled : old.record.state.isTerminal = true → run.record = old.record)
    (notices : ∀ notice ∈ run.notice, notice.event.queryID = id ∧ notice.event.state =
      run.record.state) : Truthful queryID (net.setRun id run) := by
  have named := same.trans (truthful.named id old ran).1
  have own : ∀ current, (net.setRun id run).runs queryID = some current →
      ∃ before, net.runs queryID = some before ∧
        current.record.state = before.record.state ∧
        (before.record.state.isTerminal = true → current.record = before.record) := by
    intro current found
    rcases Tables.update_some_cases found with ⟨rfl, rfl⟩ | ⟨_, found⟩
    · exact ⟨old, ran, state, settled⟩
    · exact ⟨current, found, rfl, fun _ => rfl⟩
  refine truthful.mono (truthful.named_setRun ⟨named, notices⟩) ?_ ?_ ?_ rfl rfl rfl
  · intro current found
    obtain ⟨before, earlier, unmoved, settled⟩ := own current found
    obtain ⟨record, lookup, state, filed⟩ := truthful.filed before earlier
    refine ⟨record, lookup, state.trans unmoved.symm, fun terminal => ?_⟩
    rw [unmoved] at terminal
    rw [settled terminal]
    exact filed terminal
  · intro has
    by_cases own : queryID = id
    · subst own
      simp [Net.setRun]
    · simpa [Net.setRun, own] using truthful.begun has
  · rintro ⟨before, earlier, terminal⟩
    by_cases own : queryID = id
    · subst own
      rw [ran] at earlier
      cases earlier
      exact ⟨run, by simp [Net.setRun], state ▸ terminal⟩
    · exact ⟨before, by simpa [Net.setRun, own] using earlier, terminal⟩

theorem withStore {store : MetaStore} (filed : ({ net with store } : Net).Filed queryID)
    (has : store.has queryID = true → net.store.has queryID = true) :
    Truthful queryID { net with store } :=
  truthful.mono truthful.named filed (fun stored => truthful.begun (has stored)) id rfl rfl rfl

theorem store_other (other : record.id ≠ queryID) :
    Truthful queryID { net with store := net.store.store record } := by
  apply truthful.withStore
  · intro run ran
    obtain ⟨stored, lookup, rest⟩ := truthful.filed run ran
    exact ⟨stored, (net.store.store_lookup_of_ne record other.symm).trans lookup, rest⟩
  · intro has
    exact ((net.store.store_has_iff record queryID).mp has).resolve_left other.symm

theorem setWorker {worker : Nat} {pass : Option (String × Pass)}
    (quiet : ∀ instanceID notice, pass = some (instanceID, .notifying notice) →
      notice.event.queryID ≠ queryID) : Truthful queryID (net.setWorker worker pass) := by
  refine ⟨truthful.named, truthful.filed, truthful.begun, ?_, truthful.sent, truthful.buffered,
    truthful.snapshots⟩
  intro other instanceID notice found
  rcases Tables.update_cases found with ⟨rfl, put⟩ | ⟨_, found⟩
  · exact quiet instanceID notice put
  · exact truthful.quiet other instanceID notice found

variable {bus : Bus String QueryEvent}

theorem withBus (sent : ∀ receiver sender, ∀ ev ∈ bus.way receiver sender, net.Honest queryID ev) :
    Truthful queryID { net with bus } :=
  ⟨truthful.named, truthful.filed, truthful.begun, truthful.quiet, sent, truthful.buffered,
    truthful.snapshots⟩

theorem push {node : String} (honest : net.Honest queryID ev) :
    Truthful queryID { net with bus := net.bus.push node ev } := by
  apply truthful.withBus
  intro receiver sender seen listed
  rw [Bus.way_push] at listed
  split at listed
  · rcases List.mem_append.mp listed with old | new
    · exact truthful.sent receiver sender seen old
    · exact List.mem_singleton.mp new ▸ honest
  · exact truthful.sent receiver sender seen listed

theorem setPost {post : Post}
    (buffered : ∀ ch, ∀ ev ∈ (post.hub.channels ch).buffer, net.Honest queryID ev)
    (snapshots : ∀ call w record, post.calls call = some w → w.phase = .read record → net.Honest
      queryID (eventOf w.queryID record)) : Truthful queryID (net.setPost instanceID post) := by
  refine ⟨truthful.named, truthful.filed, truthful.begun, truthful.quiet, truthful.sent, ?_, ?_⟩
  · intro other ch ev listed
    rw [setPost_posts] at listed
    split at listed
    · exact buffered ch ev listed
    · exact truthful.buffered other ch ev listed
  · intro other call w record found
    rw [setPost_posts] at found
    split at found
    · exact snapshots call w record found
    · exact truthful.snapshots other call w record found

theorem deliverAt (honest : net.Honest queryID ev) :
    Truthful queryID (net.deliverAt instanceID ev) := by
  refine truthful.setPost ?_ (truthful.snapshots instanceID)
  intro ch seen listed
  obtain ⟨_, buffer, _⟩ := Hub.deliverEvent_buffer (net.posts instanceID).hub ev ch
  rw [buffer, List.mem_append, List.mem_replicate] at listed
  rcases listed with old | ⟨_, rfl⟩
  · exact truthful.buffered instanceID ch seen old
  · exact honest

theorem announce {giveUp : Bool} {left : Option Notice}
    (taken : net.announce instanceID notice giveUp = some (after, left))
    (honest : net.Honest queryID notice.event) : Truthful queryID after ∧ after.runs = net.runs ∧
      ∀ rest ∈ left, rest.event = notice.event := by
  cases notice with
  | deliver =>
    cases Option.some.inj taken
    exact ⟨truthful.deliverAt honest, rfl, by simp [Notice.event]⟩
  | enqueue =>
    simp only [Net.announce, Option.map_eq_some_iff, Prod.mk.injEq] at taken
    obtain ⟨_, offered, rfl, rfl⟩ := taken
    rcases offer_cases offered with rfl | rfl
    · exact ⟨truthful, rfl, by simp⟩
    · exact ⟨truthful.push honest, rfl, by simp⟩

theorem setCall {call : Nat} {w : WatchCall}
    (snapshot : ∀ record, w.phase = .read record → net.Honest queryID (eventOf w.queryID record)) :
    Truthful queryID (net.setCall instanceID call w) := by
  refine truthful.setPost (truthful.buffered instanceID) ?_
  intro other w' record found
  rcases Tables.update_some_cases found with ⟨rfl, rfl⟩ | ⟨_, found⟩
  · exact snapshot record
  · exact truthful.snapshots instanceID other w' record found

theorem honest_read (got : net.store.getQuery id = some record) :
    net.Honest queryID (eventOf id record) := by
  intro own terminal
  obtain ⟨_, _, lookup, rfl⟩ := net.store.getQuery_eq_some got
  exact truthful.over_of_stored (own ▸ lookup) terminal

theorem first_honest {senderID : String}
    (first : net.bus.next instanceID = some ((senderID, ev), bus)) : net.Honest queryID ev := by
  apply truthful.sent instanceID senderID ev
  rw [Bus.way_next first, if_pos ⟨rfl, rfl⟩]
  exact List.mem_cons_self

end

end Truthful

/-! ## Steps -/

/-- What is assumed of the steps that touch the record of the query: `persist` gets through,
and nobody collects the query or stores an owner-lost verdict for it. -/
def Undisturbed (queryID : String) (net : Net) : NetAction → Prop
  | .start id _ stored | .complete id _ _ _ _ stored => id = queryID → stored = true
  | .expire worker => ∀ pass ∈ net.workers worker, ∀ record ∈ pass.2.record?, record.id ≠ queryID
  | .failOwnerLost worker now => ∀ pass ∈ net.workers worker, ∀ record ∈ pass.2.record?,
      record.id = queryID → (net.store.updateQueryIfState (ownerLost record now)
        ownerLostExpected).map Prod.fst ≠ some true
  | .remove id => id ≠ queryID
  | _ => True

instance (queryID : String) (net : Net) (action : NetAction) :
    Decidable (net.Undisturbed queryID action) := by
  unfold Undisturbed
  split <;> infer_instance

theorem Truthful.step {queryID : String} {net : Net} {action : NetAction}
    (truthful : Truthful queryID net) (undisturbed : net.Undisturbed queryID action)
    (move : NetMove net action after) : Truthful queryID after := by
  cases move with
  | submitted _ fresh pending =>
    refine truthful.advance rfl rfl ?_ ?_ fun _ => rfl
    · simp [Notice.event, pending]
    · simp [fresh]
  | notified id _ run notice _ _ ran making announced =>
    obtain ⟨named, notices⟩ := truthful.named id run ran
    obtain ⟨kept, runs, rest⟩ := truthful.announce announced (truthful.honest_notice ran making)
    rw [← runs] at ran
    refine kept.setRun ran rfl rfl (fun _ => rfl) ?_
    intro further member
    rw [rest further member]
    exact notices notice making
  | progressed _ _ _ ran _ running =>
    refine truthful.setRun ran rfl rfl ?_ (by simp [Notice.event])
    intro terminal
    rw [running] at terminal
    contradiction
  | progressRefused => exact truthful
  | progressStored id _ run ran running =>
    obtain ⟨rfl, _⟩ := truthful.named id run ran
    by_cases own : run.record.id = queryID
    · subst own
      apply truthful.withStore
      · intro current found
        rw [show net.runs run.record.id = some current from found] at ran
        cases ran
        refine ⟨_, net.store.store_lookup_self _, rfl, fun terminal => ?_⟩
        rw [running] at terminal
        contradiction
      · intro _
        obtain ⟨_, lookup, _⟩ := truthful.filed run ran
        simp [MetaStore.has, lookup]
    · exact truthful.store_other own
  | started id _ _ run ran _ pending | completed id _ _ _ _ _ run ran _ pending =>
    refine truthful.advance (truthful.named id run ran).1 rfl ?_ ?_ undisturbed
    · simp [Notice.event]
    · intro old found
      rw [found] at ran
      cases ran
      rw [pending]
      rfl
  | deregistered id run ran =>
    exact truthful.setRun ran rfl rfl (fun _ => rfl) (truthful.named id run ran).2
  | expired _ _ record working =>
    have other := undisturbed _ working record rfl
    refine Truthful.setWorker (truthful.store_other ?_) ?_
    · exact other
    · rintro _ _ ⟨⟩
      exact other
  | condemned _ _ _ record working written =>
    have other : record.id ≠ queryID := fun own =>
      undisturbed _ working record rfl own (by rw [written]; rfl)
    refine Truthful.setWorker (truthful.store_other ?_) ?_
    · exact other
    · rintro _ _ ⟨⟩
      exact other
  | read | passedOver => exact truthful.setWorker (by simp)
  | workerNotified worker _ instanceID notice _ _ working announced =>
    have other := truthful.quiet worker instanceID notice working
    obtain ⟨kept, _, rest⟩ := truthful.announce announced fun own => absurd own other
    refine kept.setWorker fun _ further same => ?_
    obtain ⟨_, member, equal⟩ := Option.map_eq_some_iff.mp same
    cases equal
    rw [rest _ member]
    exact other
  | removed id =>
    have other : queryID ≠ id := Ne.symm undisturbed
    apply truthful.withStore
    · intro run ran
      obtain ⟨record, lookup, rest⟩ := truthful.filed run ran
      exact ⟨record, (AList.lookup_erase_ne other).trans lookup, rest⟩
    · exact net.store.has_of_deleteQuery_has
  | carried _ _ fewer =>
    exact truthful.withBus fun receiver sender ev listed =>
      truthful.sent receiver sender ev ((fewer receiver sender).subset listed)
  | controlled _ _ ev bus first =>
    have rest : Truthful queryID { net with bus } :=
      truthful.withBus fun receiver sender ev listed =>
        truthful.sent receiver sender ev ((Bus.way_next_sublist first receiver sender).subset
          listed)
    unfold Net.control
    split
    · exact rest
    · split
      · exact rest
      · exact rest.deliverAt (truthful.first_honest first)
  | answered _ _ _ _ _ _ got =>
    apply truthful.setCall
    intro read phase
    cases phase
    exact truthful.honest_read got
  | watched | unanswered => exact truthful.setCall (by simp)
  | registered instanceID call w record found phase =>
    have honest := truthful.snapshots instanceID call w record found phase
    apply truthful.setPost
    · intro ch ev listed
      rcases Hub.register_buffer (net.posts instanceID).hub call (eventOf w.queryID record) ch
        with kept | ⟨_, pushed⟩
      · rw [kept] at listed
        exact truthful.buffered instanceID ch ev listed
      · rw [pushed, List.mem_append] at listed
        rcases listed with old | new
        · exact truthful.buffered instanceID ch ev old
        · exact List.mem_singleton.mp new ▸ honest
    · intro other w' record' found' phase'
      rcases Tables.update_some_cases found' with ⟨rfl, rfl⟩ | ⟨_, found'⟩
      · contradiction
      · exact truthful.snapshots instanceID other w' record' found' phase'
  | unwatched instanceID =>
    refine truthful.setPost ?_ (truthful.snapshots instanceID)
    intro ch ev listed
    rw [Hub.unwatch, Hub.dropWatcherLocked_buffer] at listed
    exact truthful.buffered instanceID ch ev listed
  | received instanceID call ev _ taken =>
    obtain ⟨rest, held, rfl⟩ := Hub.receive_eq_some taken
    refine truthful.setPost ?_ (truthful.snapshots instanceID)
    intro ch seen listed
    apply truthful.buffered instanceID ch seen
    by_cases same : ch = call
    · subst same
      rw [held]
      simp only [Hub.setChannel, Function.update_self] at listed
      exact List.mem_cons_of_mem ev listed
    · simpa [Hub.setChannel, same] using listed

end Net

end DbBridge.Watch
