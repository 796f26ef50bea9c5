import DbBridge.Lib.Runs
import DbBridge.State.Records
import DbBridge.Watch.Hub

/-!
# `Watch` against the completion of a query

On the instance that executes a query, `complete` stores the terminal record and
then delivers the terminal event, while `Watch` reads the record and then
registers its channel. Other goroutines and instances may store records and
deliver events at any time.
-/

namespace DbBridge.Watch

open Domain State

/-- The position of a `Watch` call; its channel bears the call's number. -/
inductive WatchPhase where
  | begun
  | read (record : QueryRecord)
  | returned
  | failed
  deriving DecidableEq, Repr

def WatchPhase.snapshot? : WatchPhase → Option QueryRecord
  | .read record => some record
  | _ => none

structure WatchCall where
  queryID : String
  phase : WatchPhase := .begun
  deriving DecidableEq, Repr

inductive Author where
  | absent
  | executing
  | persisted (ev : QueryEvent)
  | delivered
  deriving DecidableEq, Repr

structure Board where
  store : MetaStore := .empty
  hub : Hub := {}
  calls : Nat → Option WatchCall := fun _ => none
  authors : String → Author := fun _ => .absent

/-- `write`, `remove` and `announce` are everybody else: the other writers of
records, and events that come from other goroutines or over the control channel. -/
inductive BoardAction where
  | launch (queryID : String)
  | persist (record : QueryRecord) (stored : Bool)
  | deliver (queryID : String)
  | write (record : QueryRecord)
  | remove (id : String)
  | announce (ev : QueryEvent)
  | watch (call : Nat) (queryID : String)
  | getQuery (call : Nat) (ok : Bool)
  | register (call : Nat)
  | unwatch (call : Nat)
  | receive (call : Nat)
  deriving DecidableEq

def eventOf (queryID : String) (record : QueryRecord) : QueryEvent where
  queryID := queryID
  state := record.state
  stats := record.stats
  error := record.error

namespace Board

def setCall (b : Board) (call : Nat) (w : WatchCall) : Board :=
  { b with calls := Function.update b.calls call (some w) }

def setAuthor (b : Board) (queryID : String) (author : Author) : Board :=
  { b with authors := Function.update b.authors queryID author }

def readCall (b : Board) (w : WatchCall) (ok : Bool) : WatchPhase :=
  match ok, b.store.getQuery w.queryID with
  | true, some record => .read record
  | _, _ => .failed

def step (b : Board) : BoardAction → Option Board
  | .launch queryID =>
    if b.authors queryID = .absent then some (b.setAuthor queryID .executing) else none
  -- complete goes on to its event even when persist gave up
  | .persist record stored =>
    if b.authors record.id = .executing ∧ record.state.isTerminal then
      some ({ b with store := if stored then b.store.putQuery record else b.store }.setAuthor
        record.id (.persisted (eventOf record.id record)))
    else none
  | .deliver queryID =>
    match b.authors queryID with
    | .persisted ev =>
      some ({ b with hub := b.hub.deliverEvent ev }.setAuthor queryID .delivered)
    | _ => none
  | .write record => some { b with store := b.store.putQuery record }
  | .remove id => some { b with store := b.store.deleteQuery id }
  | .announce ev => some { b with hub := b.hub.deliverEvent ev }
  | .watch call queryID =>
    match b.calls call with
    | some _ => none
    | none => some (b.setCall call { queryID })
  | .getQuery call ok => do
      let w ← b.calls call
      if w.phase = .begun then some (b.setCall call { w with phase := b.readCall w ok })
      else none
  | .register call => do
      let w ← b.calls call
      match w.phase with
      | .read record =>
        let hub := b.hub.register call (eventOf w.queryID record)
        some ({ b with hub := hub }.setCall call { w with phase := .returned })
      | _ => none
  | .unwatch call => do
      let w ← b.calls call
      if w.phase = .returned then some { b with hub := b.hub.unwatch w.queryID call } else none
  | .receive call => do
      let (_, hub) ← b.hub.receive call
      some { b with hub := hub }

/-- The condition on a step: a snapshot that is not terminal is registered before
the terminal event is delivered. -/
def Timely (b : Board) : BoardAction → Prop
  | .register call => ∀ w ∈ b.calls call, ∀ record ∈ w.phase.snapshot?,
      record.state.isTerminal = false → b.authors w.queryID ≠ .delivered
  | _ => True

instance (b : Board) (action : BoardAction) : Decidable (Timely b action) := by
  unfold Timely
  split <;> infer_instance

def Author.Sound (queryID : String) : Author → Prop
  | .persisted ev => ev.queryID = queryID ∧ ev.state.isTerminal = true
  | _ => True

structure Inv (b : Board) : Prop where
  author : ∀ queryID, Author.Sound queryID (b.authors queryID)
  member : ∀ queryID ch, ch ∈ b.hub.subs queryID →
    b.calls ch = some { queryID, phase := .returned } ∧ (b.hub.channels ch).closed = false
  returned : ∀ ch queryID, b.calls ch = some { queryID, phase := .returned } →
    ch ∈ b.hub.subs queryID ∨ (b.hub.channels ch).closed = true
  fresh : ∀ ch, (∀ queryID, b.calls ch ≠ some { queryID, phase := .returned }) →
    (b.hub.channels ch).closed = false
  delivered : ∀ queryID, b.authors queryID = .delivered → b.hub.subs queryID = []

theorem Inv.initial : Inv {} where
  author := fun _ => trivial
  member := by simp [Hub.subs]
  returned := by simp
  fresh := by simp
  delivered := by simp

section
variable {b : Board} (inv : Inv b)
include inv

theorem Inv.deliverEvent (ev : QueryEvent) : Inv { b with hub := b.hub.deliverEvent ev } where
  author := inv.author
  member := by
    intro queryID ch found
    obtain ⟨found, unaffected⟩ := Hub.mem_deliverEvent_subs.mp found
    obtain ⟨call, opened⟩ := inv.member queryID ch found
    refine ⟨call, ?_⟩
    rw [← Bool.not_eq_true, Hub.deliverEvent_closed]
    rintro (⟨terminal, reached⟩ | closed)
    · -- a channel is registered for one query only
      obtain ⟨other, _⟩ := inv.member ev.queryID ch reached
      rw [call] at other
      cases other
      exact unaffected ⟨terminal, rfl⟩
    · rw [opened] at closed
      contradiction
  returned := by
    intro ch queryID call
    rw [Hub.deliverEvent_subs, Hub.deliverEvent_closed]
    rcases inv.returned ch queryID call with member | closed
    · split
      · rename_i ended
        obtain ⟨terminal, rfl⟩ := ended
        exact .inr (.inl ⟨terminal, member⟩)
      · exact .inl member
    · exact .inr (.inr closed)
  fresh := by
    intro ch unreturned
    rw [← Bool.not_eq_true, Hub.deliverEvent_closed]
    rintro (⟨_, reached⟩ | closed)
    · exact unreturned _ (inv.member _ ch reached).1
    · rw [inv.fresh ch unreturned] at closed
      contradiction
  delivered := by
    intro queryID done
    rw [Hub.deliverEvent_subs, inv.delivered queryID done]
    split <;> rfl

theorem Inv.setAuthor {queryID : String} {author : Author} (sound : Author.Sound queryID author)
    (emptied : author = .delivered → b.hub.subs queryID = []) :
    Inv (b.setAuthor queryID author) where
  author := by
    intro other
    by_cases same : other = queryID
    · subst same
      simpa [Board.setAuthor] using sound
    · simpa [Board.setAuthor, Function.update_of_ne same] using inv.author other
  member := inv.member
  returned := inv.returned
  fresh := inv.fresh
  delivered := by
    intro other done
    rcases Tables.update_cases done with ⟨rfl, ended⟩ | ⟨_, done⟩
    · exact emptied ended
    · exact inv.delivered other done

variable {call : Nat} {w : WatchCall}

theorem Inv.setCall (before : ∀ queryID, b.calls call ≠ some { queryID, phase := .returned })
    (after : w.phase ≠ .returned) : Inv (b.setCall call w) where
  author := inv.author
  member := by
    intro queryID ch found
    obtain ⟨registered, opened⟩ := inv.member queryID ch found
    have ne : ch ≠ call := by
      rintro rfl
      exact before queryID registered
    exact ⟨by simpa [Board.setCall, Function.update_of_ne ne] using registered, opened⟩
  returned := by
    intro ch queryID registered
    rcases Tables.update_some_cases registered with ⟨rfl, rfl⟩ | ⟨_, registered⟩
    · exact absurd rfl after
    · exact inv.returned ch queryID registered
  fresh := by
    intro ch unreturned
    by_cases same : ch = call
    · subst same
      exact inv.fresh ch before
    · exact inv.fresh ch fun queryID => by
        simpa [Board.setCall, Function.update_of_ne same] using unreturned queryID
  delivered := inv.delivered

theorem Inv.register {record : QueryRecord} (found : b.calls call = some w)
    (phase : w.phase = .read record)
    (timely : record.state.isTerminal = false → b.authors w.queryID ≠ .delivered) :
    Inv ({ b with hub := b.hub.register call (eventOf w.queryID record) }.setCall call
      { w with phase := .returned }) := by
  have unreturned : ∀ queryID, b.calls call ≠ some { queryID, phase := .returned } := by
    intro queryID registered
    rw [found] at registered
    cases registered
    contradiction
  have opened := inv.fresh call unreturned
  have absent : ∀ queryID, call ∉ b.hub.subs queryID := fun queryID member =>
    unreturned queryID (inv.member queryID call member).1
  refine ⟨inv.author, ?_, ?_, ?_, ?_⟩
  · intro queryID ch member
    change ch ∈ (b.hub.register call (eventOf w.queryID record)).subs queryID at member
    show _ ∧ ((b.hub.register call (eventOf w.queryID record)).channels ch).closed = false
    rw [Hub.register_closed]
    rcases Hub.mem_register_subs.mp member with ⟨before, _⟩ | ⟨rfl, rfl, running⟩
    · have same : ch ≠ call := fun same => absent queryID (same ▸ before)
      obtain ⟨registered, still⟩ := inv.member queryID ch before
      exact ⟨by simpa [Board.setCall, Function.update_of_ne same] using registered,
        by simp [same, still]⟩
    · exact ⟨by simp [Board.setCall, eventOf], by simp [running, opened]⟩
  · intro ch queryID registered
    show ch ∈ (b.hub.register call (eventOf w.queryID record)).subs queryID ∨
      ((b.hub.register call (eventOf w.queryID record)).channels ch).closed = true
    rw [Hub.mem_register_subs, Hub.register_closed]
    rcases Tables.update_some_cases registered with ⟨rfl, ⟨⟩⟩ | ⟨same, registered⟩
    · cases terminal : record.state.isTerminal with
      | true => exact .inr (by simp [eventOf, terminal])
      | false => exact .inl (by simp [eventOf, terminal])
    · rcases inv.returned ch queryID registered with member | closed
      · exact .inl (.inl ⟨member, fun ended => same ended.2.2⟩)
      · exact .inr (by simp [closed])
  · intro ch unregistered
    show ((b.hub.register call (eventOf w.queryID record)).channels ch).closed = false
    rw [Hub.register_closed]
    by_cases same : ch = call
    · subst same
      exact absurd (by simp [Board.setCall]) (unregistered w.queryID)
    · have before := inv.fresh ch fun queryID => by
        simpa [Board.setCall, Function.update_of_ne same] using unregistered queryID
      simp [same, before]
  · intro queryID done
    have done : b.authors queryID = .delivered := done
    show (b.hub.register call (eventOf w.queryID record)).subs queryID = []
    rw [Hub.register_subs, inv.delivered queryID done]
    split
    · rename_i own
      split
      · rfl
      · rename_i running
        simp only [Bool.not_eq_true] at running
        have same : queryID = w.queryID := own
        subst same
        exact absurd done (timely running)
    · rfl

theorem Inv.unwatch (found : b.calls call = some w) (phase : w.phase = .returned) :
    Inv { b with hub := b.hub.unwatch w.queryID call } := by
  have own : b.calls call = some { queryID := w.queryID, phase := .returned } := by
    rw [found, ← phase]
  refine ⟨inv.author, ?_, ?_, ?_, ?_⟩
  · intro queryID ch member
    change ch ∈ (b.hub.dropWatcherLocked w.queryID call).subs queryID at member
    show _ ∧ ((b.hub.dropWatcherLocked w.queryID call).channels ch).closed = false
    rw [Hub.dropWatcherLocked_closed]
    obtain ⟨before, other⟩ := Hub.mem_dropWatcherLocked_subs.mp member
    obtain ⟨registered, still⟩ := inv.member queryID ch before
    have ne : ch ≠ call := by
      rintro rfl
      rw [own] at registered
      cases registered
      exact other ⟨rfl, rfl⟩
    exact ⟨registered, by simp [ne, still]⟩
  · intro ch queryID registered
    show ch ∈ (b.hub.dropWatcherLocked w.queryID call).subs queryID ∨
      ((b.hub.dropWatcherLocked w.queryID call).channels ch).closed = true
    rw [Hub.mem_dropWatcherLocked_subs, Hub.dropWatcherLocked_closed]
    rcases inv.returned ch queryID registered with member | closed
    · by_cases same : ch = call
      · subst same
        rw [own] at registered
        cases registered
        exact .inr (by simp [member])
      · exact .inl ⟨member, fun dropped => same dropped.2⟩
    · exact .inr (by simp [closed])
  · intro ch unregistered
    show ((b.hub.dropWatcherLocked w.queryID call).channels ch).closed = false
    rw [Hub.dropWatcherLocked_closed]
    have ne : ch ≠ call := by
      rintro rfl
      exact unregistered w.queryID own
    simp [ne, inv.fresh ch unregistered]
  · intro queryID done
    show (b.hub.dropWatcherLocked w.queryID call).subs queryID = []
    rw [Hub.dropWatcherLocked_subs]
    split
    · rename_i same
      subst same
      rw [inv.delivered w.queryID done]
      rfl
    · exact inv.delivered queryID done

theorem Inv.receive {ev : QueryEvent} {hub : Hub} (taken : b.hub.receive call = some (ev, hub)) :
    Inv { b with hub := hub } := by
  obtain ⟨_, _, rfl⟩ := Hub.receive_eq_some taken
  refine ⟨inv.author, ?_, ?_, ?_, inv.delivered⟩
  · intro queryID ch member
    rw [Hub.setChannel_closed]
    exact inv.member queryID ch member
  · intro ch queryID registered
    rw [Hub.setChannel_closed]
    exact inv.returned ch queryID registered
  · intro ch unregistered
    rw [Hub.setChannel_closed]
    exact inv.fresh ch unregistered

end

theorem Inv.step {b after : Board} {action : BoardAction} (inv : Inv b)
    (timely : Timely b action) (taken : step b action = some after) : Inv after := by
  cases action
  all_goals simp only [Board.step, Option.bind_eq_bind, Option.bind_eq_some_iff] at taken
  case launch queryID =>
    split at taken <;> cases taken
    exact inv.setAuthor trivial (by simp)
  case persist record stored =>
    split at taken <;> cases taken
    rename_i enabled
    have kept : Inv { b with
        store := if stored then b.store.putQuery record else b.store } :=
      ⟨inv.author, inv.member, inv.returned, inv.fresh, inv.delivered⟩
    exact kept.setAuthor ⟨rfl, enabled.2⟩ (by simp)
  case deliver queryID =>
    split at taken <;> cases taken
    rename_i ev persisted
    have sound := inv.author queryID
    rw [persisted] at sound
    obtain ⟨rfl, terminal⟩ := sound
    refine (inv.deliverEvent ev).setAuthor trivial fun _ => ?_
    show (b.hub.deliverEvent ev).subs ev.queryID = []
    rw [Hub.deliverEvent_subs]
    simp [terminal]
  case write record =>
    cases Option.some.inj taken
    exact ⟨inv.author, inv.member, inv.returned, inv.fresh, inv.delivered⟩
  case remove id =>
    cases Option.some.inj taken
    exact ⟨inv.author, inv.member, inv.returned, inv.fresh, inv.delivered⟩
  case announce ev =>
    cases Option.some.inj taken
    exact inv.deliverEvent ev
  case watch call queryID =>
    split at taken
    · contradiction
    · rename_i unused
      cases taken
      exact inv.setCall (by simp [unused]) (by simp)
  case getQuery call ok =>
    obtain ⟨w, found, taken⟩ := taken
    split at taken <;> cases taken
    rename_i begun
    refine inv.setCall ?_ ?_
    · intro queryID registered
      rw [found] at registered
      cases registered
      contradiction
    · simp only [readCall]
      split <;> simp
  case register call =>
    obtain ⟨w, found, taken⟩ := taken
    split at taken <;> cases taken
    rename_i record phase
    refine inv.register found phase ?_
    exact timely w found record (by simp [phase, WatchPhase.snapshot?])
  case unwatch call =>
    obtain ⟨w, found, taken⟩ := taken
    split at taken <;> cases taken
    rename_i returned
    exact inv.unwatch found returned
  case receive call =>
    obtain ⟨⟨ev, hub⟩, received, taken⟩ := taken
    cases taken
    exact inv.receive received

/-- In every run whose registrations are timely: once `complete` has delivered the
terminal event of a query, the channel of every `Watch` call for it that has
returned is closed and out of `watchers`. -/
theorem watch_ends_with_completion (b : Board)
    (run : Runs.Reaches step Timely {} b) (queryID : String) (call : Nat)
    (returned : b.calls call = some { queryID, phase := .returned })
    (delivered : b.authors queryID = .delivered) :
    (b.hub.channels call).closed = true ∧ call ∉ b.hub.subs queryID := by
  have inv : Inv b := run.invariant Inv Inv.initial fun _ _ _ inv timely taken =>
    inv.step timely taken
  have emptied := inv.delivered queryID delivered
  have absent : call ∉ b.hub.subs queryID := by simp [emptied]
  exact ⟨(inv.returned call queryID returned).resolve_left absent, absent⟩

def sampleRecord (state : QueryState) : QueryRecord := .sample state

def watchedCompletion : List BoardAction :=
  [.launch "q", .write (sampleRecord .running), .watch 0 "q", .getQuery 0 true, .register 0,
    .persist (sampleRecord .succeeded) true, .deliver "q"]

def lateRegistration : List BoardAction :=
  [.launch "q", .write (sampleRecord .running), .watch 0 "q", .getQuery 0 true,
    .persist (sampleRecord .succeeded) true, .deliver "q", .register 0]

theorem watched_completion_closes :
    ∃ b, Runs.Reaches step Timely {} b ∧ b.authors "q" = .delivered ∧
      (b.hub.channels 0).closed = true ∧ 0 ∉ b.hub.subs "q" := by
  obtain ⟨b, reached, call, delivered⟩ : ∃ b, Runs.Reaches step Timely {} b ∧
      b.calls 0 = some { queryID := "q", phase := .returned } ∧ b.authors "q" = .delivered :=
    Runs.exists_reaches watchedCompletion (by decide +kernel)
  exact ⟨b, reached, delivered, watch_ends_with_completion b reached "q" 0 call delivered⟩

/-- A `Watch` that read `RUNNING` before the terminal record was stored and
registered after the terminal event was delivered waits for ever. -/
theorem late_registration_stays_open :
    ∃ b, Runs.Reaches step Runs.Always {} b ∧
      b.calls 0 = some { queryID := "q", phase := .returned } ∧
      b.authors "q" = .delivered ∧ (b.hub.channels 0).closed = false ∧ 0 ∈ b.hub.subs "q" :=
  Runs.exists_reaches lateRegistration (by decide +kernel)

end Board

end DbBridge.Watch
