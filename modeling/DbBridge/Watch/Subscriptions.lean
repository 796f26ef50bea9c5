import DbBridge.Watch.Completion
import DbBridge.Watch.Safe

/-!
# The life of a subscription

`Watch`, `unwatch` and `deliverEvent` over any number of queries, with consumers that read
at their own pace. `offered` and `received` are histories: the events a subscription was
handed, whether or not they fitted, and those its consumer took.
-/

namespace DbBridge.Watch

open Domain Function Runs

/-- `ended` holds the terminal event whose delivery closed a channel, with the number of
events unread at that moment. -/
structure Desk where
  hub : Hub := {}
  calls : Nat → Option WatchCall := fun _ => none
  offered : Nat → List QueryEvent := fun _ => []
  received : Nat → List QueryEvent := fun _ => []
  ended : Nat → Option (QueryEvent × Nat) := fun _ => none

inductive DeskAction where
  | watch (call : Nat) (queryID : String)
  | read (call : Nat) (record : Option QueryRecord)
  | register (call : Nat)
  | deliver (ev : QueryEvent)
  | unwatch (call : Nat)
  | receive (call : Nat)
  deriving DecidableEq

namespace Desk

def setCall (desk : Desk) (call : Nat) (w : WatchCall) : Desk :=
  { desk with calls := Function.update desk.calls call (some w) }

def offer (desk : Desk) (ev : QueryEvent) (ch : Nat) : List QueryEvent :=
  if ch ∈ desk.hub.subs ev.queryID then desk.offered ch ++ [ev] else desk.offered ch

def finish (desk : Desk) (ev : QueryEvent) (ch : Nat) : Option (QueryEvent × Nat) :=
  if ch ∈ desk.hub.subs ev.queryID ∧ ev.state.isTerminal = true then
    some (ev, (desk.hub.channels ch).buffer.length)
  else desk.ended ch

def step (desk : Desk) : DeskAction → Option Desk
  | .watch call queryID =>
    match desk.calls call with
    | some _ => none
    | none => some (desk.setCall call { queryID })
  | .read call record => do
      let w ← desk.calls call
      if w.phase = .begun then
        some (desk.setCall call { w with phase := record.elim .failed .read })
      else none
  | .register call => do
      let w ← desk.calls call
      match w.phase with
      | .read record =>
        let current := eventOf w.queryID record
        some ({ desk with
          hub := desk.hub.register call current
          offered := Function.update desk.offered call (desk.offered call ++ [current]) }.setCall
            call { w with phase := .returned })
      | _ => none
  | .deliver ev =>
    some { desk with
      hub := desk.hub.deliverEvent ev
      offered := desk.offer ev
      ended := desk.finish ev }
  | .unwatch call => do
      let w ← desk.calls call
      if w.phase = .returned then some { desk with hub := desk.hub.unwatch w.queryID call }
      else none
  | .receive call => do
      let (ev, hub) ← desk.hub.receive call
      some { desk with
        hub
        received := Function.update desk.received call (desk.received call ++ [ev]) }

def owner (desk : Desk) (ch : Nat) : Option String :=
  match desk.calls ch with
  | some ⟨queryID, .returned⟩ => some queryID
  | _ => none

def log (desk : Desk) (ch : Nat) : List QueryEvent :=
  desk.received ch ++ (desk.hub.channels ch).buffer

structure Inv (desk : Desk) : Prop where
  safe : desk.hub.Safe desk.owner
  silent : ∀ ch, desk.owner ch = none → desk.offered ch = [] ∧ desk.received ch = []
  logged : ∀ ch, (desk.log ch).Sublist (desk.offered ch)
  running : ∀ ch, (desk.hub.channels ch).closed = false →
    ∀ ev ∈ desk.offered ch, ev.state.isTerminal = false
  last : ∀ ch, ∀ ev ∈ (desk.offered ch).dropLast, ev.state.isTerminal = false
  ended : ∀ ch ev unread, desk.ended ch = some (ev, unread) →
    (desk.hub.channels ch).closed = true ∧
      ((desk.log ch).getLast? = some ev ↔ unread < watcherBuffer)

theorem Inv.initial : Inv {} where
  safe := Hub.Safe.empty
  silent := by simp
  logged := by simp [log]
  running := by simp
  last := by simp
  ended := by simp

variable {desk : Desk}

theorem setCall_owner (desk : Desk) (call : Nat) (w : WatchCall) (ch : Nat) :
    (desk.setCall call w).owner ch =
      if ch = call then (if w.phase = .returned then some w.queryID else none)
      else desk.owner ch := by
  by_cases same : ch = call
  · subst same
    obtain ⟨queryID, phase⟩ := w
    simp only [owner, setCall, update_self]
    cases phase <;> simp
  · simp [owner, setCall, same]

variable {call : Nat} {w : WatchCall}

theorem owner_of_unreturned (found : desk.calls call = some w) (phase : w.phase ≠ .returned) :
    desk.owner call = none := by
  unfold owner
  split
  · rename_i queryID returned
    rw [found] at returned
    cases returned
    exact absurd rfl phase
  · rfl

section
variable (inv : Inv desk)
include inv

theorem Inv.setCall (before : desk.owner call = none) (after : w.phase ≠ .returned) :
    Inv (desk.setCall call w) := by
  have same : (desk.setCall call w).owner = desk.owner := by
    funext ch
    rw [setCall_owner]
    by_cases equal : ch = call
    · subst equal
      simp [after, before]
    · simp [equal]
  refine ⟨?_, ?_, inv.logged, inv.running, inv.last, inv.ended⟩
  · rw [same]
    exact inv.safe
  · rw [same]
    exact inv.silent

theorem Inv.register {record : QueryRecord} (found : desk.calls call = some w)
    (phase : w.phase = .read record) : Inv ({ desk with
      hub := desk.hub.register call (eventOf w.queryID record)
      offered := update desk.offered call
        (desk.offered call ++ [eventOf w.queryID record]) }.setCall
          call { w with phase := .returned }) := by
  have free : desk.owner call = none := by
    apply owner_of_unreturned found
    rw [phase]
    simp
  obtain ⟨unoffered, unreceived⟩ := inv.silent call free
  have owners : ({ desk with
      hub := desk.hub.register call (eventOf w.queryID record)
      offered := update desk.offered call
        (desk.offered call ++ [eventOf w.queryID record]) }.setCall
          call { w with phase := .returned }).owner =
      update desk.owner call (some w.queryID) := by
    funext ch
    rw [setCall_owner]
    by_cases same : ch = call
    · subst same
      simp
    · rw [update_of_ne same]
      simp [same, owner]
  have unended : desk.ended call = none := by
    cases kept : desk.ended call with
    | none => rfl
    | some end_ =>
      obtain ⟨ev, unread⟩ := end_
      have closed := (inv.ended call ev unread kept).1
      rw [inv.safe.fresh call free] at closed
      contradiction
  refine ⟨?_, ?_, ?_, ?_, ?_, ?_⟩
  · rw [owners]
    exact inv.safe.register free (eventOf w.queryID record)
  · intro ch unregistered
    rw [owners] at unregistered
    have ne : ch ≠ call := by
      intro same
      subst same
      simp at unregistered
    rw [update_of_ne ne] at unregistered
    simpa [Desk.setCall, ne] using inv.silent ch unregistered
  · intro ch
    simp only [log, Desk.setCall]
    rw [inv.safe.register_buffer free]
    by_cases same : ch = call
    · subst same
      simp [unoffered, unreceived]
    · simpa [same, log] using inv.logged ch
  · intro ch
    simp only [Desk.setCall]
    rw [Hub.register_closed]
    by_cases same : ch = call
    · subst same
      intro opened ev listed
      simp only [update_self, unoffered, List.nil_append, List.mem_singleton] at listed
      subst listed
      simp at opened
      exact opened.1
    · simpa [same] using inv.running ch
  · intro ch
    by_cases same : ch = call
    · subst same
      simp [Desk.setCall, unoffered]
    · simpa [Desk.setCall, same] using inv.last ch
  · intro ch ev unread kept
    have kept : desk.ended ch = some (ev, unread) := kept
    have ne : ch ≠ call := by
      intro same
      rw [same, unended] at kept
      contradiction
    obtain ⟨closed, reached⟩ := inv.ended ch ev unread kept
    simp only [log, Desk.setCall]
    rw [Hub.register_closed, inv.safe.register_buffer free]
    simpa [ne, closed, log] using reached

theorem Inv.deliver (ev : QueryEvent) :
    Inv { desk with
      hub := desk.hub.deliverEvent ev
      offered := desk.offer ev
      ended := desk.finish ev } := by
  have buffers := (Hub.Safe.deliverTo_foldl (desk.hub.subs ev.queryID) inv.safe
    (inv.safe.distinct ev.queryID) fun _ listed => listed).2
  have logs : ∀ ch, desk.received ch ++ ((desk.hub.deliverEvent ev).channels ch).buffer =
      if ch ∈ desk.hub.subs ev.queryID ∧
          (desk.hub.channels ch).buffer.length < watcherBuffer then desk.log ch ++ [ev]
      else desk.log ch := by
    intro ch
    rw [Hub.deliverEvent, buffers ch]
    split
    · rw [log, List.append_assoc]
    · rfl
  refine ⟨inv.safe.deliverEvent ev, ?_, ?_, ?_, ?_, ?_⟩
  · intro ch unregistered
    have absent : ch ∉ desk.hub.subs ev.queryID := by
      intro member
      have own := inv.safe.owned _ ch member
      have free : desk.owner ch = none := unregistered
      rw [free] at own
      contradiction
    simpa [offer, absent] using inv.silent ch unregistered
  · intro ch
    simp only [log, offer]
    rw [logs ch]
    have kept := inv.logged ch
    by_cases member : ch ∈ desk.hub.subs ev.queryID
    · simp only [member, true_and, if_true]
      split
      · exact kept.append (List.Sublist.refl [ev])
      · exact kept.trans (List.sublist_append_left _ _)
    · simpa [member] using kept
  · intro ch opened other listed
    rw [← Bool.not_eq_true, Hub.deliverEvent_closed, not_or] at opened
    have before := inv.running ch (Bool.not_eq_true _ ▸ opened.2)
    simp only [offer] at listed
    split at listed
    · rename_i member
      rcases List.mem_append.mp listed with earlier | new
      · exact before other earlier
      · rw [List.mem_singleton.mp new]
        rw [← Bool.not_eq_true]
        intro terminal
        exact opened.1 ⟨terminal, member⟩
    · exact before other listed
  · intro ch other listed
    simp only [offer] at listed
    split at listed
    · rename_i member
      rw [List.dropLast_concat] at listed
      exact inv.running ch (inv.safe.opened _ ch member) other listed
    · exact inv.last ch other listed
  · intro ch other unread kept
    simp only [log]
    rw [Hub.deliverEvent_closed, logs ch]
    simp only [finish] at kept
    split at kept
    · rename_i ends
      obtain ⟨member, terminal⟩ := ends
      cases kept
      refine ⟨.inl ⟨terminal, member⟩, ?_⟩
      by_cases room : (desk.hub.channels ch).buffer.length < watcherBuffer
      · simp [member, room]
      · -- the channel is full, and what it holds was offered before the terminal event
        simp only [member, room, and_false, if_false, iff_false]
        intro final
        have found := inv.logged ch |>.subset (List.mem_of_getLast? final)
        have earlier := inv.running ch (inv.safe.opened _ ch member) ev found
        rw [terminal] at earlier
        contradiction
    · rename_i going
      obtain ⟨closed, reached⟩ := inv.ended ch other unread kept
      refine ⟨.inr closed, ?_⟩
      have absent : ch ∉ desk.hub.subs ev.queryID := by
        intro member
        rw [inv.safe.opened _ ch member] at closed
        contradiction
      simpa [absent] using reached

theorem Inv.unwatch (queryID : String) (call : Nat) :
    Inv { desk with hub := desk.hub.unwatch queryID call } := by
  have logs : ∀ ch, desk.received ch ++ ((desk.hub.unwatch queryID call).channels ch).buffer =
      desk.log ch := by
    intro ch
    unfold Hub.unwatch
    rw [Hub.dropWatcherLocked_buffer]
    rfl
  refine ⟨inv.safe.dropWatcherLocked queryID, inv.silent, ?_, ?_, inv.last, ?_⟩
  · intro ch
    simp only [log]
    rw [logs ch]
    exact inv.logged ch
  · intro ch opened
    apply inv.running ch
    unfold Hub.unwatch at opened
    rw [Hub.dropWatcherLocked_closed, Bool.or_eq_false_iff] at opened
    exact opened.2
  · intro ch ev unread kept
    obtain ⟨closed, reached⟩ := inv.ended ch ev unread kept
    simp only [log]
    rw [logs ch]
    refine ⟨?_, reached⟩
    unfold Hub.unwatch
    rw [Hub.dropWatcherLocked_closed, closed, Bool.or_true]

theorem Inv.receive {ev : QueryEvent} {hub : Hub} (taken : desk.hub.receive call = some (ev, hub)) :
    Inv { desk with
      hub
      received := update desk.received call (desk.received call ++ [ev]) } := by
  have safe := inv.safe.receive taken
  obtain ⟨rest, held, rfl⟩ := Hub.receive_eq_some taken
  -- an event moves from one part of the log to the other
  have logs : ∀ ch, update desk.received call (desk.received call ++ [ev]) ch ++
      ((desk.hub.setChannel call { desk.hub.channels call with buffer := rest }).channels
        ch).buffer = desk.log ch := by
    intro ch
    by_cases same : ch = call
    · subst same
      simp [Hub.setChannel, log, held]
    · simp [Hub.setChannel, log, same]
  have registered : desk.owner call ≠ none := by
    intro free
    rw [inv.safe.fresh call free] at held
    contradiction
  refine ⟨safe, ?_, ?_, ?_, inv.last, ?_⟩
  · intro ch free
    have ne : ch ≠ call := by
      intro same
      exact registered (same ▸ free)
    show desk.offered ch = [] ∧
      update desk.received call (desk.received call ++ [ev]) ch = []
    rw [update_of_ne ne]
    exact inv.silent ch free
  · intro ch
    show (_ ++ _ : List QueryEvent).Sublist _
    rw [logs ch]
    exact inv.logged ch
  · intro ch opened
    rw [Hub.setChannel_closed] at opened
    exact inv.running ch opened
  · intro ch other unread kept
    obtain ⟨closed, reached⟩ := inv.ended ch other unread kept
    refine ⟨?_, ?_⟩
    · rw [Hub.setChannel_closed]
      exact closed
    · show (_ ++ _ : List QueryEvent).getLast? = _ ↔ _
      rw [logs ch]
      exact reached

theorem Inv.step {after : Desk} {action : DeskAction} (taken : desk.step action = some after) :
    Inv after := by
  cases action
  all_goals simp only [Desk.step, Option.bind_eq_bind, Option.bind_eq_some_iff] at taken
  case watch call queryID =>
    split at taken
    · contradiction
    · rename_i unused
      cases taken
      apply inv.setCall
      · simp [owner, unused]
      · simp
  case read call record =>
    obtain ⟨w, found, taken⟩ := taken
    split at taken <;> cases taken
    rename_i begun
    apply inv.setCall
    · apply owner_of_unreturned found
      rw [begun]
      simp
    · cases record <;> simp
  case register call =>
    obtain ⟨w, found, taken⟩ := taken
    split at taken <;> cases taken
    rename_i record phase
    exact inv.register found phase
  case deliver ev =>
    cases Option.some.inj taken
    exact inv.deliver ev
  case unwatch call =>
    obtain ⟨w, found, taken⟩ := taken
    split at taken <;> cases taken
    exact inv.unwatch w.queryID call
  case receive call =>
    obtain ⟨⟨ev, hub⟩, received, taken⟩ := taken
    cases taken
    exact inv.receive received

end

theorem Inv.of_run (run : Reaches Desk.step Always {} desk) : Inv desk :=
  run.invariant Inv Inv.initial fun _ _ _ inv _ taken => inv.step taken

/-! ## Results -/

/-- In every state of every run: nothing has been sent on a closed channel and none closed
twice; a `Watch` call at the lock finds room for its snapshot; a channel whose `Watch` has
passed the lock is open exactly while it is registered, and no other channel is registered;
a terminal event is the last one a subscription is handed, and what is in its channel or has
been read from it has been handed to it; no query has an empty set of subscriptions. -/
theorem watcher_channels_used_safely (desk : Desk) (run : Reaches step Always {} desk) :
    desk.hub.panicked = false ∧
    (∀ call w record, desk.calls call = some w → w.phase = .read record →
      (desk.hub.channels call).closed = false ∧
        (desk.hub.channels call).buffer.length < watcherBuffer) ∧
    (∀ call queryID, desk.calls call = some { queryID, phase := .returned } →
      ((desk.hub.channels call).closed = false ↔ call ∈ desk.hub.subs queryID)) ∧
    (∀ call queryID, call ∈ desk.hub.subs queryID →
      desk.calls call = some { queryID, phase := .returned }) ∧
    (∀ call, (desk.log call).Sublist (desk.offered call) ∧
      ∀ ev ∈ (desk.offered call).dropLast, ev.state.isTerminal = false) ∧
    ∀ queryID, desk.hub.watchers.lookup queryID ≠ some [] := by
  have inv := Inv.of_run run
  refine ⟨inv.safe.calm, ?_, ?_, ?_, ?_, inv.safe.inhabited⟩
  · intro call w record found phase
    have free : desk.owner call = none := by
      apply owner_of_unreturned found
      rw [phase]
      simp
    rw [inv.safe.fresh call free]
    simp [watcherBuffer]
  · intro call queryID returned
    have own : desk.owner call = some queryID := by
      simp [owner, returned]
    constructor
    · intro opened
      by_contra absent
      rw [inv.safe.closed queryID call own absent] at opened
      contradiction
    · exact inv.safe.opened queryID call
  · intro call queryID member
    have own := inv.safe.owned queryID call member
    unfold owner at own
    split at own <;> cases own
    rename_i returned
    exact returned
  · intro call
    exact ⟨inv.logged call, inv.last call⟩

/-- In every run: where the delivery of a terminal event closed a channel, that event is
the last one its consumer gets exactly if the consumer had left room for it. -/
theorem terminal_event_is_last_iff (desk : Desk)
    (run : Reaches step Always {} desk) (call : Nat) (ev : QueryEvent) (unread : Nat)
    (ended : desk.ended call = some (ev, unread)) :
    (desk.log call).getLast? = some ev ↔ unread < watcherBuffer :=
  ((Inv.of_run run).ended call ev unread ended).2

def sampleEvent (state : QueryState) (rowsRead : Int) : QueryEvent where
  queryID := "q"
  state := state
  stats := { rowsRead }

def subscribe : List DeskAction :=
  [.watch 0 "q", .read 0 (some (Board.sampleRecord .running)), .register 0]

def promptConsumer : List DeskAction :=
  subscribe ++ [.receive 0, .deliver (sampleEvent .running 1), .deliver (sampleEvent .succeeded 2)]

/-- The consumer reads nothing until `q` has reported its progress 19 times and has
ended. -/
def slowConsumer : List DeskAction :=
  subscribe ++ (List.range 19).map (fun n => .deliver (sampleEvent .running n)) ++
    .deliver (sampleEvent .succeeded 19) :: List.replicate 20 (.receive 0)

theorem prompt_consumer_is_served_safely :
    ∃ desk, Reaches step Always {} desk ∧ desk.hub.panicked = false ∧
      (desk.hub.channels 0).closed = true ∧ 0 ∉ desk.hub.subs "q" := by
  obtain ⟨desk, reached, call, closed⟩ : ∃ desk, Reaches step Always {} desk ∧
      desk.calls 0 = some { queryID := "q", phase := .returned } ∧
      (desk.hub.channels 0).closed = true :=
    exists_reaches promptConsumer (by decide +kernel)
  obtain ⟨calm, _, registered, _⟩ := watcher_channels_used_safely desk reached
  refine ⟨desk, reached, calm, closed, ?_⟩
  rw [← registered 0 "q" call, closed]
  simp

theorem prompt_consumer_gets_terminal_event_last :
    ∃ desk, Reaches step Always {} desk ∧
      desk.ended 0 = some (sampleEvent .succeeded 2, 1) ∧
      (desk.log 0).getLast? = some (sampleEvent .succeeded 2) := by
  obtain ⟨desk, reached, ended⟩ : ∃ desk, Reaches step Always {} desk ∧
      desk.ended 0 = some (sampleEvent .succeeded 2, 1) :=
    exists_reaches promptConsumer (by decide +kernel)
  exact ⟨desk, reached, ended,
    (terminal_event_is_last_iff desk reached 0 _ 1 ended).mpr (by decide)⟩

/-- The terminal event finds the channel full and is dropped, the channel is closed, and
the last event the consumer gets is a report of progress. -/
theorem slow_consumer_misses_terminal_event :
    ∃ desk, Reaches step Always {} desk ∧
      desk.ended 0 = some (sampleEvent .succeeded 19, 20) ∧
      desk.hub.channels 0 = { closed := true } ∧
      (desk.received 0).getLast? = some (sampleEvent .running 18) :=
  exists_reaches slowConsumer (by decide +kernel)

end Desk

end DbBridge.Watch
