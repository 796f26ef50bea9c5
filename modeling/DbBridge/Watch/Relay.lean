import DbBridge.Lib.Broadcast
import DbBridge.Cluster.Workers
import DbBridge.Watch.Completion

/-!
# Query events between instances

An event's way: `notifyWatchers` delivers it to the subscriptions of its own instance and queues
it; `eventPublisher` publishes it as a control message, and the `controlWorker` of every other
instance delivers it there. Beside the goroutine that executes a query, the garbage collector and
the owner reaper of any instance announce what they made of a record. Control messages arrive in
the order of their publication; any of them may get lost.
-/

namespace DbBridge.Watch

open Domain State
open Cluster (ownerLost ownerLostExpected)

def eventPublishBuffer : Nat := 256

inductive Notice where
  | deliver (ev : QueryEvent)
  | enqueue (ev : QueryEvent)

def Notice.event : Notice → QueryEvent
  | .deliver ev => ev
  | .enqueue ev => ev

/-- The goroutine that submits and executes a query, on the instance that owns it: its
copy of the record, the announcement it is making and whether `activeReg` lists it. -/
structure Run where
  record : QueryRecord
  notice : Option Notice
  registered : Bool := true

inductive Pass where
  | read (record : QueryRecord)
  | notifying (notice : Notice)

/-- The subscriptions of one instance; `received` is the history of what their consumers
took. -/
structure Post where
  hub : Hub := {}
  calls : Nat → Option WatchCall := fun _ => none
  received : Nat → List QueryEvent := fun _ => []

structure Net where
  store : MetaStore := .empty
  runs : String → Option Run := fun _ => none
  workers : Nat → Option (String × Pass) := fun _ => none
  bus : Bus String QueryEvent := {}
  posts : String → Post := fun _ => {}

/-- `stored` says whether `persist` got through, `giveUp` that an event is dropped instead
of queued, and `taken` that a publication reached the channel. -/
inductive NetAction where
  | submit (record : QueryRecord)
  | notify (queryID : String) (giveUp : Bool)
  | start (queryID : String) (now : Time) (stored : Bool)
  | progress (queryID : String) (stats : QueryStats)
  | persistProgress (queryID : String) (stats : QueryStats)
  | complete (queryID : String) (next : QueryState) (stats : QueryStats)
      (error : Option QueryError) (now : Time) (stored : Bool)
  | deregister (queryID : String)
  | read (worker : Nat) (instanceID queryID : String)
  | expire (worker : Nat)
  | failOwnerLost (worker : Nat) (now : Time)
  | leave (worker : Nat)
  | workerNotify (worker : Nat) (giveUp : Bool)
  | remove (queryID : String)
  | take (instanceID : String)
  | publish (instanceID : String) (taken : Bool)
  | lose (instanceID : String)
  | control (instanceID : String)
  | watch (instanceID : String) (call : Nat) (queryID : String)
  | getQuery (instanceID : String) (call : Nat) (ok : Bool)
  | register (instanceID : String) (call : Nat)
  | unwatch (instanceID : String) (call : Nat)
  | receive (instanceID : String) (call : Nat)
  deriving DecidableEq

namespace Net

def setRun (net : Net) (queryID : String) (run : Run) : Net :=
  { net with runs := Function.update net.runs queryID (some run) }

def setWorker (net : Net) (worker : Nat) (pass : Option (String × Pass)) : Net :=
  { net with workers := Function.update net.workers worker pass }

def setPost (net : Net) (instanceID : String) (post : Post) : Net :=
  { net with posts := Function.update net.posts instanceID post }

def setCall (net : Net) (instanceID : String) (call : Nat) (w : WatchCall) : Net :=
  let post := net.posts instanceID
  net.setPost instanceID { post with calls := Function.update post.calls call (some w) }

def persist (net : Net) (record : QueryRecord) (stored : Bool) : Net :=
  { net with store := if stored then net.store.putQuery record else net.store }

def deliverAt (net : Net) (instanceID : String) (ev : QueryEvent) : Net :=
  let post := net.posts instanceID
  net.setPost instanceID { post with hub := post.hub.deliverEvent ev }

/-- The `select` behind the delivery: an event is dropped when the queue is full, and a
terminal one also when its wait runs out. -/
def offer (net : Net) (instanceID : String) (ev : QueryEvent) (giveUp : Bool) : Option Net :=
  if giveUp then
    if eventPublishBuffer ≤ (net.bus.queue instanceID).length ∨ ev.state.isTerminal then some net
    else none
  else if (net.bus.queue instanceID).length < eventPublishBuffer then
    some { net with bus := net.bus.push instanceID ev }
  else none

def announce (net : Net) (instanceID : String) (notice : Notice) (giveUp : Bool) :
    Option (Net × Option Notice) :=
  match notice with
  | .deliver ev => some (net.deliverAt instanceID ev, some (.enqueue ev))
  | .enqueue ev => (net.offer instanceID ev giveUp).map fun after => (after, none)

def active (net : Net) (instanceID queryID : String) : Bool :=
  match net.runs queryID with
  | some run => run.registered && run.record.ownerInstanceID == instanceID
  | none => false

def control (net : Net) (instanceID senderID : String) (ev : QueryEvent) : Net :=
  if senderID = instanceID then net
  else if net.active instanceID ev.queryID then net
  else net.deliverAt instanceID ev

def idleRun (net : Net) (queryID : String) (state : QueryState) : Option Run :=
  match net.runs queryID with
  | some run => if run.notice = none ∧ run.record.state = state then some run else none
  | none => none

def step (backend : Backend) (net : Net) : NetAction → Option Net
  -- the identifier is a new UUID
  | .submit record =>
    if net.runs record.id = none ∧ record.state = .pending then
      some ((net.persist record true).setRun record.id
        { record, notice := some (.deliver { queryID := record.id, state := .pending }) })
    else none
  | .notify queryID giveUp => do
      let run ← net.runs queryID
      let notice ← run.notice
      let (after, left) ← net.announce run.record.ownerInstanceID notice giveUp
      some (after.setRun queryID { run with notice := left })
  | .start queryID now stored => do
      let run ← net.idleRun queryID .pending
      let record := { run.record with state := .running, startedAt := now }
      some ((net.persist record stored).setRun queryID
        { run with record, notice := some (.deliver { queryID, state := .running }) })
  | .progress queryID stats => do
      let run ← net.idleRun queryID .running
      let record := { run.record with stats }
      some (net.setRun queryID
        { run with record, notice := some (.deliver { queryID, state := record.state, stats }) })
  -- the goroutine behind progressReporter, which ends before the record is completed
  | .persistProgress queryID stats => do
      let run ← net.runs queryID
      if run.record.state = .running then
        match net.store.updateQueryIfState { run.record with stats } [.running] with
        | some (_, store) => some { net with store }
        | none => some net
      else none
  | .complete queryID next stats error now stored => do
      let run ← net.idleRun queryID .running
      if next.isTerminal ∧ run.record.state.canTransitionTo next then
        let record := { run.record with state := next, stats, error, finishedAt := now }
        some ((net.persist record stored).setRun queryID
          { run with record, notice := some (.deliver { queryID, state := next, stats, error }) })
      else none
  | .deregister queryID => do
      let run ← net.runs queryID
      if run.notice = none ∧ run.record.state.isTerminal then
        some (net.setRun queryID { run with registered := false })
      else none
  | .read worker instanceID queryID => do
      let record ← net.store.getQuery queryID
      if net.workers worker = none then
        some (net.setWorker worker (some (instanceID, .read record)))
      else none
  -- collectQuery
  | .expire worker =>
    match net.workers worker with
    | some (instanceID, .read record) =>
      if record.state ≠ .expired ∧ record.state.canTransitionTo .expired then
        match net.store.updateQuery backend { record with state := .expired } with
        | some store =>
          some ({ net with store }.setWorker worker (some (instanceID,
            .notifying (.deliver { queryID := record.id, state := .expired }))))
        | none => some (net.setWorker worker none)
      else none
    | _ => none
  | .failOwnerLost worker now =>
    match net.workers worker with
    | some (instanceID, .read record) =>
      let failed := ownerLost record now
      match net.store.updateQueryIfState failed ownerLostExpected with
      | some (true, store) =>
        some ({ net with store }.setWorker worker (some (instanceID, .notifying
          (.deliver { queryID := record.id, state := .failed, error := failed.error }))))
      | _ => some (net.setWorker worker none)
    | _ => none
  | .leave worker =>
    match net.workers worker with
    | some (_, .read _) => some (net.setWorker worker none)
    | _ => none
  | .workerNotify worker giveUp =>
    match net.workers worker with
    | some (instanceID, .notifying notice) => do
        let (after, left) ← net.announce instanceID notice giveUp
        some (after.setWorker worker (left.map fun notice => (instanceID, .notifying notice)))
    | _ => none
  | .remove queryID => some { net with store := net.store.deleteQuery queryID }
  | .take instanceID => (net.bus.take instanceID).map fun bus => { net with bus }
  | .publish instanceID taken =>
    (net.bus.publish instanceID taken).map fun bus => { net with bus }
  | .lose instanceID => do
      let (_, bus) ← net.bus.next instanceID
      some { net with bus }
  -- A query that has left activeReg does not come back, so the test for it and the
  -- delivery are one step.
  | .control instanceID => do
      let ((senderID, ev), bus) ← net.bus.next instanceID
      some ({ net with bus }.control instanceID senderID ev)
  | .watch instanceID call queryID =>
    match (net.posts instanceID).calls call with
    | some _ => none
    | none => some (net.setCall instanceID call { queryID })
  | .getQuery instanceID call ok => do
      let w ← (net.posts instanceID).calls call
      if w.phase = .begun then
        let phase := match ok, net.store.getQuery w.queryID with
          | true, some record => .read record
          | _, _ => .failed
        some (net.setCall instanceID call { w with phase })
      else none
  | .register instanceID call => do
      let post := net.posts instanceID
      let w ← post.calls call
      match w.phase with
      | .read record =>
        let hub := post.hub.register call (eventOf w.queryID record)
        some ((net.setPost instanceID { post with hub }).setCall instanceID call
          { w with phase := .returned })
      | _ => none
  | .unwatch instanceID call => do
      let post := net.posts instanceID
      let w ← post.calls call
      if w.phase = .returned then
        some (net.setPost instanceID { post with hub := post.hub.unwatch w.queryID call })
      else none
  | .receive instanceID call => do
      let post := net.posts instanceID
      let (ev, hub) ← post.hub.receive call
      some (net.setPost instanceID { post with
        hub, received := Function.update post.received call (post.received call ++ [ev]) })

end Net

end DbBridge.Watch
