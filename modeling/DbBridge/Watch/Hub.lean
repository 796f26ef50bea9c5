import DbBridge.State.Memory

/-!
# Subscriptions of one instance

The `watchers` map and the channels in it. Each function is one critical section
of `watchersMu`. A channel is named by the `Watch` call that made it; its buffer
is kept oldest event first. Closing a closed channel and sending on one panic in
Go, which `panicked` records.
-/

namespace DbBridge.Watch

open Domain State List

structure QueryEvent where
  queryID : String
  state : QueryState
  stats : QueryStats := {}
  error : Option QueryError := none
  deriving DecidableEq, Repr

structure Channel where
  buffer : List QueryEvent := []
  closed : Bool := false
  deriving DecidableEq, Repr

def watcherBuffer : Nat := 20

structure Hub where
  watchers : Table (List Nat) := ∅
  channels : Nat → Channel := fun _ => {}
  panicked : Bool := false

namespace Hub

def subs (hub : Hub) (queryID : String) : List Nat := (hub.watchers.lookup queryID).getD []

def setChannel (hub : Hub) (ch : Nat) (channel : Channel) : Hub :=
  { hub with channels := Function.update hub.channels ch channel }

/-- The non-blocking send: an event that does not fit is dropped. -/
def send (hub : Hub) (ch : Nat) (ev : QueryEvent) : Hub :=
  let channel := hub.channels ch
  if channel.closed then { hub with panicked := true }
  else if channel.buffer.length < watcherBuffer then
    hub.setChannel ch { channel with buffer := channel.buffer ++ [ev] }
  else hub

def close (hub : Hub) (ch : Nat) : Hub :=
  if (hub.channels ch).closed then { hub with panicked := true }
  else hub.setChannel ch { hub.channels ch with closed := true }

/-- `delete(subs, ch)`, with the entry of a query that has none left. -/
def remove (hub : Hub) (queryID : String) (ch : Nat) : Hub :=
  let rest := (hub.subs queryID).filter (· ≠ ch)
  { hub with
    watchers := if rest = [] then hub.watchers.erase queryID
      else hub.watchers.insert queryID rest }

def dropWatcherLocked (hub : Hub) (queryID : String) (ch : Nat) : Hub :=
  if ch ∈ hub.subs queryID then (hub.remove queryID ch).close ch else hub

def unwatch (hub : Hub) (queryID : String) (ch : Nat) : Hub :=
  hub.dropWatcherLocked queryID ch

/-- The body of the loop in `deliverEvent`. -/
def deliverTo (ev : QueryEvent) (hub : Hub) (ch : Nat) : Hub :=
  if ev.state.isTerminal then (hub.send ch ev).dropWatcherLocked ev.queryID ch
  else hub.send ch ev

def deliverEvent (hub : Hub) (ev : QueryEvent) : Hub :=
  (hub.subs ev.queryID).foldl (deliverTo ev) hub

def add (hub : Hub) (queryID : String) (ch : Nat) : Hub :=
  { hub with watchers := hub.watchers.insert queryID (ch :: hub.subs queryID) }

/-- The critical section of `Watch`: register the new channel, push the snapshot,
and drop the subscription again if that was terminal. -/
def register (hub : Hub) (ch : Nat) (current : QueryEvent) : Hub :=
  let pushed := (hub.add current.queryID ch).send ch current
  if current.state.isTerminal then pushed.dropWatcherLocked current.queryID ch else pushed

def receive (hub : Hub) (ch : Nat) : Option (QueryEvent × Hub) :=
  match (hub.channels ch).buffer with
  | [] => none
  | ev :: rest => some (ev, hub.setChannel ch { hub.channels ch with buffer := rest })

/-! ## Subscriptions after each operation -/

variable (hub : Hub) (ch : Nat)

@[simp] theorem send_subs (ev : QueryEvent) (queryID : String) :
    (hub.send ch ev).subs queryID = hub.subs queryID := by
  simp only [send]
  (repeat' split) <;> rfl

variable (queryID : String)

@[simp] theorem close_subs : (hub.close ch).subs queryID = hub.subs queryID := by
  unfold close
  split <;> rfl

theorem remove_subs (ch : Nat) (other : String) :
    (hub.remove queryID ch).subs other =
      if other = queryID then (hub.subs queryID).filter (· ≠ ch) else hub.subs other := by
  by_cases same : other = queryID
  · subst same
    unfold remove subs
    dsimp only
    split
    · rename_i empty
      rw [if_pos rfl, AList.lookup_erase]
      exact empty.symm
    · simp
  · unfold remove subs
    dsimp only
    split <;> simp [same, AList.lookup_erase_ne, AList.lookup_insert_ne]

theorem dropWatcherLocked_subs (ch : Nat) (other : String) :
    (hub.dropWatcherLocked queryID ch).subs other =
      if other = queryID then (hub.subs queryID).filter (· ≠ ch) else hub.subs other := by
  unfold dropWatcherLocked
  split
  · rw [close_subs, remove_subs]
  · rename_i absent
    split
    · rename_i same
      subst same
      refine (filter_eq_self.mpr fun member found => ?_).symm
      have ne : member ≠ ch := fun equal => absent (equal ▸ found)
      simpa using ne
    · rfl

variable (ev : QueryEvent)

theorem deliverTo_subs (hub : Hub) (ch : Nat) (queryID : String) :
    (deliverTo ev hub ch).subs queryID =
      if ev.state.isTerminal = true ∧ queryID = ev.queryID then
        (hub.subs queryID).filter (· ≠ ch)
      else hub.subs queryID := by
  unfold deliverTo
  split
  · rename_i terminal
    rw [dropWatcherLocked_subs]
    by_cases same : queryID = ev.queryID
    · subst same
      simp [terminal]
    · simp [same]
  · rename_i running
    simp [running]

theorem deliverTo_foldl_subs (terminal : ev.state.isTerminal = true) (chs : List Nat) (hub : Hub) :
    (chs.foldl (deliverTo ev) hub).subs ev.queryID = (hub.subs ev.queryID).filter (· ∉ chs) := by
  induction chs generalizing hub with
  | nil => simp
  | cons ch rest ih =>
    rw [foldl_cons, ih, deliverTo_subs]
    simp only [terminal, and_self, if_true, filter_filter]
    congr 1
    funext member
    simp [Bool.and_comm]

variable (chs : List Nat)

theorem deliverTo_foldl_subs_of_not (hub : Hub) (queryID : String)
    (unaffected : ¬ (ev.state.isTerminal = true ∧ queryID = ev.queryID)) :
    (chs.foldl (deliverTo ev) hub).subs queryID = hub.subs queryID := by
  induction chs generalizing hub with
  | nil => rfl
  | cons _ _ ih => rw [foldl_cons, ih, deliverTo_subs, if_neg unaffected]

theorem deliverEvent_subs (queryID : String) :
    (hub.deliverEvent ev).subs queryID =
      if ev.state.isTerminal = true ∧ queryID = ev.queryID then [] else hub.subs queryID := by
  unfold deliverEvent
  split
  · rename_i ended
    obtain ⟨terminal, rfl⟩ := ended
    rw [deliverTo_foldl_subs ev terminal]
    exact filter_eq_nil_iff.mpr (by simp)
  · rename_i unaffected
    exact deliverTo_foldl_subs_of_not ev _ hub queryID unaffected

theorem add_subs (ch : Nat) (other : String) :
    (hub.add queryID ch).subs other =
      if other = queryID then ch :: hub.subs other else hub.subs other := by
  by_cases same : other = queryID
  · subst same
    simp [add, subs]
  · simp [add, subs, same, AList.lookup_insert_ne]

variable (current : QueryEvent)

theorem register_subs (queryID : String) :
    (hub.register ch current).subs queryID =
      if queryID = current.queryID then
        if current.state.isTerminal then (hub.subs queryID).filter (· ≠ ch)
        else ch :: hub.subs queryID
      else hub.subs queryID := by
  unfold register
  dsimp only
  split
  · rw [dropWatcherLocked_subs, send_subs, send_subs, add_subs, add_subs]
    by_cases same : queryID = current.queryID
    · subst same
      simp
    · simp [same]
  · rw [send_subs, add_subs]

section
variable {hub ch queryID ev current} {id : String} {other : Nat}

theorem mem_dropWatcherLocked_subs : other ∈ (hub.dropWatcherLocked queryID ch).subs id ↔
    other ∈ hub.subs id ∧ ¬ (id = queryID ∧ other = ch) := by
  rw [dropWatcherLocked_subs]
  split
  · rename_i same
    simp [same]
  · rename_i ne
    simp [ne]

theorem mem_deliverEvent_subs : other ∈ (hub.deliverEvent ev).subs id ↔
    other ∈ hub.subs id ∧ ¬ (ev.state.isTerminal = true ∧ id = ev.queryID) := by
  rw [deliverEvent_subs]
  split
  · rename_i ended
    simp [ended]
  · rename_i spared
    simp only [spared, not_false_eq_true, and_true]

theorem mem_register_subs : other ∈ (hub.register ch current).subs id ↔
    other ∈ hub.subs id ∧
        ¬ (current.state.isTerminal = true ∧ id = current.queryID ∧ other = ch) ∨
      other = ch ∧ id = current.queryID ∧ current.state.isTerminal = false := by
  rw [register_subs]
  by_cases own : id = current.queryID
  · cases terminal : current.state.isTerminal <;> simp [own, or_comm]
  · simp [own]

end

/-! ## Closed channels after each operation -/

@[simp] theorem send_closed (ev : QueryEvent) (other : Nat) :
    ((hub.send ch ev).channels other).closed = (hub.channels other).closed := by
  simp only [send]
  split
  · rfl
  · split
    · by_cases same : other = ch
      · subst same
        simp [setChannel]
      · simp [setChannel, same]
    · rfl

variable (other : Nat)

theorem close_closed :
    ((hub.close ch).channels other).closed =
      (decide (other = ch) || (hub.channels other).closed) := by
  unfold close
  by_cases same : other = ch
  · subst same
    split
    · rename_i already
      simp [already]
    · simp [setChannel]
  · split
    · simp [same]
    · simp [setChannel, same]

theorem dropWatcherLocked_closed (ch other : Nat) :
    ((hub.dropWatcherLocked queryID ch).channels other).closed =
      ((decide (other = ch) && decide (ch ∈ hub.subs queryID)) ||
        (hub.channels other).closed) := by
  unfold dropWatcherLocked
  split
  · rename_i member
    rw [close_closed]
    simp [member, remove]
  · rename_i absent
    simp [absent]

theorem deliverTo_closed (hub : Hub) (ch other : Nat) :
    ((deliverTo ev hub ch).channels other).closed =
      ((ev.state.isTerminal && decide (other = ch) && decide (ch ∈ hub.subs ev.queryID)) ||
        (hub.channels other).closed) := by
  unfold deliverTo
  split
  · rename_i terminal
    rw [dropWatcherLocked_closed, send_subs, send_closed]
    simp [terminal]
  · rename_i running
    rw [send_closed]
    simp [running]

theorem deliverTo_foldl_closed (terminal : ev.state.isTerminal = true) (chs : List Nat) (hub : Hub)
    (other : Nat) :
    ((chs.foldl (deliverTo ev) hub).channels other).closed = true ↔
      (other ∈ chs ∧ other ∈ hub.subs ev.queryID) ∨ (hub.channels other).closed = true := by
  induction chs generalizing hub with
  | nil => simp
  | cons ch _ ih =>
    rw [foldl_cons, ih, deliverTo_subs, deliverTo_closed]
    simp only [terminal, and_self, if_true, Bool.true_and, Bool.or_eq_true,
      Bool.and_eq_true, decide_eq_true_eq, mem_filter, mem_cons]
    by_cases same : other = ch
    · subst same
      simp
    · simp [same]

theorem deliverTo_foldl_closed_of_not (running : ev.state.isTerminal = false) (chs : List Nat)
    (hub : Hub) (other : Nat) :
    ((chs.foldl (deliverTo ev) hub).channels other).closed = (hub.channels other).closed := by
  induction chs generalizing hub with
  | nil => rfl
  | cons _ _ ih =>
    rw [foldl_cons, ih, deliverTo_closed]
    simp [running]

theorem deliverEvent_closed :
    ((hub.deliverEvent ev).channels other).closed = true ↔
      (ev.state.isTerminal = true ∧ other ∈ hub.subs ev.queryID) ∨
        (hub.channels other).closed = true := by
  unfold deliverEvent
  cases terminal : ev.state.isTerminal with
  | true =>
    rw [deliverTo_foldl_closed ev terminal]
    simp
  | false =>
    rw [deliverTo_foldl_closed_of_not ev terminal]
    simp

theorem register_closed :
    ((hub.register ch current).channels other).closed =
      ((decide (other = ch) && current.state.isTerminal) ||
        (hub.channels other).closed) := by
  unfold register
  dsimp only
  split
  · rename_i terminal
    rw [dropWatcherLocked_closed, send_subs, send_closed, add_subs]
    simp [terminal, add]
  · rename_i running
    rw [send_closed]
    simp [running, add]

/-! ## Buffers after each operation -/

theorem send_buffer (ev : QueryEvent) (other : Nat) :
    ((hub.send ch ev).channels other).buffer = (hub.channels other).buffer ∨
      other = ch ∧
        ((hub.send ch ev).channels other).buffer = (hub.channels other).buffer ++ [ev] := by
  simp only [send]
  split
  · exact .inl rfl
  · split
    · by_cases same : other = ch
      · subst same
        exact .inr ⟨rfl, by simp [setChannel]⟩
      · exact .inl (by simp [setChannel, same])
    · exact .inl rfl

@[simp] theorem close_buffer :
    ((hub.close ch).channels other).buffer = (hub.channels other).buffer := by
  unfold close
  split
  · rfl
  · by_cases same : other = ch
    · subst same
      simp [setChannel]
    · simp [setChannel, same]

@[simp] theorem dropWatcherLocked_buffer (ch other : Nat) :
    ((hub.dropWatcherLocked queryID ch).channels other).buffer = (hub.channels other).buffer := by
  unfold dropWatcherLocked
  split
  · rw [close_buffer]
    rfl
  · rfl

theorem deliverTo_foldl_buffer (hub : Hub) (other : Nat) :
    ∃ copies, ((chs.foldl (deliverTo ev) hub).channels other).buffer =
        (hub.channels other).buffer ++ replicate copies ev ∧ (copies ≠ 0 → other ∈ chs) := by
  induction chs generalizing hub with
  | nil => exact ⟨0, (append_nil _).symm, fun none => absurd rfl none⟩
  | cons ch _ ih =>
    obtain ⟨copies, buffer, among⟩ := ih (deliverTo ev hub ch)
    have sent : ((deliverTo ev hub ch).channels other).buffer =
        ((hub.send ch ev).channels other).buffer := by
      unfold deliverTo
      split
      · exact dropWatcherLocked_buffer _ _ _ _
      · rfl
    rw [foldl_cons, buffer, sent]
    rcases send_buffer hub ch ev other with same | ⟨rfl, one⟩
    · exact ⟨copies, by rw [same], fun some => mem_cons_of_mem _ (among some)⟩
    · refine ⟨copies + 1, ?_, fun _ => mem_cons_self⟩
      rw [one, append_assoc]
      rfl

theorem deliverEvent_buffer :
    ∃ copies, ((hub.deliverEvent ev).channels other).buffer =
        (hub.channels other).buffer ++ replicate copies ev ∧
      (copies ≠ 0 → other ∈ hub.subs ev.queryID) :=
  deliverTo_foldl_buffer ev (hub.subs ev.queryID) hub other

theorem register_buffer :
    ((hub.register ch current).channels other).buffer = (hub.channels other).buffer ∨
      other = ch ∧ ((hub.register ch current).channels other).buffer =
        (hub.channels other).buffer ++ [current] := by
  have pushed : ((hub.register ch current).channels other).buffer =
      (((hub.add current.queryID ch).send ch current).channels other).buffer := by
    unfold register
    dsimp only
    split
    · exact dropWatcherLocked_buffer _ _ _ _
    · rfl
  rw [pushed]
  exact send_buffer (hub.add current.queryID ch) ch current other

variable {hub ch ev} in
theorem receive_eq_some {after : Hub} (taken : hub.receive ch = some (ev, after)) :
    ∃ rest, (hub.channels ch).buffer = ev :: rest ∧
      after = hub.setChannel ch { hub.channels ch with buffer := rest } := by
  unfold receive at taken
  split at taken
  · contradiction
  · rename_i first rest held
    cases taken
    exact ⟨rest, held, rfl⟩

theorem setChannel_closed (rest : List QueryEvent) :
    ((hub.setChannel ch { hub.channels ch with buffer := rest }).channels other).closed =
      (hub.channels other).closed := by
  by_cases same : other = ch
  · subst same
    simp [setChannel]
  · simp [setChannel, same]

end Hub

end DbBridge.Watch
