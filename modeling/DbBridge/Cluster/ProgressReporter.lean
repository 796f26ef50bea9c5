import DbBridge.Cluster.Result
import DbBridge.Storage.Progress

/-!
# `progressReporter`

The row loop and the goroutine that persists its progress, step by step: the calls the encoder
makes of `report`, the one-place channel `updates` between the two, the flag `lost`, and
`stopReporting`, which closes the channel and waits for the goroutine. Every order in which the two
move is a run, and so is every outcome of `UpdateQueryIfState`.
-/

namespace DbBridge.Cluster.ProgressReporter

open Domain State Storage Runs List

variable {ρ : Type}

/-- How a call of `UpdateQueryIfState` ends; after an error the record may have been written
all the same. -/
inductive Answer where
  | written
  | refused
  | failed (applied : Bool)

/-- The goroutine: at `range updates`, in a write, past the answer that the record is no
longer RUNNING, past the store to `lost`, and with `done` closed. -/
inductive Writer where
  | idle
  | writing (snapshot : QueryRecord)
  | refused
  | leaving
  | exited
  deriving DecidableEq

/-- The row loop: at what is left of `EncodeStream`, in `report` before its `select`, in
`stopReporting` before `<-done`, and past it. -/
inductive Caller (ρ : Type) where
  | encoding (program : Reports (Int × Int) GoError ρ)
  | sending (program : Reports (Int × Int) GoError ρ)
  | stopping (result : ρ)
  | returned (result : ρ)

/-- `emitted` is `last` of `EncodeStream`, `last` that of `report`, `none` being the zero
time. `issued` and `stored` are the snapshots that a write was made with, and those that
were written, in their order. -/
structure State (ρ : Type) where
  now : Time
  emitted : Time
  last : Option Time := none
  record : QueryRecord
  updates : Option QueryRecord := none
  lost : Bool := false
  caller : Caller ρ
  writer : Writer := .idle
  issued : List QueryRecord := []
  stored : List QueryRecord := []

def start (now : Time) (record : QueryRecord) (program : Reports (Int × Int) GoError ρ) :
    State ρ :=
  { now, emitted := now, record, caller := .encoding program }

inductive Action where
  | tick (elapsed : Nat)
  | wrote (n : Nat) (err : Option GoError)
  | report
  | send
  | close
  | join
  | take
  | answer (answer : Answer)
  | mark
  | exit

def stamp (now : Time) (record : QueryRecord) (rows bytes : Int) : QueryRecord :=
  { record with
    stats := { record.stats with
      rowsRead := rows
      bytesWritten := bytes
      totalDuration := now - record.createdAt } }

def State.throttled (s : State ρ) : Bool :=
  s.lost || s.last.any fun last => s.now - last < progressPersistInterval

def State.report (s : State ρ) (rows bytes : Int) (next : Reports (Int × Int) GoError ρ) :
    State ρ :=
  if s.throttled then { s with caller := .encoding next }
  else { s with
    last := some s.now
    record := stamp s.now s.record rows bytes
    caller := .sending next }

def Caller.closed : Caller ρ → Bool
  | .stopping _ => true
  | .returned _ => true
  | _ => false

def Answer.stores : Answer → Bool
  | .written => true
  | .refused => false
  | .failed applied => applied

def Answer.next : Answer → Writer
  | .refused => .refused
  | _ => .idle

def step (s : State ρ) : Action → Option (State ρ)
  | .tick elapsed => some { s with now := s.now + elapsed }
  | .wrote n err =>
    match s.caller with
    | .encoding (.write _ next) => some { s with caller := .encoding (next n err) }
    | _ => none
  | .report =>
    match s.caller with
    | .encoding (.tell final figures next) =>
      if Reporting.due final figures.1 (s.now - s.emitted) then
        some ({ s with emitted := s.now }.report figures.1 figures.2 next)
      else some { s with caller := .encoding next }
    | _ => none
  | .send =>
    match s.caller with
    | .sending next =>
      some { s with updates := some (s.updates.getD s.record), caller := .encoding next }
    | _ => none
  | .close =>
    match s.caller with
    | .encoding (.done result) => some { s with caller := .stopping result }
    | _ => none
  | .join =>
    match s.caller, s.writer with
    | .stopping result, .exited => some { s with caller := .returned result }
    | _, _ => none
  | .take =>
    match s.writer, s.updates with
    | .idle, some snapshot =>
      some { s with
        updates := none
        writer := .writing snapshot
        issued := s.issued ++ [snapshot] }
    | _, _ => none
  | .answer answer =>
    match s.writer with
    | .writing snapshot =>
      some { s with
        writer := answer.next
        stored := if answer.stores then s.stored ++ [snapshot] else s.stored }
    | _ => none
  | .mark =>
    match s.writer with
    | .refused => some { s with lost := true, writer := .leaving }
    | _ => none
  | .exit =>
    match s.writer, s.updates, s.caller.closed with
    -- the channel is closed and empty
    | .idle, none, true => some { s with writer := .exited }
    | .leaving, _, _ => some { s with writer := .exited }
    | _, _, _ => none

/-! ## What a step does -/

inductive Move (s : State ρ) : Action → State ρ → Prop
  | ticked (elapsed : Nat) : Move s (.tick elapsed) { s with now := s.now + elapsed }
  | wrote (bytes : List UInt8) (next : Nat → Option GoError → Reports (Int × Int) GoError ρ)
      (n : Nat) (err : Option GoError) (here : s.caller = .encoding (.write bytes next)) :
      Move s (.wrote n err) { s with caller := .encoding (next n err) }
  | skipped (final : Bool) (figures : Int × Int) (next : Reports (Int × Int) GoError ρ)
      (emitted : Time) (here : s.caller = .encoding (.tell final figures next)) :
      Move s .report { s with emitted, caller := .encoding next }
  | reported (final : Bool) (figures : Int × Int) (next : Reports (Int × Int) GoError ρ)
      (here : s.caller = .encoding (.tell final figures next)) (free : ¬ s.throttled) :
      Move s .report { s with
        emitted := s.now
        last := some s.now
        record := stamp s.now s.record figures.1 figures.2
        caller := .sending next }
  | sent (next : Reports (Int × Int) GoError ρ) (here : s.caller = .sending next) :
      Move s .send
        { s with updates := some (s.updates.getD s.record), caller := .encoding next }
  | closed (result : ρ) (here : s.caller = .encoding (.done result)) :
      Move s .close { s with caller := .stopping result }
  | joined (result : ρ) (here : s.caller = .stopping result) (gone : s.writer = .exited) :
      Move s .join { s with caller := .returned result }
  | took (snapshot : QueryRecord) (waiting : s.writer = .idle)
      (found : s.updates = some snapshot) :
      Move s .take { s with
        updates := none
        writer := .writing snapshot
        issued := s.issued ++ [snapshot] }
  | answered (answer : Answer) (snapshot : QueryRecord) (busy : s.writer = .writing snapshot) :
      Move s (.answer answer) { s with
        writer := answer.next
        stored := if answer.stores then s.stored ++ [snapshot] else s.stored }
  | marked (told : s.writer = .refused) :
      Move s .mark { s with lost := true, writer := .leaving }
  | drained (waiting : s.writer = .idle) (empty : s.updates = none)
      (closed : s.caller.closed = true) : Move s .exit { s with writer := .exited }
  | left (told : s.writer = .leaving) : Move s .exit { s with writer := .exited }

variable {s t : State ρ} {action : Action} {low : Int × Int}

theorem step_move (taken : step s action = some t) : Move s action t := by
  cases action
  all_goals simp only [step] at taken
  case tick elapsed =>
    obtain rfl := Option.some.inj taken
    exact .ticked elapsed
  case wrote n err =>
    split at taken <;> cases taken
    rename_i bytes next here
    exact .wrote bytes next n err here
  case report =>
    split at taken
    · rename_i final figures next here
      split at taken
      · obtain rfl := Option.some.inj taken
        unfold State.report
        split
        · exact .skipped final figures next s.now here
        · exact .reported final figures next here ‹_›
      · obtain rfl := Option.some.inj taken
        exact .skipped final figures next s.emitted here
    · contradiction
  case send =>
    split at taken <;> cases taken
    rename_i next here
    exact .sent next here
  case close =>
    split at taken <;> cases taken
    rename_i result here
    exact .closed result here
  case join =>
    split at taken <;> cases taken
    rename_i result here gone
    exact .joined result here gone
  case take =>
    split at taken <;> cases taken
    rename_i snapshot waiting found
    exact .took snapshot waiting found
  case answer answer =>
    split at taken <;> cases taken
    rename_i snapshot busy
    exact .answered answer snapshot busy
  case mark =>
    split at taken <;> cases taken
    rename_i told
    exact .marked told
  case exit =>
    split at taken
    · rename_i waiting empty closed
      obtain rfl := Option.some.inj taken
      exact .drained waiting empty closed
    · rename_i told
      obtain rfl := Option.some.inj taken
      exact .left told
    · contradiction

/-! ## The order of the figures -/

def figures (snapshot : QueryRecord) : Int × Int :=
  (snapshot.stats.rowsRead, snapshot.stats.bytesWritten)

def Ordered (snapshots : List QueryRecord) : Prop :=
  snapshots.Pairwise fun earlier later =>
    earlier.stats.rowsRead ≤ later.stats.rowsRead ∧
      earlier.stats.bytesWritten ≤ later.stats.bytesWritten

def State.queue (s : State ρ) : List QueryRecord := s.issued ++ s.updates.toList

/-- What is left of the row loop reports nothing below `low`; a record about to be sent has
these figures. -/
def Caller.Rises (record : QueryRecord) (low : Int × Int) : Caller ρ → Prop
  | .encoding program => program.Rises (fun _ _ => True) low
  | .sending program => program.Rises (fun _ _ => True) low ∧ figures record = low
  | .stopping _ => True
  | .returned _ => True

/-- `low` are the figures of the last report, whether they went into the channel or not. -/
structure State.Rising (s : State ρ) (low : Int × Int) : Prop where
  ordered : Ordered s.queue
  below : ∀ snapshot ∈ s.queue, figures snapshot ≤ low
  rises : s.caller.Rises s.record low

theorem State.Rising.raise {high : Int × Int} (rising : s.Rising low) (same : t.queue = s.queue)
    (higher : low ≤ high) (rises : t.caller.Rises t.record high) :
    t.Rising high where
  ordered := by
    rw [same]
    exact rising.ordered
  below := by
    intro snapshot queued
    rw [same] at queued
    exact (rising.below snapshot queued).trans higher
  rises := rises

variable {next : Reports (Int × Int) GoError ρ}

theorem State.Rising.send (rising : s.Rising low) (here : s.caller = .sending next) :
    { s with updates := some (s.updates.getD s.record), caller := .encoding next }.Rising
      low := by
  have rises := rising.rises
  rw [here] at rises
  cases waiting : s.updates with
  | some snapshot =>
    -- the channel is full and the snapshot is dropped
    exact rising.raise (by simp [State.queue, waiting]) le_rfl rises.1
  | none =>
    have same : s.queue = s.issued := by simp [State.queue, waiting]
    have ordered := rising.ordered
    have below := rising.below
    rw [same] at ordered below
    constructor
    · refine pairwise_append.mpr ⟨ordered, pairwise_singleton _ _, ?_⟩
      intro earlier issued later sent
      obtain rfl := mem_singleton.mp sent
      have bound := below earlier issued
      rw [← rises.2] at bound
      exact bound
    · intro snapshot queued
      rcases mem_append.mp queued with issued | sent
      · exact below snapshot issued
      · obtain rfl := mem_singleton.mp sent
        exact rises.2.le
    · exact rises.1

theorem State.Rising.step (rising : s.Rising low) (taken : ProgressReporter.step s action = some t) :
    ∃ high, t.Rising high := by
  have rises := rising.rises
  cases step_move taken with
  | wrote _ _ n err here =>
    rw [here] at rises
    exact ⟨low, rising.raise rfl le_rfl (rises n err)⟩
  | skipped _ figures _ _ here =>
    rw [here] at rises
    exact ⟨figures, rising.raise rfl rises.1 rises.2⟩
  | reported _ figures _ here =>
    rw [here] at rises
    exact ⟨figures, rising.raise rfl rises.1 ⟨rises.2, rfl⟩⟩
  | sent _ here => exact ⟨low, rising.send here⟩
  | closed | joined => exact ⟨low, rising.raise rfl le_rfl trivial⟩
  | took _ _ found => exact ⟨low, rising.raise (by simp [State.queue, found]) le_rfl rises⟩
  | ticked | answered | marked | drained | left => exact ⟨low, rising.raise rfl le_rfl rises⟩

/-! ## What is written and what was issued -/

def Writer.inFlight : Writer → List QueryRecord
  | .writing snapshot => [snapshot]
  | _ => []

def Writer.Over : Writer → Prop
  | .idle => False
  | .writing _ => False
  | .refused => True
  | .leaving => True
  | .exited => True

/-- A snapshot is stored at most once, in the order of the writes, `lost` is set by a
goroutine that writes no more, and `stopReporting` has waited for it. -/
structure State.Settled (s : State ρ) : Prop where
  stored : (s.stored ++ s.writer.inFlight).Sublist s.issued
  flagged : s.lost = true → s.writer.Over
  joined : ∀ result, s.caller = .returned result → s.writer = .exited

theorem State.Settled.running (settled : s.Settled) (busy : ¬ s.writer.Over) :
    s.lost = false ∧ ∀ result, s.caller ≠ .returned result := by
  refine ⟨?_, ?_⟩
  · by_contra set
    exact busy (settled.flagged (by simpa using set))
  · intro result back
    exact busy (by simp [settled.joined result back, Writer.Over])

theorem Answer.next_inFlight (answer : Answer) : answer.next.inFlight = [] := by
  cases answer <;> rfl

theorem State.Settled.step (settled : s.Settled) (taken : ProgressReporter.step s action = some t) :
    t.Settled := by
  have stored := settled.stored
  cases step_move taken with
  | ticked => exact ⟨stored, settled.flagged, settled.joined⟩
  | wrote | skipped | reported | sent | closed => exact ⟨stored, settled.flagged, by simp⟩
  | joined _ _ gone => exact ⟨stored, settled.flagged, fun _ _ => gone⟩
  | took _ waiting =>
    obtain ⟨unset, unreturned⟩ := settled.running (by simp [waiting, Writer.Over])
    rw [waiting] at stored
    refine ⟨?_, by simp [unset], fun result back => absurd back (unreturned result)⟩
    simpa [Writer.inFlight] using stored
  | answered _ _ busy =>
    obtain ⟨unset, unreturned⟩ := settled.running (by simp [busy, Writer.Over])
    rw [busy] at stored
    refine ⟨?_, by simp [unset], fun result back => absurd back (unreturned result)⟩
    rw [Answer.next_inFlight, append_nil]
    split
    · exact stored
    · exact (sublist_append_left _ _).trans stored
  | marked told =>
    rw [told] at stored
    refine ⟨stored, fun _ => trivial, ?_⟩
    intro result back
    have gone := settled.joined result back
    rw [told] at gone
    contradiction
  | drained waiting | left waiting =>
    rw [waiting] at stored
    exact ⟨stored, fun _ => trivial, fun _ _ => rfl⟩

/-! ## The end of the writes -/

def State.Silent (s : State ρ) : Prop :=
  ∀ t, Runs.Reaches step Runs.Always s t → t.issued = s.issued

theorem Writer.Over.step (past : s.writer.Over) (taken : ProgressReporter.step s action = some t) :
    t.writer.Over ∧ t.issued = s.issued := by
  cases step_move taken with
  | ticked | wrote | skipped | reported | sent | closed | joined => exact ⟨past, rfl⟩
  | took _ waiting | answered _ _ waiting => exact absurd past (by simp [waiting, Writer.Over])
  | marked | drained | left => exact ⟨trivial, rfl⟩

theorem Writer.Over.silent (past : s.writer.Over) : s.Silent := by
  intro t run
  have kept : t.writer.Over ∧ t.issued = s.issued := by
    refine run.invariant (fun t => t.writer.Over ∧ t.issued = s.issued) ⟨past, rfl⟩ ?_
    intro before action after holds _ taken
    obtain ⟨still, same⟩ := holds.1.step taken
    exact ⟨still, same.trans holds.2⟩
  exact kept.2

/-! ## `stopReporting` -/

def State.Stopping (s : State ρ) : Prop := ∃ result, s.caller = .stopping result

def State.Returned (s : State ρ) : Prop := ∃ result, s.caller = .returned result

/-- The writes `stopReporting` still waits for: the one in flight, and the one of the
snapshot in the channel, which `range` delivers although the channel is closed. -/
def State.pending (s : State ρ) : List QueryRecord :=
  match s.writer with
  | .idle => s.updates.toList
  | .writing snapshot => snapshot :: s.updates.toList
  | _ => []

def Moves (_ : State ρ) : Action → Prop
  | .tick _ => False
  | _ => True

def Unanswered (_ : State ρ) : Action → Prop
  | .tick _ => False
  | .answer _ => False
  | _ => True

theorem pending_length_le (s : State ρ) : s.pending.length ≤ 2 := by
  have one : s.updates.toList.length ≤ 1 := by cases s.updates <;> simp
  unfold State.pending
  split
  · omega
  · simp only [length_cons]
    omega
  · simp

theorem pending_step (stopping : s.Stopping) (taken : step s action = some t) :
    t.pending = s.pending ∨
      ∃ answer, action = .answer answer ∧ t.pending.length < s.pending.length := by
  obtain ⟨_, stopping⟩ := stopping
  cases step_move taken with
  | wrote _ _ _ _ here | skipped _ _ _ _ here | reported _ _ _ here | sent _ here
  | closed _ here => simp [stopping] at here
  | ticked | joined => exact .inl rfl
  | answered answer _ busy =>
    refine .inr ⟨answer, rfl, ?_⟩
    cases answer <;> simp [State.pending, busy, Answer.next]
  | took _ waiting found | drained waiting found =>
    exact .inl (by simp [State.pending, waiting, found])
  | marked told | left told => exact .inl (by simp [State.pending, told])

def State.toGo (s : State ρ) : Nat :=
  match s.writer with
  | .exited => 1
  | .leaving => 2
  | .refused => 3
  | .idle => 2 + 3 * s.updates.toList.length
  | .writing _ => 4 + 3 * s.updates.toList.length

theorem stopping_closer (stopping : s.Stopping) (moves : Moves s action)
    (taken : step s action = some t) : t.Returned ∨ t.Stopping ∧ t.toGo < s.toGo := by
  have stopped := stopping
  obtain ⟨result, here⟩ := stopping
  cases step_move taken with
  | ticked => exact absurd moves (by simp [Moves])
  | wrote _ _ _ _ other | skipped _ _ _ _ other | reported _ _ _ other | sent _ other
  | closed _ other => simp [here] at other
  | joined result => exact .inl ⟨result, rfl⟩
  | answered answer _ busy =>
    refine .inr ⟨stopped, ?_⟩
    cases answer <;> simp [State.toGo, busy, Answer.next]
    omega
  | took _ waiting found | drained waiting found =>
    exact .inr ⟨stopped, by simp [State.toGo, waiting, found]⟩
  | marked told | left told => exact .inr ⟨stopped, by simp [State.toGo, told]⟩

theorem stopping_enabled (stopping : s.Stopping) (free : s.writer.inFlight = []) :
    ∃ action t, Unanswered s action ∧ step s action = some t := by
  obtain ⟨_, here⟩ := stopping
  cases waiting : s.writer with
  | idle =>
    cases found : s.updates with
    | none => exact ⟨.exit, _, trivial, by
        simp only [step, waiting, found, here, Caller.closed]
        rfl⟩
    | some => exact ⟨.take, _, trivial, by simp only [step, waiting, found]; rfl⟩
  | writing => simp [waiting, Writer.inFlight] at free
  | refused => exact ⟨.mark, _, trivial, by simp only [step, waiting]; rfl⟩
  | leaving => exact ⟨.exit, _, trivial, by simp only [step, waiting]; rfl⟩
  | exited => exact ⟨.join, _, trivial, by simp only [step, waiting, here]; rfl⟩

theorem Unanswered.moves (allowed : Unanswered s action) : Moves s action := by
  cases action with
  | tick => exact allowed
  | answer => trivial
  | _ => trivial

theorem stopping_returns (stopping : s.Stopping) : Inevitable step Moves State.Returned s := by
  refine inevitable_of_measure State.Stopping State.Returned State.toGo ?_ ?_ s stopping
  · intro s stopping _
    by_cases free : s.writer.inFlight = []
    · obtain ⟨action, t, allowed, taken⟩ := stopping_enabled stopping free
      exact ⟨action, t, allowed.moves, taken⟩
    · cases busy : s.writer with
      | writing => exact ⟨.answer .written, _, trivial, by simp only [step, busy]; rfl⟩
      | _ => exact absurd (by simp [busy, Writer.inFlight]) free
  · intro s action t stopping _ moves taken
    exact stopping_closer stopping moves taken

theorem inFlight_of_pending (empty : s.pending = []) : s.writer.inFlight = [] := by
  cases busy : s.writer with
  | writing => simp [State.pending, busy] at empty
  | _ => rfl

theorem stopping_returns_unanswered (stopping : s.Stopping) (empty : s.pending = []) :
    Inevitable step Unanswered State.Returned s := by
  refine inevitable_of_measure (fun s => s.Stopping ∧ s.pending = []) State.Returned
    State.toGo ?_ ?_ s ⟨stopping, empty⟩
  · intro s holds _
    exact stopping_enabled holds.1 (inFlight_of_pending holds.2)
  · intro s action t holds _ allowed taken
    rcases stopping_closer holds.1 allowed.moves taken with back | ⟨stopping, less⟩
    · exact .inl back
    · rcases pending_step holds.1 taken with same | ⟨_, rfl, _⟩
      · exact .inr ⟨⟨stopping, same.trans holds.2⟩, less⟩
      · exact absurd allowed (by simp [Unanswered])

/-! ## `report` and the row loop -/

def Own (_ : State ρ) : Action → Prop
  | .report => True
  | .send => True
  | _ => False

def Caller.inReport : Caller ρ → Option (Reports (Int × Int) GoError ρ)
  | .encoding (.tell _ _ next) => some next
  | .sending next => some next
  | _ => none

theorem send_returns (here : s.caller = .sending next) :
    Inevitable step Own (fun t => t.caller = .encoding next) s := by
  refine .ahead ⟨.send, _, trivial, by simp only [step, here]; rfl⟩ ?_
  intro action t own taken
  cases step_move taken with
  | sent _ other =>
    obtain rfl := Caller.sending.inj (here.symm.trans other)
    exact .here rfl
  | skipped _ _ _ _ other | reported _ _ _ other => simp [here] at other
  | _ => exact absurd own (by simp [Own])

theorem report_returns (reporting : s.caller.inReport = some next) :
    Inevitable step Own (fun t => t.caller = .encoding next) s := by
  cases here : s.caller with
  | sending =>
    rw [here] at reporting
    obtain rfl := Option.some.inj reporting
    exact send_returns here
  | stopping | returned => simp [here, Caller.inReport] at reporting
  | encoding program =>
    cases program with
    | done | write => simp [here, Caller.inReport] at reporting
    | tell =>
      rw [here] at reporting
      obtain rfl := Option.some.inj reporting
      have enabled : ∃ t, step s .report = some t := by
        simp only [step, here]
        split <;> exact ⟨_, rfl⟩
      obtain ⟨t, taken⟩ := enabled
      refine .ahead ⟨.report, t, trivial, taken⟩ ?_
      intro action t own taken
      cases step_move taken with
      | skipped _ _ _ _ other =>
        simp only [here, Caller.encoding.injEq, Reports.tell.injEq] at other
        obtain ⟨_, _, rfl⟩ := other
        exact .here rfl
      | reported _ _ _ other =>
        simp only [here, Caller.encoding.injEq, Reports.tell.injEq] at other
        obtain ⟨_, _, rfl⟩ := other
        exact send_returns rfl
      | sent _ other => simp [here] at other
      | _ => exact absurd own (by simp [Own])

/-! ## The reporter of `run`

`Run` has the goroutine with one step for each of its operations on the channel and the
store, and a `report` that nothing comes between. -/

def State.reporter (s : State ρ) : Reporter :=
  { mailbox := s.updates
    writing := s.writer.inFlight.head?
    lost := s.lost || s.writer = .refused || s.writer = .leaving
    last := s.last }

def answerOf (reply : Reply) (written : Bool) : Answer :=
  match reply with
  | .ok => if written then .written else .refused
  | .failed => .failed false
  | .lost => .failed written

section
variable (settled : s.Settled)
include settled

theorem take_refines (taken : step s .take = some t) : s.reporter.take = some t.reporter := by
  cases step_move taken with
  | took snapshot waiting found =>
    have unset := (settled.running (by simp [waiting, Writer.Over])).1
    simp [State.reporter, Reporter.take, waiting, found, unset, Writer.inFlight]

theorem answer_refines {snapshot : QueryRecord} (busy : s.writer = .writing snapshot)
    {m after : MetaStore} {written : Bool}
    (updated : m.updateQueryIfState snapshot [.running] = some (written, after)) (reply : Reply)
    (taken : step s (.answer (answerOf reply written)) = some t) :
    s.reporter.progress m reply = some (reply.apply m after, t.reporter) := by
  have unset := (settled.running (by simp [busy, Writer.Over])).1
  simp only [step, busy, Option.some.injEq] at taken
  subst taken
  cases reply <;> cases written <;>
    simp [State.reporter, Reporter.progress, busy, updated, unset, Writer.inFlight, answerOf,
      Answer.next]

theorem report_refines {u : State ρ} (alive : ¬ s.writer.Over) {final : Bool} {rows bytes : Int}
    (here : s.caller = .encoding (.tell final (rows, bytes) next))
    (taken : step s .report = some t) (passed : t.caller = .sending next)
    (sent : step t .send = some u) :
    report s.now s.record s.reporter rows bytes = (u.record, u.reporter) := by
  have unset := (settled.running alive).1
  have unrefused : s.writer ≠ .refused ∧ s.writer ≠ .leaving := by
    constructor <;> intro told <;> exact alive (by simp [told, Writer.Over])
  cases step_move taken with
  | skipped => contradiction
  | reported _ _ _ other free =>
    simp only [here, Caller.encoding.injEq, Reports.tell.injEq] at other
    obtain ⟨_, rfl, rfl⟩ := other
    simp only [step, Option.some.injEq] at sent
    subst sent
    simp only [State.throttled, unset, Bool.false_or] at free
    simp [report, State.reporter, unset, unrefused, free, stamp]

theorem drained_iff (running : s.writer ≠ .exited) :
    s.reporter.drained = true ↔ s.pending = [] := by
  cases busy : s.writer with
  | idle | writing =>
    have unset := (settled.running (by simp [busy, Writer.Over])).1
    simp [Reporter.drained, State.reporter, State.pending, busy, unset, Writer.inFlight]
  | refused | leaving => simp [Reporter.drained, State.reporter, State.pending, busy]
  | exited => exact absurd busy running

end

/-! ## Whole runs -/

section
variable {Value : Type} (codec : Codec Value) (parquet : Parquet Value) (format : String)
  (stream : RowStream Value) (record : QueryRecord) (now : Time)

def streaming : State (Encoding Value) :=
  start now record (Reporting.encodeStream codec parquet format stream)

variable {codec parquet format stream record now} {s : State (Encoding Value)}

section
variable (run : Reaches step Always (streaming codec parquet format stream record now) s)
include run

theorem rising_of_reaches : ∃ low, s.Rising low := by
  refine run.invariant (fun s => ∃ low, s.Rising low) ?_ ?_
  · refine ⟨(0, 0), Pairwise.nil, ?_, Reporting.encodeStream_rises format stream⟩
    intro snapshot queued
    exact absurd queued not_mem_nil
  · intro before action after rising _ taken
    obtain ⟨low, rising⟩ := rising
    exact rising.step taken

theorem settled_of_reaches : s.Settled := by
  refine run.invariant State.Settled ⟨Sublist.refl _, ?_, ?_⟩ ?_
  · intro set
    simp [streaming, start] at set
  · intro result back
    simp [streaming, start] at back
  · intro before action after settled _ taken
    exact settled.step taken

end

/-- Along every run the figures written do not go down, `stopReporting` returns once the
writes it waits for, two at most, have returned, and no write is issued after it or after a
refused one; `report` does not wait for the goroutine. -/
theorem progress_rises_and_stops
    (run : Reaches step Always (streaming codec parquet format stream record now) s) :
    (Ordered s.issued ∧ Ordered s.stored) ∧
      (s.Returned → s.writer = .exited ∧ s.Silent) ∧
      (s.Stopping →
        s.pending.length ≤ 2 ∧
        (∀ action t, step s action = some t → t.pending = s.pending ∨
          ∃ answer, action = .answer answer ∧ t.pending.length < s.pending.length) ∧
        Inevitable step Moves State.Returned s ∧
        (s.pending = [] → Inevitable step Unanswered State.Returned s)) ∧
      (∀ next, s.caller.inReport = some next →
        Inevitable step Own (fun t => t.caller = .encoding next) s) ∧
      ∀ t, step s (.answer .refused) = some t → t.Silent := by
  obtain ⟨_, rising⟩ := rising_of_reaches run
  have settled := settled_of_reaches run
  have issued : Ordered s.issued := rising.ordered.sublist (sublist_append_left _ _)
  refine ⟨⟨issued, ?_⟩, ?_, ?_, ?_, ?_⟩
  · exact issued.sublist ((sublist_append_left _ _).trans settled.stored)
  · intro back
    obtain ⟨result, back⟩ := back
    have gone := settled.joined result back
    exact ⟨gone, Writer.Over.silent (by simp [gone, Writer.Over])⟩
  · intro stopping
    exact ⟨pending_length_le s, fun action t taken => pending_step stopping taken,
      stopping_returns stopping, stopping_returns_unanswered stopping⟩
  · intro next reporting
    exact report_returns reporting
  · intro t taken
    cases step_move taken with
    | answered answer snapshot busy => exact Writer.Over.silent trivial

end

/-! ## A query with one row

Its row is reported after a second, and once more two seconds later, when the first write is
still in flight. -/

def sampleStreaming : State (Encoding Unit) :=
  streaming Deployment.sampleJob.codec Deployment.sampleJob.parquet "jsonl"
    Deployment.sampleJob.stream
    { QueryRecord.sample .running with createdAt := 0 } 0

def reportTwice : List Action :=
  [.wrote 5 none, .tick 1000000000, .report, .send, .take, .tick 2000000000, .report, .send,
    .close]

theorem reportTwice_reaches :
    ∃ s, Reaches step Always sampleStreaming s ∧ s.Stopping ∧ s.pending.length = 2 := by
  obtain ⟨s, run, closed, two⟩ : ∃ s, Reaches step Always sampleStreaming s ∧
      s.caller.closed = true ∧ s.pending.length = 2 :=
    exists_reaches reportTwice (by decide +kernel)
  refine ⟨s, run, ?_, two⟩
  cases here : s.caller with
  | encoding | sending => simp [here, Caller.closed] at closed
  | stopping result => exact ⟨result, here⟩
  | returned result =>
    have gone := (settled_of_reaches run).joined result here
    simp [State.pending, gone] at two

theorem stopReporting_returns_after_two_writes :
    ∃ s, Reaches step Always sampleStreaming s ∧ s.pending.length = 2 ∧
      Inevitable step Moves State.Returned s := by
  obtain ⟨s, run, stopping, two⟩ := reportTwice_reaches
  exact ⟨s, run, two, ((progress_rises_and_stops run).2.2.1 stopping).2.2.1⟩

theorem waits_step {s t : State ρ} (stopping : s.Stopping) (owing : s.pending ≠ [])
    (withheld : ∀ answer, action ≠ .answer answer) (taken : step s action = some t) :
    t.Stopping ∧ t.pending ≠ [] := by
  have same : t.pending = s.pending := by
    rcases pending_step stopping taken with same | ⟨answer, told, _⟩
    · exact same
    · exact absurd told (withheld answer)
  refine ⟨?_, same ▸ owing⟩
  obtain ⟨result, here⟩ := stopping
  cases step_move taken with
  | joined _ _ gone => exact absurd (by simp [State.pending, gone]) owing
  | wrote _ _ _ _ other | skipped _ _ _ _ other | reported _ _ _ other | sent _ other
  | closed _ other => simp [here] at other
  | _ => exact ⟨result, here⟩

/-- The write in flight has returned, and until a second one has, `stopReporting` does not. -/
theorem queued_snapshot_keeps_stopReporting :
    ∃ s t snapshot, Reaches step Always sampleStreaming s ∧ s.Stopping ∧
      s.writer = .writing snapshot ∧ step s (.answer .written) = some t ∧
      ∀ u, Reaches step (fun _ action => ∀ answer, action ≠ .answer answer) t u → ¬ u.Returned := by
  obtain ⟨s, run, stopping, two⟩ := reportTwice_reaches
  obtain ⟨result, here⟩ := stopping
  cases busy : s.writer with
  | writing snapshot =>
    refine ⟨s, _, snapshot, run, ⟨result, here⟩, busy, by simp only [step, busy]; rfl, ?_⟩
    intro u later back
    have waits : u.Stopping ∧ u.pending ≠ [] := by
      refine later.invariant (fun u => u.Stopping ∧ u.pending ≠ []) ⟨⟨result, here⟩, ?_⟩ ?_
      · intro empty
        have queued : s.updates.toList = [] := empty
        simp [State.pending, busy, queued] at two
      · intro before action after holds withheld taken
        exact waits_step holds.1 holds.2 withheld taken
    obtain ⟨_, stopped⟩ := waits.1
    obtain ⟨_, back⟩ := back
    rw [stopped] at back
    contradiction
  | idle =>
    have one : s.updates.toList.length ≤ 1 := by cases s.updates <;> simp
    simp only [State.pending, busy] at two
    omega
  | refused | leaving | exited => simp [State.pending, busy] at two

end DbBridge.Cluster.ProgressReporter
