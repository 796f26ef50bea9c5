import DbBridge.Cluster.Expiry
import DbBridge.Cluster.WellFormed

/-!
# Stored results and the records that refer to them

A result object is created by `run`, referred to by the terminal record only, and
removed by `deletePartial` or by a collector. Reference and object are separated when
`complete` gives up its write, when a process dies in between, when a collector rewrites or
drops a record that its owner has replaced meanwhile, and on Redis when the record expires.
-/

namespace DbBridge.Cluster

open Domain State

/-! ## The object of an execution -/

/-- The result `run` writes, from the writer it opens to the record it leaves. -/
def Run.object? (run : Run) : Option ObjectName :=
  match run.phase with
  | .stream _ _ ref _ | .stopping _ _ ref _ _ | .closing _ _ ref _ | .discard _ _ ref _ _ =>
    some (objectName ref)
  | _ => run.record.result.map objectName

def RunPhase.settled : RunPhase → Bool
  | .refreshKey | .deregister | .freeSlot | .done => true
  | _ => false

theorem RunPhase.registered_of_not_settled {phase : RunPhase} (open_ : phase.settled = false) :
    phase.registered = true := by
  cases phase <;> first | rfl | contradiction

variable {run : Run}

theorem Run.object?_of_late (late : run.phase.late = true) :
    run.object? = run.record.result.map objectName := by
  unfold Run.object?
  cases phase : run.phase <;> first | rfl | (rw [phase] at late; contradiction)

theorem finishRun_object? (now : Time) (run : Run) (next : QueryState)
    (qErr : Option QueryError) (dbDur storeDur : Duration) :
    (finishRun now run next qErr dbDur storeDur).object? = run.record.result.map objectName := by
  rw [Run.object?_of_late (finishRun_late ..), finishRun_result]

theorem afterClose_object? (now : Time) (run : Run) (dbDur storeDur : Duration)
    (ref : ResultRef) (encoded : Encoded) (closeErr : Option GoError) (checksum : String) :
    (afterClose now run dbDur storeDur ref encoded closeErr checksum).object? =
      some (objectName ref) := by
  unfold afterClose
  split
  · rfl
  · rfl
  · rw [finishRun_object?]
    rfl

theorem Run.object?_withReporter (run : Run) (next : Reporter) :
    { run with phase := run.phase.withReporter next }.object? = run.object? := by
  unfold Run.object?
  cases run.phase <;> rfl

theorem Run.Formed.object? (formed : run.Formed) (early : run.phase.late = false)
    (silent : run.object? = run.record.result.map objectName) : run.object? = none := by
  rw [silent, (formed.early early).result]
  rfl

variable {object : ObjectName} {queryID : String}

section
variable {now : Time} {m : MetaStore} {p : Process} {objects : List ObjectName}
  {choice : RunChoice} {out : RunOutcome}

section
variable (move : RunMove now m p objects run choice out)
include move

theorem RunMove.object_origin (formed : run.Formed) (held : out.run.object? = some object) :
    run.object? = some object ∨ ∃ dbDur ref, run.phase = .openWriter dbDur ∧
      choice = .opened ref ∧ objectName ref = object := by
  cases move with
  | opened dbDur ref phase => exact .inr ⟨dbDur, ref, phase, rfl, Option.some.inj held⟩
  | took _ _ _ _ _ stays | progressed _ _ _ _ _ _ _ stays =>
    subst stays
    rw [Run.object?_withReporter] at held
    exact .inl held
  | closed _ _ _ _ _ _ phase =>
    rw [afterClose_object?] at held
    left
    rw [Run.object?, phase]
    exact held
  | execFailed _ _ _ phase | storeFailed _ _ _ phase =>
    rw [finishRun_object?] at held
    left
    rw [Run.object?, phase]
    exact held
  | discarded _ _ _ _ _ _ _ phase =>
    rw [finishRun_object?, (formed.early (by rw [phase]; rfl)).result] at held
    contradiction
  | reported _ _ _ _ _ _ phase | encoded _ _ _ _ _ _ phase | unread _ _ _ _ _ phase
  | stopped _ _ _ _ _ phase | started phase | refused phase | executed _ _ phase
  | refreshed _ phase | deregistered phase | freed phase =>
    left
    rw [Run.object?, phase]
    exact held
  | begun _ _ _ _ phase continues =>
    left
    rw [Run.object?, phase]
    rcases continues with rfl | ⟨_, rfl⟩ <;> exact held
  | ended _ _ _ _ phase continues =>
    left
    rw [Run.object?, phase]
    rcases continues with ⟨rfl, _⟩ | ⟨_, rfl⟩
    · rwa [Run.object?_of_late (afterPersist_late run.record)] at held
    · exact held

theorem RunMove.object_next (sound : run.Sound queryID) (formed : run.Formed)
    (held : run.object? = some object) (open_ : run.phase.settled = false) :
    (out.run.object? = some object ∧ out.run.phase.settled = false) ∨
      (∃ deleted ctxErr, choice = .discarded deleted ctxErr ∧
        out.objects = if deleted then objects.filter (· ≠ object) else objects) ∨
      ∃ attempt reply giveUp, run.phase = .persistTerminal attempt ∧
        choice = .persist reply giveUp ∧ out.store = reply.apply m (m.store run.record) ∧
        (reply = .ok ∨ givesUp attempt giveUp p.ctxDone = true) := by
  have blank : run.phase.late = false → run.object? = run.record.result.map objectName → False := by
    intro early silent
    rw [formed.object? early silent] at held
    contradiction
  cases move with
  | took _ next _ reporting _ stays | progressed _ next _ _ _ reporting _ stays =>
    subst stays
    refine .inl ⟨(run.object?_withReporter next).trans held, ?_⟩
    cases phase : run.phase <;> first | rfl | (rw [phase] at reporting; contradiction)
  | reported _ _ _ _ _ _ phase | encoded _ _ _ _ _ _ phase | unread _ _ _ _ _ phase
  | stopped _ _ _ _ _ phase =>
    rw [Run.object?, phase] at held
    exact .inl ⟨held, rfl⟩
  | closed _ _ _ _ _ _ phase =>
    rw [Run.object?, phase] at held
    refine .inl ⟨(afterClose_object? ..).trans held, ?_⟩
    have running : run.record.state = .running := by
      have state := sound.phase
      rwa [phase] at state
    dsimp only [afterClose]
    split
    · rfl
    · rfl
    · simp only [finishRun, complete, running]
      rfl
  | discarded _ _ _ _ _ deleted ctxErr phase =>
    rw [Run.object?, phase] at held
    cases held
    exact .inr (.inl ⟨deleted, ctxErr, rfl, rfl⟩)
  | ended attempt reply giveUp _ phase continues =>
    rcases continues with ⟨_, why⟩ | ⟨_, rfl⟩
    · exact .inr (.inr ⟨attempt, reply, giveUp, phase, rfl, rfl, why⟩)
    · rw [Run.object?, phase] at held
      exact .inl ⟨held, rfl⟩
  | started phase | refused phase | begun _ _ _ _ phase | executed _ _ phase
  | execFailed _ _ _ phase | storeFailed _ _ _ phase | opened _ _ phase =>
    exact (blank (by rw [phase]; rfl) (by rw [Run.object?, phase])).elim
  | refreshed _ phase | deregistered phase | freed phase =>
    rw [phase] at open_
    contradiction

end

end

variable {now : Time} {m : MetaStore} {p : Process} {objects : List ObjectName}

def Run.givesUpTerminal (run : Run) (ctxDone giveUp : Bool) : Bool :=
  match run.phase with
  | .persistTerminal attempt => givesUp attempt giveUp ctxDone
  | _ => false

def GcPhase.disposed? : GcPhase → Option String
  | .release record _ => some record.id
  | .drop id _ => some id
  | _ => none

theorem GcAdvances.disposed_origin {before after : GcPhase}
    (advances : GcAdvances now m before after) (disposed : after.disposed? = some queryID) :
    before.disposed? = some queryID ∨
      ∃ record ids, before = .dispose record ids ∧ record.id = queryID := by
  cases advances with
  | disposed record ids => exact .inr ⟨record, ids, rfl, Option.some.inj disposed⟩
  | released => exact .inl disposed
  | read id ids =>
    rcases collectRead_cases m id ids with phase | ⟨_, _, _, phase | phase⟩ <;>
      rw [phase] at disposed <;> contradiction
  | stopped | locked | listed | skipped | marked | left => contradiction

variable {env : Env} {choice : GcChoice} {out : GcOutcome}

section
variable (taken : gcStep env now m p objects choice = some out)
include taken

theorem gcStep_disposed (disposed : out.process.gc.disposed? = some queryID) :
    p.gc.disposed? = some queryID ∨ ∃ record ids, p.gc = .dispose record ids ∧
      record.id = queryID ∧ ∀ ref, record.result = some ref → objectName ref ∉ out.objects := by
  rcases (gcStep_advances taken).disposed_origin disposed with before | ⟨record, ids, phase, own⟩
  · exact .inl before
  · refine .inr ⟨record, ids, phase, own, fun ref result => ?_⟩
    cases gcStep_move taken with
    | disposed _ _ _ now_ =>
      cases phase.symm.trans now_
      simp [result]
    | failed | stopped => contradiction
    | _ => simp_all

theorem gcStep_objects_subset : out.objects ⊆ objects := by
  cases gcStep_move taken with
  | disposed => exact List.filter_subset_self _
  | begun | listed | stopped | collected | marked | failed | released | dropped =>
    exact List.Subset.refl _

end

theorem RunMove.objects_origin {choice : RunChoice} {out : RunOutcome}
    (move : RunMove now m p objects run choice out) (stored : object ∈ out.objects) :
    object ∈ objects ∨ ∃ dbDur ref, run.phase = .openWriter dbDur ∧ choice = .opened ref ∧
      objectName ref = object ∧ out.run = { run with phase := .stream dbDur now ref {} } := by
  cases move with
  | opened dbDur ref phase =>
    rcases List.mem_cons.mp stored with rfl | before
    · exact .inr ⟨dbDur, ref, phase, rfl, rfl, rfl⟩
    · exact .inl before
  | discarded =>
    left
    split at stored
    · exact (List.mem_filter.mp stored).1
    · exact stored
  | started | refused | begun | executed | execFailed | storeFailed | reported | took
  | progressed | encoded | unread | stopped | closed | ended | refreshed | deregistered | freed =>
    exact .inl stored

variable {copy : QueryRecord} {d : Deployment}

namespace Deployment

/-! ## The condition on a step -/

/-- The stored record of the query has a result, and it is this object. -/
def referenced (d : Deployment) (queryID : String) (object : ObjectName) : Bool :=
  (d.store.queries.lookup queryID).any fun record =>
    record.result.any fun ref => objectName ref = object

theorem referenced_iff (d : Deployment) (queryID : String) (object : ObjectName) :
    d.referenced queryID object = true ↔ ∃ record ref,
      d.store.queries.lookup queryID = some record ∧ record.result = some ref ∧
        objectName ref = object := by
  simp [referenced, Option.any_eq_true]

def DeletesSucceed (_ : Deployment) : Action → Prop
  | .execution _ (.discarded deleted _) => deleted = true
  | .gc _ (.dispose deleted) => deleted = true
  | _ => True

/-- `complete` gives up its write only where the MetaStore already has the result. -/
def PersistsResult (d : Deployment) : Action → Prop
  | .execution queryID (.persist .failed giveUp) =>
    ∀ run ∈ d.runs queryID, ∀ ref ∈ run.record.result,
      run.givesUpTerminal ((d.procs run.pid).any (·.ctxDone)) giveUp = true →
        d.referenced queryID (objectName ref) = true
  | _ => True

/-- The process a step brings down: a kill, or a ticker that cannot be built. -/
def kills (d : Deployment) : Action → Option Nat
  | .crash pid => some pid
  | .heart pid .begin =>
    if (d.procs pid).any (·.heartbeatTTL.tdiv 2 ≤ 0) then some pid else none
  | _ => none

variable (owner : ObjectName → String)

def NamesQuery (_ : Deployment) : Action → Prop
  | .execution queryID (.opened ref) => owner (objectName ref) = queryID
  | _ => True

/-- A process dies only when the MetaStore refers to all the results it has written. -/
def DiesSettled (d : Deployment) (action : Action) : Prop :=
  ∀ pid ∈ d.kills action, ∀ object ∈ d.objects,
    ∀ run ∈ d.runs (owner object), run.pid = pid → d.referenced (owner object) object = true

/-- Over a record that has ended, nothing is put but the same result once more. -/
def PutsSameResult (d : Deployment) (action : Action) : Prop :=
  ∀ write ∈ d.putting? action, d.store.ended write.2.id = true →
    write.2.state.isTerminal = true ∧ ∀ ref ∈ write.2.result,
      (d.store.queries.lookup write.2.id).any (·.result = some ref) = true

def KeepsReferences (d : Deployment) (action : Action) : Prop :=
  DeletesSucceed d action ∧ NamesQuery owner d action ∧ PersistsResult d action ∧
    DiesSettled owner d action ∧ PutsSameResult d action

instance (d : Deployment) (action : Action) : Decidable (DeletesSucceed d action) := by
  unfold DeletesSucceed
  split <;> infer_instance

instance (d : Deployment) (action : Action) : Decidable (PersistsResult d action) := by
  apply Action.casesOn (motive := fun action => Decidable (PersistsResult d action)) action
  case execution =>
    intro queryID choice
    apply RunChoice.casesOn
      (motive := fun choice => Decidable (PersistsResult d (.execution queryID choice))) choice
    case persist => exact fun
      | .failed, _ =>
        inferInstanceAs (Decidable (∀ run ∈ d.runs queryID, ∀ ref ∈ run.record.result, _ → _))
      | .ok, _ | .lost, _ => instDecidableTrue
    all_goals intros; exact instDecidableTrue
  all_goals intros; exact instDecidableTrue

instance (d : Deployment) (action : Action) : Decidable (NamesQuery owner d action) := by
  unfold NamesQuery
  split <;> infer_instance

instance (d : Deployment) (action : Action) : Decidable (DiesSettled owner d action) :=
  inferInstanceAs (Decidable (∀ pid ∈ d.kills action, ∀ object ∈ d.objects, _))

instance (d : Deployment) (action : Action) : Decidable (PutsSameResult d action) :=
  inferInstanceAs (Decidable (∀ write ∈ d.putting? action, _ → _))

instance (d : Deployment) (action : Action) : Decidable (KeepsReferences owner d action) :=
  inferInstanceAs (Decidable (_ ∧ _))

section
variable {after : Deployment} {action : Action}

theorem PutsSameResult.noRevival (same : PutsSameResult d action) : NoRevival d action := by
  intro write putting unfinished
  cases ended : d.store.ended write.2.id with
  | false => rfl
  | true =>
    rw [(same write putting ended).1] at unfinished
    contradiction

/-! ## Copies of an ended record -/

def Copies (d : Deployment) (queryID : String) (record : QueryRecord) : Prop :=
  d.store.queries.lookup queryID = some record ∨
    ∃ pid p, d.procs pid = some p ∧ p.gc.hand? = some record ∧ record.id = queryID

variable {ref : ResultRef}

theorem Formed.copies (formed : Formed d) (copies : Copies d queryID copy)
    (result : copy.result = some ref) : Concluded d queryID ref := by
  rcases copies with lookup | ⟨pid, p, found, hand, rfl⟩
  · exact d.store.keyed queryID copy lookup ▸ (formed.stored queryID copy lookup).2 ref result
  · exact (formed.collecting pid p copy found hand).2 ref result

/-- A copy after a move has the result of one before it, unless it has just been put by
the query's submission or execution, or by a reaper over an unfinished record. -/
theorem Move.copies (shape : Shape d) (move : Move env d action after)
    (copies : Copies after queryID copy) :
    (∃ before, Copies d queryID before ∧ before.result = copy.result) ∨
      (∃ author written, d.putting? action = some (author, written) ∧
        Stores d action written ∧ written.id = queryID ∧ written.result = copy.result) ∨
      ∃ current, d.store.queries.lookup queryID = some current ∧
        current.state ∈ ownerLostExpected := by
  rcases copies with lookup | ⟨pid, _, present, hand, own⟩
  · rcases move.record_origin shape lookup with known | ⟨written, stores, rfl, _, rfl⟩
    · exact .inl ⟨copy, .inl known, rfl⟩
    · have again := stores
      cases stores with
      | admitted _ s _ sub phase =>
        exact .inr (.inl ⟨s.pid, written, by simp [putting?, sub, phase], again, rfl, rfl⟩)
      | begun _ _ run _ executed | ended _ _ run _ executed =>
        exact .inr (.inl ⟨run.pid, _, by simp [putting?, executed], again, rfl, rfl⟩)
      | progressed _ run _ _ executed writing =>
        exact .inr (.inl ⟨run.pid, written, by simp [putting?, executed, writing], again,
          rfl, rfl⟩)
      | reaped _ _ _ _ _ current _ _ _ found unfinished =>
        exact .inr (.inr ⟨current, found, unfinished⟩)
      | marked pid _ p _ _ found phase =>
        exact .inl ⟨written, .inr ⟨pid, p, found, by rw [phase]; rfl, rfl⟩, rfl⟩
  · left
    rcases move.gc_hand present hand with ⟨before, found, earlier⟩ | ⟨_, found, _, rfl⟩
    · exact ⟨copy, .inr ⟨pid, before, found, earlier, own⟩, rfl⟩
    · obtain ⟨stored, _, lookup, rfl⟩ := d.store.getQuery_eq_some found
      exact ⟨stored, .inl (own ▸ lookup), rfl⟩

theorem Move.objects_origin (move : Move env d action after) (stored : object ∈ after.objects) :
    object ∈ d.objects ∨ ∃ queryID ref run dbDur, action = .execution queryID (.opened ref) ∧
      objectName ref = object ∧ d.runs queryID = some run ∧ run.phase = .openWriter dbDur ∧
      after.runs queryID = some { run with phase := .stream dbDur d.now ref {} } ∧
      ∃ p, after.procs run.pid = some p ∧ p.alive = true := by
  cases move with
  | execution queryID _ run _ out executed _ alive taken =>
    rcases (runStep_move taken).objects_origin stored with
      before | ⟨dbDur, ref, phase, rfl, same, moved⟩
    · exact .inl before
    · refine .inr ⟨queryID, ref, run, dbDur, rfl, same, executed, phase, ?_, ?_⟩
      · simp [applyRun, setRun, moved]
      · obtain ⟨pid, _, _, process⟩ := runStep_process taken
        refine ⟨out.process, ?_, by rw [process]; exact alive⟩
        rw [← pid]
        exact setProc_procs_self ..
  | gc _ _ _ _ _ _ taken => exact .inl (gcStep_objects_subset taken stored)
  | submission =>
    left
    revert stored
    unfold applySubmit
    split <;> exact id
  | tick | started | rejected | submitted | reaper | heart | countBegin | countLocal
  | countRemote | operated => exact .inl stored

variable {pid : Nat}

theorem Move.alive_kept (move : Move env d action after) (found : d.procs pid = some p)
    (alive : p.alive = true) (spared : d.kills action ≠ some pid) :
    ∃ next, after.procs pid = some next ∧ next.alive = true := by
  obtain ⟨next, present, evolves⟩ := move.evolves found
  refine ⟨next, present, ?_⟩
  rcases evolves.parts.alive with same | ⟨_, _, rfl | ⟨rfl, panics⟩⟩
  · exact same.trans alive
  · exact absurd rfl spared
  · simp [kills, found, panics] at spared

/-! ## The invariant -/

/-- Every object is referred to, or its execution still works on it in a process that
is running. -/
structure Accounted (owner : ObjectName → String) (d : Deployment) : Prop where
  formed : Formed d
  registered : Registered d
  inHand : InHand d
  owned : ∀ queryID run object, d.runs queryID = some run → run.object? = some object →
    owner object = queryID
  agreed : ∀ queryID first second, d.store.ended queryID = true → Copies d queryID first →
    Copies d queryID second → first.result = second.result
  disposed : ∀ pid p queryID, d.procs pid = some p → p.gc.disposed? = some queryID →
    ∀ copy ref, Copies d queryID copy → copy.result = some ref → objectName ref ∉ d.objects
  held : ∀ object ∈ d.objects, d.referenced (owner object) object = true ∨
    ∃ run p, d.runs (owner object) = some run ∧ run.object? = some object ∧
      run.phase.settled = false ∧ d.procs run.pid = some p ∧ p.alive = true

theorem Accounted.initial (owner : ObjectName → String) (clock : 0 < now) :
    Accounted owner (initial now) where
  formed := Formed.initial clock
  registered := by simp [Registered, Deployment.initial]
  inHand := by simp [InHand, Deployment.initial]
  owned := by simp [Deployment.initial]
  agreed := by simp [Deployment.initial, MetaStore.empty, MetaStore.ended]
  disposed := by simp [Deployment.initial]
  held := by simp [Deployment.initial]

variable {owner : ObjectName → String}

theorem Move.copies_of_ended (shape : Shape d) (same : PutsSameResult d action)
    (move : Move env d action after) (ended : d.store.ended queryID = true)
    (copies : Copies after queryID copy) :
    (∃ before, Copies d queryID before ∧ before.result = copy.result) ∨
      copy.result = none ∧ ∃ author written, d.putting? action = some (author, written) ∧
        Stores d action written ∧ written.id = queryID ∧ written.result = none := by
  rcases move.copies shape copies with
    earlier | ⟨author, written, putting, stores, rfl, result⟩ | ⟨current, lookup, unfinished⟩
  · exact .inl earlier
  · cases put : written.result with
    | none => exact .inr ⟨result.symm.trans put, author, written, putting, stores, rfl, put⟩
    | some ref =>
      have stored := (same (author, written) putting ended).2 ref put
      rw [Option.any_eq_true] at stored
      obtain ⟨record, lookup, kept⟩ := stored
      exact .inl ⟨record, .inl lookup, (of_decide_eq_true kept).trans (put.symm.trans result)⟩
  · -- the record a reaper replaces has not ended
    rw [d.store.ended_iff] at ended
    obtain ⟨_, head, terminal⟩ := ended
    rw [d.store.logged queryID current lookup] at head
    cases head
    simp only [ownerLostExpected, List.mem_cons, List.not_mem_nil, or_false] at unfinished
    rcases unfinished with state | state <;> rw [state] at terminal <;> contradiction

section
variable (accounted : Accounted owner d)
include accounted

theorem Accounted.copies_agree (same : PutsSameResult d action) (move : Move env d action after)
    (ended : d.store.ended queryID = true) {before : QueryRecord}
    (copies : Copies after queryID copy) (known : Copies d queryID before) :
    before.result = copy.result := by
  have shape := accounted.formed.shape
  rcases move.copies_of_ended shape same ended copies with
    ⟨earlier, member, result⟩ | ⟨silent, _, _, putting, stores, rfl, put⟩
  · exact (accounted.agreed queryID before earlier ended known member).trans result
  · cases kept : before.result with
    | none => exact silent.symm
    | some =>
      have concluded := accounted.formed.copies known kept
      rw [(concluded.stores shape stores).2 _ putting] at put
      contradiction

theorem Accounted.copies_fresh (move : Move env d action after)
    (before : d.store.ended queryID = false) (copies : Copies after queryID copy) :
    after.store.queries.lookup queryID = some copy := by
  rcases copies with lookup | ⟨pid, _, present, hand, own⟩
  · exact lookup
  · exfalso
    have ended : d.store.ended queryID = true := by
      rcases move.gc_hand present hand with ⟨p, found, earlier⟩ | ⟨_, found, terminal, _⟩
      · refine accounted.inHand pid p queryID found ?_
        subst own
        cases phase : p.gc <;> rw [phase] at earlier <;> first | contradiction | cases earlier; rfl
      · rw [own] at found
        rw [d.store.getQuery_ended found]
        exact terminal
    rw [before] at ended
    contradiction

theorem Accounted.agreed_step (same : PutsSameResult d action) (move : Move env d action after)
    (queryID : String) (first second : QueryRecord) (firstCopy : Copies after queryID first)
    (secondCopy : Copies after queryID second) : first.result = second.result := by
  cases ended : d.store.ended queryID with
  | false =>
    have one := accounted.copies_fresh move ended firstCopy
    rw [accounted.copies_fresh move ended secondCopy] at one
    cases one
    rfl
  | true =>
    by_cases known : ∃ before, Copies d queryID before
    · obtain ⟨before, known⟩ := known
      exact (accounted.copies_agree same move ended firstCopy known).symm.trans
        (accounted.copies_agree same move ended secondCopy known)
    · -- the record had been deleted, and what was put has no result
      have none_ : ∀ copy, Copies after queryID copy → copy.result = none := by
        intro copy copies
        rcases move.copies_of_ended accounted.formed.shape same ended copies with
          ⟨before, member, _⟩ | ⟨silent, _⟩
        · exact absurd ⟨before, member⟩ known
        · exact silent
      rw [none_ first firstCopy, none_ second secondCopy]

theorem Accounted.owned_step (named : NamesQuery owner d action) (move : Move env d action after)
    (queryID : String) (run : Run) (object : ObjectName) (executed : after.runs queryID = some run)
    (held : run.object? = some object) : owner object = queryID := by
  have shape := accounted.formed.shape
  rcases move.run_origin shape executed with
    same | ⟨_, s, record, _, sub, phase, rfl⟩ |
      ⟨_, before, _, _, rfl, known, _, taken, rfl⟩
  · exact accounted.owned queryID run object same held
  · obtain ⟨_, _, _, sound⟩ := shape.sub queryID s sub
    obtain ⟨_, rfl⟩ := sound record (by rw [phase]; rfl)
    contradiction
  · rcases (runStep_move taken).object_origin (accounted.formed.running _ before known) held with
      earlier | ⟨_, _, _, rfl, rfl⟩
    · exact accounted.owned queryID before object known earlier
    · exact named

theorem Accounted.owner_of_concluded (concluded : Concluded d queryID ref) :
    owner (objectName ref) = queryID := by
  obtain ⟨run, executed, late, result⟩ := concluded.late
  refine accounted.owned queryID run _ executed ?_
  rw [Run.object?_of_late late, result]
  rfl

theorem Accounted.gone_step (named : NamesQuery owner d action) (move : Move env d action after)
    (concluded : Concluded d queryID ref) (gone : objectName ref ∉ d.objects) :
    objectName ref ∉ after.objects := by
  intro stored
  rcases move.objects_origin stored with
    before | ⟨opener, opened, _, _, rfl, same, executed, phase, _⟩
  · exact gone before
  · have own := accounted.owner_of_concluded concluded
    obtain ⟨_, known, late, _⟩ := concluded.late
    rw [← own, ← same, named, executed] at known
    cases known
    rw [phase] at late
    contradiction

end

theorem GcPhase.target_of_disposed {phase : GcPhase} (disposed : phase.disposed? = some queryID) :
    phase.target? = some queryID := by
  cases phase <;> first | contradiction | exact disposed

theorem Move.disposed_origin (move : Move env d action after) {next : Process}
    (present : after.procs pid = some next) (disposed : next.gc.disposed? = some queryID) :
    ∃ before, d.procs pid = some before ∧ (before.gc.disposed? = some queryID ∨
      ∃ record ids, before.gc = .dispose record ids ∧ record.id = queryID ∧
        ∀ ref, record.result = some ref → objectName ref ∉ after.objects) := by
  rcases move.origin pid next present with ⟨before, found, _⟩ | ⟨_, _, _, _, _, _, rfl⟩
  · refine ⟨before, found, ?_⟩
    rcases (move.parts found present).gc with same | ⟨_, _, rfl, objects, taken⟩
    · exact .inl (same ▸ disposed)
    · rw [objects]
      exact gcStep_disposed taken disposed
  · contradiction

theorem Accounted.disposed_step (accounted : Accounted owner d)
    (named : NamesQuery owner d action) (same : PutsSameResult d action)
    (move : Move env d action after) (pid : Nat) (next : Process) (queryID : String)
    (present : after.procs pid = some next) (disposed : next.gc.disposed? = some queryID)
    (copy : QueryRecord) (ref : ResultRef) (copies : Copies after queryID copy)
    (result : copy.result = some ref) : objectName ref ∉ after.objects := by
  obtain ⟨before, found, earlier | ⟨record, _, phase, rfl, gone⟩⟩ :=
    move.disposed_origin present disposed
  · have ended := accounted.inHand pid before queryID found (GcPhase.target_of_disposed earlier)
    rcases move.copies_of_ended accounted.formed.shape same ended copies with
      ⟨known, member, kept⟩ | ⟨silent, _⟩
    · have stored := kept.trans result
      exact accounted.gone_step named move (accounted.formed.copies member stored)
        (accounted.disposed pid before queryID found earlier known ref member stored)
    · rw [silent] at result
      contradiction
  · -- the record in hand is a copy, so its result is the one just removed
    have ended := accounted.inHand pid before record.id found (by rw [phase]; rfl)
    have hand : Copies d record.id record :=
      .inr ⟨pid, before, found, by rw [phase]; rfl, rfl⟩
    exact gone ref ((accounted.copies_agree same move ended copies hand).trans result)

theorem Accounted.referenced_step (accounted : Accounted owner d) (same : PutsSameResult d action)
    (move : Move env d action after) (stored : object ∈ d.objects)
    (referenced : d.referenced queryID object = true) : after.referenced queryID object = true := by
  rw [referenced_iff] at referenced ⊢
  obtain ⟨record, ref, lookup, result, rfl⟩ := referenced
  have shape := accounted.formed.shape
  have ended : d.store.ended queryID = true := by
    have concluded := accounted.formed.copies (.inl lookup) result
    rw [d.store.ended_iff]
    exact ⟨record.state, d.store.logged queryID record lookup, concluded.ended record lookup⟩
  have kept : ¬ Drops d action queryID := by
    rintro ⟨pid, _, p, _, _, found, phase⟩
    exact accounted.disposed pid p queryID found (by rw [phase]; rfl) record ref (.inl lookup)
      result stored
  have there := move.has_kept shape (by simp [MetaStore.has, lookup]) kept
  obtain ⟨now, present⟩ := Option.isSome_iff_exists.mp there
  have agree := accounted.copies_agree same move ended (.inl present) (.inl lookup)
  exact ⟨now, ref, present, agree.symm.trans result, rfl⟩

theorem referenced_of_store {record : QueryRecord} (stored : after.store = m.store record)
    (result : record.result.map objectName = some object) :
    after.referenced record.id object = true := by
  obtain ⟨ref, found, same⟩ := Option.map_eq_some_iff.mp result
  rw [referenced_iff, stored]
  exact ⟨_, ref, MetaStore.store_lookup_self .., found, same⟩

section
variable (accounted : Accounted owner d)
include accounted

theorem Accounted.execution_step {choice : RunChoice}
    (guard : KeepsReferences owner d (.execution queryID choice)) {out : RunOutcome}
    (executed : d.runs queryID = some run) (found : d.procs run.pid = some p)
    (alive : p.alive = true) (taken : runStep d.now d.store p d.objects run choice = some out)
    (held : run.object? = some object) (open_ : run.phase.settled = false)
    (stored : object ∈ out.objects) :
    (d.applyRun queryID out).referenced queryID object = true ∨
      ∃ next process, (d.applyRun queryID out).runs queryID = some next ∧
        next.object? = some object ∧ next.phase.settled = false ∧
        (d.applyRun queryID out).procs next.pid = some process ∧ process.alive = true := by
  obtain ⟨deletes, _, persists, _⟩ := guard
  have sound := (accounted.formed.shape.run queryID run executed).1
  rcases (runStep_move taken).object_next sound (accounted.formed.running _ run executed) held
      open_ with
    ⟨still, unsettled⟩ | ⟨deleted, ctxErr, rfl, objects⟩ |
      ⟨attempt, reply, giveUp, phase, rfl, written, ends⟩
  · obtain ⟨_, _, _, process⟩ := runStep_process taken
    exact .inr ⟨out.run, out.process, by simp [applyRun, setRun], still, unsettled,
      setProc_procs_self .., by rw [process]; exact alive⟩
  · obtain rfl : deleted = true := deletes
    rw [objects] at stored
    simp at stored
  · left
    have late : run.phase.late = true := by rw [phase]; rfl
    rw [Run.object?_of_late late] at held
    rcases reply.apply_cases d.store (d.store.store run.record) with
      ⟨rfl, kept⟩ | ⟨_, applied⟩
    · obtain ⟨ref, result, rfl⟩ := Option.map_eq_some_iff.mp held
      have givesUp : run.givesUpTerminal ((d.procs run.pid).any (·.ctxDone)) giveUp = true := by
        rw [found, Run.givesUpTerminal, phase]
        exact ends.resolve_left (by simp)
      have before := persists run executed ref result givesUp
      rw [referenced, show (d.applyRun queryID out).store = d.store from written.trans kept]
      exact before
    · obtain rfl := sound.id
      have stored : (d.applyRun run.record.id out).store = d.store.store run.record :=
        written.trans applied
      exact referenced_of_store stored held

section
variable (guard : KeepsReferences owner d action) (move : Move env d action after)
include guard move

theorem Accounted.held_step (object : ObjectName) (stored : object ∈ after.objects) :
    after.referenced (owner object) object = true ∨
      ∃ run p, after.runs (owner object) = some run ∧ run.object? = some object ∧
        run.phase.settled = false ∧ after.procs run.pid = some p ∧ p.alive = true := by
  have conditions := guard
  obtain ⟨_, named, _, dies, same⟩ := conditions
  rcases move.objects_origin stored with
    before | ⟨queryID, ref, run, dbDur, rfl, rfl, _, _, opened, p, found, alive⟩
  · rcases accounted.held object before with
      referenced | ⟨run, p, executed, held, open_, found, alive⟩
    · exact .inl (accounted.referenced_step same move before referenced)
    · rcases move.run_next accounted.formed.shape executed with
        kept | ⟨_, _, _, rfl, found, alive, taken, rfl⟩
      · by_cases killed : d.kills action = some run.pid
        · have referenced := dies run.pid killed object before run executed rfl
          exact .inl (accounted.referenced_step same move before referenced)
        · obtain ⟨next, present, living⟩ := move.alive_kept found alive killed
          exact .inr ⟨run, next, kept, held, open_, present, living⟩
      · exact accounted.execution_step guard executed found alive taken held open_ stored
  · exact .inr ⟨{ run with phase := .stream dbDur d.now ref {} }, p, named ▸ opened, rfl, rfl,
      found, alive⟩

theorem Accounted.step :
    Accounted owner after where
  formed := accounted.formed.step move
  registered := accounted.registered.step accounted.formed.shape move
  inHand := accounted.inHand.step move fun _ ended =>
    move.ended accounted.formed.shape guard.2.2.2.2.noRevival ended
  owned := accounted.owned_step guard.2.1 move
  agreed := fun queryID first second _ => accounted.agreed_step guard.2.2.2.2 move queryID
    first second
  disposed := accounted.disposed_step guard.2.1 guard.2.2.2.2 move
  held := accounted.held_step guard move

end

end

theorem Reachable.accounted (reached : Reachable env (KeepsReferences owner) d) :
    Accounted owner d := by
  obtain ⟨_, positive, run⟩ := reached
  exact run.invariant (Accounted owner) (Accounted.initial owner positive)
    fun _ _ _ accounted guard taken => accounted.step guard (step_move taken)

end

/-! ## Records that expire -/

/-- Taking records away keeps everything but the references they were. -/
theorem Accounted.expire {owner : ObjectName → String} (accounted : Accounted owner d)
    {gone : String → Bool}
    (kept : ∀ object ∈ d.objects, d.referenced (owner object) object = true →
      gone (owner object) = false) : Accounted owner { d with store := d.store.expire gone } := by
  have before : ∀ {id record}, (d.store.expire gone).queries.lookup id = some record →
      d.store.queries.lookup id = some record := by
    intro id record lookup
    rw [MetaStore.expire, MetaStore.without_lookup] at lookup
    split at lookup
    · contradiction
    · exact lookup
  have concluded : ∀ {record}, ResultKept d record →
      ResultKept { d with store := d.store.expire gone } record :=
    fun kept ref result => ⟨(kept ref result).late, fun _ lookup =>
      (kept ref result).ended _ (before lookup)⟩
  have copies : ∀ {queryID copy}, Copies { d with store := d.store.expire gone } queryID copy →
      Copies d queryID copy := fun copies => copies.imp_left before
  have formed := accounted.formed
  refine ⟨⟨⟨formed.shape.sub, formed.shape.run, formed.shape.workers⟩, formed.clock, ?_,
    formed.running, ?_, formed.judged, ?_⟩, accounted.registered, accounted.inHand,
    accounted.owned, ?_, ?_, ?_⟩
  · intro id record lookup
    obtain ⟨wellFormed, kept⟩ := formed.stored id record (before lookup)
    exact ⟨wellFormed, concluded kept⟩
  · exact fun pid p record found hand => concluded (formed.reaping pid p record found hand)
  · intro pid p record found hand
    obtain ⟨finished, kept⟩ := formed.collecting pid p record found hand
    exact ⟨finished, concluded kept⟩
  · exact fun queryID first second ended one two =>
      accounted.agreed queryID first second ended (copies one) (copies two)
  · exact fun pid p queryID found disposed copy ref member =>
      accounted.disposed pid p queryID found disposed copy ref (copies member)
  · intro object stored
    refine (accounted.held object stored).imp_left fun referenced => ?_
    have lasting := kept object stored referenced
    simpa [Deployment.referenced, MetaStore.expire, MetaStore.without_lookup, lasting]
      using referenced

variable (owner : ObjectName → String)

/-- The condition on a step on Redis: besides, the clock does not reach the expiry of a record
that refers to a result. -/
def KeepsRecords (s : Expiring) (action : Action) : Prop :=
  KeepsReferences owner s.base action ∧ match action with
    | .tick elapsed => ∀ object ∈ s.base.objects, s.base.referenced (owner object) object = true →
        Expiring.lasts (s.base.now + elapsed) (s.expiry (owner object)) = true
    | _ => True

instance (s : Expiring) (action : Action) : Decidable (KeepsRecords owner s action) := by
  apply Action.casesOn (motive := fun action => Decidable (KeepsRecords owner s action)) action
  all_goals intros; exact instDecidableAnd

variable {owner}

theorem accounted_of_reaches {s : Expiring} (clock : 0 < now)
    (run : Runs.Reaches (Expiring.step env) (KeepsRecords owner) (.initial now) s) :
    Accounted owner s.base := by
  have both := run.invariant (fun s => Accounted owner s.base ∧ ∀ queryID,
    s.base.store.has queryID = true → Expiring.lasts s.base.now (s.expiry queryID) = true)
    ⟨Accounted.initial owner clock, fun _ _ => rfl⟩ ?_
  · exact both.1
  rintro s action after ⟨accounted, lasting⟩ ⟨keeps, timely⟩ taken
  obtain ⟨d, move, expiry, base⟩ := Expiring.step_move taken
  rw [expiry, base]
  refine ⟨(accounted.step keeps move).expire fun object stored referenced => ?_, ?_⟩
  · have present : d.store.has (owner object) = true := by
      obtain ⟨record, _, lookup, _⟩ := (d.referenced_iff _ _).mp referenced
      simp [MetaStore.has, lookup]
    rw [Bool.not_eq_false']
    refine Expiring.expiries_last accounted.formed.shape (lasting _) ?_ move present
    rintro elapsed rfl
    -- time passes, and the rest is as it was
    cases move with
    | tick => exact timely object stored referenced
    | operated _ _ _ _ _ _ operated => cases operated
  · intro queryID present
    simp only [MetaStore.expire_has, Bool.not_not, Bool.and_eq_true] at present
    exact present.1

/-! ## Results are never orphaned -/

def activeAtOwner (d : Deployment) (queryID : String) : Bool :=
  (d.subs queryID).any fun s => (d.live s.pid).any fun p =>
    (p.registry.activeReg.lookup queryID).isSome

theorem Accounted.refers (accounted : Accounted owner d) (stored : object ∈ d.objects)
    (inactive : d.activeAtOwner (owner object) = false) :
    d.referenced (owner object) object = true := by
  rcases accounted.held object stored with
    referenced | ⟨run, p, executed, _, open_, found, alive⟩
  · exact referenced
  · exfalso
    obtain ⟨_, _, sub, own, _⟩ := accounted.formed.shape.run _ run executed
    have member := accounted.registered run.pid p _ found
      (.inr ⟨run, executed, rfl, RunPhase.registered_of_not_settled open_⟩)
    have live := (d.live_eq_some_iff run.pid p).mpr ⟨found, alive⟩
    simp only [activeAtOwner, sub, Option.any_some, own, live,
      AList.lookup_isSome.mpr member] at inactive
    contradiction

/-- In a run whose steps all meet the condition, on the memory store or on Redis, an object
whose query is no longer active is referred to by the stored record of that query. -/
theorem stored_results_are_referenced (env : Env) (owner : ObjectName → String)
    (object : ObjectName) :
    (env.backend = .memory → ∀ d, Reachable env (KeepsReferences owner) d → object ∈ d.objects →
      d.activeAtOwner (owner object) = false → d.referenced (owner object) object = true) ∧
    (env.backend = .redis → ∀ now > 0, ∀ s,
      Runs.Reaches (Expiring.step env) (KeepsRecords owner) (.initial now) s →
      object ∈ s.base.objects → s.base.activeAtOwner (owner object) = false →
      s.base.referenced (owner object) object = true) :=
  ⟨fun _ _ reached stored inactive => reached.accounted.refers stored inactive,
    fun _ _ clock _ run stored inactive => (accounted_of_reaches clock run).refers stored inactive⟩

def ownedByQ (_ : ObjectName) : String := "q"

/-- `q` succeeds and is deregistered: its record refers to its result, and on Redis does so an
hour later. -/
theorem finished_result_is_referenced :
    (∃ d, Reachable sampleEnv (KeepsReferences ownedByQ) d ∧ ("fs", "q.jsonl") ∈ d.objects ∧
      d.activeAtOwner "q" = false ∧ d.referenced "q" ("fs", "q.jsonl") = true) ∧
    ∃ s, Runs.Reaches (Expiring.step Expiring.redisEnv) (KeepsRecords ownedByQ) (.initial 1) s ∧
      ("fs", "q.jsonl") ∈ s.base.objects ∧ s.base.activeAtOwner "q" = false ∧
      s.base.referenced "q" ("fs", "q.jsonl") = true := by
  constructor
  · obtain ⟨d, reached, stored, inactive⟩ : ∃ d, Reachable sampleEnv (KeepsReferences ownedByQ) d ∧
        ("fs", "q.jsonl") ∈ d.objects ∧ d.activeAtOwner "q" = false :=
      exists_reachable (runningQuery ++ finishQuery ++ [.execution "q" .go]) (by decide +kernel)
    exact ⟨d, reached, stored, inactive,
      (stored_results_are_referenced sampleEnv ownedByQ _).1 rfl d reached stored inactive⟩
  · obtain ⟨s, run, stored, inactive⟩ : ∃ s, Runs.Reaches (Expiring.step Expiring.redisEnv)
        (KeepsRecords ownedByQ) (.initial 1) s ∧ ("fs", "q.jsonl") ∈ s.base.objects ∧
          s.base.activeAtOwner "q" = false :=
      Runs.exists_reaches (Expiring.redisQuery ++ finishQuery ++
        [.execution "q" .go, .tick hour.toNat]) (by decide +kernel)
    exact ⟨s, run, stored, inactive, (stored_results_are_referenced Expiring.redisEnv ownedByQ
      _).2 rfl 1 (by decide) s run stored inactive⟩

/-- `q` writes its result, and each of the five attempts to store the verdict fails. -/
def unpersistedResult : List Action :=
  [.execution "q" (.exec none none),
    .execution "q" (.opened { backend := "fs", locator := "q.jsonl", format := "jsonl" }),
    .execution "q" (.encoded ⟨0, 0, none⟩ (some 0)), .execution "q" .take,
    .execution "q" (.progress .ok), .execution "q" .go,
    .execution "q" (.close none "")] ++
    List.replicate 5 (.execution "q" (.persist .failed false)) ++ [.execution "q" .go]

/-- Without the condition: the result exists, the query is inactive, and its stored
record has no result. -/
theorem given_up_result_is_orphaned :
    ∃ d record, Reachable sampleEnv DeletesSucceed d ∧ ("fs", "q.jsonl") ∈ d.objects ∧
      d.activeAtOwner "q" = false ∧ d.store.queries.lookup "q" = some record ∧
      record.state = .running ∧ record.result = none := by
  obtain ⟨d, reached, stored, inactive, record, lookup, facts⟩ :
      ∃ d, Reachable sampleEnv DeletesSucceed d ∧ ("fs", "q.jsonl") ∈ d.objects ∧
        d.activeAtOwner "q" = false ∧ ∃ record ∈ d.store.queries.lookup "q",
          record.state = .running ∧ record.result = none :=
    exists_reachable (runningQuery ++ unpersistedResult) (by decide +kernel)
  exact ⟨d, record, reached, stored, inactive, lookup, facts⟩

end Deployment

end DbBridge.Cluster
