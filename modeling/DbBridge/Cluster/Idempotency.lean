import DbBridge.Cluster.KeyMoves

/-!
# One execution per idempotency key

A key is claimed before the record it stands for is stored, and a submitter that
finds the record missing takes the key over. The key protects a query only while
no such takeover meets a holder that is still on its way to storing its record;
`KeyHeld` is that condition, for one key, with the key's time still running.
-/

namespace DbBridge.Cluster

open Domain State

/-! ## Points of a submission -/

def SubmitPhase.claiming : SubmitPhase → Bool
  | .ping | .slot | .admitting | .put _ => true
  | _ => false

def SubmitPhase.stored : SubmitPhase → Bool
  | .lease _ | .launch _ => true
  | _ => false

def SubmitPhase.existing? : SubmitPhase → Option String
  | .lookup existing | .reclaim existing | .relookup existing => some existing
  | _ => none

def SubmitPhase.resolving : SubmitPhase → Bool
  | .acquire | .lookup _ | .reclaim _ | .reacquire | .relookup _ => true
  | _ => false

def Submission.Keyed (s : Submission) (key : String) : Prop :=
  s.opts.idempotencyKey ≠ "" ∧ s.storedKey = key

instance (s : Submission) (key : String) : Decidable (s.Keyed key) :=
  inferInstanceAs (Decidable (_ ∧ _))

namespace Deployment

def HasKey (d : Deployment) (key queryID : String) : Prop :=
  ∃ s, d.subs queryID = some s ∧ s.Keyed key

/-- The query's record has been stored and its execution is launched or will be. -/
def Committed (d : Deployment) (queryID : String) : Prop :=
  (∃ s, d.subs queryID = some s ∧ s.phase.stored = true) ∨ (d.runs queryID).isSome = true

def onTheWay (d : Deployment) (queryID : String) : Bool :=
  match d.subs queryID with
  | none => false
  | some s => s.phase.claiming && (d.live s.pid).isSome

end Deployment

/-! ## The condition on a run -/

/-- The condition on a step of a submission for the key: a claim finds the key's
time running, a takeover finds a holder without a record that will not store one,
and a `PutQuery` that answers with an error has stored nothing. -/
def KeyHeld.submission (key : String) (d : Deployment) (reply : Reply) :
    SubmitPhase → Prop
  | .acquire | .reacquire => ∀ expiry ∈ d.store.idempExpires.lookup key, d.now < expiry
  | .reclaim existing =>
    d.store.queries.lookup existing = none ∧ d.onTheWay existing = false
  | .put _ => reply ≠ .lost
  | _ => True

instance (key : String) (d : Deployment) (reply : Reply) (phase : SubmitPhase) :
    Decidable (KeyHeld.submission key d reply phase) := by
  unfold KeyHeld.submission
  split <;> infer_instance

def KeyHeld.gc (key : String) (d : Deployment) : GcPhase → Prop
  | .release record _ =>
    record.idempotencyKey = "" ∨ MetaStore.fullKey record.databaseID
      (scopedIdempotencyKey record.subject record.idempotencyKey) ≠ key
  | .drop id _ => ∀ s ∈ d.subs id, ¬ s.Keyed key
  | _ => True

instance (key : String) (d : Deployment) (phase : GcPhase) :
    Decidable (KeyHeld.gc key d phase) := by
  unfold KeyHeld.gc
  split <;> infer_instance

def KeyHeld (key : String) (d : Deployment) : Action → Prop
  | .submission queryID reply =>
    ∀ s ∈ d.subs queryID, s.Keyed key → KeyHeld.submission key d reply s.phase
  | .gc pid _ => ∀ p ∈ d.procs pid, KeyHeld.gc key d p.gc
  | _ => True

instance (key : String) (d : Deployment) (action : Action) :
    Decidable (KeyHeld key d action) := by
  unfold KeyHeld
  split <;> infer_instance

/-! ## Who changes the owner of a key -/

/-- The points of a submission at which the owner of its key can change. -/
def SubmitPhase.touchesKey : SubmitPhase → Bool
  | .acquire | .reacquire | .reclaim _ | .freeKey _ => true
  | _ => false

variable {s : Submission}

theorem Submission.touchesKey_of_releases {released : String}
    (names : s.releases? = some released) : s.phase.touchesKey = true := by
  unfold Submission.releases? at names
  split at names <;> simp_all [SubmitPhase.touchesKey]

variable {reply : Reply} {out : SubmitOutcome}

theorem submitStep_owner_of_quiet {now : Time} {m : MetaStore} {p : Process}
    (taken : submitStep now m p s reply = some out) (quiet : s.phase.touchesKey = false) :
    out.store.owner = m.owner := by
  rcases submitStep_keys taken with same | ⟨phase, _⟩ | ⟨_, names, _⟩
  · exact same.owner
  · rcases phase with phase | phase <;> rw [phase] at quiet <;> contradiction
  · rw [Submission.touchesKey_of_releases names] at quiet
    contradiction

/-! ## What only grows -/

variable {t : Submission}

namespace Deployment

variable {action : Action} {env : Env} {d after : Deployment} {key queryID : String}

theorem Move.hasKey (shape : Shape d) (move : Move env d action after)
    (keyed : HasKey d key queryID) : HasKey after key queryID := by
  obtain ⟨s, sub, keyed⟩ := keyed
  obtain ⟨phase, kept⟩ := move.sub_kept shape sub
  exact ⟨{ s with phase := phase }, kept, keyed⟩

variable {p : Process} {m : MetaStore} {now : Time}

section
variable (taken : submitStep now m p s reply = some out) (stored : s.phase.stored = true)
include taken stored

theorem submitStep_stored_move :
    (∃ record, s.phase = .lease record ∧ out.phase = .launch record ∧ out.launched = none) ∨
      ∃ record, s.phase = .launch record ∧
        (out.phase = .waiting ∨ out.phase = .returned (.ok record)) ∧
        out.launched = some record := by
  cases submitStep_move taken with
  | leased _ record phase => exact .inl ⟨record, phase, rfl, rfl⟩
  | launched _ record _ phase continues => exact .inr ⟨record, phase, continues, rfl⟩
  | claimed phase | unclaimed _ _ _ phase =>
    rcases phase with phase | phase <;> simp [phase, SubmitPhase.stored] at stored
  | replied _ _ _ phase =>
    rcases phase with phase | phase | ⟨phase, _⟩ <;> simp [phase, SubmitPhase.stored] at stored
  | _ => simp_all [SubmitPhase.stored]

theorem submitStep_stored : out.phase.stored = true ∨ out.launched.isSome = true := by
  rcases submitStep_stored_move taken stored with ⟨_, _, next, _⟩ | ⟨_, _, _, launched⟩
  · exact .inl (by rw [next]; rfl)
  · exact .inr (by rw [launched]; rfl)

end

theorem Move.committed (shape : Shape d) (move : Move env d action after)
    (committed : Committed d queryID) : Committed after queryID := by
  rcases committed with ⟨s, sub, stored⟩ | executed
  · rcases move.sub_next shape sub with ⟨same, _⟩ | ⟨_, _, out, _, taken, moved, rfl⟩
    · exact .inl ⟨s, same, stored⟩
    · rcases submitStep_stored taken stored with still | launched
      · exact .inl ⟨_, moved, still⟩
      · obtain ⟨_, launched⟩ := Option.isSome_iff_exists.mp launched
        right
        simp [applySubmit_runs, launched, (shape.sub queryID s sub).1]
  · exact .inr (move.run_kept executed)

theorem Move.live_kept (move : Move env d action after) {pid : Nat} (found : d.procs pid = some p)
    (living : (after.live pid).isSome = true) : (d.live pid).isSome = true := by
  obtain ⟨_, kept, continues⟩ := move.continues pid p found
  simp only [live, kept, found, Option.isSome_filter] at living ⊢
  simpa using continues.alive (by simpa using living)

/-! ## The invariant of a key -/

structure KeyView (d : Deployment) (key queryID : String) (s : Submission) : Prop where
  pointer : ∀ existing, s.phase.existing? = some existing → HasKey d key existing
  claiming : s.phase.claiming = true → (d.live s.pid).isSome = true →
    d.store.owner key = some queryID
  committed : Committed d queryID → d.store.owner key = some queryID
  stored : d.store.has queryID = true ↔ Committed d queryID
  returned : ∀ record, s.phase = .returned (.ok record) →
    HasKey d key record.id ∧ Committed d record.id

structure Exclusive (key : String) (d : Deployment) : Prop where
  shape : Shape d
  resolving : ∀ queryID s, d.subs queryID = some s → s.phase.resolving = true →
    s.opts.idempotencyKey ≠ ""
  holder : ∀ queryID, d.store.owner key = some queryID → HasKey d key queryID
  view : ∀ queryID s, d.subs queryID = some s → s.Keyed key → KeyView d key queryID s
  known : ∀ queryID, d.store.has queryID = true → (d.subs queryID).isSome = true
  marked : ∀ pid p record ids, d.procs pid = some p → p.gc = .mark record ids →
    ∃ s, d.subs record.id = some s ∧ (s.Keyed key → Committed d record.id)

/-- A submission that did not move keeps its view, as long as the key is not taken
from it and its record neither appears nor disappears unnoticed. -/
theorem KeyView.keep (shape : Shape d) (move : Move env d action after)
    (view : KeyView d key queryID s) (sub : d.subs queryID = some s)
    (subs : after.subs queryID = d.subs queryID)
    (runs : (after.runs queryID).isSome = (d.runs queryID).isSome)
    (owner : d.store.owner key = some queryID → d.onTheWay queryID = true ∨
      Committed d queryID → after.store.owner key = some queryID)
    (has : after.store.has queryID = true ↔ d.store.has queryID = true) :
    KeyView after key queryID s := by
  have same : Committed after queryID ↔ Committed d queryID := by
    unfold Committed
    rw [subs, runs]
  obtain ⟨_, _, found, _⟩ := shape.sub queryID s sub
  refine ⟨?_, ?_, ?_, ?_, ?_⟩
  · exact fun existing points => move.hasKey shape (view.pointer existing points)
  · intro claiming living
    have alive := move.live_kept found living
    exact owner (view.claiming claiming alive) (.inl (by simp [onTheWay, sub, claiming, alive]))
  · intro committed
    have before := same.mp committed
    exact owner (view.committed before) (.inr before)
  · rw [has, same]
    exact view.stored
  · intro record done
    obtain ⟨keyed, committed⟩ := view.returned record done
    exact ⟨move.hasKey shape keyed, move.committed shape committed⟩

theorem applySubmit_committed_iff (d : Deployment) (s : Submission) (out : SubmitOutcome) :
    Committed (d.applySubmit s out) s.queryID ↔
      out.phase.stored = true ∨ out.launched.isSome = true ∨ (d.runs s.queryID).isSome = true := by
  unfold Committed
  rw [applySubmit_subs, applySubmit_runs]
  cases out.launched <;> simp

/-! ## A submission's own step -/

/-- A query found under the key has its record stored exactly when it is
committed, so whatever is read of it is a committed query's record. -/
theorem Exclusive.read (exclusive : Exclusive key d) {existing : String} {record : QueryRecord}
    (keyed : HasKey d key existing) (found : d.store.getQuery existing = some record) :
    record.id = existing ∧ Committed d existing := by
  obtain ⟨s, sub, keyed⟩ := keyed
  exact ⟨d.store.getQuery_id found,
    (exclusive.view existing s sub keyed).stored.mp (d.store.has_of_getQuery found)⟩

theorem Shape.not_committed (shape : Shape d) (sub : d.subs queryID = some s)
    (early : s.phase.past = false) (unstored : s.phase.stored = false) : ¬ Committed d queryID := by
  rintro (⟨_, other, stored⟩ | executed)
  · rw [sub] at other
    cases other
    rw [unstored] at stored
    contradiction
  · rw [shape.no_run sub early] at executed
    contradiction

/-- The view after a step into a phase that claims nothing, for a query that is not
committed and has no record. -/
theorem KeyView.idle
    (pointer : ∀ existing, s.phase.existing? = some existing → HasKey d key existing)
    (unclaimed : s.phase.claiming = false) (uncommitted : ¬ Committed d queryID)
    (missing : d.store.has queryID = false) (returned : ∀ record, s.phase = .returned (.ok record) →
      HasKey d key record.id ∧ Committed d record.id) : KeyView d key queryID s where
  pointer := pointer
  claiming := by simp [unclaimed]
  committed := fun committed => absurd committed uncommitted
  stored := by simp [missing, uncommitted]
  returned := returned

section

section
variable (exclusive : Exclusive key d) (sub : d.subs s.queryID = some s) (keyed : s.Keyed key)
include exclusive sub keyed

/-- Inside `resolveIdempotency` and in the rollback a query stays uncommitted and
without a record. -/
theorem Exclusive.own_uncommitted (early : s.phase.past = false) (unstored : s.phase.stored = false)
    (next : out.phase.stored = false) (quiet : out.launched = none)
    (same : SameRecords d.store out.store) : ¬ Committed (d.applySubmit s out) s.queryID ∧
      (d.applySubmit s out).store.has s.queryID = false := by
  have before := exclusive.shape.not_committed sub early unstored
  constructor
  · rw [applySubmit_committed_iff]
    simp [next, quiet, exclusive.shape.no_run sub early]
  · rw [applySubmit_store, same.has]
    have view := exclusive.view s.queryID s sub keyed
    simpa using fun stored => before (view.stored.mp stored)

section
variable (early : s.phase.past = false ∧ s.phase.stored = false)
include early

/-- A step into a phase that claims nothing, of a query that is not committed: in
`resolveIdempotency`, and on the way through the rollback. -/
theorem Exclusive.own_idle (move : Move env d (.submission s.queryID reply) (d.applySubmit s out))
    (same : SameRecords d.store out.store) (quiet : out.launched = none)
    (idle : out.phase.stored = false ∧ out.phase.claiming = false)
    (pointer : ∀ existing, out.phase.existing? = some existing → HasKey d key existing)
    (returned : ∀ record, out.phase = .returned (.ok record) →
      HasKey d key record.id ∧ Committed d record.id) :
    KeyView (d.applySubmit s out) key s.queryID { s with phase := out.phase } := by
  obtain ⟨notYet, missing⟩ := exclusive.own_uncommitted sub keyed early.1 early.2 idle.1 quiet same
  refine KeyView.idle (fun existing points => ?_) idle.2 notYet missing fun record done => ?_
  · exact move.hasKey exclusive.shape (pointer existing points)
  · obtain ⟨known, committed⟩ := returned record done
    exact ⟨move.hasKey exclusive.shape known, move.committed exclusive.shape committed⟩

theorem Exclusive.own_claiming (same : SameRecords d.store out.store)
    (quiet : out.launched = none) (next : out.phase.claiming = true)
    (owned : out.store.owner key = some s.queryID) :
    KeyView (d.applySubmit s out) key s.queryID { s with phase := out.phase } := by
  have shape : out.phase.stored = false ∧ out.phase.existing? = none ∧
      ∀ record, out.phase ≠ .returned (.ok record) := by
    revert next
    cases out.phase <;> simp [SubmitPhase.claiming, SubmitPhase.stored, SubmitPhase.existing?]
  obtain ⟨notYet, missing⟩ :=
    exclusive.own_uncommitted sub keyed early.1 early.2 shape.1 quiet same
  refine ⟨by simp [shape.2.1], fun _ _ => ?_, fun committed => absurd committed notYet,
    by simp [missing, notYet], fun record done => absurd done (shape.2.2 record)⟩
  rw [applySubmit_store]
  exact owned

end

theorem Exclusive.own_committed
    (move : Move env d (.submission s.queryID reply) (d.applySubmit s out))
    (committed : Committed (d.applySubmit s out) s.queryID)
    (stored : (d.applySubmit s out).store.has s.queryID = true)
    (owned : (d.applySubmit s out).store.owner key = some s.queryID)
    (aimless : out.phase.existing? = none)
    (returned : ∀ record, out.phase = .returned (.ok record) → record.id = s.queryID) :
    KeyView (d.applySubmit s out) key s.queryID { s with phase := out.phase } where
  pointer := by simp [aimless]
  claiming := fun _ _ => owned
  committed := fun _ => owned
  stored := by simp [committed, stored]
  returned := by
    intro record done
    rw [returned record done]
    exact ⟨move.hasKey exclusive.shape ⟨s, sub, keyed⟩, committed⟩

theorem Exclusive.own_stored (stored : s.phase.stored = true)
    (move : Move env d (.submission s.queryID reply) (d.applySubmit s out))
    (taken : submitStep d.now d.store p s reply = some out) :
    KeyView (d.applySubmit s out) key s.queryID { s with phase := out.phase } := by
  have view := exclusive.view s.queryID s sub keyed
  have committed : Committed d s.queryID := .inl ⟨s, sub, stored⟩
  have has := view.stored.mpr committed
  obtain ⟨_, _, _, sound⟩ := exclusive.shape.sub s.queryID s sub
  have quiet : s.phase.touchesKey = false := by
    revert stored
    cases s.phase <;> simp [SubmitPhase.stored, SubmitPhase.touchesKey]
  refine exclusive.own_committed sub keyed move (move.committed exclusive.shape committed)
    (move.has_kept exclusive.shape has (by simp [Drops])) ?_ ?_ ?_
  · rw [applySubmit_store, submitStep_owner_of_quiet taken quiet]
    exact view.committed committed
  all_goals
    rcases submitStep_stored_move taken stored with ⟨record, _, next, _⟩ | ⟨record, phase, next, _⟩
    · simp [next, SubmitPhase.existing?]
    · have own := (sound.record (show s.phase.record? = some record by rw [phase]; rfl)).1
      rcases next with next | next <;> simp [next, SubmitPhase.existing?, own]

theorem Exclusive.own_waiting (phase : s.phase = .waiting)
    (move : Move env d (.submission s.queryID reply) (d.applySubmit s out))
    (store : out.store = d.store) (quiet : out.launched = none)
    {result : Except SubmitError QueryRecord} (ends : out.phase = .returned result)
    (read : ∀ record, result = .ok record → d.store.getQuery s.queryID = some record) :
    KeyView (d.applySubmit s out) key s.queryID { s with phase := out.phase } := by
  have view := exclusive.view s.queryID s sub keyed
  have same : Committed (d.applySubmit s out) s.queryID ↔ Committed d s.queryID := by
    rw [applySubmit_committed_iff, ends, quiet]
    simp [Committed, sub, phase, SubmitPhase.stored]
  refine ⟨by simp [ends, SubmitPhase.existing?], by simp [ends, SubmitPhase.claiming], ?_, ?_, ?_⟩
  · intro committed
    rw [applySubmit_store, store]
    exact view.committed (same.mp committed)
  · rw [applySubmit_store, store, same]
    exact view.stored
  · intro record done
    cases ends.symm.trans done
    obtain ⟨own, committed⟩ := exclusive.read ⟨s, sub, keyed⟩ (read record rfl)
    rw [own]
    exact ⟨move.hasKey exclusive.shape ⟨s, sub, keyed⟩, move.committed exclusive.shape committed⟩

theorem Exclusive.own (guard : KeyHeld.submission key d reply s.phase)
    (living : (d.live s.pid).isSome = true)
    (move : Move env d (.submission s.queryID reply) (d.applySubmit s out))
    (taken : submitStep d.now d.store p s reply = some out) :
    KeyView (d.applySubmit s out) key s.queryID { s with phase := out.phase } := by
  have view := exclusive.view s.queryID s sub keyed
  by_cases stored : s.phase.stored = true
  · exact exclusive.own_stored sub keyed stored move taken
  have early : s.phase ≠ .waiting → s.phase.past = false ∧ s.phase.stored = false := by
    cases phase : s.phase with
    | returned => simp [submitStep, phase] at taken
    | _ => simp_all [SubmitPhase.past]
  have same : (∀ record, s.phase ≠ .put record) → SameRecords d.store out.store := by
    intro silent
    refine (submitStep_records taken).resolve_right ?_
    rintro ⟨record, put, _⟩
    exact silent record put
  have owner := submitStep_owner_of_quiet taken
  -- the phases that claim nothing, the claim, and what follows it up to the launch
  cases submitStep_move taken with
  | found existing phase held | foundAgain existing phase held =>
    refine exclusive.own_idle sub keyed (early (by simp [phase])) move (SameRecords.refl _) rfl
      ⟨rfl, rfl⟩ ?_ (by simp)
    rintro _ ⟨⟩
    exact exclusive.holder existing (keyed.2 ▸ d.store.owner_of_holder held)
  | missing existing phase =>
    refine exclusive.own_idle sub keyed (early (by simp [phase])) move (SameRecords.refl _) rfl
      ⟨rfl, rfl⟩ ?_ (by simp)
    rintro _ ⟨⟩
    exact view.pointer existing (by rw [phase]; rfl)
  | replied _ id _ phase read =>
    rcases phase with phase | phase | ⟨phase, rfl⟩
    case inr.inr =>
      exact exclusive.own_waiting sub keyed phase move rfl rfl rfl fun record ok => (read record ok).1
    all_goals
      refine exclusive.own_idle sub keyed (early (by simp [phase])) move (SameRecords.refl _) rfl
        ⟨rfl, rfl⟩ (by simp [SubmitPhase.existing?]) ?_
      rintro record ⟨⟩
      have known := view.pointer id (by rw [phase]; rfl)
      obtain ⟨rfl, committed⟩ := exclusive.read known (read record rfl).1
      exact ⟨known, committed⟩
  | claimed phase =>
    refine exclusive.own_claiming sub keyed ?_ (same ?_) rfl rfl ?_
    · exact early (by rcases phase with phase | phase <;> simp [phase])
    · rcases phase with phase | phase <;> simp [phase]
    · rw [← keyed.2]
      exact d.store.claim_owner_self _ _ _
  | pinged phase | seated _ _ phase | admitted _ _ phase =>
    refine exclusive.own_claiming sub keyed (early (by simp [phase])) (same (by simp [phase])) rfl
      rfl ?_
    exact (congrFun (owner (by rw [phase]; rfl)) key).trans
      (view.claiming (by rw [phase]; rfl) living)
  | put record phase =>
    obtain ⟨_, _, _, sound⟩ := exclusive.shape.sub s.queryID s sub
    have own := (sound.record (show s.phase.record? = some record by rw [phase]; rfl)).1
    refine exclusive.own_committed sub keyed move ?_ ?_ ?_ rfl (by simp)
    · exact (applySubmit_committed_iff ..).mpr (.inl rfl)
    · exact (d.store.store_has_iff record s.queryID).mpr (.inl own.symm)
    · exact view.claiming (by rw [phase]; rfl) living
  | unput reply _ _ phase failed =>
    have refused : reply = .failed := by cases reply <;> simp_all [KeyHeld.submission]
    subst refused
    exact exclusive.own_idle sub keyed (early (by simp [phase])) move (SameRecords.refl _) rfl
      ⟨rfl, rfl⟩ (by simp [SubmitPhase.existing?]) (by simp)
  | unclaimed _ _ _ phase =>
    rcases phase with phase | phase <;>
      exact exclusive.own_idle sub keyed (early (by simp [phase])) move (same (by simp [phase])) rfl
        ⟨rfl, rfl⟩ (by simp [SubmitPhase.existing?]) (by simp)
  | reclaimed _ phase | unreclaimed _ _ _ phase | unreachable _ _ phase | crowded _ _ phase
  | turnedAway _ _ phase | dropped _ _ phase | unseated _ _ phase | ended _ _ phase =>
    exact exclusive.own_idle sub keyed (early (by simp [phase])) move (same (by simp [phase])) rfl
      ⟨rfl, rfl⟩ (by simp [SubmitPhase.existing?]) (by simp)
  | leased _ _ phase | launched _ _ _ phase => simp [phase, SubmitPhase.stored] at stored

end

end

/-! ## The whole deployment -/

theorem Exclusive.owner_kept (exclusive : Exclusive key d) (sub : d.subs t.queryID = some t)
    (guard : t.Keyed key → KeyHeld.submission key d reply t.phase)
    (taken : submitStep d.now d.store p t reply = some out) (other : queryID ≠ t.queryID)
    (owned : d.store.owner key = some queryID)
    (needed : d.onTheWay queryID = true ∨ Committed d queryID) :
    out.store.owner key = some queryID := by
  rcases submitStep_keys taken with same | ⟨phase, free, claimed⟩ | ⟨_, names, freed⟩
  · rw [same.owner]
    exact owned
  · rw [claimed]
    by_cases same : key = t.storedKey
    · subst same
      have named := exclusive.resolving t.queryID t sub (by rcases phase with p | p <;> rw [p] <;> rfl)
      have running := guard ⟨named, rfl⟩
      -- the key has an owner whose time is running, so the call cannot have found it free
      have unowned := d.store.owner_of_holder_none free
        (by rcases phase with p | p <;> rw [p] at running <;> exact running)
      rw [owned] at unowned
      contradiction
    · rw [d.store.claim_owner_of_ne _ _ same]
      exact owned
  · rw [freed, (d.store.releaseIdempotency_sameKey ?_).owner]
    · exact owned
    · rintro rfl own
      cases owned.symm.trans own
      cases phase : t.phase with
      | reclaim existing =>
        simp only [Submission.releases?, phase, Option.some.injEq] at names
        subst names
        have named := exclusive.resolving t.queryID t sub (by rw [phase]; rfl)
        have abandoned := guard ⟨named, rfl⟩
        rw [phase] at abandoned
        rcases needed with moving | committed
        · rw [abandoned.2] at moving
          contradiction
        · obtain ⟨s, present, keyed⟩ := exclusive.holder existing owned
          have stored := (exclusive.view existing s present keyed).stored.mpr committed
          simp [MetaStore.has, abandoned.1] at stored
      | freeKey =>
        simp only [Submission.releases?, phase] at names
        split at names
        · contradiction
        · exact other (Option.some.inj names).symm
      | _ => simp [Submission.releases?, phase] at names

theorem submitStep_owner_origin (taken : submitStep now m p s reply = some out)
    (owned : out.store.owner key = some queryID) : m.owner key = some queryID ∨
      (queryID = s.queryID ∧ key = s.storedKey ∧ s.phase.resolving = true) := by
  rcases submitStep_keys taken with same | ⟨phase, _, claimed⟩ | ⟨_, _, freed⟩
  · exact .inl (same.owner ▸ owned)
  · rw [claimed] at owned
    by_cases same : key = s.storedKey
    · subst same
      rw [m.claim_owner_self] at owned
      exact .inr ⟨(Option.some.inj owned).symm, rfl,
        by rcases phase with p | p <;> rw [p] <;> rfl⟩
    · rw [m.claim_owner_of_ne _ _ same] at owned
      exact .inl owned
  · rw [freed] at owned
    exact .inl (m.releaseIdempotency_owner_origin owned)

theorem submitStep_resolving (taken : submitStep now m p s reply = some out)
    (resolving : out.phase.resolving = true) : s.phase.resolving = true := by
  cases submitStep_move taken with
  | found _ phase | foundAgain _ phase | missing _ phase | reclaimed _ phase =>
    rw [phase]
    rfl
  | launched _ _ _ _ continues => rcases continues with rfl | rfl <;> contradiction
  | _ => contradiction

section

section
variable (exclusive : Exclusive key d)
include exclusive

theorem Exclusive.has_iff (guard : KeyHeld key d action) (move : Move env d action after)
    (sub : d.subs queryID = some s) (keyed : s.Keyed key)
    (notOwn : ∀ reply, action ≠ .submission queryID reply) :
    after.store.has queryID = true ↔ d.store.has queryID = true := by
  have view := exclusive.view queryID s sub keyed
  constructor
  · intro stored
    rcases move.has_origin exclusive.shape stored with
      before | executed | ⟨reply, _, _, own, _⟩ | ⟨pid, p, record, ids, found, mark, rfl⟩
    · exact before
    · exact view.stored.mpr (.inr executed)
    · exact absurd own (notOwn reply)
    · obtain ⟨_, other, committed⟩ := exclusive.marked pid p record ids found mark
      rw [sub] at other
      cases other
      exact view.stored.mpr (committed keyed)
  · intro stored
    refine move.has_kept exclusive.shape stored ?_
    rintro ⟨pid, _, p, ids, rfl, found, drop⟩
    have kept := guard p found
    rw [drop] at kept
    exact kept s sub keyed

theorem Exclusive.known_step (move : Move env d action after) (queryID : String)
    (stored : after.store.has queryID = true) : (after.subs queryID).isSome = true := by
  have before : ∃ s, d.subs queryID = some s := by
    rcases move.has_origin exclusive.shape stored with
      had | executed | ⟨_, s, _, _, sub, _⟩ | ⟨pid, p, record, ids, found, mark, rfl⟩
    · exact Option.isSome_iff_exists.mp (exclusive.known queryID had)
    · obtain ⟨run, executed⟩ := Option.isSome_iff_exists.mp executed
      obtain ⟨_, s, sub, _⟩ := exclusive.shape.run queryID run executed
      exact ⟨s, sub⟩
    · exact ⟨s, sub⟩
    · obtain ⟨s, sub, _⟩ := exclusive.marked pid p record ids found mark
      exact ⟨s, sub⟩
  obtain ⟨s, sub⟩ := before
  obtain ⟨_, kept⟩ := move.sub_kept exclusive.shape sub
  simp [kept]

/-- A record the collector has read belongs to a known query, which is committed if
it is one for the key. -/
theorem Exclusive.marked_step (move : Move env d action after) (pid : Nat) (next : Process)
    (record : QueryRecord) (ids : List String) (present : after.procs pid = some next)
    (mark : next.gc = .mark record ids) :
    ∃ s, after.subs record.id = some s ∧ (s.Keyed key → Committed after record.id) := by
  have lift : (∃ s, d.subs record.id = some s ∧ (s.Keyed key → Committed d record.id)) →
      ∃ s, after.subs record.id = some s ∧ (s.Keyed key → Committed after record.id) := by
    rintro ⟨s, sub, committed⟩
    obtain ⟨phase, kept⟩ := move.sub_kept exclusive.shape sub
    exact ⟨{ s with phase := phase }, kept, fun keyed =>
      move.committed exclusive.shape (committed keyed)⟩
  refine lift ?_
  obtain ⟨before, found, earlier | ⟨id, _, read, _, got, _, held⟩⟩ :=
    move.gc_origin (· = .mark record ids) present mark ⟨nofun, nofun, nofun⟩
      fun _ _ => ⟨nofun, nofun, nofun⟩
  · exact exclusive.marked pid before record ids found earlier
  · obtain ⟨rfl, rfl⟩ : { read with state := .expired } = record ∧ _ = ids := by simpa using held
    have own : read.id = id := d.store.getQuery_id got
    have has : d.store.has id = true := d.store.has_of_getQuery got
    obtain ⟨s, sub⟩ := Option.isSome_iff_exists.mp (exclusive.known id has)
    exact ⟨s, by rw [← sub, ← own], fun keyed => by
      rw [show ({ read with state := .expired } : QueryRecord).id = id from own]
      exact (exclusive.view id s sub keyed).stored.mp has⟩

end

theorem Move.owner_kept (shape : Shape d) (move : Move env d action after)
    (guard : KeyHeld key d action)
    (notSubmission : ∀ queryID reply, action ≠ .submission queryID reply) :
    after.store.owner key = d.store.owner key := by
  have keys := move.keys shape
  generalize after.store = store at keys
  cases keys with
  | same _ _ same => exact (same.key key).owner
  | claimed reply => exact absurd rfl (notSubmission _ reply)
  | released _ _ _ _ releases =>
    cases releases with
    | submitter id reply => exact absurd rfl (notSubmission id reply)
    | collector _ _ p _ _ found phase named =>
      have held := guard p found
      rw [phase] at held
      exact (d.store.releaseIdempotency_sameKey fun own =>
        absurd own.symm (held.resolve_left named)).owner
  | refreshed => exact congrFun (d.store.refreshIdempotency_owner _ _ _ _ _) key

theorem Move.runs_isSome (move : Move env d action after)
    (notOwn : ∀ reply, action ≠ .submission queryID reply) (shape : Shape d) :
    (after.runs queryID).isSome = (d.runs queryID).isSome := by
  cases move with
  | submission id reply s _ out sub =>
    have own := (shape.sub id s sub).1
    have ne : queryID ≠ s.queryID := by
      rintro rfl
      exact notOwn reply (by rw [own])
    rw [applySubmit_runs]
    cases out.launched with
    | none => rfl
    | some => simp [Function.update_of_ne ne]
  | execution id _ _ _ _ executed =>
    by_cases same : queryID = id
    · subst same
      simp [applyRun, setRun, executed]
    · simp [applyRun, setRun, setProc, Function.update_of_ne same]
  | tick | started | rejected | submitted | reaper | gc | heart | countBegin | countLocal
  | countRemote | operated => rfl

section
variable (exclusive : Exclusive key d)
include exclusive

theorem Exclusive.submission {p : Process} (guard : KeyHeld key d (.submission queryID reply))
    (move : Move env d (.submission queryID reply) (d.applySubmit t out))
    (sub : d.subs queryID = some t) (found : d.procs t.pid = some p) (alive : p.alive = true)
    (taken : submitStep d.now d.store p t reply = some out) :
    Exclusive key (d.applySubmit t out) := by
  have own := (exclusive.shape.sub queryID t sub).1
  subst own
  have moved : (d.applySubmit t out).subs t.queryID = some { t with phase := out.phase } := by
    simp [applySubmit_subs]
  refine ⟨exclusive.shape.step move, ?_, ?_, ?_, exclusive.known_step move,
    exclusive.marked_step move⟩
  · intro other s member resolving
    rw [applySubmit_subs] at member
    rcases Tables.update_some_cases member with ⟨rfl, rfl⟩ | ⟨_, member⟩
    · exact exclusive.resolving t.queryID t sub (submitStep_resolving taken resolving)
    · exact exclusive.resolving other s member resolving
  · intro other owned
    rw [applySubmit_store] at owned
    rcases submitStep_owner_origin taken owned with before | ⟨rfl, stored, resolving⟩
    · exact move.hasKey exclusive.shape (exclusive.holder other before)
    · exact ⟨_, moved, exclusive.resolving t.queryID t sub resolving, stored.symm⟩
  · intro other s here keyed
    have now := here
    rw [applySubmit_subs] at now
    rcases Tables.update_some_cases now with ⟨rfl, rfl⟩ | ⟨same, member⟩
    · exact exclusive.own sub keyed (guard t sub keyed) (by simp [live, found, alive]) move taken
    · have notOwn : ∀ answer, Action.submission t.queryID reply ≠ .submission other answer := by
        intro answer equal
        cases equal
        exact same rfl
      refine (exclusive.view other s member keyed).keep exclusive.shape move member
        (here.trans member.symm) (move.runs_isSome notOwn exclusive.shape) ?_
        (exclusive.has_iff guard move member keyed notOwn)
      intro owned needed
      rw [applySubmit_store]
      exact exclusive.owner_kept sub (guard t sub) taken same owned needed

theorem Exclusive.elsewhere (guard : KeyHeld key d action) (move : Move env d action after)
    (notSubmission : ∀ queryID reply, action ≠ .submission queryID reply)
    (subs : after.subs = d.subs) : Exclusive key after := by
  have owner := move.owner_kept exclusive.shape guard notSubmission
  refine ⟨exclusive.shape.step move, ?_, ?_, ?_, exclusive.known_step move,
    exclusive.marked_step move⟩
  · intro queryID s member resolving
    exact exclusive.resolving queryID s (subs ▸ member) resolving
  · intro queryID owned
    rw [owner] at owned
    exact move.hasKey exclusive.shape (exclusive.holder queryID owned)
  · intro queryID s member keyed
    rw [subs] at member
    have notOwn := fun reply => notSubmission queryID reply
    refine (exclusive.view queryID s member keyed).keep exclusive.shape move member
      (congrFun subs queryID) (move.runs_isSome notOwn exclusive.shape) ?_
      (exclusive.has_iff guard move member keyed notOwn)
    intro owned _
    rw [owner]
    exact owned

/-- A new submission owns nothing: its ID has never been used. -/
theorem Exclusive.submitted (move : Move env d action (d.setSub s))
    (fresh : d.subs s.queryID = none) (first : s.phase = Submission.firstPhase s.opts) :
    Exclusive key (d.setSub s) := by
  have moved : (d.setSub s).subs s.queryID = some s := by simp [setSub]
  have start : s.phase = .ping ∧ s.opts.idempotencyKey = "" ∨
      s.phase = .acquire ∧ s.opts.idempotencyKey ≠ "" := by
    rw [first]
    unfold Submission.firstPhase
    split
    · rename_i unnamed
      exact .inl ⟨rfl, unnamed⟩
    · rename_i named
      exact .inr ⟨rfl, named⟩
  refine ⟨exclusive.shape.step move, ?_, ?_, ?_, exclusive.known_step move,
    exclusive.marked_step move⟩
  · intro queryID t member resolving
    rcases Tables.update_some_cases member with ⟨rfl, rfl⟩ | ⟨_, member⟩
    · rcases start with ⟨ping, _⟩ | ⟨_, named⟩
      · rw [ping] at resolving
        contradiction
      · exact named
    · exact exclusive.resolving queryID t member resolving
  · intro queryID owned
    exact move.hasKey exclusive.shape (exclusive.holder queryID owned)
  · intro queryID t here keyed
    rcases Tables.update_some_cases here with ⟨rfl, rfl⟩ | ⟨_, member⟩
    · rcases start with ⟨_, unnamed⟩ | ⟨acquire, _⟩
      · exact absurd unnamed keyed.1
      · have missing : d.store.has s.queryID = false := by
          cases stored : d.store.has s.queryID with
          | false => rfl
          | true =>
            have known := exclusive.known s.queryID stored
            rw [fresh] at known
            contradiction
        refine KeyView.idle (by simp [acquire, SubmitPhase.existing?]) (by rw [acquire]; rfl) ?_
          missing (by simp [acquire])
        rintro (⟨other, found, stored⟩ | executed)
        · rw [moved] at found
          cases found
          rw [acquire] at stored
          contradiction
        · rw [show (d.setSub s).runs = d.runs from rfl,
            exclusive.shape.fresh fresh] at executed
          contradiction
    · exact (exclusive.view queryID t member keyed).keep exclusive.shape move member
        (here.trans member.symm) rfl (fun owned _ => owned) Iff.rfl

theorem Exclusive.step (guard : KeyHeld key d action) (move : Move env d action after) :
    Exclusive key after := by
  have again := move
  cases move with
  | rejected => exact exclusive
  | submitted _ _ _ _ _ _ _ _ _ fresh => exact exclusive.submitted again fresh rfl
  | submission _ _ _ _ _ sub found alive taken =>
    exact exclusive.submission guard again sub found alive taken
  | operated _ _ _ _ _ _ operated =>
    exact exclusive.elsewhere guard again (by cases operated <;> simp) rfl
  | tick | started | execution | reaper | gc | heart | countBegin | countLocal
  | countRemote => exact exclusive.elsewhere guard again (by simp) rfl

end

end

theorem Exclusive.initial (key : String) (now : Time) : Exclusive key (initial now) where
  shape := Shape.initial now
  resolving := by simp [Deployment.initial]
  holder := by simp [Deployment.initial, MetaStore.owner, MetaStore.empty]
  view := by simp [Deployment.initial]
  known := by simp [Deployment.initial, MetaStore.has, MetaStore.empty]
  marked := by simp [Deployment.initial]

theorem Reachable.exclusive (reached : Reachable env (KeyHeld key) d) : Exclusive key d := by
  obtain ⟨now, _, run⟩ := reached
  exact run.invariant (Exclusive key) (Exclusive.initial key now)
    fun _ _ _ exclusive guard taken => exclusive.step guard (step_move taken)

def Launched (d : Deployment) (queryID : String) : Prop := (d.runs queryID).isSome = true

def Asks (s : Submission) (dbID subject key : String) : Prop :=
  s.dbID = dbID ∧ s.subject = subject ∧ s.opts.idempotencyKey = key

theorem Asks.keyed {dbID subject key : String} (asks : Asks s dbID subject key) (named : key ≠ "") :
    s.Keyed (MetaStore.fullKey dbID (scopedIdempotencyKey subject key)) := by
  obtain ⟨rfl, rfl, rfl⟩ := asks
  exact ⟨named, rfl⟩

theorem Exclusive.unique (exclusive : Exclusive key d) {first second : String}
    (one : HasKey d key first) (two : HasKey d key second) (committed : Committed d first)
    (other : Committed d second) : first = second := by
  obtain ⟨s, sub, keyed⟩ := one
  obtain ⟨t, found, asked⟩ := two
  have owner := (exclusive.view first s sub keyed).committed committed
  rw [(exclusive.view second t found asked).committed other] at owner
  exact (Option.some.inj owner).symm

/-- In every run whose steps hold the key, at most one of the submissions that ask
for it launches an execution, and every record one of them returns is of that
query. -/
theorem one_execution_per_key (env : Env) (dbID subject key : String) (named : key ≠ "")
    (d : Deployment) (reached : Reachable env
      (KeyHeld (MetaStore.fullKey dbID (scopedIdempotencyKey subject key))) d)
    (first second : String) (s t : Submission) (sub : d.subs first = some s)
    (found : d.subs second = some t) (one : Asks s dbID subject key)
    (two : Asks t dbID subject key) :
    (Launched d first → Launched d second → first = second) ∧
      ∀ record, s.phase = .returned (.ok record) →
        (Launched d second → record.id = second) ∧
          ∀ other, t.phase = .returned (.ok other) → record.id = other.id := by
  have exclusive := reached.exclusive
  have keyed := one.keyed named
  have asked := two.keyed named
  have view := exclusive.view first s sub keyed
  have viewed := exclusive.view second t found asked
  refine ⟨fun launched other => ?_, fun record returned => ⟨fun launched => ?_, ?_⟩⟩
  · exact exclusive.unique ⟨s, sub, keyed⟩ ⟨t, found, asked⟩ (.inr launched) (.inr other)
  · obtain ⟨has, committed⟩ := view.returned record returned
    exact exclusive.unique has ⟨t, found, asked⟩ committed (.inr launched)
  · intro other answer
    obtain ⟨has, committed⟩ := view.returned record returned
    obtain ⟨hasOther, committedOther⟩ := viewed.returned other answer
    exact exclusive.unique has hasOther committed committedOther

def submitWithKey (pid : Nat) (queryID : String) : Action :=
  .submit pid none queryID "db" "SELECT 1" { idempotencyKey := "k" }

/-- `q1` runs to its launch on one instance; `q2`, on the other, is answered with
the record of `q1`. -/
def repeatedSubmission : List Action :=
  startInstance 1 "a" ++ startInstance 2 "b" ++ submitWithKey 1 "q1" ::
    List.replicate 7 (.submission "q1" .ok) ++ submitWithKey 2 "q2" ::
    List.replicate 2 (.submission "q2" .ok)

def returnedID (d : Deployment) (queryID : String) : Option String :=
  match d.subs queryID with
  | some { phase := .returned (.ok record), .. } => some record.id
  | _ => none

def bothAsk (d : Deployment) : Bool :=
  [d.subs "q1", d.subs "q2"].all fun sub => sub.any fun s =>
    s.dbID = "db" && s.subject = "" && s.opts.idempotencyKey = "k"

theorem bothAsk_asks (both : d.bothAsk = true) :
    ∃ s t, d.subs "q1" = some s ∧ d.subs "q2" = some t ∧ Asks s "db" "" "k" ∧
      Asks t "db" "" "k" := by
  simp only [bothAsk, List.all_cons, List.all_nil, Bool.and_true, Bool.and_eq_true,
    Option.any_eq_true, decide_eq_true_eq, and_assoc] at both
  obtain ⟨⟨s, sub, one⟩, t, found, two⟩ := both
  exact ⟨s, t, sub, found, one, two⟩

theorem repeated_submission_returns_first :
    ∃ d, Reachable sampleEnv (KeyHeld (MetaStore.fullKey "db" (scopedIdempotencyKey "" "k"))) d ∧
      (d.returnedID "q2" = some "q1" ∧ (d.runs "q1").isSome = true) ∧
      (Launched d "q1" → Launched d "q2" → "q1" = "q2") := by
  obtain ⟨d, reached, hit, launched, both⟩ : ∃ d, Reachable sampleEnv
      (KeyHeld (MetaStore.fullKey "db" (scopedIdempotencyKey "" "k"))) d ∧
        d.returnedID "q2" = some "q1" ∧ (d.runs "q1").isSome = true ∧ d.bothAsk = true :=
    exists_reachable repeatedSubmission (by decide +kernel)
  obtain ⟨s, t, sub, found, one, two⟩ := bothAsk_asks both
  exact ⟨d, reached, ⟨hit, launched⟩, (one_execution_per_key sampleEnv "db" "" "k" (by decide)
    d reached "q1" "q2" s t sub found one two).1⟩

/-- `q1` has claimed the key and not yet stored its record when `q2` finds the
record missing, takes the key over, and both run. -/
def takenOverKey : List Action :=
  startInstance 1 "a" ++ [submitWithKey 1 "q1", submitWithKey 1 "q2"] ++
    .submission "q1" .ok :: List.replicate 4 (.submission "q2" .ok) ++
    List.replicate 6 (.submission "q1" .ok) ++ List.replicate 6 (.submission "q2" .ok)

theorem two_executions_for_one_key :
    ∃ d s t, Reachable sampleEnv Runs.Always d ∧ d.subs "q1" = some s ∧
      d.subs "q2" = some t ∧ Asks s "db" "" "k" ∧ Asks t "db" "" "k" ∧
      Launched d "q1" ∧ Launched d "q2" := by
  obtain ⟨d, reached, launched, also, both⟩ : ∃ d, Reachable sampleEnv Runs.Always d ∧
      (d.runs "q1").isSome = true ∧ (d.runs "q2").isSome = true ∧ d.bothAsk = true :=
    exists_reachable takenOverKey (by decide +kernel)
  obtain ⟨s, t, sub, found, one, two⟩ := bothAsk_asks both
  exact ⟨d, s, t, reached, sub, found, one, two, launched, also⟩

end Deployment

end DbBridge.Cluster
