import DbBridge.Cluster.SlotLedger
import DbBridge.Cluster.Subjects

/-!
# What a rejected submission leaves behind

`SubmitQuery` can fail at a dozen points, and each of them undoes what was done before
it. A history beside the deployment notes what no state shows any more: the writers that
were opened, the keys a submission took from somebody, and the queries it found missing.
The rollback is complete as long as no `AcquireIdempotency` fails after it has stored its
claim: that error returns before there is anything to undo it.
-/

namespace DbBridge.Cluster

open Domain State

/-! ## The calls of a submission -/

/-- The calls that take a claim back succeed, and a `PutQuery` that fails stores nothing. -/
def SubmitPhase.Undoes : SubmitPhase → Reply → Prop
  | .reclaim _, reply | .freeKey _, reply => reply = .ok
  | .put _, reply => reply ≠ .lost
  | _, _ => True

instance (phase : SubmitPhase) (reply : Reply) : Decidable (phase.Undoes reply) :=
  match phase with
  | .reclaim _ | .freeKey _ => inferInstanceAs (Decidable (reply = .ok))
  | .put _ => inferInstanceAs (Decidable (reply ≠ .lost))
  | .acquire | .lookup _ | .reacquire | .relookup _ | .ping | .slot | .admitting | .lease _
  | .launch _ | .waiting | .dropEntry _ | .freeSlot _ | .returned _ =>
    inferInstanceAs (Decidable True)

def SubmitPhase.ClaimsWhole : SubmitPhase → Reply → Prop
  | .acquire, reply | .reacquire, reply => reply ≠ .lost
  | _, _ => True

instance (phase : SubmitPhase) (reply : Reply) : Decidable (phase.ClaimsWhole reply) := by
  unfold SubmitPhase.ClaimsWhole
  split <;> infer_instance

def SubmitPhase.claimed : SubmitPhase → Bool
  | .ping | .slot | .admitting | .put _ | .lease _ | .launch _ | .dropEntry _ | .freeSlot _
  | .freeKey _ => true
  | _ => false

def Submission.Claims (s : Submission) (key : String) : Prop :=
  s.Keyed key ∧ s.phase.claimed = true

variable {key holder : String}

section
variable {now : Time} {m : MetaStore} {p : Process} {s : Submission} {reply : Reply}
  {out : SubmitOutcome}

section
variable (taken : submitStep now m p s reply = some out)
include taken

theorem submitStep_claimed (claimed : s.phase.claimed = true) (ends : ∀ err, s.phase ≠ .freeKey err) :
    out.phase.claimed = true ∨ out.launched.isSome = true := by
  cases submitStep_move taken with
  | ended _ err phase => exact absurd phase (ends err)
  | launched => exact .inr rfl
  | claimed | pinged | unreachable | seated | crowded | admitted | turnedAway | put | unput
  | leased | dropped | unseated => exact .inl rfl
  | unclaimed _ _ _ phase =>
    rcases phase with phase | phase <;> simp [phase, SubmitPhase.claimed] at claimed
  | replied _ _ _ phase =>
    rcases phase with phase | phase | ⟨phase, _⟩ <;> simp [phase, SubmitPhase.claimed] at claimed
  | _ => simp_all [SubmitPhase.claimed]

theorem submitStep_claims (named : s.phase.resolving = true → s.opts.idempotencyKey ≠ "")
    (undoes : s.phase.Undoes reply) (whole : s.phase.ClaimsWhole reply)
    (before : m.owner key = some s.queryID → s.Claims key)
    (owned : out.store.owner key = some s.queryID) :
    (s.Keyed key ∧ out.phase.claimed = true) ∨ out.launched.isSome = true := by
  have earlier : m.owner key = some s.queryID → (∀ err, s.phase ≠ .freeKey err) →
      (s.Keyed key ∧ out.phase.claimed = true) ∨ out.launched.isSome = true := by
    intro own ends
    obtain ⟨keyed, claimed⟩ := before own
    exact (submitStep_claimed taken claimed ends).imp_left fun still => ⟨keyed, still⟩
  have quiet := submitStep_owner_of_quiet taken
  cases submitStep_move taken with
  | claimed phase =>
    refine .inl ⟨⟨named (by rcases phase with phase | phase <;> rw [phase] <;> rfl), ?_⟩, rfl⟩
    -- a key of the query that is not the one it asks for was claimed before
    by_contra other
    rw [m.claim_owner_of_ne _ _ (Ne.symm other)] at owned
    have claimed := (before owned).2
    rcases phase with phase | phase <;> simp [phase, SubmitPhase.claimed] at claimed
  | unclaimed _ _ _ phase _ stored =>
    rcases stored with rfl | ⟨rfl, _⟩
    · exact earlier owned (by rcases phase with phase | phase <;> simp [phase])
    · rcases phase with phase | phase <;> simp [phase, SubmitPhase.ClaimsWhole] at whole
  | reclaimed _ phase =>
    exact earlier (m.releaseIdempotency_owner_origin owned) (by simp [phase])
  | unreclaimed _ _ _ phase failed =>
    rw [phase] at undoes
    exact absurd undoes failed
  | ended _ _ phase =>
    -- the last call of the rollback: no key is left to the query
    exfalso
    rw [phase] at undoes
    obtain rfl : reply = .ok := undoes
    dsimp only at owned
    split at owned
    · rename_i unnamed
      exact (before owned).1.1 unnamed
    · obtain ⟨⟨_, rfl⟩, _⟩ := before (m.releaseIdempotency_owner_origin owned)
      change (m.releaseIdempotency s.dbID s.idemKey s.queryID).owner
        (MetaStore.fullKey s.dbID s.idemKey) = _ at owned
      rw [m.releaseIdempotency_owner_self] at owned
      split at owned <;> contradiction
  | replied _ _ _ phase =>
    exact earlier owned (by rcases phase with phase | phase | ⟨phase, _⟩ <;> simp [phase])
  | found _ phase | foundAgain _ phase => exact earlier owned (by simp [phase])
  | missing _ phase | pinged phase | unreachable _ _ phase | seated _ _ phase | crowded _ _ phase
  | admitted _ _ phase | turnedAway _ _ phase | put _ phase | unput _ _ _ phase | leased _ _ phase
  | launched _ _ _ phase | dropped _ _ phase | unseated _ _ phase =>
    exact earlier (quiet (by rw [phase]; rfl) ▸ owned) (by simp [phase])

theorem submitStep_reclaims {existing : String} (reclaims : out.phase = .reclaim existing) :
    s.phase = .lookup existing ∧ reply = .ok ∧ m.getQuery existing = none := by
  cases submitStep_move taken with
  | missing _ phase absent =>
    cases reclaims
    exact ⟨phase, rfl, absent⟩
  | launched _ _ _ _ continues => rcases continues with rfl | rfl <;> contradiction
  | _ => contradiction

theorem submitStep_removes (held : m.holder now key = some holder)
    (gone : out.store.holder now key ≠ some holder) : s.releases? = some holder := by
  have same : SameKey key m out.store → out.store.holder now key = some holder := by
    intro same
    rw [MetaStore.holder_eq_some_iff] at held ⊢
    rw [same.owner, same.expiry]
    exact held
  rcases submitStep_keys taken with kept | ⟨_, free, claimed⟩ | ⟨released, _, freed⟩
  · exact absurd (same (kept.key key)) gone
  · have other : key ≠ s.storedKey := by
      rintro rfl
      rw [free] at held
      contradiction
    rw [claimed] at gone same
    exact absurd (same (m.claim_sameKey_of_ne _ _ other)) gone
  · rw [freed] at gone same
    by_cases hit : m.owner key = some released
    · rw [m.owner_of_holder held] at hit
      rwa [hit]
    · exact absurd (same (m.releaseIdempotency_sameKey fun _ => hit)) gone

end

end

variable {queryID : String} {s : Submission}

namespace Deployment

/-! ## The history -/

/-- In a step of the call that has `caller` as its query ID, a key was taken from `holder`. -/
structure Removal where
  caller : String
  key : String
  holder : String

structure History where
  ledger : Ledger
  opened : List String := []
  dangling : List (String × String) := []
  removed : List Removal := []

def caller? : Action → Option String
  | .submit _ _ queryID .. | .submission queryID _ => some queryID
  | _ => none

def opens : Action → List String
  | .execution queryID (.opened _) => [queryID]
  | _ => []

def findsMissing (d : Deployment) : Action → List (String × String)
  | .submission queryID .ok =>
    match (d.subs queryID).map Submission.phase with
    | some (.lookup existing) =>
      if (d.store.getQuery existing).isNone then [(queryID, existing)] else []
    | _ => []
  | _ => []

/-- The keys that have not run out and lose their holder between two states of the store. -/
def takenKeys (now : Time) (before after : MetaStore) : List (String × String) :=
  before.idempotency.keys.filterMap fun key =>
    (before.holder now key).bind fun holder =>
      if after.holder now key = some holder then none else some (key, holder)

def removals (d after : Deployment) (action : Action) : List Removal :=
  match caller? action with
  | some caller => (takenKeys d.now d.store after.store).map fun taken =>
    ⟨caller, taken.1, taken.2⟩
  | none => []

namespace History

def deployment (history : History) : Deployment := history.ledger.deployment

def step (env : Env) (history : History) (action : Action) : Option History :=
  (Ledger.step env history.ledger action).map fun after =>
    { ledger := after
      opened := history.opened ++ opens action
      dangling := history.dangling ++ findsMissing history.deployment action
      removed := history.removed ++ removals history.deployment after.deployment action }

def initial (now : Time) : History where
  ledger := { deployment := Deployment.initial now }

end History

theorem mem_takenKeys {now : Time} {before after : MetaStore}
    (taken : (key, holder) ∈ takenKeys now before after) :
    before.holder now key = some holder ∧ after.holder now key ≠ some holder := by
  obtain ⟨_, _, found⟩ := List.mem_filterMap.mp taken
  obtain ⟨_, held, gone⟩ := Option.bind_eq_some_iff.mp found
  split at gone
  · contradiction
  · rename_i moved
    cases gone
    exact ⟨held, moved⟩

/-! ## What is assumed of the calls -/

def submitting? (queryID : String) (d : Deployment) : Action → Option (SubmitPhase × Reply)
  | .submission id reply =>
    if id = queryID then (d.subs id).map fun s => (s.phase, reply) else none
  | _ => none

def Undoes (queryID : String) (d : Deployment) (action : Action) : Prop :=
  ∀ call ∈ submitting? queryID d action, call.1.Undoes call.2

instance (queryID : String) (d : Deployment) (action : Action) :
    Decidable (Undoes queryID d action) :=
  inferInstanceAs (Decidable (∀ call ∈ submitting? queryID d action, call.1.Undoes call.2))

def ClaimsWhole (queryID : String) (d : Deployment) (action : Action) : Prop :=
  ∀ call ∈ submitting? queryID d action, call.1.ClaimsWhole call.2

instance (queryID : String) (d : Deployment) (action : Action) :
    Decidable (ClaimsWhole queryID d action) :=
  inferInstanceAs (Decidable (∀ call ∈ submitting? queryID d action, call.1.ClaimsWhole call.2))

theorem submitting?_own {d : Deployment} (sub : d.subs queryID = some s) (reply : Reply) :
    submitting? queryID d (.submission queryID reply) = some (s.phase, reply) := by
  simp [submitting?, sub]

/-! ## What a move does -/

section
variable {env : Env} {d after : Deployment} {action : Action}

section
variable (shape : Shape d) (move : Move env d action after)
include shape move

theorem Move.claims
    (named : ∀ s, d.subs queryID = some s → s.phase.resolving = true → s.opts.idempotencyKey ≠ "")
    (undoes : Undoes queryID d action) (whole : ClaimsWhole queryID d action)
    (owned : ∀ key, d.store.owner key = some queryID →
      (∃ s, d.subs queryID = some s ∧ s.Claims key) ∨ (d.runs queryID).isSome = true)
    (own : after.store.owner key = some queryID) :
    (∃ s, after.subs queryID = some s ∧ s.Claims key) ∨ (after.runs queryID).isSome = true := by
  by_cases executed : (d.runs queryID).isSome = true
  · exact .inr (move.run_kept executed)
  have claims : ∀ s, d.subs queryID = some s → d.store.owner key = some queryID →
      s.Claims key := by
    intro s sub before
    obtain ⟨_, found, claims⟩ := (owned key before).resolve_right executed
    rw [sub] at found
    cases found
    exact claims
  have known : ∃ s, d.subs queryID = some s := by
    rcases move.owner_origin shape own with before | ⟨s, _, _, sub, _⟩
    · obtain ⟨s, sub, _⟩ := (owned key before).resolve_right executed
      exact ⟨s, sub⟩
    · exact ⟨s, sub⟩
  obtain ⟨s, sub⟩ := known
  rcases move.sub_next shape sub with ⟨same, notOwn⟩ | ⟨reply, _, _, rfl, taken, moved, rfl⟩
  · left
    rcases move.owner_origin shape own with before | ⟨_, reply, acted, _⟩
    · exact ⟨s, same, claims s sub before⟩
    · exact absurd acted (notOwn reply)
  · obtain ⟨rfl, _⟩ := shape.sub queryID s sub
    have call := submitting?_own sub reply
    rw [applySubmit_store] at own
    rcases submitStep_claims taken (named s sub) (undoes _ call) (whole _ call)
      (claims s sub) own with still | launched
    · exact .inl ⟨_, moved, still⟩
    · right
      obtain ⟨_, launched⟩ := Option.isSome_iff_exists.mp launched
      simp [applySubmit_runs, launched]

theorem Move.stores_committed (undoes : Undoes queryID d action)
    (stored : d.store.has queryID = true → Committed d queryID)
    (collected : ∀ pid p record, d.procs pid = some p → p.gc.hand? = some record →
      record.id = queryID → Committed d queryID)
    (has : after.store.has queryID = true) : Committed after queryID := by
  rcases move.has_origin shape has with
    before | executed | ⟨reply, s, record, rfl, sub, phase, applied⟩ |
      ⟨pid, p, record, _, found, mark, own⟩
  · exact move.committed shape (stored before)
  · exact move.committed shape (.inr executed)
  · -- the submission's own `PutQuery`: stored, so it has succeeded
    have call := submitting?_own sub reply
    have whole : s.phase.Undoes reply := undoes _ call
    rw [phase] at whole
    obtain rfl : reply = .ok := by
      cases reply with
      | ok => rfl
      | lost => exact absurd rfl whole
      | failed => exact absurd rfl applied
    rcases move.sub_next shape sub with ⟨_, notOwn⟩ | ⟨_, p, _, acted, taken, moved, _⟩
    · exact absurd rfl (notOwn .ok)
    · cases acted
      simp only [submitStep, phase, Option.some.injEq] at taken
      subst taken
      exact .inl ⟨_, moved, rfl⟩
  · exact move.committed shape (collected pid p record found (by rw [mark]; rfl) own)

end

end

/-! ## The invariant of a submission -/

namespace History

/-- What the submission of `queryID` has done, it has undone or is going to undo, unless the
execution is launched. -/
structure Tidy (queryID : String) (history : History) : Prop where
  sound : history.ledger.Sound
  named : ∀ s, history.deployment.subs queryID = some s → s.phase.resolving = true →
    s.opts.idempotencyKey ≠ ""
  owned : ∀ key, history.deployment.store.owner key = some queryID →
    (∃ s, history.deployment.subs queryID = some s ∧ s.Claims key) ∨
      (history.deployment.runs queryID).isSome = true
  stored : history.deployment.store.has queryID = true → Committed history.deployment queryID
  collected : ∀ pid p record, history.deployment.procs pid = some p →
    p.gc.hand? = some record → record.id = queryID → Committed history.deployment queryID
  missing : ∀ s existing, history.deployment.subs queryID = some s →
    s.phase = .reclaim existing → (queryID, existing) ∈ history.dangling
  removed : ∀ removal ∈ history.removed, removal.caller = queryID →
    removal.holder = queryID ∨ (queryID, removal.holder) ∈ history.dangling
  opened : queryID ∈ history.opened → (history.deployment.runs queryID).isSome = true

theorem Tidy.initial (queryID : String) (now : Time) : Tidy queryID (History.initial now) where
  sound := Ledger.Sound.initial now
  named := by simp [deployment, History.initial, Deployment.initial]
  owned := by simp [deployment, History.initial, Deployment.initial, MetaStore.owner,
    MetaStore.empty]
  stored := by simp [deployment, History.initial, Deployment.initial, MetaStore.has,
    MetaStore.empty]
  collected := by simp [deployment, History.initial, Deployment.initial]
  missing := by simp [deployment, History.initial, Deployment.initial]
  removed := by simp [History.initial]
  opened := by simp [History.initial]

section
variable {env : Env} {history : History} {after : Deployment} {action : Action}

section
variable (tidy : Tidy queryID history) (move : Move env history.deployment action after)
include tidy move

theorem Tidy.named_step (s : Submission) (sub : after.subs queryID = some s)
    (resolving : s.phase.resolving = true) : s.opts.idempotencyKey ≠ "" := by
  rcases move.sub_origin tidy.sound.shape sub with
    same | first | ⟨_, before, _, _, rfl, known, _, taken, rfl, _⟩
  · exact tidy.named s same resolving
  · intro unnamed
    rw [first, Submission.firstPhase, if_pos unnamed] at resolving
    contradiction
  · exact tidy.named before known (submitStep_resolving taken resolving)

theorem Tidy.missing_step (s : Submission) (existing : String) (sub : after.subs queryID = some s)
    (reclaims : s.phase = .reclaim existing) :
    (queryID, existing) ∈ history.dangling ++ findsMissing history.deployment action := by
  apply List.mem_append.mpr
  rcases move.sub_origin tidy.sound.shape sub with
    same | first | ⟨_, _, _, _, rfl, known, _, taken, rfl, _⟩
  · exact .inl (tidy.missing s existing same reclaims)
  · rw [reclaims, Submission.firstPhase] at first
    split at first <;> contradiction
  · obtain ⟨phase, rfl, absent⟩ := submitStep_reclaims taken reclaims
    exact .inr (by simp [findsMissing, History.deployment, known, phase, absent])

theorem Tidy.removes {removal : Removal}
    (listed : removal ∈ removals history.deployment after action) (own : removal.caller = queryID) :
    removal.holder = queryID ∨ (queryID, removal.holder) ∈ history.dangling := by
  unfold removals at listed
  cases acts : caller? action with
  | none => simp [acts] at listed
  | some caller =>
    simp only [acts] at listed
    obtain ⟨⟨key, holder⟩, lost, rfl⟩ := List.mem_map.mp listed
    obtain ⟨held, gone⟩ := mem_takenKeys lost
    obtain rfl : caller = queryID := own
    cases move with
    | submission id reply s p out sub found alive taken =>
      obtain rfl : id = caller := Option.some.inj acts
      rw [applySubmit_store] at gone
      have names := submitStep_removes taken held gone
      unfold Submission.releases? at names
      split at names
      · rename_i existing phase
        cases names
        exact .inr (tidy.missing s holder sub phase)
      · split at names
        · contradiction
        · cases names
          exact .inl (tidy.sound.shape.sub id s sub).1
      · contradiction
    | rejected | submitted => exact absurd held gone
    | _ => contradiction

theorem Tidy.opened_step (listed : queryID ∈ history.opened ++ opens action) :
    (after.runs queryID).isSome = true := by
  apply move.run_kept
  rcases List.mem_append.mp listed with before | now
  · exact tidy.opened before
  · cases move with
    | execution id choice run p out executed found alive taken =>
      unfold opens at now
      split at now
      · rename_i acted
        cases acted
        obtain rfl := List.mem_singleton.mp now
        rw [executed]
        rfl
      · contradiction
    | operated _ _ _ _ _ _ operated => cases operated <;> simp [opens] at now
    | _ => simp [opens] at now

end

end

theorem Tidy.step {env : Env} {history after : History} {action : Action}
    (tidy : Tidy queryID history) (undoes : Undoes queryID history.deployment action)
    (whole : ClaimsWhole queryID history.deployment action)
    (taken : History.step env history action = some after) : Tidy queryID after := by
  obtain ⟨_, entered, rfl⟩ := Option.map_eq_some_iff.mp taken
  have sound := tidy.sound.step entered
  have shape := tidy.sound.shape
  obtain ⟨_, stepped, rfl⟩ := Option.map_eq_some_iff.mp entered
  have move := step_move stepped
  exact
    { sound
      named := tidy.named_step move
      owned := fun _ own => move.claims shape tidy.named undoes whole tidy.owned own
      stored := move.stores_committed shape undoes tidy.stored tidy.collected
      collected := by
        intro pid p record present hand own
        apply move.committed shape
        rcases move.gc_hand present hand with ⟨before, found, earlier⟩ | ⟨_, found, _, rfl⟩
        · exact tidy.collected pid before record found earlier own
        · subst own
          exact tidy.stored (history.deployment.store.has_of_getQuery found)
      missing := tidy.missing_step move
      removed := by
        intro removal listed own
        refine Or.imp_right (List.mem_append_left _) ?_
        rcases List.mem_append.mp listed with before | now
        · exact tidy.removed removal before own
        · exact tidy.removes move now own
      opened := tidy.opened_step move }

/-! ## Rejected submissions -/

/-- The call with this query ID has returned an error without launching `run`; a call that
fails its request checks leaves no submission. -/
def Rejected (history : History) (queryID : String) : Prop :=
  history.deployment.runs queryID = none ∧
    (history.deployment.subs queryID = none ∨
      ∃ s err, history.deployment.subs queryID = some s ∧ s.phase = .returned (.error err))

/-- No key maps to the query, no registry has it and no record is stored; its slot is given
back, so that the tokens in each process's channel are those of others; no writer was opened
for it, and every key the call took away was its own or one it had found dangling. -/
structure LeavesNothing (history : History) (queryID : String) : Prop where
  key : ∀ key, history.deployment.store.owner key ≠ some queryID
  entry : ∀ pid p, history.deployment.procs pid = some p → queryID ∉ p.registry.activeReg
  record : history.deployment.store.queries.lookup queryID = none
  slot : history.ledger.released queryID = history.ledger.acquired queryID
  tokens : ∀ pid p n, history.deployment.procs pid = some p → p.slots.limit = some n →
    { other | other ≠ queryID ∧ SubmittedTo history.deployment pid other ∧
      history.ledger.released other < history.ledger.acquired other }.encard = p.slots.used
  writer : queryID ∉ history.opened
  removed : ∀ removal ∈ history.removed, removal.caller = queryID →
    removal.holder = queryID ∨ (queryID, removal.holder) ∈ history.dangling

section
variable {history : History}

section
variable (rejected : Rejected history queryID)
include rejected

theorem Rejected.phase (sub : history.deployment.subs queryID = some s) :
    ∃ err, s.phase = .returned (.error err) := by
  rcases rejected.2 with none_ | ⟨_, err, known, phase⟩
  · rw [none_] at sub
    contradiction
  · rw [known] at sub
    cases sub
    exact ⟨err, phase⟩

theorem Rejected.not_committed : ¬ Committed history.deployment queryID := by
  rintro (⟨_, sub, stored⟩ | executed)
  · obtain ⟨_, phase⟩ := rejected.phase sub
    rw [phase] at stored
    contradiction
  · rw [rejected.1] at executed
    contradiction

theorem Rejected.not_holding : ¬ Holding history.deployment queryID := by
  rintro (⟨_, sub, holds⟩ | ⟨_, executed, _⟩)
  · obtain ⟨_, phase⟩ := rejected.phase sub
    rw [phase] at holds
    contradiction
  · rw [rejected.1] at executed
    contradiction

end

theorem Tidy.leavesNothing (tidy : Tidy queryID history) (rejected : Rejected history queryID) :
    LeavesNothing history queryID := by
  have slot := (tidy.sound.settles.free queryID rejected.not_holding).1
  refine ⟨?_, ?_, ?_, slot, ?_, ?_, tidy.removed⟩
  · intro key own
    rcases tidy.owned key own with ⟨_, sub, _, claimed⟩ | executed
    · obtain ⟨_, phase⟩ := rejected.phase sub
      rw [phase] at claimed
      contradiction
    · rw [rejected.1] at executed
      contradiction
  · intro pid p found listed
    obtain ⟨_, holding⟩ := Ledger.slotHolders_of_inFlight tidy.sound.shape
      (tidy.sound.entered pid p queryID found listed)
    exact rejected.not_holding holding
  · have absent : ¬ history.deployment.store.has queryID = true :=
      fun has => rejected.not_committed (tidy.stored has)
    simpa [MetaStore.has] using absent
  · intro pid p n found limit
    rw [← (tidy.sound.balance found limit).1]
    congr 1
    ext other
    constructor
    · exact fun holder => holder.2
    · intro holder
      refine ⟨?_, holder⟩
      rintro rfl
      have more := holder.2
      omega
  · intro opened
    have executed := tidy.opened opened
    rw [rejected.1] at executed
    contradiction

/-- A submission that is rejected, at whatever point and whatever else goes on, leaves nothing
behind, if none of its `AcquireIdempotency` calls fails with its claim stored. -/
theorem rejected_leaves_nothing (env : Env) (now : Time) (queryID : String) (history : History)
    (run : Runs.Reaches (History.step env)
      (fun history action => Undoes queryID history.deployment action ∧
        ClaimsWhole queryID history.deployment action) (History.initial now) history)
    (rejected : Rejected history queryID) : LeavesNothing history queryID := by
  apply Tidy.leavesNothing _ rejected
  apply run.invariant (Tidy queryID) (Tidy.initial queryID now)
  intro before action after tidy guard taken
  exact tidy.step guard.1 guard.2 taken

end

/-! ## Two runs -/

/-- What a reader can see of the call of `queryID`: the error it has returned, whether its
execution was launched, and whom the key `k` belongs to. -/
def outcome (history : History) (queryID : String) :
    Bool × Bool × Option String :=
  ((history.deployment.subs queryID).any fun s =>
      match s.phase with
      | .returned (.error _) => true
      | _ => false,
    (history.deployment.runs queryID).isSome,
    history.deployment.store.owner (MetaStore.fullKey "db" (scopedIdempotencyKey "" "k")))

theorem rejected_of_outcome {history : History} {owner : Option String}
    (seen : history.outcome queryID = (true, false, owner)) : Rejected history queryID := by
  simp only [outcome, Prod.mk.injEq] at seen
  obtain ⟨returned, unlaunched, _⟩ := seen
  refine ⟨by simpa using unlaunched, .inr ?_⟩
  obtain ⟨s, sub, ended⟩ := (Option.any_eq_true _ _).mp returned
  split at ended
  · rename_i err phase
    exact ⟨s, err, sub, phase⟩
  · contradiction

def pingFailed : List Action :=
  startInstance 1 "a" ++
    [submitWithKey 1 "q", .submission "q" .ok, .submission "q" .failed, .submission "q" .ok]

def claimUnanswered : List Action :=
  startInstance 1 "a" ++ [submitWithKey 1 "q", .submission "q" .lost]

theorem failed_ping_leaves_nothing :
    ∃ history, history.outcome "q" = (true, false, none) ∧ Rejected history "q" ∧
      LeavesNothing history "q" := by
  obtain ⟨history, run, seen⟩ : ∃ history, Runs.Reaches (History.step sampleEnv)
      (fun history action => Undoes "q" history.deployment action ∧
        ClaimsWhole "q" history.deployment action) (History.initial 1) history ∧
        history.outcome "q" = (true, false, none) :=
    Runs.exists_reaches pingFailed (by decide +kernel)
  have rejected := rejected_of_outcome seen
  exact ⟨history, seen, rejected, rejected_leaves_nothing sampleEnv 1 "q" history run rejected⟩

theorem unanswered_claim_stays :
    ∃ history, Runs.Reaches (History.step sampleEnv)
        (fun history action => Undoes "q" history.deployment action) (History.initial 1)
        history ∧ Rejected history "q" ∧
      history.deployment.store.owner
        (MetaStore.fullKey "db" (scopedIdempotencyKey "" "k")) = some "q" := by
  obtain ⟨history, run, seen⟩ : ∃ history, Runs.Reaches (History.step sampleEnv)
      (fun history action => Undoes "q" history.deployment action) (History.initial 1) history ∧
        history.outcome "q" = (true, false, some "q") :=
    Runs.exists_reaches claimUnanswered (by decide +kernel)
  exact ⟨history, run, rejected_of_outcome seen, congrArg (fun seen => seen.2.2) seen⟩

end History

end Deployment

end DbBridge.Cluster
