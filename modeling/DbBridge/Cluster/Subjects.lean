import DbBridge.Cluster.Idempotency
import DbBridge.Cluster.KeyScope
import DbBridge.Cluster.Provenance

/-!
# Whose record a submission returns

`SubmitQuery` returns a record at four places. A fresh record and the record a sync
submission waits for are its own; a record found under the key is compared with the
caller's subject; a record found after the reclaim branch is not. That one belongs to
whoever claimed the key in between, so it is the caller's as long as the key tells the
callers apart. The MetaStore may hold anything at the start.
-/

namespace DbBridge.Cluster

open Domain State Authn Settings

variable {p : Process}

theorem admission_idempotencyKey {env : Env} {dbID sql : String} {given opts : QueryOptions}
    (admitted : admission env p dbID sql given = .ok opts) :
    opts.idempotencyKey = given.idempotencyKey := by
  rw [admission_eq_ok admitted]
  rfl

variable {s : Submission} {reply : Reply} {out : SubmitOutcome}

namespace Deployment

/-! ## The exits of a submission -/

variable {record : QueryRecord}

section
variable {now : Time} {m : MetaStore}

theorem submitStep_returned (taken : submitStep now m p s reply = some out)
    (returned : out.phase = .returned (.ok record)) :
    s.phase = .launch record ∨
      (s.phase = .waiting ∧ m.getQuery s.queryID = some record) ∨
      (∃ existing, s.phase = .lookup existing ∧
        authorizeSubject s.caller record.subject = true) ∨
      ∃ existing, s.phase = .relookup existing ∧ m.getQuery existing = some record := by
  cases submitStep_move taken with
  | replied _ id _ phase read =>
    cases returned
    obtain ⟨found, allowed⟩ := read record rfl
    rcases phase with phase | phase | ⟨phase, rfl⟩
    · exact .inr (.inr (.inl ⟨id, phase, allowed phase⟩))
    · exact .inr (.inr (.inr ⟨id, phase, found⟩))
    · exact .inr (.inl ⟨phase, found⟩)
  | launched _ _ _ phase continues =>
    rcases continues with rfl | rfl <;> cases returned
    exact .inl phase
  | _ => cases returned

inductive Resolves (m : MetaStore) (s : Submission) : SubmitPhase → MetaStore → Prop
  | found (existing : String) (phase : s.phase = .acquire)
      (owned : m.owner s.storedKey = some existing) : Resolves m s (.lookup existing) m
  | missing (existing : String) (phase : s.phase = .lookup existing) :
      Resolves m s (.reclaim existing) m
  | reclaimed (existing : String) (phase : s.phase = .reclaim existing) :
      Resolves m s .reacquire (m.releaseIdempotency s.dbID s.idemKey existing)
  | foundAgain (existing : String) (phase : s.phase = .reacquire)
      (owned : m.owner s.storedKey = some existing) : Resolves m s (.relookup existing) m

theorem submitStep_resolves (taken : submitStep now m p s reply = some out)
    (resolving : out.phase.resolving = true) : Resolves m s out.phase out.store := by
  cases submitStep_move taken with
  | found existing phase held => exact .found existing phase (m.owner_of_holder held)
  | foundAgain existing phase held => exact .foundAgain existing phase (m.owner_of_holder held)
  | missing existing phase => exact .missing existing phase
  | reclaimed existing phase => exact .reclaimed existing phase
  | launched _ _ _ _ continues => rcases continues with rfl | rfl <;> contradiction
  | _ => contradiction

end

/-! ## Who owns a key -/

variable {key : String}

section
variable {env : Env} {d after : Deployment} {action : Action}

theorem Move.owner_origin (shape : Shape d) (move : Move env d action after) {queryID : String}
    (owned : after.store.owner key = some queryID) :
    d.store.owner key = some queryID ∨
      ∃ s reply, action = .submission queryID reply ∧ d.subs queryID = some s ∧
        s.storedKey = key ∧ s.phase.resolving = true := by
  have keys := move.keys shape
  generalize after.store = store at owned keys
  cases keys with
  | same _ _ same => exact .inl (same.owner ▸ owned)
  | claimed reply s sub phase =>
    by_cases same : key = s.storedKey
    · subst same
      rw [d.store.claim_owner_self] at owned
      cases owned
      exact .inr ⟨s, reply, rfl, sub, rfl, by rcases phase with p | p <;> rw [p] <;> rfl⟩
    · rw [d.store.claim_owner_of_ne _ _ same] at owned
      exact .inl owned
  | released => exact .inl (d.store.releaseIdempotency_owner_origin owned)
  | refreshed =>
    rw [d.store.refreshIdempotency_owner] at owned
    exact .inl owned

def Reclaimed (d : Deployment) (key : String) : Prop :=
  ∀ queryID, d.store.owner key = some queryID → HasKey d key queryID

end

/-! ## The condition on a run -/

/-- `uuid.New` returns no ID that the store already had a record for. -/
def FreshID (content : MetaStore) (_ : Deployment) : Action → Prop
  | .submit _ _ queryID _ _ _ => content.has queryID = false
  | _ => True

def InScope (scopes : List (String × String)) (_ : Deployment) : Action → Prop
  | .submit _ caller _ dbID _ opts =>
    opts.idempotencyKey = "" ∨ (dbID, subjectFromContext caller) ∈ scopes
  | _ => True

def ScopedRun (content : MetaStore) (scopes : List (String × String)) (d : Deployment)
    (action : Action) : Prop :=
  FreshID content d action ∧ InScope scopes d action

instance (content : MetaStore) (d : Deployment) (action : Action) :
    Decidable (FreshID content d action) := by
  unfold FreshID
  split <;> infer_instance

instance (scopes : List (String × String)) (d : Deployment) (action : Action) :
    Decidable (InScope scopes d action) := by
  unfold InScope
  split <;> infer_instance

instance (content : MetaStore) (scopes : List (String × String)) (d : Deployment)
    (action : Action) : Decidable (ScopedRun content scopes d action) :=
  inferInstanceAs (Decidable (_ ∧ _))

/-! ## The invariant -/

/-- What a submission has found under its key, and what it has returned. -/
structure Confined (d : Deployment) (s : Submission) : Prop where
  named : s.phase.resolving = true → s.opts.idempotencyKey ≠ ""
  pointed : ∀ existing, s.phase = .lookup existing ∨ s.phase = .reclaim existing →
    d.store.owner s.storedKey = some existing ∨ Reclaimed d s.storedKey
  reclaimed : s.phase = .reacquire → Reclaimed d s.storedKey
  found : ∀ existing, s.phase = .relookup existing → HasKey d s.storedKey existing
  returned : ∀ record identity, s.phase = .returned (.ok record) → s.caller = some identity →
    identity.isAdmin = false → record.subject = identity.subject

structure Subjects (content : MetaStore) (scopes : List (String × String)) (d : Deployment) :
    Prop where
  pedigree : Pedigree (fun id => content.has id = true) d
  fresh : ∀ queryID s, d.subs queryID = some s → content.has queryID = false
  within : ∀ queryID s, d.subs queryID = some s → s.opts.idempotencyKey ≠ "" →
    (s.dbID, s.subject) ∈ scopes
  confined : ∀ queryID s, d.subs queryID = some s → Confined d s

variable {identity : Identity}

section
variable {env : Env} {d after : Deployment} {action : Action} {content : MetaStore}
  {scopes : List (String × String)} {queryID : String}

theorem Subjects.initial (content : MetaStore) (scopes : List (String × String)) (now : Time) :
    Subjects content scopes { initial now with store := content } where
  pedigree :=
    { shape := ⟨by simp [Deployment.initial], by simp [Deployment.initial],
        by simp [Deployment.initial]⟩
      stored := by
        intro id record lookup
        have own := content.keyed id record lookup
        rw [← own] at lookup
        exact .inl (by simp [MetaStore.has, lookup])
      running := by simp [Deployment.initial]
      reporting := by simp [Deployment.initial]
      reaping := by simp [Deployment.initial]
      collecting := by simp [Deployment.initial] }
  fresh := by simp [Deployment.initial]
  within := by simp [Deployment.initial]
  confined := by simp [Deployment.initial]

theorem Move.sub_request (shape : Shape d) (move : Move env d action after)
    (sub : after.subs queryID = some s) :
    (∃ phase, d.subs queryID = some { s with phase := phase }) ∨
      ∃ given p, action = .submit s.pid s.caller queryID s.dbID s.sql given ∧
        admission env p s.dbID s.sql given = .ok s.opts := by
  cases move with
  | submitted _ _ _ _ _ given _ p _ _ admitted =>
    rcases Tables.update_some_cases sub with ⟨rfl, rfl⟩ | ⟨_, sub⟩
    · exact .inr ⟨given, p, rfl, admitted⟩
    · exact .inl ⟨s.phase, sub⟩
  | submission id _ before _ _ known =>
    obtain ⟨rfl, _⟩ := shape.sub id before known
    rw [applySubmit_subs] at sub
    rcases Tables.update_some_cases sub with ⟨rfl, rfl⟩ | ⟨_, sub⟩
    · exact .inl ⟨before.phase, known⟩
    · exact .inl ⟨s.phase, sub⟩
  | tick | started | rejected | execution | reaper | gc | heart | countBegin | countLocal
  | countRemote | operated => exact .inl ⟨s.phase, sub⟩

variable {existing : String}

section
variable (subjects : Subjects content scopes d)
include subjects

theorem Subjects.read (sub : d.subs queryID = some s)
    (found : d.store.getQuery queryID = some record) : record.subject = s.subject := by
  have own := d.store.getQuery_id found
  rcases subjects.pedigree.read found with old | ⟨_, _, _, known, request⟩
  · rw [own, subjects.fresh queryID s sub] at old
    contradiction
  · rw [own, sub] at known
    cases known
    have subject : record.request.subject = s.subject := by rw [request]; rfl
    exact subject

/-- One key, one subject: the scopes in use are separated. -/
theorem Subjects.subject_eq (separated : ScopesSeparated {scope | scope ∈ scopes})
    {queryID other : String} {t : Submission} (sub : d.subs queryID = some s)
    (named : s.opts.idempotencyKey ≠ "") (known : d.subs other = some t)
    (keyed : t.Keyed s.storedKey) : t.subject = s.subject := by
  have distinct := (stored_keys_distinct_iff .memory {scope | scope ∈ scopes}).mpr separated
  let request (u : Submission) : KeyRequest := ⟨u.dbID, u.subject, u.opts.idempotencyKey⟩
  have own : request s ∈ requestsIn {scope | scope ∈ scopes} :=
    ⟨subjects.within queryID s sub named, named⟩
  have foreign : request t ∈ requestsIn {scope | scope ∈ scopes} :=
    ⟨subjects.within other t known keyed.1, keyed.1⟩
  have equal : request t = request s := distinct foreign own keyed.2
  exact congrArg KeyRequest.subject equal

section
variable (move : Move env d action after)
include move

theorem Subjects.claim (owned : after.store.owner key = some queryID)
    (before : d.store.owner key = some queryID → HasKey d key queryID) :
    HasKey after key queryID := by
  rcases move.owner_origin subjects.pedigree.shape owned with
    kept | ⟨s, _, _, sub, same, resolving⟩
  · exact move.hasKey subjects.pedigree.shape (before kept)
  · have named := (subjects.confined queryID s sub).named resolving
    exact move.hasKey subjects.pedigree.shape ⟨s, sub, named, same⟩

theorem Subjects.reclaimed_step (reclaimed : Reclaimed d key) : Reclaimed after key :=
  fun queryID owned => subjects.claim move owned (reclaimed queryID)

theorem Subjects.pointed_step (pointed : d.store.owner key = some existing ∨ Reclaimed d key) :
    after.store.owner key = some existing ∨ Reclaimed after key := by
  by_cases same : after.store.owner key = some existing
  · exact .inl same
  · right
    intro queryID owned
    apply subjects.claim move owned
    intro kept
    rcases pointed with other | reclaimed
    · rw [kept] at other
      cases other
      exact absurd owned same
    · exact reclaimed queryID kept

end

end

theorem reclaimed_of_release
    (pointed : d.store.owner s.storedKey = some existing ∨ Reclaimed d s.storedKey)
    (owned : (d.store.releaseIdempotency s.dbID s.idemKey existing).owner s.storedKey =
      some queryID) : HasKey d s.storedKey queryID := by
  have before := MetaStore.releaseIdempotency_owner_origin _ owned
  rcases pointed with stale | reclaimed
  · rw [stale] at before
    cases before
    have released := d.store.releaseIdempotency_owner_self s.dbID s.idemKey queryID
    rw [show MetaStore.fullKey s.dbID s.idemKey = s.storedKey from rfl, stale, if_pos rfl,
      owned] at released
    contradiction
  · exact reclaimed queryID before

theorem Subjects.returns (subjects : Subjects content scopes d)
    (separated : ScopesSeparated {scope | scope ∈ scopes}) (sub : d.subs s.queryID = some s)
    (taken : submitStep d.now d.store p s reply = some out)
    (returned : out.phase = .returned (.ok record)) (caller : s.caller = some identity)
    (plain : identity.isAdmin = false) : record.subject = identity.subject := by
  have own : s.subject = identity.subject := by
    simp [Submission.subject, subjectFromContext, caller]
  have confined := subjects.confined s.queryID s sub
  rcases submitStep_returned taken returned with launch | ⟨_, read⟩ | ⟨existing, _, allowed⟩ |
      ⟨existing, relookup, read⟩
  · obtain ⟨_, _, known, sound⟩ := subjects.pedigree.shape.sub s.queryID s sub
    obtain ⟨_, rfl⟩ := sound record (by rw [launch]; rfl)
    exact own
  · rw [subjects.read sub read, own]
  · simp only [authorizeSubject, caller, plain, Bool.false_or, Bool.and_eq_true,
      decide_eq_true_eq] at allowed
    exact allowed.2
  · obtain ⟨_, known, keyed⟩ := confined.found existing relookup
    have named := confined.named (by rw [relookup]; rfl)
    rw [subjects.read known read, subjects.subject_eq separated sub named known keyed, own]

theorem Subjects.confined_kept (subjects : Subjects content scopes d)
    (move : Move env d action after) (sub : d.subs queryID = some s) :
    Confined after s := by
  have confined := subjects.confined queryID s sub
  exact
    { named := confined.named
      pointed := fun existing phase =>
        subjects.pointed_step move (confined.pointed existing phase)
      reclaimed := fun phase => subjects.reclaimed_step move (confined.reclaimed phase)
      found := fun existing phase =>
        move.hasKey subjects.pedigree.shape (confined.found existing phase)
      returned := confined.returned }

theorem confined_first (first : s.phase = Submission.firstPhase s.opts) : Confined d s := by
  unfold Submission.firstPhase at first
  split at first
  · constructor <;> simp [first, SubmitPhase.resolving]
  · rename_i named
    constructor <;> simp [first, named]

theorem Subjects.confined_resolving (subjects : Subjects content scopes d)
    (move : Move env d action after) {next : SubmitPhase} (sub : d.subs s.queryID = some s)
    (named : s.opts.idempotencyKey ≠ "") (resolves : Resolves d.store s next after.store) :
    Confined after { s with phase := next } := by
  have confined := subjects.confined s.queryID s sub
  generalize store : after.store = m at resolves
  cases resolves with
  | found _ _ owned =>
    have kept := subjects.pointed_step move (.inl owned)
    constructor <;> simp [named]
    exact kept
  | missing existing phase =>
    have kept := subjects.pointed_step move (confined.pointed existing (.inl phase))
    constructor <;> simp [named]
    exact kept
  | reclaimed existing phase =>
    have pointed := confined.pointed existing (.inr phase)
    have free : Reclaimed after s.storedKey := by
      intro queryID owned
      rw [store] at owned
      exact move.hasKey subjects.pedigree.shape (reclaimed_of_release pointed owned)
    constructor <;> simp [named]
    exact free
  | foundAgain existing phase owned =>
    have claimed := confined.reclaimed phase existing owned
    have kept := move.hasKey subjects.pedigree.shape claimed
    constructor <;> simp [named]
    exact kept

theorem Subjects.confined_moved (subjects : Subjects content scopes d)
    (separated : ScopesSeparated {scope | scope ∈ scopes}) (move : Move env d action after)
    (sub : d.subs s.queryID = some s) (taken : submitStep d.now d.store p s reply = some out)
    (store : after.store = out.store) : Confined after { s with phase := out.phase } := by
  by_cases resolving : out.phase.resolving = true
  · have named := (subjects.confined s.queryID s sub).named (submitStep_resolving taken resolving)
    exact subjects.confined_resolving move sub named
      (store ▸ submitStep_resolves taken resolving)
  · constructor
    · exact fun still => absurd still resolving
    · rintro existing (phase | phase) <;> dsimp only at phase <;>
        simp [phase, SubmitPhase.resolving] at resolving
    · intro phase
      dsimp only at phase
      simp [phase, SubmitPhase.resolving] at resolving
    · intro existing phase
      dsimp only at phase
      simp [phase, SubmitPhase.resolving] at resolving
    · intro record identity returned caller plain
      exact subjects.returns separated sub taken returned caller plain

theorem Move.submission_store (move : Move env d (.submission queryID reply) after)
    (sub : d.subs queryID = some s) (found : d.procs s.pid = some p)
    (taken : submitStep d.now d.store p s reply = some out) : after.store = out.store := by
  cases move with
  | submission _ _ _ _ _ known present _ moved =>
    rw [sub] at known
    cases known
    rw [found] at present
    cases present
    rw [taken] at moved
    cases moved
    exact applySubmit_store ..
  | operated _ _ _ _ _ _ operated => cases operated

theorem Subjects.step (subjects : Subjects content scopes d)
    (separated : ScopesSeparated {scope | scope ∈ scopes}) (move : Move env d action after)
    (guard : ScopedRun content scopes d action) : Subjects content scopes after where
  pedigree := subjects.pedigree.step move
  fresh := by
    intro queryID s sub
    rcases move.sub_request subjects.pedigree.shape sub with ⟨phase, before⟩ |
        ⟨given, p, rfl, admitted⟩
    · exact subjects.fresh queryID _ before
    · exact guard.1
  within := by
    intro queryID s sub named
    rcases move.sub_request subjects.pedigree.shape sub with ⟨phase, before⟩ |
        ⟨given, p, rfl, admitted⟩
    · exact subjects.within queryID { s with phase := phase } before named
    · rcases guard.2 with empty | member
      · rw [admission_idempotencyKey admitted] at named
        contradiction
      · exact member
  confined := by
    intro queryID s sub
    have shape := subjects.pedigree.shape
    rcases move.sub_origin shape sub with same | first |
        ⟨_, before, p, _, rfl, known, found, taken, rfl, _⟩
    · exact subjects.confined_kept move same
    · exact confined_first first
    · obtain ⟨rfl, _⟩ := shape.sub queryID before known
      exact subjects.confined_moved separated move known taken
        (move.submission_store known found taken)

end

/-- Over any MetaStore, in any run whose keyed submissions stay in separated scopes, a
record that `SubmitQuery` returns to an authenticated caller who is no admin is that
caller's own. -/
theorem submitted_records_are_own {env : Env} {content : MetaStore}
    {scopes : List (String × String)} {now : Time} {d : Deployment}
    (separated : ScopesSeparated {scope | scope ∈ scopes})
    (run : Runs.Reaches (step env) (ScopedRun content scopes)
      { initial now with store := content } d) {queryID : String} {s : Submission}
    (sub : d.subs queryID = some s) (returned : s.phase = .returned (.ok record))
    (caller : s.caller = some identity) (plain : identity.isAdmin = false) :
    record.subject = identity.subject := by
  have subjects : Subjects content scopes d := by
    apply run.invariant _ (Subjects.initial content scopes now)
    intro before action after holds guard taken
    exact holds.step separated (step_move taken) guard
  exact (subjects.confined queryID s sub).returned record identity returned caller plain

def callerC : Identity := { subject := "c", scopes := [.write] }

def callerBC : Identity := { subject := "b:c", scopes := [.write] }

/-- `q1` has claimed the key and not yet stored its record; `q2` takes the claim for a
stale one and frees it; `q3` claims it, stores its record and returns; `q2` goes on. -/
def reclaimRace (config : Config) (first second : Identity) (firstDB secondDB : String) :
    List Action :=
  [.start 1 config (config.databases.map (·.id)), .reaper 1 (.listed .ok []), .reaper 1 .next,
    .submit 1 (some first) "q1" firstDB "SELECT 1" { idempotencyKey := "k" },
    .submission "q1" .ok,
    .submit 1 (some second) "q2" secondDB "SELECT 1" { idempotencyKey := "k" },
    .submission "q2" .ok, .submission "q2" .ok, .submission "q2" .ok,
    .submit 1 (some first) "q3" firstDB "SELECT 1" { idempotencyKey := "k" }] ++
    List.replicate 7 (.submission "q3" .ok) ++ List.replicate 2 (.submission "q2" .ok)

def handedOut (caller : Identity) (d : Deployment) : Option String := do
  let s ← d.subs "q2"
  match s.phase with
  | .returned (.ok record) => if s.caller = some caller then some record.subject else none
  | _ => none

theorem handedOut_eq_some {caller : Identity} {d : Deployment} {subject : String}
    (handed : handedOut caller d = some subject) :
    ∃ s record, d.subs "q2" = some s ∧ s.phase = .returned (.ok record) ∧
      s.caller = some caller ∧ record.subject = subject := by
  obtain ⟨s, sub, handed⟩ := Option.bind_eq_some_iff.mp handed
  split at handed
  · rename_i record phase
    split at handed
    · rename_i known
      exact ⟨s, record, sub, phase, known, Option.some.inj handed⟩
    · contradiction
  · contradiction

/-- Both submissions of one caller: the record found after the reclaim branch is that
caller's. -/
theorem reclaimed_record_is_own :
    ∃ d s record, Runs.Reaches (step sampleEnv) (ScopedRun MetaStore.empty [("db", "c")])
        { initial 1 with store := MetaStore.empty } d ∧ d.subs "q2" = some s ∧
      s.phase = .returned (.ok record) ∧ s.caller = some callerC ∧
      record.subject = callerC.subject := by
  have separated : ScopesSeparated {scope | scope ∈ [("db", "c")]} := by
    apply scopesSeparated_of_clear
    simp only [Set.mem_ofPred_eq, List.mem_singleton, forall_eq]
    decide
  obtain ⟨d, run, handed⟩ :
      ∃ d, Runs.Reaches (step sampleEnv) (ScopedRun MetaStore.empty [("db", "c")])
        { initial 1 with store := MetaStore.empty } d ∧ handedOut callerC d = some "c" :=
    Runs.exists_reaches (reclaimRace (sampleConfig "i") callerC callerC "db" "db")
      (by decide +kernel)
  obtain ⟨s, record, sub, returned, caller, _⟩ := handedOut_eq_some handed
  exact ⟨d, s, record, run, sub, returned, caller,
    submitted_records_are_own separated run sub returned caller (by decide)⟩

/-- Without the condition: the caller `b:c` is handed a record of the subject `c`, whose
database and key are written the same way. -/
theorem reclaimed_record_is_foreign :
    ∃ d s record, Reachable sampleEnv Runs.Always d ∧ d.subs "q2" = some s ∧
      s.phase = .returned (.ok record) ∧ s.caller = some callerBC ∧
      callerBC.isAdmin = false ∧ record.subject ≠ callerBC.subject := by
  obtain ⟨d, reached, handed⟩ : ∃ d, Reachable sampleEnv Runs.Always d ∧
      handedOut callerBC d = some "c" :=
    exists_reachable (reclaimRace collidingConfig callerC callerBC "a:b" "a") (by decide +kernel)
  obtain ⟨s, record, sub, returned, caller, subject⟩ := handedOut_eq_some handed
  refine ⟨d, s, record, reached, sub, returned, caller, by decide, ?_⟩
  rw [subject]
  decide

end Deployment

end DbBridge.Cluster
