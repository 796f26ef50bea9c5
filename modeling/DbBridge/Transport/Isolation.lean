import DbBridge.Transport.Connect

/-!
# Callers learn nothing about other callers' queries

Two runs of one request by a caller without the admin scope, over two contents of the
MetaStore that agree on the caller's own records. A record of somebody else and a
missing one leave `authorized` as different errors; no transport shows which.
-/

namespace DbBridge.Service

open Domain Authn Observation

def shown (err : CallError) : (Nat × String) × Connect.ConnectError :=
  (Rest.classify err, Connect.connectError err)

/-- Two contents, each with its result stores, agree on the records of a subject and on
the storage of their results. -/
structure AgreeOn {Reader : Type} (subject : String) (first second : Content)
    (firstStorage secondStorage : Storage Reader) : Prop where
  records : ∀ id record, record.subject = subject →
    (first id = some record ↔ second id = some record)
  results : ∀ id record ref, first id = some record → record.subject = subject →
    record.result = some ref →
    (firstStorage ref.backend).map (· ref) = (secondStorage ref.backend).map (· ref)

theorem authorizeSubject_subject {identity : Identity} (plain : identity.isAdmin = false)
    {subject : String} (allowed : authorizeSubject (some identity) subject = true) :
    subject = identity.subject := by
  simp only [authorizeSubject, plain, Bool.false_or, Bool.and_eq_true,
    decide_eq_true_eq] at allowed
  exact allowed.2

theorem authorized_cases (node : Node) (content : Content) (identity : Identity)
    (queryID : String) :
    (∃ record, content queryID = some record ∧
        authorizeSubject (some identity) record.subject = true ∧
        authorized node content (some identity) queryID = .ok record) ∨
      ((∀ record, content queryID = some record →
          authorizeSubject (some identity) record.subject = false) ∧
        ∃ err, authorized node content (some identity) queryID = .error err ∧
          shown err = shown .errNotFound) := by
  have called : authorized node content (some identity) queryID = (do
      let record ← getQuery content queryID
      if authorizeSubject (some identity) record.subject then .ok record
      else .error (.notFound "query" queryID)) := by
    simp [authorized]
  rw [called]
  cases found : content queryID with
  | none => exact .inr ⟨by simp, .errNotFound, by simp [getQuery, found, bind, Except.bind], rfl⟩
  | some record =>
    cases allowed : authorizeSubject (some identity) record.subject with
    | true =>
      exact .inl ⟨record, rfl, allowed, by
        simp [getQuery, found, bind, Except.bind, allowed]⟩
    | false =>
      refine .inr ⟨?_, .notFound "query" queryID, ?_, rfl⟩
      · rintro other ⟨⟩
        exact allowed
      · simp [getQuery, found, bind, Except.bind, allowed]

section
variable {Reader : Type} {node : Node} {identity : Identity} {first second : Content}
  {firstStorage secondStorage : Storage Reader}

section
variable (plain : identity.isAdmin = false)
  (agree : AgreeOn identity.subject first second firstStorage secondStorage) (queryID : String)
include plain agree queryID

theorem authorized_same : Same shown (authorized node first (some identity) queryID)
        (authorized node second (some identity) queryID) ∧
      ∀ record, authorized node first (some identity) queryID = .ok record →
        first queryID = some record ∧ second queryID = some record ∧
          record.subject = identity.subject := by
  rcases authorized_cases node first identity queryID with
    ⟨record, found, allowed, answer⟩ | ⟨refused, _, answer, seen⟩
  · have own := authorizeSubject_subject plain allowed
    have other := (agree.records queryID record own).mp found
    rcases authorized_cases node second identity queryID with
      ⟨_, found', _, answer'⟩ | ⟨refused, _⟩
    · rw [other] at found'
      cases found'
      rw [answer, answer']
      refine ⟨Same.refl _, ?_⟩
      rintro same ⟨⟩
      exact ⟨found, other, own⟩
    · rw [refused record other] at allowed
      contradiction
  · rcases authorized_cases node second identity queryID with
      ⟨record, found, allowed, _⟩ | ⟨_, _, answer', seen'⟩
    · have own := authorizeSubject_subject plain allowed
      rw [refused record ((agree.records queryID record own).mpr found)] at allowed
      contradiction
    · rw [answer, answer']
      refine ⟨Same.errors (seen.trans seen'.symm), ?_⟩
      rintro record ⟨⟩

theorem getQueryStats_same : Same shown (getQueryStats node first (some identity) queryID)
      (getQueryStats node second (some identity) queryID) :=
  (authorized_same plain agree queryID).1.bind fun _ _ => Same.refl _

theorem stopQuery_same : Same shown (stopQuery node first (some identity) queryID)
      (stopQuery node second (some identity) queryID) := by
  obtain ⟨same, own⟩ := authorized_same plain agree queryID
  refine same.bind fun record answer => ?_
  obtain ⟨found, found', _⟩ := own record answer
  simp only [Node.stopQuery, getQuery, found, found']
  exact Same.refl _

theorem watchQuery_same : Same shown (watchQuery node first (some identity) queryID)
      (watchQuery node second (some identity) queryID) := by
  obtain ⟨same, own⟩ := authorized_same plain agree queryID
  refine same.bind fun record answer => ?_
  obtain ⟨found, found', _⟩ := own record answer
  simp only [Node.watch, getQuery, found, found']
  exact Same.refl _

end

theorem openResult_eq {ref : ResultRef}
    (agree : (firstStorage ref.backend).map (· ref) = (secondStorage ref.backend).map (· ref)) :
    openResult firstStorage ref = openResult secondStorage ref := by
  unfold openResult
  cases first : firstStorage ref.backend with
  | none =>
    cases second : secondStorage ref.backend with
    | none => rfl
    | some => simp [first, second] at agree
  | some =>
    cases second : secondStorage ref.backend with
    | none => simp [first, second] at agree
    | some =>
      simp only [first, second, Option.map_some, Option.some.injEq] at agree
      simp only [agree]

theorem downloadResult_same (plain : identity.isAdmin = false)
    (agree : AgreeOn identity.subject first second firstStorage secondStorage)
    (queryID : String) (offset limit : Int) :
    Same shown (downloadResult node first firstStorage (some identity) queryID offset limit)
      (downloadResult node second secondStorage (some identity) queryID offset limit) := by
  obtain ⟨same, own⟩ := authorized_same plain agree queryID
  refine same.bind fun record answer => ?_
  obtain ⟨found, _, subject⟩ := own record answer
  split
  · exact Same.refl _
  · cases result : record.result with
    | none => exact Same.refl _
    | some ref =>
      have opened := openResult_eq (agree.results queryID record ref found subject result)
      simp only [opened]
      exact Same.refl _

end

end DbBridge.Service

namespace DbBridge.Transport

open Domain State Authn Service Observation

section
variable {Reader : Type} {node : Node} {identity : Identity} {first second : Content}
  {firstStorage secondStorage : Storage Reader}

theorem writeError_shows (err err' : CallError) (same : shown err = shown err') :
    (Rest.writeError err : Rest.Response Reader) = Rest.writeError err' := by
  have classified : Rest.classify err = Rest.classify err' := congrArg Prod.fst same
  simp only [Rest.writeError, classified]

theorem connectError_shows {α : Type} (err err' : CallError) (same : shown err = shown err') :
    ((Except.error ∘ Connect.connectError) err : Except Connect.ConnectError α) =
      (Except.error ∘ Connect.connectError) err' :=
  congrArg Except.error (congrArg Prod.snd same)

section
variable (plain : identity.isAdmin = false)
  (agree : AgreeOn identity.subject first second firstStorage secondStorage)
include plain agree

theorem rest_serve_eq (request : Rest.Request) :
    Rest.serve node first firstStorage (some identity) request =
      Rest.serve node second secondStorage (some identity) request := by
  cases request with
  | status id =>
    simp only [Rest.serve, Rest.handleGetQueryStatus, getQueryStatus]
    rw [(authorized_same plain agree id).1.answer writeError_shows]
  | stats id =>
    simp only [Rest.serve, Rest.handleGetQueryStats]
    rw [(getQueryStats_same plain agree id).answer writeError_shows]
  | stop id =>
    simp only [Rest.serve, Rest.handleStopQuery]
    rw [(stopQuery_same plain agree id).answer writeError_shows]
  | result id _ offset limit =>
    have sends : ∀ range offset limit,
        answer Rest.writeError (Rest.sendResult range)
            (downloadResult node first firstStorage (some identity) id offset limit) =
          answer Rest.writeError (Rest.sendResult range)
            (downloadResult node second secondStorage (some identity) id offset limit) :=
      fun range offset limit =>
        (downloadResult_same plain agree id offset limit).answer writeError_shows
    simp only [Rest.serve, Rest.handleDownloadResult, sends]

theorem connect_serve_eq (request : Connect.Request) :
    Connect.serve node first firstStorage (some identity) request =
      Connect.serve node second secondStorage (some identity) request := by
  cases request with
  | status id => exact (authorized_same plain agree id).1.answer connectError_shows
  | stop id => exact (stopQuery_same plain agree id).answer connectError_shows
  | stats id => exact (getQueryStats_same plain agree id).answer connectError_shows
  | download id offset limit =>
    exact (downloadResult_same plain agree id offset limit).answer connectError_shows
  | watch id => exact (watchQuery_same plain agree id).answer connectError_shows

end

end

/-- A caller without the admin scope gets the same answers from any two contents that
agree on its own records and their results: from each REST handler, from each RPC, and
from a subscription, whichever transport maps its error. -/
theorem reads_do_not_interfere {Reader : Type} (node : Node) {identity : Identity}
    (plain : identity.isAdmin = false) {first second : Content}
    {firstStorage secondStorage : Storage Reader}
    (agree : AgreeOn identity.subject first second firstStorage secondStorage) :
    (∀ request, Rest.serve node first firstStorage (some identity) request =
        Rest.serve node second secondStorage (some identity) request) ∧
      (∀ request, Connect.serve node first firstStorage (some identity) request =
        Connect.serve node second secondStorage (some identity) request) ∧
      ∀ queryID, Same shown (watchQuery node first (some identity) queryID)
        (watchQuery node second (some identity) queryID) :=
  ⟨rest_serve_eq plain agree, connect_serve_eq plain agree, watchQuery_same plain agree⟩

def alice : Identity := { subject := "alice", scopes := [.write] }

def bobsQuery : QueryRecord where
  __ := QueryRecord.sample .succeeded
  result := some { backend := "fs", locator := "q.jsonl", format := "jsonl" }
  subject := "bob"

def bobsContent : Content := (MetaStore.empty.store bobsQuery).getQuery

def oneStore : Storage String := fun _ => some fun ref => .ok ref.locator

/-- Every request of `alice` is answered as if the query did not exist; the download of
its result is not found. -/
theorem foreign_query_looks_missing :
    (∀ request, Rest.serve { instanceID := "a" } bobsContent oneStore (some alice) request =
        Rest.serve { instanceID := "a" } (Function.update bobsContent "q" none) oneStore
          (some alice) request) ∧
      Rest.serve { instanceID := "a" } bobsContent oneStore (some alice)
        (.result "q" "" "" "") = Rest.writeStatus 404 "not found" := by
  have found : bobsContent "q" = some bobsQuery := by decide
  -- a query of somebody else agrees with no query at all
  have agree : AgreeOn alice.subject bobsContent (Function.update bobsContent "q" none)
      oneStore oneStore := by
    refine ⟨fun id own subject => ?_, fun _ _ _ _ _ _ => rfl⟩
    by_cases same : id = "q"
    · subst same
      have foreign : bobsQuery.subject ≠ alice.subject := by decide
      have different : bobsQuery ≠ own := fun equal => foreign (equal ▸ subject)
      simp [found, different]
    · rw [Function.update_of_ne same]
  exact ⟨(reads_do_not_interfere { instanceID := "a" } (by decide) agree).1, rfl⟩

end DbBridge.Transport
