import DbBridge.Lib.Runs
import DbBridge.Redis.Effects
import DbBridge.State.Records

/-!
# The two MetaStores agree

The memory MetaStore scans its map of records; the Redis one keeps a key for each record
and each lease and a set for each instance. `Mirrors` ties every key and set to the
maps. It holds as long as no instance is called like the set of another, every call
keeps it, and under it every call returns the same on both.
-/

namespace DbBridge.State

open Domain Keyspace Redis

/-! ## Calls to the memory MetaStore -/

def Redis.Call.onMemory (now : Time) (m : MetaStore) : Call → Outcome × MetaStore
  | .putQuery record => (.ok, m.putQuery record)
  | .getQuery id =>
    match m.getQuery id with
    | none => (.notFound, m)
    | some record => (.ofRecord record, m)
  | .updateQuery record =>
    match m.updateQuery .memory record with
    | none => (.notFound, m)
    | some after => (.ok, after)
  | .updateQueryIfState record expected =>
    match m.updateQueryIfState record expected with
    | none => (.notFound, m)
    | some (written, after) => (.flag written, after)
  | .deleteQuery id => (.ok, m.deleteQuery id)
  | .acquireIdempotency dbID key queryID ttl =>
    let ((existing, acquired), after) := m.acquireIdempotency now dbID key queryID ttl
    (.claim existing acquired, after)
  | .releaseIdempotency dbID key queryID => (.ok, m.releaseIdempotency dbID key queryID)
  | .refreshIdempotency dbID key queryID ttl =>
    (.ok, m.refreshIdempotency now dbID key queryID ttl)
  | .heartbeat _ ownedQueryIDs ttl => (.ok, m.heartbeat now ownedQueryIDs ttl)
  | .tryLock name ttl =>
    let (locked, after) := m.tryLock now name ttl
    (.flag locked, after)
  | .countInFlight instanceID => (.count (m.countInFlight instanceID), m)
  | .listByInstance instanceID => (.ids (m.listByInstance instanceID).toFinset, m)
  | .listExpiredQueries => (.ids (m.listExpiredQueries now).toFinset, m)
  | .listStaleQueries => (.ids (m.listStaleQueries now).toFinset, m)

/-! ## The simulation relation -/

/-- A string key stands for an instant in a table: both are in force, or neither. -/
def Timed (server : Server Data) (now : Time) (key : String) (instant : Option Time) : Prop :=
  (∃ value expiry, server.find now key = some (.text value (some expiry)) ∧
      instant = some expiry ∧ now < expiry) ∨
    (server.find now key = none ∧ ∀ expiry, instant = some expiry → expiry ≤ now)

variable {server : Server Data} {instant : Option Time} {key : String} {now : Time}

theorem Timed.of_le {later : Time} (timed : Timed server now key instant) (le : now ≤ later) :
    Timed server later key instant := by
  unfold Timed
  rw [server.find_of_le le]
  rcases timed with ⟨value, expiry, found, same, _⟩ | ⟨absent, past⟩
  · by_cases alive : later < expiry
    · exact .inl ⟨value, expiry, by simp [found, Option.filter, Entry.alive, alive], same, alive⟩
    · refine .inr ⟨by simp [found, Option.filter, Entry.alive, alive], ?_⟩
      rintro instant rfl
      cases same
      exact not_lt.mp alive
  · refine .inr ⟨by simp [absent], ?_⟩
    intro expiry same
    exact le_trans (past expiry same) le

theorem Timed.isSome (timed : Timed server now key instant) :
    (server.find now key).isSome = true ↔ ∃ expiry, instant = some expiry ∧ now < expiry := by
  rcases timed with ⟨_, expiry, found, same, alive⟩ | ⟨absent, past⟩
  · simp [found, same, alive]
  · simp only [absent, Option.isSome_none, Bool.false_eq_true, false_iff, not_exists, not_and]
    exact fun expiry same => not_lt.mpr (past expiry same)

def Filed (server : Server Data) (now : Time) (id : String) : Option QueryRecord → Prop
  | none => server.find now (queryKey id) = none
  | some record => ∃ expiry, server.find now (queryKey id) = some (.text (.record record) expiry)

variable {stored : Option QueryRecord} {id : String}

theorem Filed.get (filed : Filed server now id stored) :
    Read.run now server (.get (queryKey id)) = .ok (stored.map Data.record) := by
  cases stored with
  | none => simp only [Read.run, show server.find now (queryKey id) = none from filed]; rfl
  | some =>
    obtain ⟨_, found⟩ := filed
    simp only [Read.run, found]
    rfl

variable {after : Server Data}

theorem Timed.congr (timed : Timed server now key instant)
    (same : after.find now key = server.find now key) : Timed after now key instant := by
  unfold Timed at timed ⊢
  rwa [same]

theorem Filed.congr (filed : Filed server now id stored)
    (same : after.find now (queryKey id) = server.find now (queryKey id)) :
    Filed after now id stored := by
  unfold Filed at filed ⊢
  rwa [same]

structure Mirrors (owner : String → String) (instances : Set String) (now : Time)
    (m : MetaStore) (server : Server Data) : Prop where
  record : ∀ id, Filed server now id (m.queries.lookup id)
  lease : ∀ id, Timed server now (leaseKey id) (m.leases.lookup id)
  lock : ∀ name, Timed server now (lockKey name) (m.locks.lookup name)
  index : ∀ i ∈ instances, ∀ id, id ∈ server.members now (instanceQueriesKey i) ↔
    ∃ record, m.queries.lookup id = some record ∧ record.ownerInstanceID = i ∧
      record.state.isTerminal = false
  set : ∀ i ∈ instances, server.isText now (instanceQueriesKey i) = false
  seen : server.isText now databasesSeenKey = false
  plain : ∀ id record, m.queries.lookup id = some record → record.leaseDeadline = 0
  owned : ∀ id record, m.queries.lookup id = some record →
    record.ownerInstanceID = owner id ∧ owner id ∈ instances

variable {ttl : Duration} {instanceID : String}

namespace Mirrors

variable {owner : String → String} {instances : Set String} {later : Time} {m : MetaStore}

theorem empty (owner : String → String) (instances : Set String) (now : Time) :
    Mirrors owner instances now .empty {} where
  record := fun id => rfl
  lease := fun id => .inr ⟨rfl, by simp [MetaStore.empty]⟩
  lock := fun name => .inr ⟨rfl, by simp [MetaStore.empty]⟩
  index := fun i _ id => by simp [MetaStore.empty, Server.members, Server.find]
  set := fun i _ => rfl
  seen := rfl
  plain := by simp [MetaStore.empty]
  owned := by simp [MetaStore.empty]

theorem of_le (mirrors : Mirrors owner instances now m server) (le : now ≤ later)
    (kept : ∀ id entry, server.find now (queryKey id) = some entry →
      entry.alive later = true) : Mirrors owner instances later m server where
  record := by
    intro id
    have filed := mirrors.record id
    cases stored : m.queries.lookup id with
    | none =>
      simp only [Filed, stored] at filed ⊢
      simp [server.find_of_le le, filed]
    | some =>
      simp only [Filed, stored] at filed ⊢
      obtain ⟨expiry, found⟩ := filed
      exact ⟨expiry, by simp [server.find_of_le le, found, Option.filter, kept id _ found]⟩
  lease := fun id => (mirrors.lease id).of_le le
  lock := fun name => (mirrors.lock name).of_le le
  index := by
    intro i member id
    rw [server.members_of_le le]
    exact mirrors.index i member id
  set := fun i member => server.isText_of_le le (mirrors.set i member)
  seen := server.isText_of_le le mirrors.seen
  plain := mirrors.plain
  owned := mirrors.owned

/-! ## Writes -/

section
variable (mirrors : Mirrors owner instances now m server)
include mirrors

theorem write {record : QueryRecord} (own : record.ownerInstanceID = owner record.id)
    (used : record.ownerInstanceID ∈ instances) :
    (runAll now server (writeQuery record)).1 = false ∧
      Mirrors owner instances now (m.store record)
        (runAll now server (writeQuery record)).2 := by
  have set := mirrors.set _ used
  refine ⟨writeQuery_succeeds record now server mirrors.seen set, ?_⟩
  constructor
  case record =>
    intro id
    have found := writeQuery_find_query record now server id
    by_cases same : id = record.id
    · subst same
      rw [if_pos rfl] at found
      simp only [Filed, m.store_lookup_self]
      exact ⟨_, found⟩
    · rw [if_neg same] at found
      rw [m.store_lookup_of_ne record same]
      exact (mirrors.record id).congr found
  case lease =>
    intro id
    have found := writeQuery_find_lease record now server id
    by_cases ended : record.state.isTerminal = true ∧ id = record.id
    · rw [if_pos ended] at found
      obtain ⟨terminal, rfl⟩ := ended
      exact .inr ⟨found, by simp [MetaStore.store, terminal]⟩
    · rw [if_neg ended] at found
      have kept : (m.store record).leases.lookup id = m.leases.lookup id :=
        m.store_leases_lookup record fun same => by simpa [same] using ended
      rw [kept]
      exact (mirrors.lease id).congr found
  case lock =>
    intro name
    exact (mirrors.lock name).congr (writeQuery_find_of_ne record now server (ne_of_kind (by simp))
      (ne_of_kind (by simp)) (ne_of_kind (by simp)) (fun _ => ne_of_kind (by simp)) now)
  case index =>
    intro i member id
    rw [writeQuery_members record now server i set]
    have before := mirrors.index i member id
    by_cases same : id = record.id
    · subst same
      simp only [m.store_lookup_self, Option.some.injEq, exists_eq_left']
      by_cases mine : i = record.ownerInstanceID
      · subst mine
        cases record.state.isTerminal <;> simp
      · -- A record of this ID was the owner's before, too.
        rw [if_neg mine, before]
        constructor
        · rintro ⟨stored, lookup, owned, _⟩
          rw [(mirrors.owned _ stored lookup).1, ← own] at owned
          exact absurd owned.symm mine
        · rintro ⟨owned, _⟩
          exact absurd owned.symm mine
    · rw [m.store_lookup_of_ne record same, ← before]
      (repeat' split) <;> simp [same]
  case set =>
    intro i member
    rw [writeQuery_isText_index]
    exact mirrors.set i member
  case seen => exact writeQuery_isText_seen record now server mirrors.seen
  case plain =>
    intro id stored lookup
    rcases MetaStore.store_cases lookup with ⟨rfl, rfl⟩ | ⟨_, lookup⟩
    · rfl
    · exact mirrors.plain id stored lookup
  case owned =>
    intro id stored lookup
    rcases MetaStore.store_cases lookup with ⟨rfl, rfl⟩ | ⟨_, lookup⟩
    · exact ⟨own, own ▸ used⟩
    · exact mirrors.owned id stored lookup

/-- The commands of a deletion do what `deleteQuery` does, whatever `GetQuery` made of the
lease. -/
theorem delete {read : Except StoreError QueryRecord}
    (found : ∀ record, read = .ok record → ∃ stored, m.queries.lookup id = some stored ∧
      record.ownerInstanceID = stored.ownerInstanceID)
    (missing : ∀ err, read = .error err → m.queries.lookup id = none) :
    (runAll now server (deletion id read)).1 = false ∧
      Mirrors owner instances now (m.deleteQuery id)
        (runAll now server (deletion id read)).2 := by
  have owns : ∀ record, read = .ok record →
      record.ownerInstanceID = owner id ∧ owner id ∈ instances := by
    intro record ok
    obtain ⟨stored, lookup, same⟩ := found record ok
    exact ⟨same.trans (mirrors.owned id stored lookup).1, (mirrors.owned id stored lookup).2⟩
  have other : ∀ {key : String}, kind key ≠ ['q', 'u'] → kind key ≠ ['l', 'e'] →
      kind key ≠ ['i', 'n'] → ∀ later,
      (runAll now server (deletion id read)).2.find later key = server.find later key := by
    intro key query lease index later
    exact deletion_find_of_ne id read now server (ne_of_kind (by simpa using query))
      (ne_of_kind (by simpa using lease)) (fun _ _ => ne_of_kind (by simpa using index)) later
  refine ⟨deletion_succeeds id read now server fun record ok => ?_, ?_⟩
  · rw [(owns record ok).1]
    exact mirrors.set _ (owns record ok).2
  constructor
  case record =>
    intro other
    have after := deletion_find_query id read now server other
    by_cases same : other = id
    · subst same
      rw [if_pos rfl] at after
      simpa [Filed, MetaStore.deleteQuery] using after
    · rw [if_neg same] at after
      simp only [MetaStore.deleteQuery, AList.lookup_erase_ne same]
      exact (mirrors.record other).congr after
  case lease =>
    intro other
    have after := deletion_find_lease id read now server other
    by_cases same : other = id
    · subst same
      rw [if_pos rfl] at after
      exact .inr ⟨after, by simp [MetaStore.deleteQuery]⟩
    · rw [if_neg same] at after
      rw [m.deleteQuery_leases_of_ne same]
      exact (mirrors.lease other).congr after
  case lock => exact fun name => (mirrors.lock name).congr (other (by simp) (by simp) (by simp) now)
  case index =>
    intro i member queryID
    have before := mirrors.index i member queryID
    have rest : (∃ stored, (m.deleteQuery id).queries.lookup queryID = some stored ∧
        stored.ownerInstanceID = i ∧ stored.state.isTerminal = false) ↔
        queryID ≠ id ∧ queryID ∈ server.members now (instanceQueriesKey i) := by
      rw [before]
      by_cases same : queryID = id
      · subst same
        simp [MetaStore.deleteQuery]
      · simp [MetaStore.deleteQuery, AList.lookup_erase_ne same, same]
    rw [rest]
    rcases deletion_find_index id read now server i with ⟨record, _, _, after⟩ | ⟨foreign, after⟩
    · rw [Server.members_congr _ after, Write.sRem_members, Finset.mem_erase]
    · -- The query is in no set but that of its owner, which `GetQuery` has named.
      rw [Server.members_congr _ after]
      refine ⟨fun listed => ⟨?_, listed⟩, fun both => both.2⟩
      rintro rfl
      obtain ⟨stored, lookup, mine, _⟩ := before.mp listed
      cases answer : read with
      | error err =>
        rw [missing err answer] at lookup
        contradiction
      | ok record =>
        obtain ⟨_, lookup', same⟩ := found record answer
        rw [lookup] at lookup'
        cases lookup'
        exact foreign record answer (same.trans mine)
  case set =>
    intro i member
    rw [deletion_isText_index]
    exact mirrors.set i member
  case seen =>
    rw [Server.isText_congr _ (other (by simp) (by simp) (by simp) now)]
    exact mirrors.seen
  case plain =>
    intro queryID stored lookup
    exact mirrors.plain queryID stored (Tables.lookup_of_erase lookup)
  case owned =>
    intro queryID stored lookup
    exact mirrors.owned queryID stored (Tables.lookup_of_erase lookup)

/-- Commands that leave the records and the sets alone. -/
theorem keeps {after : MetaStore} {next : Server Data} (queries : after.queries = m.queries)
    (record : ∀ id, next.find now (queryKey id) = server.find now (queryKey id))
    (index : ∀ i ∈ instances,
      next.find now (instanceQueriesKey i) = server.find now (instanceQueriesKey i))
    (seen : next.find now databasesSeenKey = server.find now databasesSeenKey)
    (lease : ∀ id, Timed next now (leaseKey id) (after.leases.lookup id))
    (lock : ∀ name, Timed next now (lockKey name) (after.locks.lookup name)) :
    Mirrors owner instances now after next := by
  constructor <;> (try rw [queries])
  case record => exact fun id => (mirrors.record id).congr (record id)
  case lease => exact lease
  case lock => exact lock
  case index =>
    intro i member id
    rw [Server.members_congr _ (index i member)]
    exact mirrors.index i member id
  case set =>
    intro i member
    rw [Server.isText_congr _ (index i member)]
    exact mirrors.set i member
  case seen =>
    rw [Server.isText_congr _ seen]
    exact mirrors.seen
  case plain => exact mirrors.plain
  case owned => exact mirrors.owned

theorem heartbeat {ids : List String} (positive : 0 < ttl) (whole : ttl % millisecond = 0)
    (apart : ∀ i ∈ instances, instanceID ≠ i ++ ":queries") :
    Mirrors owner instances now (m.heartbeat now ids ttl)
      (runAll now server (heartbeatWrites instanceID ids ttl)).2 := by
  have cut : wholeMilliseconds ttl = ttl := wholeMilliseconds_eq positive whole
  have expire : setExpire ttl = .after ttl := by
    simp [setExpire, positive, cut]
  have other : ∀ {key : String}, key ≠ instanceKey instanceID → kind key ≠ ['l', 'e'] →
      ∀ later, (runAll now server (heartbeatWrites instanceID ids ttl)).2.find later key =
        server.find later key := by
    intro key name lease later
    exact heartbeatWrites_find_of_ne instanceID now server name
      (fun id _ => ne_of_kind (by simpa using lease)) later
  refine mirrors.keeps rfl (fun id => other (ne_of_kind (by simp)) (by simp) now)
    (fun i member => other (fun same => ?_) (by simp) now)
    (other (ne_of_kind (by simp)) (by simp) now) (fun id => ?_)
    fun name => (mirrors.lock name).congr (other (ne_of_kind (by simp)) (by simp) now)
  · exact apart i member ((instanceKey_eq_iff instanceID i).mp same.symm)
  · rw [m.heartbeat_lookup]
    by_cases listed : id ∈ ids
    · rw [if_pos listed]
      have found := leases_find instanceID now (by rw [cut]; exact positive) ids
        ((Write.set (instanceKey instanceID) (Data.text "alive") (.after ttl)).run now server).2
        id listed
      rw [cut] at found
      refine .inl ⟨.text instanceID, now + ttl, ?_, rfl, ?_⟩
      · simpa [heartbeatWrites, expire, runAll] using found
      · exact Int.lt_add_of_pos_right now positive
    · rw [if_neg listed]
      refine (mirrors.lease id).congr (heartbeatWrites_find_of_ne instanceID now server
        (ne_of_kind (by simp)) (fun other member same => ?_) now)
      rw [leaseKey_inj] at same
      exact listed (same ▸ member)

theorem insert_lock {name : String} (positive : 0 < ttl) :
    Mirrors owner instances now { m with locks := m.locks.insert name (now + ttl) }
      (server.put (lockKey name) (.text (.text "held") (some (now + ttl)))) := by
  have other : ∀ {key : String}, key ≠ lockKey name → ∀ later,
      (server.put (lockKey name) (.text (.text "held") (some (now + ttl)))).find later key =
        server.find later key :=
    fun different later => server.find_put_of_ne different later _
  refine mirrors.keeps rfl (fun id => other (ne_of_kind (by simp)) now)
    (fun i _ => other (ne_of_kind (by simp)) now) (other (ne_of_kind (by simp)) now)
    (fun id => (mirrors.lease id).congr (other (ne_of_kind (by simp)) now)) fun some => ?_
  by_cases same : some = name
  · subst same
    have alive : now < now + ttl := Int.lt_add_of_pos_right now positive
    refine .inl ⟨.text "held", now + ttl, ?_, AList.lookup_insert _, alive⟩
    simp [Server.find_put_self, Entry.alive, alive]
  · rw [AList.lookup_insert_ne same]
    exact (mirrors.lock some).congr (other (by simpa using same) now)

end

end Mirrors

/-! ## Listings -/

variable {keep : QueryRecord → Bool}

theorem scanQueries_run {ρ : Type} {visit : QueryRecord → (Bool → Client ρ) → Client ρ}
    (looks : ∀ record next, (visit record next).run now server =
      (next (keep record)).run now server)
    (next : List String → Client ρ) (keys kept : List String) :
    ∃ listed, (scanQueries visit next keys kept).run now server = (next listed).run now server ∧
      ∀ id, id ∈ listed ↔ id ∈ kept ∨ ∃ key ∈ keys, ∃ record,
        Read.run now server (.get key) = .ok (some (.record record)) ∧ keep record = true ∧
          record.id = id := by
  induction keys generalizing kept with
  | nil => exact ⟨kept, rfl, by simp⟩
  | cons key rest ih =>
    by_cases readable : ∃ record,
        Read.run now server (.get key) = .ok (some (Data.record record))
    · obtain ⟨record, answer⟩ := readable
      obtain ⟨listed, ran, members⟩ := ih (if keep record then record.id :: kept else kept)
      refine ⟨listed, ?_, fun id => ?_⟩
      · rw [← ran]
        simp only [scanQueries, Program.read, Program.run, Request.run, answer]
        exact looks record _
      · rw [members id, List.exists_mem_cons_iff]
        simp only [answer, Except.ok.injEq, Option.some.injEq, Data.record.injEq,
          exists_eq_left']
        cases keep record with
        | false => simp
        | true =>
          simp only [if_true, List.mem_cons, true_and]
          rw [@eq_comm _ id record.id]
          tauto
    · obtain ⟨listed, ran, members⟩ := ih kept
      refine ⟨listed, ?_, fun id => ?_⟩
      · rw [← ran]
        simp only [scanQueries, Program.read, Program.run, Request.run]
        split
        · rename_i record answer
          exact absurd ⟨record, answer⟩ readable
        · rfl
      · rw [members id, List.exists_mem_cons_iff]
        have none : ¬ ∃ record, Read.run now server (.get key) =
            .ok (some (Data.record record)) ∧ keep record = true ∧ record.id = id := by
          rintro ⟨record, answer, -⟩
          exact readable ⟨record, answer⟩
        simp [none]

theorem queryKey_of_scan (matched : "dbbridge:query:".toList.isPrefixOf key.toList = true) :
    ∃ id, key = queryKey id := by
  obtain ⟨rest, same⟩ := List.isPrefixOf_iff_prefix.mp matched
  refine ⟨String.ofList rest, ?_⟩
  rw [← String.toList_inj, ← same]
  unfold queryKey
  simp

variable {i : String}

namespace Mirrors

variable {owner : String → String} {instances : Set String} {m : MetaStore}

section
variable (mirrors : Mirrors owner instances now m server)
include mirrors

theorem scanned_ids {visit : QueryRecord → (Bool → Client (List String)) → Client (List String)}
    (looks : ∀ record next, (visit record next).run now server =
      (next (keep record)).run now server) :
    ((scanned visit .done).run now server).1.toFinset =
        ((m.records.filter keep).map QueryRecord.id).toFinset ∧
      ((scanned visit .done).run now server).2 = server := by
  obtain ⟨listed, ran, members⟩ := scanQueries_run looks .done
    (Read.run now server (.scan "dbbridge:query:")) []
  have runs : (scanned visit .done).run now server = (listed, server) := by
    simp only [scanned, Program.read, Program.run, Request.run]
    rw [ran]
    rfl
  rw [runs]
  refine ⟨?_, rfl⟩
  ext id
  simp only [List.mem_toFinset, m.mem_listing_iff, members id, List.not_mem_nil, false_or]
  constructor
  · rintro ⟨_, scanned, record, answer, kept, rfl⟩
    simp only [Read.run, List.mem_filter, Bool.and_eq_true] at scanned
    obtain ⟨id, rfl⟩ := queryKey_of_scan scanned.2.1
    rw [(mirrors.record id).get] at answer
    simp only [Except.ok.injEq, Option.map_eq_some_iff] at answer
    obtain ⟨_, lookup, same⟩ := answer
    cases same
    rw [m.keyed id record lookup]
    exact ⟨record, lookup, kept⟩
  · rintro ⟨record, lookup, kept⟩
    have filed := mirrors.record id
    have answer := filed.get
    rw [lookup] at filed answer
    obtain ⟨_, found⟩ := filed
    refine ⟨queryKey id, ?_, record, answer, kept, m.keyed id record lookup⟩
    have listed : queryKey id ∈ server.entries.keys := by
      simp only [Server.find, Option.filter_eq_some_iff] at found
      exact AList.mem_keys.mpr (AList.lookup_isSome.mp (by simp [found.1]))
    have matched : "dbbridge:query:".toList.isPrefixOf (queryKey id).toList = true := by
      unfold queryKey
      simp
    simp only [Read.run, List.mem_filter, listed, matched, found, Option.isSome_some,
      Bool.and_self, and_self]

/-- A lease is in force on both, except at the instant at which it ends. -/
theorem isStale_eq (record : QueryRecord)
    (apart : ∀ expiry, m.leases.lookup record.id = some expiry → now ≠ expiry) :
    m.isStale now record = ((record.state = .pending || record.state = .running) &&
      !(server.find now (leaseKey record.id)).isSome) := by
  unfold MetaStore.isStale
  congr 1
  rcases mirrors.lease record.id with ⟨_, expiry, found, held, alive⟩ | ⟨absent, past⟩
  · simp only [found, held, Option.isSome_some, Bool.not_true, decide_eq_false_iff_not, not_lt]
    exact le_of_lt alive
  · cases held : m.leases.lookup record.id with
    | none => simp [absent]
    | some expiry =>
      have before := lt_of_le_of_ne (past expiry held) (apart expiry held).symm
      simp [absent, before]

theorem listByInstance_eq (used : i ∈ instances) :
    server.members now (instanceQueriesKey i) = (m.listByInstance i).toFinset := by
  ext id
  rw [mirrors.index i used, List.mem_toFinset, MetaStore.listByInstance, m.mem_listing_iff]
  simp

end

theorem countInFlight_eq (m : MetaStore) (i : String) :
    (m.listByInstance i).toFinset.card = m.countInFlight i := by
  unfold MetaStore.listByInstance MetaStore.countInFlight
  rw [List.toFinset_card_of_nodup (m.nodup_listing _), List.length_map]
  congr 2
  funext record
  unfold MetaStore.inFlight
  cases record.state <;> simp [QueryState.isTerminal]

end Mirrors

/-! ## Every call -/

/-- What is assumed of a call: an ID keeps its owner, `UpdateQuery` names a stored query,
leases and locks last a positive number of whole milliseconds. The calls on idempotency
keys are not considered. -/
def Redis.Call.Admissible (owner : String → String) (m : MetaStore) : Call → Prop
  | .putQuery record | .updateQueryIfState record _ => record.ownerInstanceID = owner record.id
  | .updateQuery record =>
    record.ownerInstanceID = owner record.id ∧ m.has record.id = true
  | .heartbeat _ _ ttl | .tryLock _ ttl => 0 < ttl ∧ ttl % millisecond = 0
  | .acquireIdempotency _ _ _ _ | .releaseIdempotency _ _ _
  | .refreshIdempotency _ _ _ _ => False
  | .getQuery _ | .deleteQuery _ | .countInFlight _ | .listByInstance _ | .listExpiredQueries
  | .listStaleQueries => True

def Redis.Call.instances : Call → List String
  | .putQuery record | .updateQuery record | .updateQueryIfState record _ =>
    [record.ownerInstanceID]
  | .heartbeat instanceID _ _ | .countInFlight instanceID | .listByInstance instanceID =>
    [instanceID]
  | _ => []

variable {call : Call}

namespace Mirrors

variable {owner : String → String} {instances : Set String} {m : MetaStore}

theorem getQuery_run (mirrors : Mirrors owner instances now m server) (id : String) :
    ((Redis.getQuery now id).run now server).2 = server ∧
      match m.queries.lookup id with
      | none => ((Redis.getQuery now id).run now server).1 = .error .notFound
      | some record => ∃ deadline, ((Redis.getQuery now id).run now server).1 =
          .ok { record with leaseDeadline := deadline } := by
  refine ⟨rfl, ?_⟩
  have answer := (mirrors.record id).get
  cases lookup : m.queries.lookup id with
  | none =>
    rw [lookup] at answer
    simp only [Redis.getQuery, Program.read, Program.run, Request.run, answer, readQuery]
    rfl
  | some record =>
    rw [lookup] at answer
    simp only [Redis.getQuery, Program.read, Program.run, Request.run, answer, Option.map_some,
      readQuery]
    unfold withLease
    split
    · split
      · exact ⟨_, rfl⟩
      · exact ⟨record.leaseDeadline, rfl⟩
    · exact ⟨record.leaseDeadline, rfl⟩

def Answers (owner : String → String) (instances : Set String) (now : Time) (m : MetaStore)
    (server : Server Data) (call : Call) : Prop :=
  ((call.program now).run now server).1 = (call.onMemory now m).1 ∧
    Mirrors owner instances now (call.onMemory now m).2 ((call.program now).run now server).2

variable {record : QueryRecord}

section
variable (mirrors : Mirrors owner instances now m server)
include mirrors

section
variable (own : record.ownerInstanceID = owner record.id)
  (used : record.ownerInstanceID ∈ instances)
include own used

theorem putQuery_run : ((Redis.putQuery record).run now server).1 = .ok () ∧
      Mirrors owner instances now (m.store record)
        ((Redis.putQuery record).run now server).2 := by
  obtain ⟨succeeds, after⟩ := mirrors.write own used
  simp only [Redis.putQuery, piped_run, succeeds]
  exact ⟨rfl, after⟩

theorem putQuery_answers : Answers owner instances now m server (.putQuery record) := by
  obtain ⟨ok, after⟩ := mirrors.putQuery_run own used
  simp only [Answers, Call.program, Call.onMemory, Program.map_run, ok]
  exact ⟨rfl, after⟩

theorem updateQuery_answers (present : m.has record.id = true) :
    Answers owner instances now m server (.updateQuery record) := by
  obtain ⟨ok, after⟩ := mirrors.putQuery_run own used
  obtain ⟨_, lookup⟩ := Option.isSome_iff_exists.mp present
  simp only [Answers, Call.program, Call.onMemory, Program.map_run, Redis.updateQuery, ok,
    MetaStore.updateQuery, lookup]
  exact ⟨rfl, after⟩

end

theorem getQuery_answers (id : String) : Answers owner instances now m server (.getQuery id) := by
  obtain ⟨kept, answer⟩ := mirrors.getQuery_run id
  simp only [Answers, Call.program, Call.onMemory, Program.map_run, kept]
  cases lookup : m.queries.lookup id with
  | none =>
    simp only [lookup] at answer
    simp only [answer, MetaStore.getQuery, lookup]
    exact ⟨rfl, mirrors⟩
  | some =>
    simp only [lookup] at answer
    obtain ⟨_, ok⟩ := answer
    simp only [ok, MetaStore.getQuery, lookup]
    cases m.leases.lookup id <;> exact ⟨rfl, mirrors⟩

/-- Nothing comes between `WATCH` and `EXEC` when calls are made one after the other. -/
theorem updateQueryIfState_answers (expected : List QueryState)
    (own : record.ownerInstanceID = owner record.id) (used : record.ownerInstanceID ∈ instances) :
    Answers owner instances now m server (.updateQueryIfState record expected) := by
  obtain ⟨succeeds, after⟩ := mirrors.write own used
  have answer := (mirrors.record record.id).get
  have unchanged : server.unchanged now (queryKey record.id)
      ⟨server.changes (queryKey record.id), (server.find now (queryKey record.id)).isSome⟩ =
        true := by
    cases present : (server.find now (queryKey record.id)).isSome <;>
      simp [Server.unchanged, present]
  simp only [Answers, Call.program, Call.onMemory, Program.map_run, Redis.updateQueryIfState,
    Program.read, Program.run, Request.run, answer, MetaStore.updateQueryIfState,
    commitIfState, commit, committed]
  cases lookup : m.queries.lookup record.id with
  | none => exact ⟨rfl, mirrors⟩
  | some current =>
    by_cases member : current.state ∈ expected
    · simp only [Option.map_some, member, not_true_eq_false, if_false, if_true, Program.run,
        Request.run, unchanged, succeeds]
      exact ⟨rfl, after⟩
    · simp only [Option.map_some, member, not_false_eq_true, if_true, if_false, Program.run]
      exact ⟨rfl, mirrors⟩

theorem deleteQuery_answers (id : String) :
    Answers owner instances now m server (.deleteQuery id) := by
  obtain ⟨kept, answer⟩ := mirrors.getQuery_run id
  have found : ∀ record, ((Redis.getQuery now id).run now server).1 = .ok record →
      ∃ stored, m.queries.lookup id = some stored ∧
        record.ownerInstanceID = stored.ownerInstanceID := by
    intro record ok
    cases lookup : m.queries.lookup id with
    | none =>
      simp only [lookup, ok] at answer
      contradiction
    | some stored =>
      simp only [lookup, ok] at answer
      obtain ⟨deadline, same⟩ := answer
      cases same
      exact ⟨stored, rfl, rfl⟩
  have missing : ∀ err, ((Redis.getQuery now id).run now server).1 = .error err →
      m.queries.lookup id = none := by
    intro err failed
    cases lookup : m.queries.lookup id with
    | none => rfl
    | some =>
      simp only [lookup, failed] at answer
      obtain ⟨deadline, same⟩ := answer
      contradiction
  have deleted := mirrors.delete found missing
  simp only [Answers, Call.program, Call.onMemory, Program.map_run, Redis.deleteQuery,
    Program.bind_run, piped_run, kept, deleted.1]
  exact ⟨rfl, deleted.2⟩

theorem heartbeat_answers (ids : List String) (positive : 0 < ttl) (whole : ttl % millisecond = 0)
    (apart : ∀ i ∈ instances, instanceID ≠ i ++ ":queries") :
    Answers owner instances now m server (.heartbeat instanceID ids ttl) := by
  have succeeds := heartbeatWrites_succeeds instanceID now server ids ttl
  simp only [Answers, Call.program, Call.onMemory, Program.map_run, Redis.heartbeat, piped_run,
    succeeds]
  exact ⟨rfl, mirrors.heartbeat positive whole apart⟩

theorem tryLock_answers (name : String) (positive : 0 < ttl) (whole : ttl % millisecond = 0) :
    Answers owner instances now m server (.tryLock name ttl) := by
  have expire : setNXExpire ttl = some (some ttl) := by
    simp [setNXExpire, positive, wholeMilliseconds_eq positive whole]
  have inserted : Mirrors owner instances now
      { m with locks := m.locks.insert name (now + ttl) }
      (server.put (lockKey name) (.text (.text "held") (some (now + ttl)))) :=
    mirrors.insert_lock positive
  have held := (mirrors.lock name).isSome
  simp only [Answers, Call.program, Call.onMemory, Program.map_run, Redis.tryLock, expire,
    Program.run, Request.run, MetaStore.tryLock]
  by_cases locked : (server.find now (lockKey name)).isSome = true
  · obtain ⟨expiry, lookup, alive⟩ := held.mp locked
    simp only [locked, if_true, lookup, alive]
    exact ⟨rfl, mirrors⟩
  · simp only [locked]
    cases lookup : m.locks.lookup name with
    | none => exact ⟨rfl, inserted⟩
    | some expiry =>
      have past : ¬ now < expiry := fun alive => locked (held.mpr ⟨expiry, lookup, alive⟩)
      simp only [past, if_false]
      exact ⟨rfl, inserted⟩

theorem countInFlight_answers (used : i ∈ instances) :
    Answers owner instances now m server (.countInFlight i) := by
  have set := server.setAt_of_isText (mirrors.set i used)
  simp only [Answers, Call.program, Call.onMemory, Program.map_run, Redis.countInFlight,
    Program.read, Program.run, Request.run, Read.run, set, mirrors.listByInstance_eq used,
    Except.map, countInFlight_eq]
  exact ⟨rfl, mirrors⟩

theorem listByInstance_answers (used : i ∈ instances) :
    Answers owner instances now m server (.listByInstance i) := by
  have set := server.setAt_of_isText (mirrors.set i used)
  simp only [Answers, Call.program, Call.onMemory, Program.map_run, Redis.listByInstance,
    Program.read, Program.run, Request.run, Read.run, set, mirrors.listByInstance_eq used]
  exact ⟨rfl, mirrors⟩

theorem listExpiredQueries_answers : Answers owner instances now m server .listExpiredQueries := by
  have looks : ∀ record (next : Bool → Client (List String)),
      (visitExpired now record next).run now server =
        (next (MetaStore.isExpired now record)).run now server := fun _ _ => rfl
  obtain ⟨ids, kept⟩ := mirrors.scanned_ids looks
  simp only [Answers, Call.program, Call.onMemory, Program.map_run, Redis.listExpiredQueries, ids,
    kept, MetaStore.listExpiredQueries]
  exact ⟨trivial, mirrors⟩

theorem listStaleQueries_answers
    (off : ∀ id expiry, m.leases.lookup id = some expiry → now ≠ expiry) :
    Answers owner instances now m server .listStaleQueries := by
  have looks : ∀ record (next : Bool → Client (List String)),
      (visitStale record next).run now server = (next (m.isStale now record)).run now server := by
    intro record next
    rw [mirrors.isStale_eq record (off record.id)]
    unfold visitStale
    split
    · rename_i active
      have test : (decide (record.state = .pending) || decide (record.state = .running)) =
          true := by simpa using active
      rw [test, Bool.true_and]
      rfl
    · rename_i ended
      have test : (decide (record.state = .pending) || decide (record.state = .running)) =
          false := by simpa using ended
      rw [test, Bool.false_and]
  obtain ⟨ids, kept⟩ := mirrors.scanned_ids looks
  simp only [Answers, Call.program, Call.onMemory, Program.map_run, Redis.listStaleQueries, ids,
    kept, MetaStore.listStaleQueries]
  exact ⟨trivial, mirrors⟩

theorem answers (apart : ∀ i ∈ instances, ∀ j ∈ instances, j ≠ i ++ ":queries")
    (admissible : call.Admissible owner m) (used : ∀ i ∈ call.instances, i ∈ instances)
    (off : ∀ id expiry, m.leases.lookup id = some expiry → now ≠ expiry) :
    Answers owner instances now m server call := by
  have only : ∀ {i : String}, call.instances = [i] → i ∈ instances :=
    fun single => used _ (by simp [single])
  cases call with
  | putQuery => exact mirrors.putQuery_answers admissible (only rfl)
  | getQuery id => exact mirrors.getQuery_answers id
  | updateQuery => exact mirrors.updateQuery_answers admissible.1 (only rfl) admissible.2
  | updateQueryIfState _ expected =>
    exact mirrors.updateQueryIfState_answers expected admissible (only rfl)
  | deleteQuery id => exact mirrors.deleteQuery_answers id
  | acquireIdempotency | releaseIdempotency | refreshIdempotency => exact admissible.elim
  | heartbeat instanceID ids =>
    exact mirrors.heartbeat_answers ids admissible.1 admissible.2
      fun i member => apart i member instanceID (only rfl)
  | tryLock name => exact mirrors.tryLock_answers name admissible.1 admissible.2
  | countInFlight => exact mirrors.countInFlight_answers (only rfl)
  | listByInstance => exact mirrors.listByInstance_answers (only rfl)
  | listExpiredQueries => exact mirrors.listExpiredQueries_answers
  | listStaleQueries => exact mirrors.listStaleQueries_answers off

end

end Mirrors

/-! ## Every sequence of calls -/

structure Stores where
  now : Time
  memory : MetaStore
  server : Server Data

namespace Stores

def initial (now : Time) : Stores := ⟨now, .empty, {}⟩

def step (stores : Stores) (action : Nat × Call) : Option Stores :=
  let later := stores.now + action.1
  some
    { now := later
      memory := (action.2.onMemory later stores.memory).2
      server := ((action.2.program later).run later stores.server).2 }

/-- The assumptions on a call, made in this state after this time: no lease ends at that
instant, and no record key has expired. -/
structure Undisturbed (owner : String → String) (stores : Stores) (action : Nat × Call) :
    Prop where
  admissible : action.2.Admissible owner stores.memory
  off : ∀ id expiry, stores.memory.leases.lookup id = some expiry →
    stores.now + action.1 ≠ expiry
  kept : ∀ id entry, stores.server.find stores.now (queryKey id) = some entry →
    entry.alive (stores.now + action.1) = true

def Names (instances : Set String) (_ : Stores) (action : Nat × Call) : Prop :=
  ∀ i ∈ action.2.instances, i ∈ instances

variable {owner : String → String} {stores : Stores}

theorem mirrors_of_run {instances : Set String}
    (apart : ∀ i ∈ instances, ∀ j ∈ instances, j ≠ i ++ ":queries")
    (run : Runs.Reaches step (fun stores action => Undisturbed owner stores action ∧
      Names instances stores action) (initial now) stores) :
    Mirrors owner instances stores.now stores.memory stores.server := by
  apply run.invariant (fun stores => Mirrors owner instances stores.now stores.memory
    stores.server) (Mirrors.empty owner instances now)
  intro before action after mirrors guard taken
  obtain ⟨undisturbed, names⟩ := guard
  cases taken
  have later := mirrors.of_le (Int.le_add_of_nonneg_right (Int.natCast_nonneg action.1))
    undisturbed.kept
  exact (later.answers apart undisturbed.admissible names undisturbed.off).2

/-- As long as no instance in use is called like the set of another, every call of every
sequence returns the same on both stores. -/
theorem stores_agree {instances : Set String}
    (apart : ∀ i ∈ instances, ∀ j ∈ instances, j ≠ i ++ ":queries") {now : Time}
    (run : Runs.Reaches step (fun stores action => Undisturbed owner stores action ∧
      Names instances stores action) (initial now) stores) {elapsed : Nat}
    (undisturbed : Undisturbed owner stores (elapsed, call))
    (names : Names instances stores (elapsed, call)) :
    ((call.program (stores.now + elapsed)).run (stores.now + elapsed) stores.server).1 =
      (call.onMemory (stores.now + elapsed) stores.memory).1 := by
  have mirrors := mirrors_of_run apart run
  have later := mirrors.of_le (Int.le_add_of_nonneg_right (Int.natCast_nonneg elapsed))
    undisturbed.kept
  exact (later.answers apart undisturbed.admissible names undisturbed.off).1

/-- At one instant and without leases nothing expires. -/
theorem undisturbed_of_no_lease (admissible : call.Admissible owner stores.memory)
    (none : stores.memory.leases = ∅) : Undisturbed owner stores (0, call) where
  admissible := admissible
  off := by simp [none]
  kept := by
    intro id entry found
    simpa using stores.server.alive_of_find found

def afterPut : Stores :=
  { initial 1 with
    memory := MetaStore.empty.putQuery activeQuery
    server := ((Call.program 1 (.putQuery activeQuery)).run 1 {}).2 }

theorem undisturbed_put : Undisturbed (fun _ => "a") (initial 1) (0, .putQuery activeQuery) :=
  undisturbed_of_no_lease rfl rfl

theorem step_put : (initial 1).step (0, .putQuery activeQuery) = some afterPut := rfl

/-- The instance `a` by itself: both stores count its query. -/
theorem active_query_is_counted :
    ((Call.program 1 (.countInFlight "a")).run 1 afterPut.server).1 = .count 1 ∧
      ((Call.program 1 (.countInFlight "a")).run 1 afterPut.server).1 =
        (Call.onMemory 1 afterPut.memory (.countInFlight "a")).1 := by
  have apart : ∀ i ∈ ({"a"} : Set String), ∀ j ∈ ({"a"} : Set String), j ≠ i ++ ":queries" := by
    simp only [Set.mem_singleton_iff, forall_eq]
    decide
  have names : ∀ (stores : Stores) (call : Call), call.instances = ["a"] →
      Names {"a"} stores (0, call) := by
    intro stores call single i member
    simpa [single] using member
  have run : Runs.Reaches step (fun stores action =>
      Undisturbed (fun _ => "a") stores action ∧ Names {"a"} stores action) (initial 1)
      afterPut :=
    (Runs.Reaches.refl (initial 1)).snoc
      ⟨undisturbed_put, names (initial 1) (.putQuery activeQuery) rfl⟩ step_put
  have undisturbed : Undisturbed (fun _ => "a") afterPut (0, .countInFlight "a") :=
    undisturbed_of_no_lease trivial rfl
  refine ⟨by decide +kernel, ?_⟩
  exact stores_agree apart run undisturbed (names afterPut (.countInFlight "a") rfl)

def afterHeartbeat : Stores :=
  { afterPut with
    memory := afterPut.memory.heartbeat 1 [] second
    server := ((Call.program 1 (.heartbeat "a:queries" [] second)).run 1 afterPut.server).2 }

/-- Without the condition: the heartbeat replaces the set of instance `a` by a string.
Redis refuses to count, and the memory store counts one query. -/
theorem heartbeat_replaces_a_set :
    Runs.Reaches step (Undisturbed fun _ => "a") (initial 1) afterHeartbeat ∧
      Undisturbed (fun _ => "a") afterHeartbeat (0, .countInFlight "a") ∧
      ((Call.program 1 (.countInFlight "a")).run 1 afterHeartbeat.server).1 = .failed ∧
      (Call.onMemory 1 afterHeartbeat.memory (.countInFlight "a")).1 = .count 1 := by
  have beat : Undisturbed (fun _ => "a") afterPut (0, .heartbeat "a:queries" [] second) :=
    undisturbed_of_no_lease ⟨by decide, by decide⟩ rfl
  have run : Runs.Reaches step (Undisturbed fun _ => "a") (initial 1) afterHeartbeat :=
    ((Runs.Reaches.refl (initial 1)).snoc undisturbed_put step_put).snoc beat rfl
  exact ⟨run, undisturbed_of_no_lease trivial rfl, by decide +kernel, by decide +kernel⟩

end Stores

end DbBridge.State
