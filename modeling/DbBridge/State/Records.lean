import DbBridge.State.Memory

/-!
# What a MetaStore operation does to the records

`SameRecords` is the frame: records and journals are as before, whatever happened
to leases, keys and locks. `Untouched` adds the leases, which only a heartbeat, a
terminal write and a deletion change.
-/

namespace DbBridge.State

open Domain List

structure SameRecords (before after : MetaStore) : Prop where
  queries : after.queries = before.queries
  journal : after.journal = before.journal

namespace SameRecords

theorem refl (m : MetaStore) : SameRecords m m := ⟨rfl, rfl⟩

end SameRecords

structure Untouched (before after : MetaStore) : Prop extends SameRecords before after where
  leases : after.leases = before.leases

namespace Untouched

theorem refl (m : MetaStore) : Untouched m m := ⟨SameRecords.refl m, rfl⟩

end Untouched

variable {id other : String}

namespace MetaStore

variable (m : MetaStore)

/-! ## Operations that keep the records -/

variable (now : Time)

theorem heartbeat_sameRecords (ids : List String) (ttl : Duration) :
    SameRecords m (m.heartbeat now ids ttl) := ⟨rfl, rfl⟩

theorem releaseIdempotency_untouched (dbID key queryID : String) :
    Untouched m (m.releaseIdempotency dbID key queryID) := by
  unfold releaseIdempotency
  split <;> exact ⟨⟨rfl, rfl⟩, rfl⟩

theorem refreshIdempotency_untouched (dbID key queryID : String) (ttl : Duration) :
    Untouched m (m.refreshIdempotency now dbID key queryID ttl) := by
  unfold refreshIdempotency
  split
  · exact Untouched.refl m
  · split <;> exact ⟨⟨rfl, rfl⟩, rfl⟩

theorem tryLock_untouched (name : String) (ttl : Duration) :
    Untouched m (m.tryLock now name ttl).2 := by
  unfold tryLock
  split
  · split <;> exact ⟨⟨rfl, rfl⟩, rfl⟩
  · exact ⟨⟨rfl, rfl⟩, rfl⟩

/-! ## Writes and deletions -/

@[simp] theorem store_journal_self (record : QueryRecord) :
    (m.store record).journal record.id = record.state :: m.journal record.id := by
  simp [store]

theorem store_journal_of_ne (record : QueryRecord) (other : id ≠ record.id) :
    (m.store record).journal id = m.journal id := by
  simp [store, Function.update_of_ne other]

@[simp] theorem store_lookup_self (record : QueryRecord) :
    (m.store record).queries.lookup record.id = some { record with leaseDeadline := 0 } := by
  simp [store]

theorem store_lookup_of_ne (record : QueryRecord) (other : id ≠ record.id) :
    (m.store record).queries.lookup id = m.queries.lookup id := by
  simp [store, AList.lookup_insert_ne other]

variable {m} in
theorem store_cases {record stored : QueryRecord} {id : String}
    (found : (m.store record).queries.lookup id = some stored) :
    (id = record.id ∧ { record with leaseDeadline := 0 } = stored) ∨
      (id ≠ record.id ∧ m.queries.lookup id = some stored) :=
  Tables.insert_cases found

def has (id : String) : Bool := (m.queries.lookup id).isSome

theorem store_has_iff (record : QueryRecord) (id : String) :
    (m.store record).has id = true ↔ id = record.id ∨ m.has id = true := by
  by_cases same : id = record.id
  · subst same
    simp [has]
  · simp [has, m.store_lookup_of_ne record same, same]

theorem deleteQuery_has_of_ne (ne : other ≠ id) : (m.deleteQuery id).has other = m.has other := by
  simp [has, deleteQuery, AList.lookup_erase_ne ne]

theorem has_of_deleteQuery_has (kept : (m.deleteQuery id).has other = true) :
    m.has other = true := by
  obtain ⟨_, found⟩ := Option.isSome_iff_exists.mp kept
  simp [has, Tables.lookup_of_erase found]

@[simp] theorem deleteQuery_journal (id : String) :
    (m.deleteQuery id).journal = m.journal := rfl

end MetaStore

theorem SameRecords.has {before after : MetaStore} (same : SameRecords before after)
    (id : String) : after.has id = before.has id := by
  rw [MetaStore.has, MetaStore.has, same.queries]

namespace MetaStore

variable (m : MetaStore) {after : MetaStore} {record : QueryRecord}

/-! ## Reads -/

theorem getQuery_eq_some (found : m.getQuery id = some record) :
    ∃ stored deadline, m.queries.lookup id = some stored ∧
      record = { stored with leaseDeadline := deadline } := by
  unfold getQuery at found
  cases lookup : m.queries.lookup id with
  | none => simp [lookup] at found
  | some stored =>
    simp only [lookup] at found
    cases lease : m.leases.lookup id with
    | none =>
      simp only [lease, Option.some.injEq] at found
      exact ⟨stored, stored.leaseDeadline, rfl, found.symm⟩
    | some expiry =>
      simp only [lease, Option.some.injEq] at found
      exact ⟨stored, expiry, rfl, found.symm⟩

theorem getQuery_of_lookup {stored : QueryRecord} (lookup : m.queries.lookup id = some stored) :
    ∃ deadline, m.getQuery id = some { stored with leaseDeadline := deadline } := by
  unfold getQuery
  cases lease : m.leases.lookup id with
  | none => exact ⟨stored.leaseDeadline, by simp [lookup]⟩
  | some expiry => exact ⟨expiry, by simp [lookup]⟩

section
variable (found : m.getQuery id = some record)
include found

theorem getQuery_id : record.id = id := by
  obtain ⟨stored, _, lookup, rfl⟩ := m.getQuery_eq_some found
  exact m.keyed id stored lookup

theorem has_of_getQuery : m.has id = true := by
  obtain ⟨_, _, lookup, rfl⟩ := m.getQuery_eq_some found
  simp [has, lookup]

theorem getQuery_logged : (m.journal id).head? = some record.state := by
  obtain ⟨stored, _, lookup, rfl⟩ := m.getQuery_eq_some found
  exact m.logged id stored lookup

end

def ended (id : String) : Bool := (m.journal id).head?.any QueryState.isTerminal

theorem ended_iff (id : String) :
    m.ended id = true ↔ ∃ last, (m.journal id).head? = some last ∧ last.isTerminal = true := by
  simp [ended, Option.any_eq_true]

theorem getQuery_ended (found : m.getQuery id = some record) :
    m.ended id = record.state.isTerminal := by
  simp [ended, m.getQuery_logged found]

theorem updateQueryIfState_eq_some {expected : List QueryState} {written : Bool}
    (answer : m.updateQueryIfState record expected = some (written, after)) :
    (written = false ∧ after = m) ∨
      (written = true ∧ after = m.store record ∧
        ∃ current, m.queries.lookup record.id = some current ∧ current.state ∈ expected) := by
  unfold updateQueryIfState at answer
  cases lookup : m.queries.lookup record.id with
  | none => simp [lookup] at answer
  | some current =>
    simp only [lookup] at answer
    split at answer
    · rename_i member
      cases answer
      exact .inr ⟨rfl, rfl, current, rfl, member⟩
    · cases answer
      exact .inl ⟨rfl, rfl⟩

theorem updateQuery_eq_some {backend : Backend}
    (answer : m.updateQuery backend record = some after) : after = m.store record := by
  unfold updateQuery at answer
  cases backend with
  | redis => exact (Option.some.inj answer).symm
  | memory =>
    cases lookup : m.queries.lookup record.id with
    | none => simp [lookup] at answer
    | some =>
      simp only [lookup, Option.some.injEq] at answer
      exact answer.symm

/-! ## Listings -/

theorem mem_records_iff (record : QueryRecord) :
    record ∈ m.records ↔ m.queries.lookup record.id = some record := by
  constructor
  · intro member
    obtain ⟨⟨id, stored⟩, entry, rfl⟩ := mem_map.mp member
    have lookup : m.queries.lookup id = some stored := AList.mem_lookup_iff.mpr entry
    rwa [m.keyed id stored lookup]
  · intro lookup
    exact mem_map.mpr ⟨⟨record.id, record⟩, AList.mem_lookup_iff.mp lookup, rfl⟩

theorem countInFlight_eq_zero_iff (instanceID : String) :
    m.countInFlight instanceID = 0 ↔
      ∀ record, m.queries.lookup record.id = some record → inFlight instanceID record = false := by
  simp only [countInFlight, length_eq_zero_iff, filter_eq_nil_iff, mem_records_iff,
    Bool.not_eq_true]

variable (test : QueryRecord → Bool)

theorem mem_listing_iff (id : String) :
    id ∈ (m.records.filter test).map QueryRecord.id ↔
      ∃ record, m.queries.lookup id = some record ∧ test record = true := by
  simp only [mem_map, mem_filter, mem_records_iff]
  constructor
  · rintro ⟨record, ⟨lookup, passed⟩, rfl⟩
    exact ⟨record, lookup, passed⟩
  · rintro ⟨record, lookup, passed⟩
    have own := m.keyed id record lookup
    exact ⟨record, ⟨own.symm ▸ lookup, passed⟩, own⟩

theorem mem_listStaleQueries_iff (now : Time) (id : String) :
    id ∈ m.listStaleQueries now ↔
      ∃ record, m.queries.lookup id = some record ∧ m.isStale now record = true :=
  m.mem_listing_iff (m.isStale now) id

theorem records_ids : m.records.map QueryRecord.id = m.queries.keys := by
  simp only [records, map_map, AList.keys, keys]
  apply map_congr_left
  rintro ⟨id, record⟩ entry
  exact m.keyed id record (AList.mem_lookup_iff.mpr entry)

theorem nodup_listing : ((m.records.filter test).map QueryRecord.id).Nodup := by
  have distinct : (m.records.map QueryRecord.id).Nodup := m.records_ids ▸ m.queries.nodupKeys
  exact distinct.sublist (filter_sublist.map _)

/-! ## Leases -/

theorem heartbeat_lookup (now : Time) (ids : List String) (ttl : Duration) (id : String) :
    (m.heartbeat now ids ttl).leases.lookup id =
      if id ∈ ids then some (now + ttl) else m.leases.lookup id := by
  simp only [heartbeat]
  induction ids generalizing m with
  | nil => simp
  | cons first rest ih =>
    have renewed := ih { m with leases := m.leases.insert first (now + ttl) }
    simp only [foldl_cons, mem_cons]
    rw [renewed]
    by_cases later : id ∈ rest
    · simp [later]
    · by_cases same : id = first
      · subst same
        simp [later]
      · simp [later, same, AList.lookup_insert_ne same]

theorem store_leases_lookup (record : QueryRecord)
    (kept : id = record.id → record.state.isTerminal = false) :
    (m.store record).leases.lookup id = m.leases.lookup id := by
  simp only [store]
  split
  · rename_i terminal
    refine AList.lookup_erase_ne fun same => ?_
    rw [kept same] at terminal
    contradiction
  · rfl

theorem deleteQuery_leases_of_ne (ne : other ≠ id) :
    (m.deleteQuery id).leases.lookup other = m.leases.lookup other := by
  simp [deleteQuery, AList.lookup_erase_ne ne]

end MetaStore

end DbBridge.State
