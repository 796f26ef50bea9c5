import DbBridge.State.Memory

/-!
# What a MetaStore operation does to the idempotency keys

`owner key` is the query a key is filed under, expired or not. Every operation
that is not about keys keeps all of them with their times (`SameKeys`); the three
that are touch one key, and `SameKey` says what they leave of the others.
-/

namespace DbBridge.State

open Domain

namespace MetaStore

variable (m : MetaStore)

/-- The query a key points at, whether or not its time has run out. -/
def owner (key : String) : Option String := m.idempotency.lookup key

end MetaStore

structure SameKeys (before after : MetaStore) : Prop where
  idempotency : after.idempotency = before.idempotency
  idempExpires : after.idempExpires = before.idempExpires

structure SameKey (key : String) (before after : MetaStore) : Prop where
  owner : after.owner key = before.owner key
  expiry : after.idempExpires.lookup key = before.idempExpires.lookup key

theorem SameKeys.refl (m : MetaStore) : SameKeys m m := ⟨rfl, rfl⟩

variable {before after : MetaStore}

theorem SameKeys.owner (same : SameKeys before after) : after.owner = before.owner := by
  funext key
  rw [MetaStore.owner, MetaStore.owner, same.idempotency]

theorem SameKeys.key (same : SameKeys before after) (key : String) : SameKey key before after :=
  ⟨congrFun same.owner key, by rw [same.idempExpires]⟩

variable {other : String}

namespace MetaStore

variable (m : MetaStore)

theorem store_sameKeys (record : QueryRecord) : SameKeys m (m.store record) := ⟨rfl, rfl⟩

theorem tryLock_sameKeys (now : Time) (name : String) (ttl : Duration) :
    SameKeys m (m.tryLock now name ttl).2 := by
  unfold tryLock
  split
  · split <;> exact ⟨rfl, rfl⟩
  · exact ⟨rfl, rfl⟩

@[simp] theorem refreshIdempotency_owner (now : Time) (dbID key queryID : String)
    (ttl : Duration) : (m.refreshIdempotency now dbID key queryID ttl).owner = m.owner := by
  unfold refreshIdempotency
  split
  · rfl
  · split <;> rfl

theorem claim_owner_self (key queryID : String) (expiry : Time) :
    (m.claim key queryID expiry).owner key = some queryID := by
  simp [claim, owner]

variable {key : String}

theorem claim_owner_of_ne (queryID : String) (expiry : Time) (ne : other ≠ key) :
    (m.claim key queryID expiry).owner other = m.owner other := by
  simp [claim, owner, AList.lookup_insert_ne ne]

theorem holder_eq_some_iff (now : Time) (key queryID : String) :
    m.holder now key = some queryID ↔
      m.owner key = some queryID ∧ ∃ expiry, m.idempExpires.lookup key = some expiry ∧
        now < expiry := by
  unfold holder
  cases armed : m.idempExpires.lookup key with
  | none => simp
  | some expiry =>
    by_cases running : now < expiry
    · simp [running, owner]
    · simp [running]

variable {queryID : String} {now : Time}

theorem owner_of_holder (held : m.holder now key = some queryID) : m.owner key = some queryID :=
  ((m.holder_eq_some_iff now key queryID).mp held).1

theorem owner_of_holder_none (free : m.holder now key = none)
    (running : ∀ expiry, m.idempExpires.lookup key = some expiry → now < expiry) :
    m.owner key = none := by
  have paired := m.paired key
  unfold holder at free
  cases armed : m.idempExpires.lookup key with
  | none =>
    rw [armed] at paired
    simpa [owner] using paired
  | some expiry =>
    simp only [armed, running expiry armed, if_true] at free
    exact free

theorem acquireIdempotency_cases (now : Time) (dbID key queryID : String) (ttl : Duration) :
    (∃ existing, m.holder now (fullKey dbID key) = some existing ∧
        m.acquireIdempotency now dbID key queryID ttl = ((existing, false), m)) ∨
      (m.holder now (fullKey dbID key) = none ∧
        m.acquireIdempotency now dbID key queryID ttl =
          ((queryID, true), m.claim (fullKey dbID key) queryID (now + ttl))) := by
  unfold acquireIdempotency
  cases held : m.holder now (fullKey dbID key) with
  | none => exact .inr ⟨rfl, rfl⟩
  | some existing => exact .inl ⟨existing, rfl, rfl⟩

theorem releaseIdempotency_owner_self (dbID key queryID : String) :
    (m.releaseIdempotency dbID key queryID).owner (fullKey dbID key) =
      if m.owner (fullKey dbID key) = some queryID then none
      else m.owner (fullKey dbID key) := by
  unfold releaseIdempotency
  by_cases owned : m.idempotency.lookup (fullKey dbID key) = some queryID
  · simp [owner, owned]
  · simp [owner, owned]

variable {dbID name : String}

theorem releaseIdempotency_sameKey (spared : key = fullKey dbID name → m.owner key ≠ some queryID) :
    SameKey key m (m.releaseIdempotency dbID name queryID) := by
  unfold releaseIdempotency
  split
  · rename_i owned
    have ne : key ≠ fullKey dbID name := by
      rintro rfl
      exact spared rfl owned
    exact ⟨by simp [owner, AList.lookup_erase_ne ne], by simp [AList.lookup_erase_ne ne]⟩
  · exact ⟨rfl, rfl⟩

theorem releaseIdempotency_owner_origin {released : String}
    (owned : (m.releaseIdempotency dbID name released).owner key = some queryID) :
    m.owner key = some queryID := by
  by_cases hit : key = fullKey dbID name ∧ m.owner key = some released
  · obtain ⟨rfl, own⟩ := hit
    rw [m.releaseIdempotency_owner_self, if_pos own] at owned
    contradiction
  · have same : SameKey key m (m.releaseIdempotency dbID name released) :=
      m.releaseIdempotency_sameKey fun stored own => hit ⟨stored, own⟩
    rwa [same.owner] at owned

theorem claim_sameKey_of_ne (queryID : String) (expiry : Time) (ne : other ≠ key) :
    SameKey other m (m.claim key queryID expiry) :=
  ⟨m.claim_owner_of_ne queryID expiry ne, by simp [claim, AList.lookup_insert_ne ne]⟩

theorem claim_expiry_self (key queryID : String) (expiry : Time) :
    (m.claim key queryID expiry).idempExpires.lookup key = some expiry := by
  simp [claim]

variable {ttl : Duration}

theorem refreshIdempotency_sameKey
    (spared : key = fullKey dbID name → m.owner key = some queryID → ttl ≤ 0) :
    SameKey key m (m.refreshIdempotency now dbID name queryID ttl) := by
  refine ⟨congrFun (m.refreshIdempotency_owner now dbID name queryID ttl) key, ?_⟩
  unfold refreshIdempotency
  split
  · rfl
  · rename_i positive
    split
    · rename_i owned
      have ne : key ≠ fullKey dbID name := by
        rintro rfl
        exact positive (spared rfl owned)
      simp [AList.lookup_insert_ne ne]
    · rfl

theorem refreshIdempotency_expiry_self (owned : m.owner (fullKey dbID name) = some queryID)
    (positive : 0 < ttl) :
    (m.refreshIdempotency now dbID name queryID ttl).idempExpires.lookup (fullKey dbID name) =
      some (now + ttl) := by
  rw [owner] at owned
  rw [refreshIdempotency, if_neg (Int.not_le.mpr positive), dif_pos owned]
  simp

end MetaStore

end DbBridge.State
