import DbBridge.State.Memory

/-!
# Names of the Redis keys

The functions of `internal/state/redis.go` that name a key, and which of them can name
the same one.
-/

namespace DbBridge.State.Redis

def queryKey (id : String) : String := "dbbridge:query:" ++ id

def leaseKey (id : String) : String := "dbbridge:lease:" ++ id

def lockKey (name : String) : String := "dbbridge:lock:" ++ name

def idempotencyKey (dbID key : String) : String := "dbbridge:idempotency:" ++ dbID ++ ":" ++ key

def instanceKey (id : String) : String := "dbbridge:instance:" ++ id

def instanceQueriesKey (id : String) : String := "dbbridge:instance:" ++ id ++ ":queries"

def databasesSeenKey : String := "dbbridge:databases:seen"

/-! ## Keys that are never the same

The two letters after `dbbridge:` tell the kinds of keys apart. -/

def kind (key : String) : List Char := (key.toList.drop 9).take 2

variable (id : String)

@[simp] theorem kind_queryKey : kind (queryKey id) = ['q', 'u'] := by
  unfold kind queryKey
  simp

@[simp] theorem kind_leaseKey : kind (leaseKey id) = ['l', 'e'] := by
  unfold kind leaseKey
  simp

@[simp] theorem kind_lockKey (name : String) : kind (lockKey name) = ['l', 'o'] := by
  unfold kind lockKey
  simp

@[simp] theorem kind_idempotencyKey (dbID key : String) :
    kind (idempotencyKey dbID key) = ['i', 'd'] := by
  unfold kind idempotencyKey
  simp

@[simp] theorem kind_instanceKey : kind (instanceKey id) = ['i', 'n'] := by
  unfold kind instanceKey
  simp

@[simp] theorem kind_instanceQueriesKey : kind (instanceQueriesKey id) = ['i', 'n'] := by
  unfold kind instanceQueriesKey
  simp

@[simp] theorem kind_databasesSeenKey : kind databasesSeenKey = ['d', 'a'] := by
  unfold kind databasesSeenKey
  simp

theorem ne_of_kind {key other : String} (ne : kind key ≠ kind other) : key ≠ other :=
  fun same => ne (congrArg kind same)

variable (other : String)

@[simp] theorem queryKey_inj : queryKey id = queryKey other ↔ id = other := by
  unfold queryKey
  simp [← String.toList_inj]

@[simp] theorem leaseKey_inj : leaseKey id = leaseKey other ↔ id = other := by
  unfold leaseKey
  simp [← String.toList_inj]

@[simp] theorem lockKey_inj (name other : String) :
    lockKey name = lockKey other ↔ name = other := by
  unfold lockKey
  simp [← String.toList_inj]

@[simp] theorem instanceQueriesKey_inj :
    instanceQueriesKey id = instanceQueriesKey other ↔ id = other := by
  unfold instanceQueriesKey
  simp [← String.toList_inj]

/-- The one exception: an instance whose ID ends in `:queries` and the set of another. -/
theorem instanceKey_eq_iff :
    instanceKey id = instanceQueriesKey other ↔ id = other ++ ":queries" := by
  unfold instanceKey instanceQueriesKey
  simp [← String.toList_inj]

end DbBridge.State.Redis
