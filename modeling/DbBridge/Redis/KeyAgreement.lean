import DbBridge.Lib.Runs
import DbBridge.Redis.Effects

/-!
# The idempotency keys of the two MetaStores

The memory store keeps the owner of a key in one map and its expiry in another, and
forgets neither when the key expires: only `AcquireIdempotency` looks at the expiry. Redis
forgets both. They differ once a key that has expired is refreshed by its last owner.
-/

namespace DbBridge.State

open Domain Keyspace Redis
open MetaStore (fullKey)

/-! ## The maps of the memory store -/

/-- The two maps of `MemoryMetaStore`, as the code reads them: for a key that is not there
Go answers an empty text, which is the query ID of a caller that has none. -/
structure KeyTables where
  idempotency : Table String := ∅
  idempExpires : Table Time := ∅

namespace KeyTables

variable (t : KeyTables)

def owner (key : String) : String := (t.idempotency.lookup key).getD ""

def claim (key queryID : String) (expiry : Time) : KeyTables where
  idempotency := t.idempotency.insert key queryID
  idempExpires := t.idempExpires.insert key expiry

def acquireIdempotency (now : Time) (dbID key queryID : String) (ttl : Duration) :
    (String × Bool) × KeyTables :=
  match t.idempExpires.lookup (fullKey dbID key) with
  | some expiry =>
    if now < expiry then ((t.owner (fullKey dbID key), false), t)
    else ((queryID, true), t.claim (fullKey dbID key) queryID (now + ttl))
  | none => ((queryID, true), t.claim (fullKey dbID key) queryID (now + ttl))

def releaseIdempotency (dbID key queryID : String) : KeyTables :=
  if t.owner (fullKey dbID key) ≠ queryID then t
  else
    { idempotency := t.idempotency.erase (fullKey dbID key)
      idempExpires := t.idempExpires.erase (fullKey dbID key) }

def refreshIdempotency (now : Time) (dbID key queryID : String) (ttl : Duration) : KeyTables :=
  if ttl ≤ 0 then t
  else if t.owner (fullKey dbID key) ≠ queryID then t
  else { t with idempExpires := t.idempExpires.insert (fullKey dbID key) (now + ttl) }

end KeyTables

/-! ### The maps in a MetaStore

In a `MetaStore` both maps have the same keys, which a refresh for an empty query ID would
break; for the others the operations are the same. -/

def MetaStore.keyTables (m : MetaStore) : KeyTables := ⟨m.idempotency, m.idempExpires⟩

variable {queryID : String}

theorem KeyTables.owner_eq_iff (t : KeyTables) {key : String} (named : queryID ≠ "") :
    t.owner key = queryID ↔ t.idempotency.lookup key = some queryID := by
  unfold owner
  cases t.idempotency.lookup key with
  | none => simp [named.symm]
  | some => simp

namespace MetaStore

variable (m : MetaStore)

theorem acquireIdempotency_keyTables (now : Time) (dbID key queryID : String) (ttl : Duration) :
    m.keyTables.acquireIdempotency now dbID key queryID ttl =
      ((m.acquireIdempotency now dbID key queryID ttl).1,
        (m.acquireIdempotency now dbID key queryID ttl).2.keyTables) := by
  have paired := m.paired (fullKey dbID key)
  simp only [KeyTables.acquireIdempotency, acquireIdempotency, holder, keyTables]
  cases expires : m.idempExpires.lookup (fullKey dbID key) with
  | none => rfl
  | some expiry =>
    rw [expires, Option.isSome_some, Option.isSome_iff_exists] at paired
    obtain ⟨_, owned⟩ := paired
    by_cases alive : now < expiry
    · simp [alive, owned, KeyTables.owner]
    · simp [alive, KeyTables.claim, claim]

theorem releaseIdempotency_keyTables (dbID key : String) (named : queryID ≠ "") :
    m.keyTables.releaseIdempotency dbID key queryID =
      (m.releaseIdempotency dbID key queryID).keyTables := by
  have owner : m.keyTables.owner (fullKey dbID key) = queryID ↔
      m.idempotency.lookup (fullKey dbID key) = some queryID := m.keyTables.owner_eq_iff named
  unfold KeyTables.releaseIdempotency releaseIdempotency
  by_cases owned : m.idempotency.lookup (fullKey dbID key) = some queryID
  · rw [if_neg (not_not.mpr (owner.mpr owned)), if_pos owned]
    rfl
  · rw [if_pos fun same => owned (owner.mp same), if_neg owned]

theorem refreshIdempotency_keyTables (now : Time) (dbID key : String) (named : queryID ≠ "")
    (ttl : Duration) :
    m.keyTables.refreshIdempotency now dbID key queryID ttl =
      (m.refreshIdempotency now dbID key queryID ttl).keyTables := by
  have owner : m.keyTables.owner (fullKey dbID key) = queryID ↔
      m.idempotency.lookup (fullKey dbID key) = some queryID := m.keyTables.owner_eq_iff named
  unfold KeyTables.refreshIdempotency refreshIdempotency
  by_cases expired : ttl ≤ 0
  · rw [if_pos expired, if_pos expired]
  · rw [if_neg expired, if_neg expired]
    by_cases owned : m.idempotency.lookup (fullKey dbID key) = some queryID
    · rw [if_neg (not_not.mpr (owner.mpr owned)), dif_pos owned]
      rfl
    · rw [if_pos fun same => owned (owner.mp same), dif_neg owned]

end MetaStore

/-! ## Calls to both stores -/

inductive KeyCall where
  | acquire (dbID key queryID : String) (ttl : Duration)
  | release (dbID key queryID : String)
  | refresh (dbID key queryID : String) (ttl : Duration)
  deriving DecidableEq

namespace KeyCall

def call : KeyCall → Call
  | acquire dbID key queryID ttl => .acquireIdempotency dbID key queryID ttl
  | release dbID key queryID => .releaseIdempotency dbID key queryID
  | refresh dbID key queryID ttl => .refreshIdempotency dbID key queryID ttl

def onMemory (now : Time) (t : KeyTables) : KeyCall → Outcome × KeyTables
  | acquire dbID key queryID ttl =>
    let ((existing, acquired), after) := t.acquireIdempotency now dbID key queryID ttl
    (.claim existing acquired, after)
  | release dbID key queryID => (.ok, t.releaseIdempotency dbID key queryID)
  | refresh dbID key queryID ttl => (.ok, t.refreshIdempotency now dbID key queryID ttl)

def onRedis (now : Time) (server : Server Data) (c : KeyCall) : Outcome × Server Data :=
  (c.call.program now).run now server

def Millis (ttl : Duration) : Prop := 0 < ttl ∧ ttl % millisecond = 0

def InMillis : KeyCall → Prop
  | acquire _ _ _ ttl | refresh _ _ _ ttl => Millis ttl
  | release _ _ _ => True

instance (ttl : Duration) : Decidable (Millis ttl) := inferInstanceAs (Decidable (_ ∧ _))

instance : (c : KeyCall) → Decidable c.InMillis
  | acquire _ _ _ ttl => inferInstanceAs (Decidable (Millis ttl))
  | refresh _ _ _ ttl => inferInstanceAs (Decidable (Millis ttl))
  | release _ _ _ => inferInstanceAs (Decidable True)

end KeyCall

/-! ## The simulation relation -/

def KeyTables.entry (t : KeyTables) (now : Time) (key : String) : Option (Entry Data) :=
  match t.idempExpires.lookup key with
  | none => none
  | some expiry => if now < expiry then some (.text (.text (t.owner key)) (some expiry)) else none

variable {full : String}

theorem KeyTables.entry_eq_some {t : KeyTables} {now : Time} {entry : Entry Data}
    (held : t.entry now full = some entry) :
    ∃ expiry, entry = .text (.text (t.owner full)) (some expiry) := by
  unfold KeyTables.entry at held
  split at held
  · contradiction
  · split at held
    · exact ⟨_, (Option.some.inj held).symm⟩
    · contradiction

theorem KeyTables.claim_owner (t : KeyTables) (full queryID : String) (expiry : Time) :
    (t.claim full queryID expiry).owner full = queryID := by
  simp [owner, claim]

variable {expiry : Time}

theorem KeyTables.claim_owner_of_ne {t : KeyTables} {other : String} (ne : other ≠ full) :
    (t.claim full queryID expiry).owner other = t.owner other := by
  simp [owner, claim, AList.lookup_insert_ne ne]

def KeyCall.InTime (now : Time) (t : KeyTables) : KeyCall → Prop
  | .refresh dbID key queryID _ => t.owner (fullKey dbID key) = queryID →
      (t.entry now (fullKey dbID key)).isSome = true
  | _ => True

instance (now : Time) (t : KeyTables) : (c : KeyCall) → Decidable (c.InTime now t)
  | .acquire _ _ _ _ => inferInstanceAs (Decidable True)
  | .release _ _ _ => inferInstanceAs (Decidable True)
  | .refresh _ _ _ _ => inferInstanceAs (Decidable (_ → _))

def redisKey (full : String) : String := "dbbridge:idempotency:" ++ full

theorem idempotencyKey_eq (dbID key : String) :
    idempotencyKey dbID key = redisKey (fullKey dbID key) := by
  unfold idempotencyKey redisKey fullKey
  rw [← String.append_assoc, ← String.append_assoc]

@[simp] theorem redisKey_inj (full other : String) :
    redisKey full = redisKey other ↔ full = other := by
  unfold redisKey
  simp [← String.toList_inj]

def SameHolders (now : Time) (t : KeyTables) (server : Server Data) : Prop :=
  ∀ full, server.find now (redisKey full) = t.entry now full

variable {ttl : Duration} {call : KeyCall}

namespace SameHolders

variable {now later : Time} {t : KeyTables} {server : Server Data}

section
variable (same : SameHolders now t server)
include same

theorem of_le (le : now ≤ later) : SameHolders later t server := by
  intro full
  rw [server.find_of_le le, same full]
  unfold KeyTables.entry
  cases t.idempExpires.lookup full with
  | none => rfl
  | some expiry =>
    by_cases alive : later < expiry
    · have before : now < expiry := lt_of_le_of_lt le alive
      simp [alive, before, Option.filter, Entry.alive]
    · by_cases before : now < expiry <;> simp [alive, before, Option.filter, Entry.alive]

theorem put {after : KeyTables} (ahead : now < expiry) (owner : after.owner full = queryID)
    (others : ∀ other, other ≠ full → after.owner other = t.owner other)
    (expires : after.idempExpires = t.idempExpires.insert full expiry) : SameHolders now after
      (server.put (redisKey full) (.text (.text queryID) (some expiry))) := by
  intro other
  unfold KeyTables.entry
  by_cases here : other = full
  · subst here
    rw [server.find_put_self, expires, AList.lookup_insert, owner]
    simp [Entry.alive, ahead]
  · rw [server.find_put_of_ne (by simpa using here), same other, expires,
      AList.lookup_insert_ne here, others other here]
    rfl

theorem remove (full : String) :
    SameHolders now ⟨t.idempotency.erase full, t.idempExpires.erase full⟩
      (server.remove (redisKey full)) := by
  intro other
  by_cases here : other = full
  · subst here
    simp [KeyTables.entry]
  · rw [server.find_remove_of_ne (by simpa using here), same other]
    simp [KeyTables.entry, KeyTables.owner, AList.lookup_erase_ne here]

theorem find (dbID key : String) :
    server.find now (idempotencyKey dbID key) = t.entry now (fullKey dbID key) := by
  rw [idempotencyKey_eq]
  exact same (fullKey dbID key)

theorem acquire (dbID key queryID : String) (millis : KeyCall.Millis ttl) :
    let call := KeyCall.acquire dbID key queryID ttl
    (call.onRedis now server).1 = (call.onMemory now t).1 ∧
      SameHolders now (call.onMemory now t).2 (call.onRedis now server).2 := by
  obtain ⟨positive, whole⟩ := millis
  have expire : setNXExpire ttl = some (some ttl) := by
    simp [setNXExpire, positive, wholeMilliseconds_eq positive whole]
  have ahead : now < now + ttl := Int.lt_add_of_pos_right now positive
  have claimed := same.put ahead (t.claim_owner (fullKey dbID key) queryID (now + ttl))
    (fun other => t.claim_owner_of_ne) rfl
  rw [← idempotencyKey_eq] at claimed
  have found := same.find dbID key
  simp only [KeyCall.onRedis, KeyCall.onMemory, KeyCall.call, Call.program, Program.map_run,
    Redis.acquireIdempotency, expire, Program.run, Request.run, KeyTables.acquireIdempotency]
  unfold KeyTables.entry at found
  cases expires : t.idempExpires.lookup (fullKey dbID key) with
  | none =>
    simp only [expires] at found
    simp only [found, Option.isSome_none, Bool.false_eq_true, if_false, if_true, Program.run]
    exact ⟨rfl, claimed⟩
  | some expiry =>
    by_cases alive : now < expiry
    · simp only [expires, alive, if_true] at found
      simp only [alive, found, if_true, Option.isSome_some, Bool.false_eq_true, if_false,
        Program.read, Program.run, Request.run, Read.run]
      exact ⟨rfl, same⟩
    · simp only [expires, alive, if_false] at found
      simp only [alive, found, if_false, Option.isSome_none, Bool.false_eq_true, if_true,
        Program.run]
      exact ⟨rfl, claimed⟩

theorem release (dbID key queryID : String) : let call := KeyCall.release dbID key queryID
    (call.onRedis now server).1 = (call.onMemory now t).1 ∧
      SameHolders now (call.onMemory now t).2 (call.onRedis now server).2 := by
  have removed := same.remove (fullKey dbID key)
  rw [← idempotencyKey_eq] at removed
  have found := same.find dbID key
  simp only [KeyCall.onRedis, KeyCall.onMemory, KeyCall.call, Call.program, Program.map_run,
    Redis.releaseIdempotency, Program.run, Request.run, KeyTables.releaseIdempotency]
  cases held : t.entry now (fullKey dbID key) with
  | none =>
    -- nothing is in force, so it does not matter whether the maps forget it now
    rw [held] at found
    simp only [found]
    refine ⟨rfl, ?_⟩
    split
    · exact same
    · intro full
      by_cases here : full = fullKey dbID key
      · subst here
        rw [← idempotencyKey_eq, found]
        simp [KeyTables.entry]
      · rw [same full]
        simp [KeyTables.entry, KeyTables.owner, AList.lookup_erase_ne here]
  | some =>
    obtain ⟨_, rfl⟩ := KeyTables.entry_eq_some held
    rw [held] at found
    simp only [found, Data.text.injEq]
    by_cases owned : t.owner (fullKey dbID key) = queryID
    · rw [if_pos owned, if_neg (not_not.mpr owned)]
      exact ⟨rfl, removed⟩
    · rw [if_neg owned, if_pos owned]
      exact ⟨rfl, same⟩

theorem refresh (dbID key queryID : String) (millis : KeyCall.Millis ttl) :
    let call := KeyCall.refresh dbID key queryID ttl
    (call.onRedis now server).1 = (call.onMemory now t).1 ∧
      (call.InTime now t →
        SameHolders now (call.onMemory now t).2 (call.onRedis now server).2) := by
  obtain ⟨positive, whole⟩ := millis
  have given : ¬ ttl ≤ 0 := not_le.mpr positive
  have ahead : now < now + ttl := Int.lt_add_of_pos_right now positive
  have cut : ttl - ttl % millisecond = ttl := by rw [whole, Int.sub_zero]
  have found := same.find dbID key
  simp only [KeyCall.onRedis, KeyCall.onMemory, KeyCall.call, Call.program, Program.map_run,
    Redis.refreshIdempotency, given, if_false, cut, Program.run, Request.run,
    KeyTables.refreshIdempotency, KeyCall.InTime]
  cases held : t.entry now (fullKey dbID key) with
  | none =>
    rw [held] at found
    simp only [found]
    refine ⟨rfl, fun inTime => ?_⟩
    by_cases owned : t.owner (fullKey dbID key) = queryID
    · exact absurd (inTime owned) (by simp)
    · rw [if_pos owned]
      exact same
  | some =>
    obtain ⟨_, rfl⟩ := KeyTables.entry_eq_some held
    rw [held] at found
    simp only [found, Data.text.injEq]
    refine ⟨rfl, fun _ => ?_⟩
    by_cases owned : t.owner (fullKey dbID key) = queryID
    · rw [if_pos owned, if_neg (not_not.mpr owned), idempotencyKey_eq]
      exact same.put ahead owned (fun _ _ => rfl) rfl
    · rw [if_neg owned, if_pos owned]
      exact same

theorem answers (millis : call.InMillis) :
    (call.onRedis now server).1 = (call.onMemory now t).1 ∧
      (call.InTime now t →
        SameHolders now (call.onMemory now t).2 (call.onRedis now server).2) := by
  cases call with
  | acquire dbID key queryID =>
    obtain ⟨result, kept⟩ := same.acquire dbID key queryID millis
    exact ⟨result, fun _ => kept⟩
  | release dbID key queryID =>
    obtain ⟨result, kept⟩ := same.release dbID key queryID
    exact ⟨result, fun _ => kept⟩
  | refresh dbID key queryID => exact same.refresh dbID key queryID millis

end

end SameHolders

/-! ## Every sequence of calls -/

structure KeyStores where
  now : Time
  memory : KeyTables := {}
  server : Server Data := {}

namespace KeyStores

def step (stores : KeyStores) (action : Nat × KeyCall) : Option KeyStores :=
  let later := stores.now + action.1
  some
    { now := later
      memory := (action.2.onMemory later stores.memory).2
      server := (action.2.onRedis later stores.server).2 }

def Timely (stores : KeyStores) (action : Nat × KeyCall) : Prop :=
  action.2.InMillis ∧ action.2.InTime (stores.now + action.1) stores.memory

instance (stores : KeyStores) (action : Nat × KeyCall) : Decidable (stores.Timely action) :=
  inferInstanceAs (Decidable (_ ∧ _))

variable {stores : KeyStores}

theorem sameHolders_of_run {now : Time} (run : Runs.Reaches step Timely ⟨now, {}, {}⟩ stores) :
    SameHolders stores.now stores.memory stores.server := by
  apply run.invariant (fun stores => SameHolders stores.now stores.memory stores.server)
  · intro full
    rfl
  · intro before action after same timely taken
    cases taken
    have later := same.of_le (Int.le_add_of_nonneg_right (Int.natCast_nonneg action.1))
    exact (later.answers timely.1).2 timely.2

/-- As long as nobody refreshes a key that it held until it expired, every call of every
sequence returns the same on both stores. -/
theorem keys_agree {now : Time} (run : Runs.Reaches step Timely ⟨now, {}, {}⟩ stores)
    (elapsed : Nat) (millis : call.InMillis) :
    (call.onRedis (stores.now + elapsed) stores.server).1 =
      (call.onMemory (stores.now + elapsed) stores.memory).1 := by
  have same := (sameHolders_of_run run).of_le
    (Int.le_add_of_nonneg_right (Int.natCast_nonneg elapsed))
  exact (same.answers millis).1

/-- The condition cannot be dropped: the next claim after a late refresh shows it. -/
theorem late_refresh_shows {now : Time} (run : Runs.Reaches step Timely ⟨now, {}, {}⟩ stores)
    (elapsed : Nat) (dbID key queryID other : String) (millis : KeyCall.Millis ttl)
    (late : ¬ (KeyCall.refresh dbID key queryID ttl).InTime (stores.now + elapsed)
      stores.memory) :
    ∃ after, stores.step (elapsed, .refresh dbID key queryID ttl) = some after ∧
      ((KeyCall.acquire dbID key other ttl).onMemory after.now after.memory).1 =
        .claim queryID false ∧
      ((KeyCall.acquire dbID key other ttl).onRedis after.now after.server).1 =
        .claim other true := by
  obtain ⟨positive, whole⟩ := millis
  have same := (sameHolders_of_run run).of_le
    (Int.le_add_of_nonneg_right (Int.natCast_nonneg elapsed))
  have found := same.find dbID key
  unfold KeyCall.InTime at late
  obtain ⟨owned, expired⟩ := Classical.not_imp.mp late
  rw [Option.not_isSome_iff_eq_none] at expired
  rw [expired] at found
  have given : ¬ ttl ≤ 0 := not_le.mpr positive
  have ahead : stores.now + elapsed < stores.now + elapsed + ttl :=
    Int.lt_add_of_pos_right _ positive
  have expire : setNXExpire ttl = some (some ttl) := by
    simp [setNXExpire, positive, wholeMilliseconds_eq positive whole]
  refine ⟨_, rfl, ?_, ?_⟩
  · simp only [KeyCall.onMemory, KeyTables.refreshIdempotency, given, if_false, owned, ne_eq,
      not_true, KeyTables.acquireIdempotency, AList.lookup_insert, ahead, if_true]
    exact congrArg (Outcome.claim · false) owned
  · simp only [KeyCall.onRedis, KeyCall.call, Call.program, Program.map_run,
      Redis.refreshIdempotency, given, if_false, Redis.acquireIdempotency, expire, Program.run,
      Request.run, found, Option.isSome_none, Bool.false_eq_true, if_true]
    rfl

theorem refresh_after_expiry_shows :
    ∃ stores after, KeyStores.step stores (2000000000, .refresh "db" "k" "q" second) = some after ∧
      ((KeyCall.acquire "db" "k" "r" second).onMemory after.now after.memory).1 =
        .claim "q" false ∧
      ((KeyCall.acquire "db" "k" "r" second).onRedis after.now after.server).1 =
        .claim "r" true := by
  obtain ⟨stores, run, late⟩ : ∃ stores, Runs.Reaches step Timely ⟨1, {}, {}⟩ stores ∧
      ¬ (KeyCall.refresh "db" "k" "q" second).InTime (stores.now + 2000000000) stores.memory :=
    Runs.exists_reaches [(0, .acquire "db" "k" "q" second)] (by decide +kernel)
  exact ⟨stores, late_refresh_shows run _ "db" "k" "q" "r" (by decide) late⟩

/-! ### A key, refreshed in time and too late -/

/-- Query `q` claims a key for a second and refreshes it after this time. -/
def refreshed (elapsed : Nat) : List (Nat × KeyCall) :=
  [(0, .acquire "db" "k" "q" second), (elapsed, .refresh "db" "k" "q" second)]

theorem refresh_in_time_agrees :
    ∃ stores, Runs.Reaches step Timely ⟨1, {}, {}⟩ stores ∧
      ((KeyCall.acquire "db" "k" "r" second).onRedis (stores.now + 700000000)
        stores.server).1 = .claim "q" false ∧
      ((KeyCall.acquire "db" "k" "r" second).onRedis (stores.now + 700000000)
        stores.server).1 =
        ((KeyCall.acquire "db" "k" "r" second).onMemory (stores.now + 700000000)
          stores.memory).1 := by
  obtain ⟨stores, run, answer⟩ : ∃ stores, Runs.Reaches step Timely ⟨1, {}, {}⟩ stores ∧
      ((KeyCall.acquire "db" "k" "r" second).onRedis (stores.now + 700000000)
        stores.server).1 = .claim "q" false :=
    Runs.exists_reaches (refreshed 500000000) (by decide +kernel)
  exact ⟨stores, run, answer, keys_agree run 700000000 (by decide)⟩

def offExpiry (stores : KeyStores) (now : Time) : Bool :=
  (stores.memory.idempExpires.entries.all fun entry => entry.2 ≠ now) &&
    stores.server.entries.entries.all fun entry =>
      match entry.2 with
      | .text _ (some expiry) => expiry ≠ now
      | _ => true

/-- Two seconds later Redis has forgotten the key and the memory store brings it back: a
third query gets it in one store only. -/
theorem late_refresh_disagrees :
    ∃ stores, Runs.Reaches step
        (fun stores action => action.2.InMillis ∧
          stores.offExpiry (stores.now + action.1) = true) ⟨1, {}, {}⟩ stores ∧
      stores.offExpiry stores.now = true ∧
      ((KeyCall.acquire "db" "k" "r" second).onRedis stores.now stores.server).1 =
        .claim "r" true ∧
      ((KeyCall.acquire "db" "k" "r" second).onMemory stores.now stores.memory).1 =
        .claim "q" false :=
  Runs.exists_reaches (refreshed 2000000000) (by decide +kernel)

end KeyStores

end DbBridge.State
