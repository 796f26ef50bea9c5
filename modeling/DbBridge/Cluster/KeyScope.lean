import DbBridge.Authn.Tokens
import DbBridge.Cluster.Process
import DbBridge.Lib.PrefixCode
import DbBridge.State.RedisKeys

/-!
# Idempotency keys of different callers

The key of a claim is written as database ID, `:`, subject, NUL and the client's key,
with nothing escaped. Two callers are kept apart, whatever keys they choose, exactly
when neither of their scopes is written as a prefix of the other.
-/

namespace DbBridge.Cluster

open State Authn Settings

structure KeyRequest where
  dbID : String
  subject : String
  key : String

def KeyRequest.storedKey (request : KeyRequest) : Backend → String
  | .memory => MetaStore.fullKey request.dbID
      (scopedIdempotencyKey request.subject request.key)
  | .redis => Redis.idempotencyKey request.dbID
      (scopedIdempotencyKey request.subject request.key)

def scopeText (dbID subject : String) : String := dbID ++ ":" ++ subject ++ "\x00"

def requestsIn (scopes : Set (String × String)) : Set KeyRequest :=
  {request | (request.dbID, request.subject) ∈ scopes ∧ request.key ≠ ""}

/-- No scope is written as a prefix of another. -/
def ScopesSeparated (scopes : Set (String × String)) : Prop :=
  PrefixCode.PrefixFreeOn (fun scope => (scopeText scope.1 scope.2).toList) scopes

def KeyRequest.text (request : KeyRequest) : List Char :=
  (scopeText request.dbID request.subject).toList ++ request.key.toList

theorem KeyRequest.memory_toList (request : KeyRequest) :
    (request.storedKey .memory).toList = request.text := by
  unfold storedKey MetaStore.fullKey scopedIdempotencyKey text scopeText
  simp only [String.toList_append, List.append_assoc]

theorem KeyRequest.redis_toList (request : KeyRequest) :
    (request.storedKey .redis).toList = "dbbridge:idempotency:".toList ++ request.text := by
  unfold storedKey Redis.idempotencyKey scopedIdempotencyKey text scopeText
  simp only [String.toList_append, List.append_assoc]

theorem KeyRequest.storedKey_inj_iff (first second : KeyRequest) (backend : Backend) :
    first.storedKey backend = second.storedKey backend ↔ first.text = second.text := by
  rw [← String.toList_inj]
  cases backend with
  | memory => rw [memory_toList, memory_toList]
  | redis =>
    rw [redis_toList, redis_toList]
    exact List.append_right_inj _

theorem toList_ne_nil {text : String} (filled : text ≠ "") : text.toList ≠ [] := by
  intro empty
  apply filled
  rw [← String.toList_inj, empty]
  rfl

theorem ofList_ne_empty {text : List Char} (filled : text ≠ []) : String.ofList text ≠ "" := by
  intro empty
  apply filled
  rw [← String.ofList_inj, empty]

/-- The keys of all requests in these scopes are distinct, on either MetaStore, exactly
when the scopes are separated. -/
theorem stored_keys_distinct_iff (backend : Backend) (scopes : Set (String × String)) :
    Set.InjOn (fun request : KeyRequest => request.storedKey backend) (requestsIn scopes) ↔
      ScopesSeparated scopes := by
  rw [ScopesSeparated, ← PrefixCode.injOn_append_iff]
  constructor
  · rintro injective ⟨⟨dbID, subject⟩, text⟩ ⟨member, filled⟩ ⟨⟨otherDB, otherSubject⟩, otherText⟩
      ⟨otherMember, otherFilled⟩ same
    let first : KeyRequest := ⟨dbID, subject, String.ofList text⟩
    let second : KeyRequest := ⟨otherDB, otherSubject, String.ofList otherText⟩
    have texts : first.text = second.text := by
      simpa only [KeyRequest.text, first, second, String.toList_ofList] using same
    have equal : first = second := injective ⟨member, ofList_ne_empty filled⟩
      ⟨otherMember, ofList_ne_empty otherFilled⟩
      ((first.storedKey_inj_iff second backend).mpr texts)
    simp only [first, second, KeyRequest.mk.injEq, String.ofList_inj] at equal
    obtain ⟨rfl, rfl, rfl⟩ := equal
    rfl
  · intro injective first memberFirst second memberSecond same
    have texts : first.text = second.text := (first.storedKey_inj_iff second backend).mp same
    have equal : ((first.dbID, first.subject), first.key.toList) =
        ((second.dbID, second.subject), second.key.toList) :=
      injective ⟨memberFirst.1, toList_ne_nil memberFirst.2⟩
        ⟨memberSecond.1, toList_ne_nil memberSecond.2⟩ texts
    simp only [Prod.mk.injEq, String.toList_inj] at equal
    obtain ⟨⟨_, _⟩, _⟩ := equal
    cases first
    cases second
    simp_all

theorem scopeText_toList (dbID subject : String) :
    (scopeText dbID subject).toList = dbID.toList ++ ':' :: (subject.toList ++ ['\x00']) := by
  unfold scopeText
  simp only [String.toList_append, List.append_assoc]
  rfl

/-- It is enough that no database ID has a colon and no subject a NUL. -/
theorem scopesSeparated_of_clear {scopes : Set (String × String)}
    (clear : ∀ scope ∈ scopes, ':' ∉ scope.1.toList ∧ '\x00' ∉ scope.2.toList) :
    ScopesSeparated scopes := by
  rintro ⟨dbID, subject⟩ member ⟨otherDB, otherSubject⟩ otherMember isPrefix
  have free : PrefixCode.PrefixFreeOn
      (fun tag : List Char × List Char => tag.1 ++ ':' :: (tag.2 ++ ['\x00']))
      {tag | ':' ∉ tag.1 ∧ '\x00' ∉ tag.2} :=
    PrefixCode.prefixFreeOn_delimited fun _ clear => clear
  simp only [scopeText_toList] at isPrefix
  have equal := free (dbID.toList, subject.toList) (clear _ member)
    (otherDB.toList, otherSubject.toList) (clear _ otherMember) isPrefix
  simpa only [Prod.mk.injEq, String.toList_inj] using equal

/-! ## Two callers with one key -/

def collidingConfig : Config where
  inst := { id := "i", metaStore := "memory" }
  databases := [{ id := "a:b", engine := "postgres", dsn := "dsn" },
    { id := "a", engine := "postgres", dsn := "dsn" }]

def collidingTokens : List TokenSpec :=
  [{ subject := "c", value := "one", scopes := ["write"] },
    { subject := "b:c", value := "two", scopes := ["write"] }]

/-- The key `k` of subject `c` on database `a:b` is also that of subject `b:c` on
database `a`, on either MetaStore. -/
theorem accepted_callers_share_a_key :
    ∃ cfg tokens, validate collidingConfig = .ok cfg ∧
      new (fun _ => "") collidingTokens = .ok tokens ∧
      cfg.databases.map (·.id) = ["a:b", "a"] ∧ tokens.map (·.subject) = ["c", "b:c"] ∧
      ∀ backend, KeyRequest.storedKey ⟨"a:b", "c", "k"⟩ backend =
        KeyRequest.storedKey ⟨"a", "b:c", "k"⟩ backend := by
  refine ⟨withDefaults collidingConfig,
    [⟨"one", "c", [.write]⟩, ⟨"two", "b:c", [.write]⟩], by decide +kernel, by decide +kernel,
    by decide +kernel, by decide +kernel, ?_⟩
  intro backend
  cases backend <;> decide +kernel

end DbBridge.Cluster
