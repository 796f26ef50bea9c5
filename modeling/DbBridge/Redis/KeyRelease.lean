import DbBridge.Lib.Runs
import DbBridge.Lib.Utf8
import DbBridge.State.Memory

/-!
# The idempotency key that garbage collection releases

`SubmitQuery` claims a key built from the request, `collectQuery` releases one built from
the record it read back. A Go string is a sequence of bytes; `encoding/json` writes it as
text, where a byte that does not belong to valid UTF-8 becomes U+FFFD. A submission is one
step here: its claim together with its `PutQuery`.
-/

namespace DbBridge.State.Redis.KeyRelease

open Utf8 AList

abbrev GoString := List UInt8

/-! ## What the handlers pass on -/

/-- The bytes net/http accepts in a header value: no control character but the tab. -/
def headerByte (byte : UInt8) : Bool :=
  byte = 9 || (32 ≤ byte && byte ≠ 127)

def isBlank (byte : UInt8) : Bool := byte = 9 || byte = 32

def legalHeader (value : GoString) : Bool :=
  value.all headerByte && !value.head?.any isBlank && !value.getLast?.any isBlank

/-- Where a key comes from: the `Idempotency-Key` header that the REST handler reads, or
the options of a Connect message, whose strings are text. -/
inductive KeySource where
  | header (value : GoString) (legal : legalHeader value = true)
  | message (text : List Char)

def KeySource.key : KeySource → GoString
  | .header value _ => value
  | .message text => Utf8.encode text

/-- A submission: both handlers decode the database ID from text, the subject is the
authenticated caller's. -/
structure Request where
  databaseID : List Char
  subject : GoString
  source : KeySource

/-! ## The two keys -/

def scopedIdempotencyKey (subject key : GoString) : GoString := subject ++ [0] ++ key

/-- `idempotencyKey`, on bytes. -/
def storedKey (dbID key : GoString) : GoString :=
  Utf8.encode "dbbridge:idempotency:".toList ++ dbID ++ Utf8.encode [':'] ++ key

structure Record where
  databaseID : GoString
  subject : GoString
  idempotencyKey : GoString

structure Document where
  databaseID : List Char
  subject : List Char
  idempotencyKey : List Char

def marshal (record : Record) : Document where
  databaseID := Utf8.lossy record.databaseID
  subject := Utf8.lossy record.subject
  idempotencyKey := Utf8.lossy record.idempotencyKey

def unmarshal (document : Document) : Record where
  databaseID := Utf8.encode document.databaseID
  subject := Utf8.encode document.subject
  idempotencyKey := Utf8.encode document.idempotencyKey

def Request.record (request : Request) : Record where
  databaseID := Utf8.encode request.databaseID
  subject := request.subject
  idempotencyKey := request.source.key

def Request.claimedKey (request : Request) : GoString :=
  storedKey (Utf8.encode request.databaseID)
    (scopedIdempotencyKey request.subject request.source.key)

def releasedKey (record : Record) : GoString :=
  storedKey record.databaseID (scopedIdempotencyKey record.subject record.idempotencyKey)

/-! ## When they are the same -/

def Request.Textual (request : Request) : Prop :=
  Utf8.Valid request.subject ∧ Utf8.Valid request.source.key

instance (request : Request) : Decidable request.Textual :=
  inferInstanceAs (Decidable (Utf8.Valid request.subject ∧ Utf8.Valid request.source.key))

theorem message_valid (text : List Char) : Valid (KeySource.message text).key :=
  ⟨text, rfl⟩

theorem scopedIdempotencyKey_lossy_iff (subject key : GoString) :
    scopedIdempotencyKey (encode (lossy subject)) (encode (lossy key)) =
      scopedIdempotencyKey subject key ↔ Valid subject ∧ Valid key := by
  constructor
  · intro same
    -- neither part can shrink, so both keep their length
    have total := congrArg List.length same
    have subjectGrows := length_le_encode_lossy subject
    have keyGrows := length_le_encode_lossy key
    simp only [scopedIdempotencyKey, List.length_append] at total
    constructor
    · exact valid_of_length_encode_lossy (by omega)
    · exact valid_of_length_encode_lossy (by omega)
  · rintro ⟨subjectValid, keyValid⟩
    rw [encode_lossy_of_valid subjectValid, encode_lossy_of_valid keyValid]

theorem releasedKey_eq_iff (request : Request) :
    releasedKey (unmarshal (marshal request.record)) = request.claimedKey ↔ request.Textual := by
  unfold releasedKey unmarshal marshal Request.record Request.claimedKey storedKey
  simp only [lossy_encode, List.append_cancel_left_eq]
  exact scopedIdempotencyKey_lossy_iff request.subject request.source.key

/-! ## Submissions and garbage collection -/

/-- Redis, as far as keys and their queries are concerned; `issued` lists the query IDs
given out, `collected` those whose record garbage collection has deleted. -/
structure Vault where
  keys : AList fun _ : GoString => String := ∅
  documents : Table Document := ∅
  issued : List String := []
  collected : List String := []

/-- `lapse` is a key whose time has run out. -/
inductive VaultAction where
  | submit (queryID : String) (request : Request)
  | collect (queryID : String)
  | lapse (key : GoString)

namespace Vault

def put (v : Vault) (queryID : String) (request : Request) : Vault :=
  { v with
    documents := v.documents.insert queryID (marshal request.record)
    issued := queryID :: v.issued }

def release (v : Vault) (queryID : String) (record : Record) : Vault :=
  if record.idempotencyKey = [] then v
  else if v.keys.lookup (releasedKey record) = some queryID then
    { v with keys := v.keys.erase (releasedKey record) }
  else v

/-- A submission that finds its key held by a stored query is answered with that query;
a key whose query is gone is taken over. -/
def step (v : Vault) : VaultAction → Option Vault
  | .submit queryID request =>
    if queryID ∈ v.issued then none
    else if request.source.key = [] then some (v.put queryID request)
    else
      match v.keys.lookup request.claimedKey with
      | some existing =>
        if (v.documents.lookup existing).isSome then some v
        else some { v.put queryID request with
          keys := v.keys.insert request.claimedKey queryID }
      | none => some { v.put queryID request with
          keys := v.keys.insert request.claimedKey queryID }
  | .collect queryID =>
    match v.documents.lookup queryID with
    | none => some v
    | some document =>
      let released := v.release queryID (unmarshal document)
      some { released with
        documents := released.documents.erase queryID
        collected := queryID :: released.collected }
  | .lapse key => some { v with keys := v.keys.erase key }

def TextualRequests (_ : Vault) : VaultAction → Prop
  | .submit _ request => request.Textual
  | _ => True

instance (v : Vault) (action : VaultAction) : Decidable (TextualRequests v action) :=
  match action with
  | .submit _ request => inferInstanceAs (Decidable request.Textual)
  | .collect _ => instDecidableTrue
  | .lapse _ => instDecidableTrue

structure Inv (v : Vault) : Prop where
  held : ∀ key queryID, v.keys.lookup key = some queryID →
    ∃ document, v.documents.lookup queryID = some document ∧
      (unmarshal document).idempotencyKey ≠ [] ∧ releasedKey (unmarshal document) = key
  known : ∀ queryID document, v.documents.lookup queryID = some document → queryID ∈ v.issued
  gone : ∀ queryID ∈ v.collected, queryID ∈ v.issued ∧ v.documents.lookup queryID = none

theorem Inv.initial : Inv {} := by
  constructor <;> simp

section
variable {v : Vault} (inv : Inv v) {queryID : String}
include inv

theorem Inv.put (request : Request) (fresh : queryID ∉ v.issued) : Inv (v.put queryID request) := by
  have other : ∀ {id : String} {document : Document},
      v.documents.lookup id = some document → id ≠ queryID := by
    intro id document found same
    exact fresh (same ▸ inv.known id document found)
  constructor
  · intro key id held
    obtain ⟨document, found, facts⟩ := inv.held key id held
    exact ⟨document, (lookup_insert_ne (other found)).trans found, facts⟩
  · intro id document found
    by_cases same : id = queryID
    · subst same
      exact List.mem_cons_self
    · rw [Vault.put, lookup_insert_ne same] at found
      exact List.mem_cons_of_mem _ (inv.known id document found)
  · intro id collected
    obtain ⟨issued, missing⟩ := inv.gone id collected
    have ne : id ≠ queryID := by
      rintro rfl
      exact fresh issued
    exact ⟨List.mem_cons_of_mem _ issued, (lookup_insert_ne ne).trans missing⟩

theorem Inv.claim (request : Request) (fresh : queryID ∉ v.issued) (textual : request.Textual)
    (filled : request.source.key ≠ []) :
    Inv { v.put queryID request with keys := v.keys.insert request.claimedKey queryID } := by
  have stored := inv.put request fresh
  refine ⟨?_, stored.known, stored.gone⟩
  intro key id held
  rcases Tables.insert_cases held with ⟨rfl, rfl⟩ | ⟨_, held⟩
  · refine ⟨marshal request.record, lookup_insert _, ?_,
      (releasedKey_eq_iff request).mpr textual⟩
    have unchanged : (unmarshal (marshal request.record)).idempotencyKey = request.source.key :=
      encode_lossy_of_valid textual.2
    rw [unchanged]
    exact filled
  · exact stored.held key id held

theorem Inv.collect {document : Document} (found : v.documents.lookup queryID = some document) :
    Inv { v.release queryID (unmarshal document) with
      documents := (v.release queryID (unmarshal document)).documents.erase queryID
      collected := queryID :: (v.release queryID (unmarshal document)).collected } := by
  have frame : (v.release queryID (unmarshal document)).documents = v.documents ∧
      (v.release queryID (unmarshal document)).issued = v.issued ∧
      (v.release queryID (unmarshal document)).collected = v.collected := by
    unfold release
    split
    · exact ⟨rfl, rfl, rfl⟩
    · split <;> exact ⟨rfl, rfl, rfl⟩
  obtain ⟨documents, issued, collected⟩ := frame
  rw [documents, collected]
  have own : ∀ key, v.keys.lookup key = some queryID →
      (unmarshal document).idempotencyKey ≠ [] ∧ releasedKey (unmarshal document) = key := by
    intro key held
    obtain ⟨_, lookup, facts⟩ := inv.held key queryID held
    rw [found] at lookup
    cases lookup
    exact facts
  constructor
  · intro key id held
    have before : v.keys.lookup key = some id ∧ id ≠ queryID := by
      unfold release at held
      split at held
      · rename_i noKey
        refine ⟨held, ?_⟩
        rintro rfl
        exact (own key held).1 noKey
      · split at held
        · by_cases same : key = releasedKey (unmarshal document)
          · subst same
            rw [lookup_erase] at held
            contradiction
          · rw [lookup_erase_ne same] at held
            refine ⟨held, ?_⟩
            rintro rfl
            exact same (own key held).2.symm
        · rename_i notHeld
          refine ⟨held, ?_⟩
          rintro rfl
          rw [(own key held).2] at notHeld
          exact notHeld held
    obtain ⟨other, lookup, facts⟩ := inv.held key id before.1
    exact ⟨other, (lookup_erase_ne before.2).trans lookup, facts⟩
  · intro id other lookup
    rw [issued]
    exact inv.known id other (Tables.lookup_of_erase lookup)
  · intro id member
    rw [issued]
    rcases List.mem_cons.mp member with rfl | earlier
    · exact ⟨inv.known id document found, lookup_erase _ _⟩
    · obtain ⟨known, missing⟩ := inv.gone id earlier
      have ne : id ≠ queryID := by
        rintro rfl
        rw [found] at missing
        contradiction
      exact ⟨known, (lookup_erase_ne ne).trans missing⟩

theorem Inv.step {after : Vault} {action : VaultAction} (textual : TextualRequests v action)
    (taken : v.step action = some after) : Inv after := by
  cases action with
  | submit queryID request =>
    simp only [Vault.step] at taken
    split at taken
    · contradiction
    · rename_i fresh
      split at taken
      · cases taken
        exact inv.put request fresh
      · rename_i filled
        split at taken
        · split at taken
          · cases taken
            exact inv
          · cases taken
            exact inv.claim request fresh textual filled
        · cases taken
          exact inv.claim request fresh textual filled
  | collect queryID =>
    simp only [Vault.step] at taken
    split at taken
    · cases taken
      exact inv
    · rename_i document found
      cases taken
      exact inv.collect found
  | lapse key =>
    cases Option.some.inj taken
    refine ⟨?_, inv.known, inv.gone⟩
    intro other queryID held
    have ne : other ≠ key := by
      rintro rfl
      simp [lookup_erase] at held
    exact inv.held other queryID (by rwa [lookup_erase_ne ne] at held)

end

/-- The key that garbage collection releases is the one the submission claimed exactly
when the subject and the key are UTF-8, which a key from a Connect message always is.
Where they are, no key points at a query whose record has been collected. -/
theorem released_key_is_claimed_key (request : Request) :
    (releasedKey (unmarshal (marshal request.record)) = request.claimedKey ↔
      request.Textual) ∧
    (∀ text, request.source = .message text →
      (request.Textual ↔ Valid request.subject)) ∧
    ∀ v, Runs.Reaches step TextualRequests {} v → ∀ queryID ∈ v.collected, ∀ key,
      v.keys.lookup key ≠ some queryID := by
  refine ⟨releasedKey_eq_iff request, ?_, ?_⟩
  · intro text source
    unfold Request.Textual
    rw [source]
    exact and_iff_left (message_valid text)
  intro v run queryID collected key held
  have inv : Inv v := run.invariant Inv Inv.initial fun _ _ _ inv textual taken =>
    inv.step textual taken
  obtain ⟨_, found, -⟩ := inv.held key queryID held
  rw [(inv.gone queryID collected).2] at found
  contradiction

def asciiRequest : Request where
  databaseID := ['d', 'b']
  subject := Utf8.encode ['a']
  source := .header [107] (by decide)

def latinRequest : Request where
  databaseID := ['d', 'b']
  subject := Utf8.encode ['a']
  source := .header [255] (by decide)

theorem ascii_key_released :
    ∃ v, Runs.Reaches step TextualRequests {} v ∧ "q" ∈ v.collected ∧
      v.keys.lookup asciiRequest.claimedKey ≠ some "q" := by
  obtain ⟨v, run, collected⟩ : ∃ v, Runs.Reaches step TextualRequests {} v ∧ "q" ∈ v.collected :=
    Runs.exists_reaches [.submit "q" asciiRequest, .collect "q"] (by decide +kernel)
  exact ⟨v, run, collected, (released_key_is_claimed_key asciiRequest).2.2 v run "q" collected _⟩

theorem latin_key_kept :
    ∃ v, Runs.Reaches step Runs.Always {} v ∧ "q" ∈ v.collected ∧
      releasedKey (unmarshal (marshal latinRequest.record)) ≠ latinRequest.claimedKey ∧
      v.keys.lookup latinRequest.claimedKey = some "q" :=
  Runs.exists_reaches [.submit "q" latinRequest, .collect "q"] (by decide +kernel)

end Vault

end DbBridge.State.Redis.KeyRelease
