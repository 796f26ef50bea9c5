import DbBridge.RateLimit.Limiter

/-!
# The key a request is counted against

REST takes the host out of `RemoteAddr`, the Connect interceptor takes the peer's address as it is.
Both addresses are what `net` prints for the client's TCP endpoint.
-/

namespace DbBridge.RateLimit

/-! ## Addresses -/

def cutFirst (sep : Char) : List Char → Option (List Char × List Char)
  | [] => none
  | c :: rest =>
    if c = sep then some ([], rest)
    else (cutFirst sep rest).map fun parts => (c :: parts.1, parts.2)

def cutLast (sep : Char) : List Char → Option (List Char × List Char)
  | [] => none
  | c :: rest =>
    match cutLast sep rest with
    | some parts => some (c :: parts.1, parts.2)
    | none => if c = sep then some ([], rest) else none

def joinHostPort (host port : List Char) : List Char :=
  if ':' ∈ host then '[' :: (host ++ ']' :: ':' :: port) else host ++ ':' :: port

def splitHostPort (hostport : List Char) : Option (List Char × List Char) := do
  let (before, port) ← cutLast ':' hostport
  match hostport with
  | '[' :: inside => do
      let (host, behind) ← cutFirst ']' inside
      -- The first closing bracket stands right before the last colon.
      if behind = ':' :: port ∧ '[' ∉ inside ∧ ']' ∉ behind then some (host, port) else none
  | _ =>
    if ':' ∉ before ∧ '[' ∉ hostport ∧ ']' ∉ hostport then some (before, port) else none

/-- `clientAddr` with no client IP resolved by a middleware. -/
def clientAddr (remoteAddr : List Char) : List Char :=
  match splitHostPort remoteAddr with
  | some (host, _) => host
  | none => remoteAddr

def keyOf (remoteAddr : List Char) : String := "addr:" ++ String.ofList (clientAddr remoteAddr)

/-- The key of `rateLimitInterceptor.allow`. -/
def peerKey (addr : List Char) : String := "addr:" ++ String.ofList addr

variable {sep : Char}

theorem cutFirst_append {before : List Char} (absent : sep ∉ before) (rest : List Char) :
    cutFirst sep (before ++ sep :: rest) = some (before, rest) := by
  induction before with
  | nil => simp [cutFirst]
  | cons c _ ih =>
    have other : c ≠ sep := fun same => absent (same ▸ List.mem_cons_self ..)
    have further := ih fun member => absent (List.mem_cons_of_mem _ member)
    simp [cutFirst, other, further]

theorem cutLast_eq_none {text : List Char} (absent : sep ∉ text) : cutLast sep text = none := by
  induction text with
  | nil => rfl
  | cons c _ ih =>
    have other : c ≠ sep := fun same => absent (same ▸ List.mem_cons_self ..)
    simp [cutLast, ih fun member => absent (List.mem_cons_of_mem _ member), other]

theorem cutLast_append {rest : List Char} (absent : sep ∉ rest) (before : List Char) :
    cutLast sep (before ++ sep :: rest) = some (before, rest) := by
  induction before with
  | nil => simp [cutLast, cutLast_eq_none absent]
  | cons _ _ ih => simp [cutLast, ih]

def Unbracketed (text : List Char) : Prop := '[' ∉ text ∧ ']' ∉ text

theorem splitHostPort_join {host port : List Char} (plain : Unbracketed host)
    (digits : Unbracketed port) (noColon : ':' ∉ port) :
    splitHostPort (joinHostPort host port) = some (host, port) := by
  obtain ⟨noOpen, noClose⟩ := plain
  obtain ⟨noOpen', noClose'⟩ := digits
  unfold joinHostPort
  split
  · have last : cutLast ':' ('[' :: (host ++ ']' :: ':' :: port)) =
        some ('[' :: (host ++ [']']), port) := by
      have := cutLast_append noColon ('[' :: (host ++ [']']))
      simpa using this
    have first : cutFirst ']' (host ++ ']' :: ':' :: port) = some (host, ':' :: port) :=
      cutFirst_append noClose _
    simp [splitHostPort, last, first, noOpen, noOpen', noClose']
  · rename_i single
    have last := cutLast_append noColon host
    cases host with
    | nil =>
      simp only [List.nil_append] at last ⊢
      simp [splitHostPort, last, noOpen', noClose']
    | cons c =>
      have other : c ≠ '[' := fun same => noOpen (same ▸ List.mem_cons_self ..)
      simp only [List.cons_append] at last ⊢
      simp only [List.mem_cons, not_or] at noOpen noClose single
      simp [splitHostPort, last, other, noOpen', noClose', noOpen, noClose, single]

/-! ## Origins -/

inductive Origin where
  | rest (port : Nat)
  | connect (port : Nat)

def endpoint (host : String) (port : Nat) : List Char :=
  joinHostPort host.toList (toString port).toList

def Origin.key (host : String) : Origin → String
  | .rest port => keyOf (endpoint host port)
  | .connect port => peerKey (endpoint host port)

theorem portText (port : Nat) : (toString port).toList = Nat.toDigits 10 port := by
  rw [Nat.toString_eq_ofList_toDigits, String.toList_ofList]

variable {host : String}

theorem endpoint_split (plain : Unbracketed host.toList) (port : Nat) :
    splitHostPort (endpoint host port) = some (host.toList, (toString port).toList) := by
  have digits : ∀ c ∈ (toString port).toList, c.isDigit := by
    intro c member
    rw [portText] at member
    exact Nat.isDigit_of_mem_toDigits (by decide) (by decide) member
  have absent : ∀ c : Char, c.isDigit = false → c ∉ (toString port).toList := by
    intro c noDigit member
    rw [digits c member] at noDigit
    contradiction
  exact splitHostPort_join plain ⟨absent _ (by decide), absent _ (by decide)⟩
    (absent _ (by decide))

theorem key_rest (plain : Unbracketed host.toList) (port : Nat) :
    (Origin.rest port).key host = "addr:" ++ host := by
  simp [Origin.key, keyOf, clientAddr, endpoint_split plain]

theorem endpoint_injective {port other : Nat} (same : endpoint host port = endpoint host other) :
    port = other := by
  have texts : (toString port).toList = (toString other).toList := by
    unfold endpoint joinHostPort at same
    split at same <;> simpa only [List.cons.injEq, List.append_cancel_left_eq, true_and] using same
  rw [portText, portText] at texts
  have values := congrArg (Nat.ofDigitChars 10 · 0) texts
  simpa only [Nat.ofDigitChars_ten_toDigits] using values

theorem endpoint_ne_host (host : String) (port : Nat) : endpoint host port ≠ host.toList := by
  intro same
  have lengths := congrArg List.length same
  unfold endpoint joinHostPort at lengths
  split at lengths
  · simp at lengths
    omega
  · simp at lengths

/-- REST requests of a host share a key; a Connect request shares one only with those
from the same port. -/
theorem key_eq_iff (plain : Unbracketed host.toList) (one other : Origin) :
    one.key host = other.key host ↔
      one = other ∨ ∃ port port', one = .rest port ∧ other = .rest port' := by
  have mixed : ∀ port, "addr:" ++ host ≠ peerKey (endpoint host port) := by
    intro port same
    rw [peerKey, String.append_right_inj] at same
    exact endpoint_ne_host host port (by simpa using (congrArg String.toList same).symm)
  cases one with
  | rest =>
    cases other with
    | rest => simp [key_rest plain]
    | connect port' =>
      rw [key_rest plain, Origin.key]
      simpa using mixed port'
  | connect port =>
    cases other with
    | rest =>
      rw [key_rest plain, Origin.key]
      simpa using fun same => mixed port same.symm
    | connect =>
      simp only [Origin.key, peerKey, String.append_right_inj]
      constructor
      · intro same
        exact .inl (congrArg _ (endpoint_injective (String.ofList_injective same)))
      · rintro (same | ⟨_, _, same, -⟩)
        · cases same
          rfl
        · contradiction

end DbBridge.RateLimit
