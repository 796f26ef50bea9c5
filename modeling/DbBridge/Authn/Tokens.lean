import DbBridge.Authn.Identity
import Mathlib.Data.List.Nodup

/-!
# Configured tokens

`New` checks the configured token list, `BearerToken` takes a credential from a header and
`Authenticate` resolves it to the identity of a token. The environment is a function from
variable names to values, empty for a variable that is not set.
-/

namespace DbBridge.Authn

open List

structure TokenSpec where
  subject : String
  value : String := ""
  valueEnv : String := ""
  scopes : List String

structure Token where
  value : String
  subject : String
  scopes : List Scope
  deriving DecidableEq, Repr

def scopeNamed : String → Option Scope
  | "read" => some .read
  | "write" => some .write
  | "admin" => some .admin
  | _ => none

/-- The loop over a token's scopes; `label` is the start of its error texts. -/
def parseScopes (label : String) : List String → Except String (List Scope)
  | [] => .ok []
  | raw :: rest =>
    match scopeNamed raw with
    | none => .error (label ++ ": unknown scope \"" ++ raw ++ "\"")
    | some scope => (parseScopes label rest).map (scope :: ·)

/-- One round of the loop of `New`, for the token at `index`. -/
def newToken (getenv : String → String) (seen : List String) (index : Nat) (spec : TokenSpec) :
    Except String Token := do
  let place := "auth token " ++ toString index
  let label := place ++ " (" ++ spec.subject ++ ")"
  let value := if spec.valueEnv ≠ "" then getenv spec.valueEnv else spec.value
  if spec.valueEnv ≠ "" ∧ value = "" then
    throw (label ++ ": environment variable " ++ spec.valueEnv ++ " is empty")
  if value = "" then throw (label ++ ": no value or value_env")
  if value ∈ seen then throw (label ++ ": duplicate value")
  if spec.subject = "" then throw (place ++ ": subject must not be empty")
  if spec.scopes = [] then throw (label ++ ": at least one scope is required")
  let scopes ← parseScopes label spec.scopes
  return { value, subject := spec.subject, scopes }

def newTokens (getenv : String → String) (seen : List String) (index : Nat) :
    List TokenSpec → Except String (List Token)
  | [] => .ok []
  | spec :: rest => do
      let token ← newToken getenv seen index spec
      let tokens ← newTokens getenv (token.value :: seen) (index + 1) rest
      return token :: tokens

def new (getenv : String → String) (specs : List TokenSpec) : Except String (List Token) :=
  if specs = [] then .error "auth is configured but no tokens are defined"
  else newTokens getenv [] 0 specs

/-- `Authenticate`: all tokens are compared and the last match counts. -/
def authenticate (tokens : List Token) (credential : String) : Option Identity :=
  (tokens.reverse.find? (·.value = credential)).map fun token =>
    { subject := token.subject, scopes := token.scopes }

/-- `unicode.IsSpace`. -/
def isSpace (c : Char) : Bool :=
  (0x09 ≤ c.toNat && c.toNat ≤ 0x0D) || (0x2000 ≤ c.toNat && c.toNat ≤ 0x200A) ||
    c.toNat ∈ [0x20, 0x85, 0xA0, 0x1680, 0x2028, 0x2029, 0x202F, 0x205F, 0x3000]

/-- `strings.TrimSpace`. -/
def trimSpace (text : String) : String :=
  .ofList ((text.toList.dropWhile isSpace).reverse.dropWhile isSpace).reverse

/-- `BearerToken`. Only ASCII letters fold to those of the scheme, so that the seven bytes
compared are seven characters. -/
def bearerToken (header : String) : String :=
  if (header.toList.take 7).map Char.toLower = "bearer ".toList then
    trimSpace (.ofList (header.toList.drop 7))
  else ""

theorem bearerToken_bearer (value : String) :
    bearerToken ("Bearer " ++ value) = trimSpace value := by
  have scheme : "Bearer ".toList.map Char.toLower = "bearer ".toList := by decide
  have split : ("Bearer " ++ value).toList = "Bearer ".toList ++ value.toList :=
    String.toList_append
  have seven : "Bearer ".toList.length = 7 := by decide
  rw [bearerToken, split, ← seven, take_left, drop_left, if_pos scheme,
    String.ofList_toList]

/-! ## What the accepted tokens are -/

/-- The value `New` takes for an entry. -/
def TokenSpec.given (getenv : String → String) (spec : TokenSpec) : String :=
  if spec.valueEnv ≠ "" then getenv spec.valueEnv else spec.value

structure Resolves (getenv : String → String) (spec : TokenSpec) (token : Token) : Prop where
  value : token.value = spec.given getenv
  subject : token.subject = spec.subject
  scopes : spec.scopes.map scopeNamed = token.scopes.map some

variable {getenv : String → String} {specs : List TokenSpec} {tokens : List Token}

theorem parseScopes_ok {label : String} {raws : List String} {scopes : List Scope}
    (parsed : parseScopes label raws = .ok scopes) : raws.map scopeNamed = scopes.map some := by
  induction raws generalizing scopes with
  | nil =>
    cases parsed
    rfl
  | cons raw rest ih =>
    unfold parseScopes at parsed
    cases named : scopeNamed raw with
    | none => simp [named] at parsed
    | some =>
      cases others : parseScopes label rest with
      | error => simp [named, others, Except.map] at parsed
      | ok =>
        simp only [named, others, Except.map, Except.ok.injEq] at parsed
        rw [← parsed, map_cons, map_cons, named, ih others]

variable {seen : List String} {token : Token} {index : Nat}

theorem newToken_ok {spec : TokenSpec} (accepted : newToken getenv seen index spec = .ok token) :
    Resolves getenv spec token ∧ token.value ∉ seen := by
  have given : (if spec.valueEnv ≠ "" then getenv spec.valueEnv else spec.value) =
      spec.given getenv := rfl
  simp only [newToken, given, bind, Except.bind, pure, Except.pure, throw, throwThe,
    MonadExceptOf.throw] at accepted
  (repeat' split at accepted) <;> cases accepted
  rename_i unseen _ _ _ _ parsed
  exact ⟨⟨rfl, rfl, parseScopes_ok parsed⟩, unseen⟩

/-- The accepted tokens are the entries, and no two have the same value. -/
theorem newTokens_ok (accepted : newTokens getenv seen index specs = .ok tokens) :
    (∀ spec ∈ specs, ∃ token ∈ tokens, Resolves getenv spec token) ∧
      (∀ token ∈ tokens, token.value ∉ seen ∧ ∃ spec ∈ specs, Resolves getenv spec token) ∧
      (tokens.map Token.value).Nodup := by
  induction specs generalizing seen index tokens with
  | nil =>
    cases accepted
    simp
  | cons spec rest ih =>
    simp only [newTokens, bind, Except.bind, pure, Except.pure] at accepted
    split at accepted
    · contradiction
    rename_i token first
    split at accepted <;> cases accepted
    rename_i others following
    obtain ⟨resolves, fresh⟩ := newToken_ok first
    obtain ⟨listed, origin, distinct⟩ := ih following
    refine ⟨?_, ?_, ?_⟩
    · rw [forall_mem_cons]
      refine ⟨⟨token, mem_cons_self .., resolves⟩, fun later member => ?_⟩
      obtain ⟨found, known, same⟩ := listed later member
      exact ⟨found, mem_cons_of_mem _ known, same⟩
    · rw [forall_mem_cons]
      refine ⟨⟨fresh, spec, mem_cons_self .., resolves⟩, fun later member => ?_⟩
      obtain ⟨apart, found, known, same⟩ := origin later member
      exact ⟨fun old => apart (mem_cons_of_mem _ old), found, mem_cons_of_mem _ known,
        same⟩
    · rw [map_cons, nodup_cons, mem_map]
      refine ⟨?_, distinct⟩
      rintro ⟨other, member, same⟩
      exact (origin other member).1 (same ▸ mem_cons_self ..)

theorem authenticate_eq_some {credential : String} {identity : Identity}
    (known : authenticate tokens credential = some identity) :
    ∃ token ∈ tokens, token.value = credential ∧ identity = ⟨token.subject, token.scopes⟩ := by
  obtain ⟨token, found, rfl⟩ := Option.map_eq_some_iff.mp known
  exact ⟨token, mem_reverse.mp (mem_of_find?_eq_some found),
    by simpa using find?_some found, rfl⟩

theorem authenticate_self (distinct : (tokens.map Token.value).Nodup) (member : token ∈ tokens) :
    authenticate tokens token.value = some ⟨token.subject, token.scopes⟩ := by
  cases known : authenticate tokens token.value with
  | none =>
    simp only [authenticate, Option.map_eq_none_iff, find?_eq_none] at known
    exact absurd (known token (mem_reverse.mpr member)) (by simp)
  | some =>
    obtain ⟨_, listed, same, rfl⟩ := authenticate_eq_some known
    rw [inj_on_of_nodup_map distinct listed member same]

/-- A caller can present an entry's value in a header, and is then its owner, exactly when no
white space surrounds the value; no credential but the entries' values is known. -/
theorem token_identifies_owner (accepted : new getenv specs = .ok tokens) :
    (∀ spec ∈ specs, (bearerToken ("Bearer " ++ spec.given getenv) = spec.given getenv ∧
      ∃ scopes, spec.scopes.map scopeNamed = scopes.map some ∧
        authenticate tokens (bearerToken ("Bearer " ++ spec.given getenv)) =
          some ⟨spec.subject, scopes⟩) ↔ trimSpace (spec.given getenv) = spec.given getenv) ∧
    ∀ credential identity, authenticate tokens credential = some identity →
      ∃ spec ∈ specs, spec.given getenv = credential ∧ identity.subject = spec.subject ∧
        spec.scopes.map scopeNamed = identity.scopes.map some := by
  obtain ⟨listed, origin, distinct⟩ : _ ∧ _ ∧ _ := by
    unfold new at accepted
    split at accepted
    · contradiction
    · exact newTokens_ok accepted
  constructor
  · intro spec member
    rw [bearerToken_bearer]
    refine ⟨And.left, fun bare => ⟨bare, ?_⟩⟩
    obtain ⟨token, known, resolves⟩ := listed spec member
    rw [bare, ← resolves.value, ← resolves.subject]
    exact ⟨token.scopes, resolves.scopes, authenticate_self distinct known⟩
  · intro credential identity known
    obtain ⟨token, found, rfl, rfl⟩ := authenticate_eq_some known
    obtain ⟨_, spec, member, resolves⟩ := origin token found
    exact ⟨spec, member, resolves.value.symm, resolves.subject, resolves.scopes⟩

theorem sole_token_identifies_owner :
    ∃ tokens, new (fun _ => "abc") [⟨"bob", "", "TOKEN", ["admin"]⟩] = .ok tokens ∧
      ∃ scopes, authenticate tokens (bearerToken ("Bearer " ++ "abc")) = some ⟨"bob", scopes⟩ := by
  have accepted : new (fun _ => "abc") [⟨"bob", "", "TOKEN", ["admin"]⟩] =
      .ok [⟨"abc", "bob", [.admin]⟩] := rfl
  obtain ⟨_, scopes, _, known⟩ :=
    ((token_identifies_owner accepted).1 ⟨"bob", "", "TOKEN", ["admin"]⟩ (by simp)).mpr rfl
  exact ⟨_, accepted, scopes, known⟩

/-- A value that ends in a newline is accepted, but its header is read without it, and here
that is the token of somebody else. -/
theorem padded_token_is_anothers :
    ∃ tokens, new (fun _ => "abc\n")
        [⟨"alice", "abc", "", ["read"]⟩, ⟨"bob", "", "TOKEN", ["admin"]⟩] = .ok tokens ∧
      bearerToken ("Bearer " ++ "abc\n") ≠ "abc\n" ∧
      authenticate tokens (bearerToken ("Bearer " ++ "abc\n")) = some ⟨"alice", [.read]⟩ := by
  refine ⟨_, rfl, ?_, ?_⟩
  · decide
  · rfl

end DbBridge.Authn
