import DbBridge.Domain.Models

/-!
# Caller identity

The part of `internal/authn` that the query manager consults: the identity a
transport attached to the request context, and whether its subject may act on a
record. `none` is a context without an identity, which is how a deployment
without authentication looks.
-/

namespace DbBridge.Authn

inductive Scope where
  | read
  | write
  | admin
  deriving DecidableEq, Repr

structure Identity where
  subject : String
  scopes : List Scope
  deriving DecidableEq, Repr

def Identity.isAdmin (identity : Identity) : Bool := identity.scopes.contains .admin

/-- `AuthorizeSubject`, `true` standing for a nil error. -/
def authorizeSubject (caller : Option Identity) (owner : String) : Bool :=
  match caller with
  | none => true
  | some identity => identity.isAdmin || (owner ≠ "" && owner = identity.subject)

def subjectFromContext (caller : Option Identity) : String :=
  match caller with
  | none => ""
  | some identity => identity.subject

end DbBridge.Authn
