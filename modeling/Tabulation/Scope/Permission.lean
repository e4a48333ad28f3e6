import Tabulation.Scope.Basic

/-! Who may read what: grants by login, and the grants in force. -/
namespace Tabulation.Scope
open Json (Value Reader required optional)

/-- The caller of a query. -/
structure Identity where
  login : String := ""
  administrator : Bool := false
deriving DecidableEq, Repr

def Identity.reader : Reader Identity := fun d =>
  match d.fields? ["login", "administrator"] with
  | some [login, administrator] => do
    return ⟨← required .string login, ← optional false .bool administrator⟩
  | _ => none

/-- Whether a caller may read a leaf. -/
abbrev Oracle := Identity → Reference → Bool

/-- The leaves that each login may read. -/
structure Grants where
  byLogin : OrderedMap String IdsByType := ∅
deriving DecidableEq

namespace Grants

def grant (g : Grants) (login : String) (r : Reference) : Grants :=
  ⟨g.byLogin.alter login fun leaves => (leaves.getD ∅).add r⟩

def allows (g : Grants) (login : String) (r : Reference) : Bool :=
  match (g.byLogin.get? login).bind fun leaves => leaves.get? r.entityType with
  | some ids => ids.contains r.id
  | none => false

def toJson (g : Grants) : Value :=
  .object (g.byLogin.entries.map fun e => (e.1, e.2.toJson))

def reader : Reader Grants := fun d => (Reader.map some IdsByType.reader d).map Grants.mk

end Grants

/-- The grants in force, with the number of times that they have been replaced. -/
structure Acl where
  epoch : Nat := 0
  grants : Grants := {}
deriving DecidableEq

namespace Acl

/-- Administrators read everything, others what they have been granted. -/
def canRead (acl : Acl) : Oracle := fun caller r =>
  caller.administrator || acl.grants.allows caller.login r

/-- Replaces all grants. -/
def refresh (acl : Acl) (grants : Grants) : Acl := ⟨acl.epoch + 1, grants⟩

end Acl

end Tabulation.Scope
