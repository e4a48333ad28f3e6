import Tabulation.Scope.Basic

/-! References written as `TYPE:ID`. -/
namespace Tabulation.Scope

/-- Why a text is no reference. -/
inductive ArgumentError where
  | noColon (text : String)
  | noType (text : String)
  | noNumber (text : String)
deriving DecidableEq, Repr

def ArgumentError.message : ArgumentError → String
  | .noColon text => s!"Scope '{text}' is not TYPE:ID"
  | .noType text => s!"Scope '{text}' has no type"
  | .noNumber text => s!"Scope '{text}' has a non-numeric id"

/-- What stands before and after the last occurrence of `c`. -/
def splitAtLast (c : Char) : List Char → Option (List Char × List Char)
  | [] => none
  | d :: ds =>
    match splitAtLast c ds with
    | some (before, after) => some (d :: before, after)
    | none => if d = c then some ([], ds) else none

/-- Reads a type, which may contain colons itself, and an identifier after the last colon. -/
def Reference.ofText (text : String) : Except ArgumentError Reference :=
  match splitAtLast ':' text.toList with
  | none => .error (.noColon text)
  | some ([], _) => .error (.noType text)
  | some (entityType, id) =>
    match Decimal.readInt64 id with
    | some id => .ok ⟨String.ofList entityType, id⟩
    | none => .error (.noNumber text)

end Tabulation.Scope
