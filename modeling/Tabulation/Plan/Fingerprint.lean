import Tabulation.Digest.Base64
import Tabulation.Digest.Sha256
import Tabulation.Query.Definition
import Tabulation.Scope.Basic

/-! Fingerprints of what a plan depends on: the model, the resolved scope and the sort criteria that
come with the page. -/
namespace Tabulation.Plan
open Json (Value)
open Sorting (Criteria)

/-- Everything that is compiled, as one document. -/
def compilationInput (m : Query.Model) (scope : Scope.Resolved) (sort : Option Criteria) : Value :=
  .object [("model", m.toJson), ("scope", scope.toJson),
    ("sort", (sort.map Criteria.toJson).getD .null)]

/-- The bytes that are digested: the text of the document. -/
def hashedBytes (m : Query.Model) (scope : Scope.Resolved) (sort : Option Criteria) : List UInt8 :=
  (compilationInput m scope sort).text.toUTF8.toList

/-- The digest of the document. -/
def fingerprint (m : Query.Model) (scope : Scope.Resolved) (sort : Option Criteria) : String :=
  String.ofList (Digest.base64Url (Digest.sha256 (hashedBytes m scope sort)))

end Tabulation.Plan
