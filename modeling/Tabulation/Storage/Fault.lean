import Tabulation.Catalog.Basic
import Tabulation.Json.Printer

/-! Faults of a store while it answers a query. -/
namespace Tabulation.Storage
open Json (Value)

inductive Fault where
  /-- The store cannot be reached or read. -/
  | unavailable (reason : String)
  | timeout (reason : String)
  | unsupportedOperation (name : String)
  | notNumeric (value : Value)
  | notDate (value : Value)
  /-- A wildcard filter on the column of that label has no pattern. -/
  | patternMissing (label : String)
  /-- A wildcard pattern is too large. -/
  | likePattern (pattern : String)
  | matchesArity
  | matchesPattern (pattern : String)
  | rowNotObject (entity : EntityType) (row : Value)
  | malformedData
  /-- Data that the store itself calls invalid. -/
  | invalidData (reason : String)
deriving DecidableEq

namespace Fault

def code : Fault → String
  | .unavailable _ => "CHART_STORAGE_UNAVAILABLE"
  | .timeout _ => "CHART_STORAGE_TIMEOUT"
  | .unsupportedOperation _ => "CHART_STORAGE_UNSUPPORTED_OPERATION"
  | _ => "CHART_STORAGE_INVALID_DATA"

/-- All codes of faults. -/
def codes : List String :=
  ["CHART_STORAGE_UNAVAILABLE", "CHART_STORAGE_TIMEOUT", "CHART_STORAGE_UNSUPPORTED_OPERATION",
   "CHART_STORAGE_INVALID_DATA"]

def severity : String := "ERROR"

/-- Whether the same question may be answered later on. -/
def isRetryable : Fault → Bool
  | .unavailable _ | .timeout _ => true
  | _ => false

/-- A value within a message: a text in single quotes. -/
def shown : Value → String
  | .string s => s!"'{s}'"
  | v => v.text

def message : Fault → String
  | .unavailable reason => reason
  | .timeout reason => reason
  | .unsupportedOperation name => s!"Operation '{name}' is not supported by this backend"
  | .notNumeric value => s!"{shown value} is not numeric"
  | .notDate value => s!"{shown value} is not a date"
  | .patternMissing label => s!"LIKE on {label} needs a string pattern"
  | .likePattern pattern =>
    s!"Invalid LIKE pattern '{pattern}': Compiled regex exceeds size limit of 10485760 bytes."
  | .matchesArity => "MATCHES takes exactly one string pattern"
  | .matchesPattern pattern => s!"Invalid MATCHES pattern '{pattern}'"
  | .rowNotObject entity row => s!"Row for {entity} must be an object, got {row.text}"
  | .malformedData => "Malformed data file"
  | .invalidData reason => reason

def display (f : Fault) : String := s!"[{severity}] {f.code}: {f.message}"

end Fault

end Tabulation.Storage
