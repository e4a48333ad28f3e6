import Tabulation.Json.Printer
import Tabulation.Json.Record

/-! Journal entries, and the lines in which they are written. -/
namespace Tabulation.Journal
open Json (Reader)

inductive Severity where
  | trace
  | info
  | warn
  | error
  | fatal
deriving DecidableEq, Repr

namespace Severity

def all : List Severity := [.trace, .info, .warn, .error, .fatal]

def rank : Severity → Nat
  | .trace => 0
  | .info => 1
  | .warn => 2
  | .error => 3
  | .fatal => 4

def name : Severity → String
  | .trace => "trace"
  | .info => "info"
  | .warn => "warn"
  | .error => "error"
  | .fatal => "fatal"

def display : Severity → String
  | .trace => "TRACE"
  | .info => "INFO"
  | .warn => "WARN"
  | .error => "ERROR"
  | .fatal => "FATAL"

def reader : Reader Severity := .oneOf (all.map fun s => (s.name, s))

/-- Whether an entry is written if `minimum` is the least severity wanted. -/
def reaches (s minimum : Severity) : Bool := minimum.rank ≤ s.rank

/-- Whether lines of the severity report trouble. -/
def isTrouble (s : Severity) : Bool := Severity.error.rank ≤ s.rank

end Severity

/-- What happens in the life of an engine and its queries. -/
inductive Event where
  | configLoaded
  | catalogLoaded
  | catalogLoadFailed
  | scopeReferenceDropped
  | scopeReadDenied
  | scopeResolved
  | aclRefreshed
  | scopingFilterSkipped
  | queryPrepare
  | queryRejected
  | planCacheHit
  | queryExecute
  | queryFailed
deriving DecidableEq, Repr

namespace Event

def all : List Event :=
  [.configLoaded, .catalogLoaded, .catalogLoadFailed, .scopeReferenceDropped, .scopeReadDenied,
   .scopeResolved, .aclRefreshed, .scopingFilterSkipped, .queryPrepare, .queryRejected,
   .planCacheHit, .queryExecute, .queryFailed]

def name : Event → String
  | .configLoaded => "CONFIG_LOADED"
  | .catalogLoaded => "CATALOG_LOADED"
  | .catalogLoadFailed => "CATALOG_LOAD_FAILED"
  | .scopeReferenceDropped => "SCOPE_REFERENCE_DROPPED"
  | .scopeReadDenied => "SCOPE_READ_DENIED"
  | .scopeResolved => "SCOPE_RESOLVED"
  | .aclRefreshed => "ACL_REFRESHED"
  | .scopingFilterSkipped => "SCOPING_FILTER_SKIPPED"
  | .queryPrepare => "QUERY_PREPARE"
  | .queryRejected => "QUERY_REJECTED"
  | .planCacheHit => "PLAN_CACHE_HIT"
  | .queryExecute => "QUERY_EXECUTE"
  | .queryFailed => "QUERY_FAILED"

/-- Whether nothing can go on after the event. -/
def isFatal : Event → Bool
  | .catalogLoadFailed => true
  | _ => false

def severity : Event → Severity
  | .catalogLoadFailed => .fatal
  | .scopeReferenceDropped | .scopingFilterSkipped | .queryRejected => .warn
  | .scopeReadDenied | .planCacheHit => .trace
  | .queryFailed => .error
  | _ => .info

end Event

/-- The value of a field. What only the clock or the origin of an execution tells is left open
until the line is written. -/
inductive FieldValue where
  | text (value : String)
  | executionId
  | elapsed
deriving DecidableEq, Repr

/-- What the open fields of an entry stand for. -/
structure Stamp where
  executionId : String
  elapsed : String
deriving DecidableEq, Repr

def FieldValue.resolve (stamp : Stamp) : FieldValue → String
  | .text value => value
  | .executionId => stamp.executionId
  | .elapsed => stamp.elapsed

abbrev Field := String × FieldValue

structure Entry where
  severity : Severity
  title : String
  fields : List Field := []
deriving DecidableEq, Repr

/-- An entry for an event, at the event's own severity. -/
def Event.entry (event : Event) (fields : List Field := []) : Entry :=
  ⟨event.severity, event.name, fields⟩

/-- A character between the quotes of a line: quotes, backslashes and control characters are
escaped. -/
def escapeChar (c : Char) : List Char :=
  if c = '"' then ['\\', '"']
  else if c = '\\' then ['\\', '\\']
  else if c = '\n' then ['\\', 'n']
  else if c = '\r' then ['\\', 'r']
  else if c = '\t' then ['\\', 't']
  else if c.toNat < 0x20 ∨ (0x7F ≤ c.toNat ∧ c.toNat ≤ 0x9F) then
    ['\\', 'u', '0', '0', Json.hexDigit (c.toNat / 16), Json.hexDigit c.toNat]
  else [c]

def quoted (s : String) : List Char := '"' :: (s.toList.flatMap escapeChar ++ ['"'])

/-- The members of a line: the title, the severity and the fields, these by name; fields of one
name stay in their order. -/
def lineMembers (severity : Severity) (title : String) (fields : List (String × String)) :
    List (String × String) :=
  ("event", title) :: ("severity", severity.display) ::
    fields.mergeSort fun a b => (compare a.1 b.1).isLE

def memberChars (m : String × String) : List Char := quoted m.1 ++ ':' :: quoted m.2

/-- A line, without the line feed at its end. -/
def line (severity : Severity) (title : String) (fields : List (String × String)) : String :=
  .ofList ('{' :: ([','].intercalate ((lineMembers severity title fields).map memberChars) ++ ['}']))

/-- What is written: the line with the line feed. -/
def text (severity : Severity) (title : String) (fields : List (String × String)) : String :=
  line severity title fields ++ "\n"

/-- The fields of an entry with the values that they stand for. -/
def Entry.values (stamp : Stamp) (entry : Entry) : List (String × String) :=
  entry.fields.map fun f => (f.1, f.2.resolve stamp)

def Entry.line (stamp : Stamp) (entry : Entry) : String :=
  Journal.line entry.severity entry.title (entry.values stamp)

/-- What an entry adds to a journal. -/
def Entry.text (stamp : Stamp) (entry : Entry) : String :=
  Journal.text entry.severity entry.title (entry.values stamp)

/-- The entries that are written if `minimum` is the least severity wanted. -/
def written (minimum : Severity) (entries : List Entry) : List Entry :=
  entries.filter fun e => e.severity.reaches minimum

/-- An operation that is observed from its beginning to its end. -/
structure Span where
  event : Event
  fields : List Field
deriving DecidableEq, Repr

namespace Span

def opened (s : Span) : Entry := ⟨.trace, s!"{s.event.name}_BEGIN", s.fields⟩

def completed (s : Span) (extra : List Field := []) : Entry :=
  ⟨.info, s!"{s.event.name}_COMPLETE", s.fields ++ extra ++ [("elapsed_ms", .elapsed)]⟩

def failed (s : Span) (code reason : String) : Entry :=
  ⟨.error, s!"{s.event.name}_FAILED", s.fields ++ [("code", .text code), ("reason", .text reason)]⟩

/-- The entry of an operation that was given up without an outcome. -/
def abandoned (s : Span) : Entry :=
  ⟨.warn, s!"{s.event.name}_INCOMPLETE", [("reason", .text "scope dropped without completion")]⟩

end Span

end Tabulation.Journal
