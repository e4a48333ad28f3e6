import Tabulation.Engine.Entries
import Tabulation.Metrics
import Tabulation.Plan.Cache
import Tabulation.Plan.Compiler
import Tabulation.Plan.Explanation
import Tabulation.Plan.Fingerprint
import Tabulation.Storage.Store

/-! The engine: it resolves the scope of a request, compiles the query or takes its plan from the
cache, runs the plan on the backend and caps the page. -/
namespace Tabulation.Engine
open Journal (Entry)
open Plan (Rejection Explanation)
open Query (Model Paging)
open Scope (Acl Directory Grants Identity Reference Resolved)
open Storage (Backend Fault)
open Evaluation (ResultSet)

/-- What an engine works with. It stays the same from request to request. -/
structure Setup where
  catalog : Catalog
  directory : Directory
  backend : Backend
  /-- The most tuples that one page may have. -/
  maxPageSize : Nat := 1000

/-- What changes from request to request. -/
structure State where
  acl : Acl := {}
  /-- The cache of plans, if there is one. -/
  cache : Option Plan.Cache := none
  metrics : Metrics := {}
  journal : List Entry := []
deriving DecidableEq

/-- A cache of the given capacity; a capacity of 0 means no cache. -/
def State.withCache (s : State) (capacity : Nat) : State :=
  { s with cache := if capacity > 0 then some { capacity } else none }

/-- One request: a query with what surrounds it. -/
structure Request where
  model : Model
  /-- What the query may see; nothing listed means everything. -/
  scope : Option (List Reference) := none
  /-- The page that is wanted; otherwise the whole result is. -/
  paging : Option Paging := none
  caller : Identity := {}
deriving DecidableEq

namespace Request

/-- The sort criteria that come with the page. -/
def sort? (r : Request) : Option Sorting.Criteria := r.paging.map (·.sort)

end Request

/-- Why a request has no result. -/
inductive Failure where
  | rejected (rejection : Rejection)
  | storage (fault : Fault)
deriving DecidableEq

namespace Failure

def display : Failure → String
  | .rejected r => r.display
  | .storage f => f.display

def isConfiguration : Failure → Bool
  | .rejected r => r.kind = .configuration
  | .storage _ => false

def isUnsupportedShape : Failure → Bool
  | .rejected r => r.kind = .unsupportedShape
  | .storage _ => false

def isStorage : Failure → Bool
  | .rejected _ => false
  | .storage _ => true

def isRetryable : Failure → Bool
  | .rejected _ => false
  | .storage f => f.isRetryable

end Failure

/-- Writes entries into the journal. -/
def record (entries : List Entry) : StateM State Unit :=
  modify fun s => { s with journal := s.journal ++ entries }

def count (bump : Metrics → Metrics) : StateM State Unit :=
  modify fun s => { s with metrics := bump s.metrics }

/-- Puts other grants in force; their epoch. -/
def refreshAcl (grants : Grants) : StateM State Nat := do
  modify fun s => { s with acl := s.acl.refresh grants }
  let epoch := (← get).acl.epoch
  record [aclEntry epoch]
  return epoch

/-- Resolves the scope of a request under the grants in force. -/
def resolveScope (setup : Setup) (r : Request) : StateM State Resolved := do
  let resolution := Scope.resolve setup.directory (← get).acl.canRead r.scope r.caller
  count fun m => (m.dropped resolution.droppedCount).denied resolution.deniedCount
  record (scopeEntries r.caller resolution)
  return resolution.scope

/-- Compiles a request whose plan is not in the cache, and enters the plan under its key. -/
def compileAnew (setup : Setup) (r : Request) (scope : Resolved) (key : Option String) :
    StateM State (Except Rejection Plan) := do
  record [prepareSpan.opened]
  match Plan.compile setup.catalog r.model scope (r.sort?.getD []) with
  | .ok plan =>
    count Metrics.prepared
    if let some key := key then
      modify fun s => { s with cache := s.cache.map fun c => c.insert key plan }
    record [prepareSpan.completed [("root", .text plan.root)]]
    return .ok plan
  | .error e =>
    count Metrics.rejected
    record (rejectionEntries e)
    return .error e

/-- The plan of a request, out of the cache if it is there. -/
def compile (setup : Setup) (r : Request) (scope : Resolved) :
    StateM State (Except Rejection Plan) := do
  match (← get).cache with
  | none => compileAnew setup r scope none
  | some cache =>
    let key := Plan.fingerprint r.model scope r.sort?
    match cache.get? key with
    | some plan =>
      count Metrics.hit
      record [hitEntry key]
      return .ok plan
    | none =>
      count Metrics.missed
      compileAnew setup r scope (some key)

/-- Compiles a request without running it. -/
def prepare (setup : Setup) (r : Request) : StateM State (Except Rejection Plan) := do
  compile setup r (← resolveScope setup r)

/-- Explains the plan of a request, or why there is none. -/
def explain (setup : Setup) (r : Request) : StateM State Explanation := do
  match ← prepare setup r with
  | .ok plan => return .ofPlan plan
  | .error e => return .ofRejection e

/-- Caps a page. Its position follows the size that was asked for. -/
def capPage (setup : Setup) (paging : Option Paging) (result : ResultSet) : ResultSet :=
  if paging.isSome then { result with tuples := result.tuples.take setup.maxPageSize } else result

/-- Compiles and runs a request; the page that was asked for. -/
def execute (setup : Setup) (r : Request) : StateM State (Except Failure ResultSet) := do
  match ← prepare setup r with
  | .error e => return .error (.rejected e)
  | .ok plan =>
    let span := executeSpan plan.root
    record [span.opened]
    match setup.backend plan r.paging with
    | .ok found =>
      let result := capPage setup r.paging found
      count fun m => m.executed.returned result.tuples.length
      record [span.completed [("tuples", .text s!"{result.tuples.length}")]]
      return .ok result
    | .error f =>
      count Metrics.failed
      record (faultEntries plan.root f)
      return .error (.storage f)

end Tabulation.Engine
