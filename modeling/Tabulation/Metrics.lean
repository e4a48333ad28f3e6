import Tabulation.Json.Printer

/-! The counters of an engine. They only grow, and wrap around at 64 bits. -/
namespace Tabulation

structure Metrics where
  queriesPrepared : UInt64 := 0
  queriesRejected : UInt64 := 0
  queriesExecuted : UInt64 := 0
  queriesFailed : UInt64 := 0
  tuplesReturned : UInt64 := 0
  scopeReferencesDropped : UInt64 := 0
  scopeReadDenials : UInt64 := 0
  planCacheHits : UInt64 := 0
  planCacheMisses : UInt64 := 0
deriving DecidableEq, Repr

namespace Metrics
open Json (Value)

def prepared (m : Metrics) : Metrics := { m with queriesPrepared := m.queriesPrepared + 1 }

def rejected (m : Metrics) : Metrics := { m with queriesRejected := m.queriesRejected + 1 }

def executed (m : Metrics) : Metrics := { m with queriesExecuted := m.queriesExecuted + 1 }

def failed (m : Metrics) : Metrics := { m with queriesFailed := m.queriesFailed + 1 }

def returned (m : Metrics) (tuples : Nat) : Metrics :=
  { m with tuplesReturned := m.tuplesReturned + .ofNat tuples }

def dropped (m : Metrics) (references : Nat) : Metrics :=
  { m with scopeReferencesDropped := m.scopeReferencesDropped + .ofNat references }

def denied (m : Metrics) (leaves : Nat) : Metrics :=
  { m with scopeReadDenials := m.scopeReadDenials + .ofNat leaves }

def hit (m : Metrics) : Metrics := { m with planCacheHits := m.planCacheHits + 1 }

def missed (m : Metrics) : Metrics := { m with planCacheMisses := m.planCacheMisses + 1 }

/-- All counters by name. -/
def counters (m : Metrics) : List (String × UInt64) :=
  [("queries_prepared", m.queriesPrepared), ("queries_rejected", m.queriesRejected),
   ("queries_executed", m.queriesExecuted), ("queries_failed", m.queriesFailed),
   ("tuples_returned", m.tuplesReturned),
   ("scope_references_dropped", m.scopeReferencesDropped),
   ("scope_read_denials", m.scopeReadDenials), ("plan_cache_hits", m.planCacheHits),
   ("plan_cache_misses", m.planCacheMisses)]

def toJson (m : Metrics) : Value :=
  .object (m.counters.map fun c => (c.1, .ofNat c.2.toNat))

end Metrics

end Tabulation
