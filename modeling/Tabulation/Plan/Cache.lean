import Tabulation.Ordered.Map
import Tabulation.Plan.Basic

/-! A bounded cache of plans. The plan that was admitted first is the first to go. -/
namespace Tabulation.Plan

structure Cache where
  capacity : Nat
  /-- Plans by fingerprint. -/
  plans : OrderedMap String Plan := ∅
  /-- The fingerprints in the order in which they were admitted, the oldest one first. -/
  order : List String := []
deriving DecidableEq

namespace Cache

def size (c : Cache) : Nat := c.plans.size

def get? (c : Cache) (key : String) : Option Plan := c.plans.get? key

/-- The cache that is left of plans: the oldest ones leave until the rest is within the capacity. -/
def evict (capacity : Nat) (plans : OrderedMap String Plan) : List String → Cache
  | [] => { capacity, plans }
  | oldest :: later =>
    if capacity < (oldest :: later).length then evict capacity (plans.erase oldest) later
    else { capacity, plans, order := oldest :: later }

/-- Stores a plan. A key that has one already keeps its place. -/
def insert (c : Cache) (key : String) (plan : Plan) : Cache :=
  if c.capacity = 0 then c
  else
    let order := if (c.plans.get? key).isNone then c.order ++ [key] else c.order
    evict c.capacity (c.plans.insert key plan) order

def clear (c : Cache) : Cache := { c with plans := ∅, order := [] }

end Cache

end Tabulation.Plan
