import Tabulation.Catalog.Basic

/-! How a path multiplies rows: the hops on which one row may become many. -/
namespace Tabulation.Catalog

/-- A step that fans out. -/
structure Hop where
  source : EntityType
  target : EntityType
deriving DecidableEq, Repr

instance : Ord Hop := ⟨compareLex (compareOn (·.source)) (compareOn (·.target))⟩
instance : Std.TransOrd Hop :=
  inferInstanceAs (Std.TransCmp (compareLex (compareOn Hop.source) (compareOn Hop.target)))

/-- The fanning hops from a root to an entity type, in order. Two entity types with equal keys
multiply root rows in the same way. -/
structure FanOutKey where
  hops : List Hop
deriving DecidableEq, Repr

namespace FanOutKey

def depth (key : FanOutKey) : Nat := key.hops.length

/-- Whether no hop fans out. -/
def isRoot (key : FanOutKey) : Bool := key.hops.isEmpty

/-- Fewer hops come first, then the hops decide in order. -/
instance : Ord FanOutKey := ⟨compareLex (compareOn depth) (compareOn hops)⟩
instance : Std.TransOrd FanOutKey :=
  inferInstanceAs (Std.TransCmp (compareLex (compareOn depth) (compareOn hops)))

def ofSteps (steps : List Step) : FanOutKey :=
  ⟨(steps.filter (·.fansOut)).map fun s => ⟨s.source, s.target⟩⟩

def text (key : FanOutKey) : String :=
  if key.hops = [] then "root"
  else ",".intercalate (key.hops.map fun h => s!"{h.source}>{h.target}")

end FanOutKey

end Tabulation.Catalog
