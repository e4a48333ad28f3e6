import Std.Data.HashMap

/-! Gathering the elements of a list by a key. Groups come in the order in which their keys appear,
and elements keep their order within a group. -/
namespace Tabulation.Evaluation

/-- Elements that share a key. -/
structure Group (α : Type) where
  first : α
  others : List α
deriving Repr

namespace Group

variable {α : Type}

def toList (g : Group α) : List α := g.first :: g.others

end Group

/-- Groups under construction: the latest key comes first, and so does the latest of the others
within a group. -/
structure Gathered (α : Type) where
  keys : List String := []
  groups : Std.HashMap String (Group α) := ∅

namespace Gathered

variable {α : Type}

def add (key : α → String) (g : Gathered α) (a : α) : Gathered α :=
  match g.groups[key a]? with
  | some group => { g with groups := g.groups.insert (key a) ⟨group.first, a :: group.others⟩ }
  | none => ⟨key a :: g.keys, g.groups.insert (key a) ⟨a, []⟩⟩

def toList (g : Gathered α) : List (Group α) :=
  g.keys.reverse.filterMap fun key =>
    g.groups[key]?.map fun group => ⟨group.first, group.others.reverse⟩

end Gathered

/-- The elements by key. -/
def groupBy {α : Type} (key : α → String) (elements : List α) : List (Group α) :=
  (elements.foldl (Gathered.add key) {}).toList

end Tabulation.Evaluation
