import Tabulation.Query.Definition

/-! Definitions put together call by call. -/
namespace Tabulation.Query
open Json (Value)
open Sorting (Direction NullHandling)

namespace Definition

def withId (d : Definition) (id : String) : Definition := { d with id := some id }

def withStrategy (d : Definition) (strategy : Strategy) : Definition := { d with strategy }

def withJoinStyle (d : Definition) (joinStyle : JoinStyle) : Definition := { d with joinStyle }

def withRoot (d : Definition) (entity : EntityType) : Definition := { d with root := some entity }

/-- Declares that the query involves an entity type in a role. -/
def involve (d : Definition) (role : EntityRole) (entity : EntityType) : Definition :=
  { d with involved := d.involved.add role entity }

def project (d : Definition) (label : String) (bucket : Option Bucket := none) : Definition :=
  { d with projections := d.projections ++ [⟨label, bucket⟩] }

def aggregate (d : Definition) (label : String) (function : AggregateFn) : Definition :=
  { d with aggregations := d.aggregations ++ [⟨label, function⟩] }

def addFilter (d : Definition) (label : String) (operation : Operation) (values : List Value) :
    Definition :=
  { d with filters := d.filters ++ [⟨label, operation, values⟩] }

def order (d : Definition) (label : String) (direction : Direction)
    (nullHandling : NullHandling := .native) : Definition :=
  { d with orderings := d.orderings ++ [⟨label, direction, nullHandling⟩] }

end Definition

end Tabulation.Query
