import Tabulation.Catalog.Basic

/-! Why a catalog is refused, or a label not found in one. -/
namespace Tabulation.Catalog

/-- What names an entity type that is not declared. -/
inductive Referrer where
  | relation (source target : EntityType)
  | column (label : String)
deriving DecidableEq, Repr

inductive Error where
  | duplicateLabel (label : String)
  | duplicateEntity (entity : EntityType)
  | unknownEntity (entity : EntityType) (referrer : Referrer)
  | relationCycle (source target : EntityType)
  | malformed (source : String) (reason : String)
  | columnNotFound (label : String)
deriving DecidableEq, Repr

def Referrer.describe : Referrer → String
  | .relation source target => s!"relation {source} -> {target}"
  | .column label => s!"column {label}"

namespace Error

def codes : List String :=
  ["CHART_CATALOG_DUPLICATE_LABEL", "CHART_CATALOG_DUPLICATE_ENTITY",
   "CHART_CATALOG_UNKNOWN_ENTITY", "CHART_CATALOG_RELATION_CYCLE", "CHART_CATALOG_MALFORMED",
   "CHART_CATALOG_COLUMN_NOT_FOUND"]

def code : Error → String
  | .duplicateLabel _ => "CHART_CATALOG_DUPLICATE_LABEL"
  | .duplicateEntity _ => "CHART_CATALOG_DUPLICATE_ENTITY"
  | .unknownEntity _ _ => "CHART_CATALOG_UNKNOWN_ENTITY"
  | .relationCycle _ _ => "CHART_CATALOG_RELATION_CYCLE"
  | .malformed _ _ => "CHART_CATALOG_MALFORMED"
  | .columnNotFound _ => "CHART_CATALOG_COLUMN_NOT_FOUND"

/-- Whether the catalog cannot be used at all. A label that is not found leaves it intact. -/
def isFatal : Error → Bool
  | .columnNotFound _ => false
  | _ => true

def severity (e : Error) : String := if e.isFatal then "FATAL" else "REJECT"

def message : Error → String
  | .duplicateLabel label => s!"Column label '{label}' is registered twice"
  | .duplicateEntity entity => s!"Entity '{entity}' is defined twice"
  | .unknownEntity entity referrer =>
    s!"Entity '{entity}' referenced by {referrer.describe} is not defined"
  | .relationCycle source target =>
    s!"Relation {source} -> {target} closes a cycle in the entity graph"
  | .malformed source reason => s!"Catalog '{source}' is malformed: {reason}"
  | .columnNotFound label => s!"No column prototype labelled '{label}'"

/-- The label, entity type, relation or source at fault. -/
def subject : Error → String
  | .duplicateLabel label => label
  | .duplicateEntity entity => entity
  | .unknownEntity entity _ => entity
  | .relationCycle source target => s!"{source}->{target}"
  | .malformed source _ => source
  | .columnNotFound label => label

def display (e : Error) : String := s!"[{e.severity}] {e.code}: {e.message}"

end Error

end Tabulation.Catalog
