import Tabulation.Catalog.FanOut
import Tabulation.Query.Column

/-! Why a query cannot be compiled. -/
namespace Tabulation.Plan
open Catalog (ColumnRole DataKind FanOutKey)
open Query (AggregateFn Operation)

inductive Rejection where
  /-- The label is not in the catalog. -/
  | columnUnknown (label : String) (role : ColumnRole)
  /-- The column may not be used that way. -/
  | columnRole (label : String) (role : ColumnRole) (entity : EntityType)
  /-- The query does not involve the column's entity type that way. -/
  | entityNotInvolved (label : String) (role : ColumnRole) (entity : EntityType)
  | filterArity (label : String) (operation : Operation) (count : Nat)
  | operationInvalid (label : String) (operation : Operation) (kind : DataKind)
  | aggregateInvalid (label : String) (function : AggregateFn) (kind : DataKind)
  | bucketInvalid (label : String) (kind : DataKind)
  | orderingInvalid (label : String)
  | sortPropertyUnknown (property : String)
  | queryEmpty
  | rootUnknown (root : EntityType)
  /-- The path from the root to a projected column fans out, or there is none. -/
  | projectionFansOut (label : String) (entity root : EntityType)
  | noCommonRoot (entities : List EntityType)
  /-- There is no path from the root to the column. -/
  | unrelated (label : String) (role : ColumnRole) (entity root : EntityType)
  /-- A flat query has aggregates that multiply rows differently. -/
  | mixedFanOut (keys : List FanOutKey)
deriving DecidableEq, Repr

/-- A mistake in the query, or a query that is correct but cannot be one plan. -/
inductive RejectionKind where
  | configuration
  | unsupportedShape
deriving DecidableEq, Repr

def RejectionKind.name : RejectionKind → String
  | .configuration => "configuration"
  | .unsupportedShape => "unsupported_shape"

namespace Rejection

def codes : List String :=
  ["CHART_COLUMN_UNKNOWN", "CHART_COLUMN_ROLE", "CHART_ENTITY_NOT_INVOLVED", "CHART_FILTER_ARITY",
   "CHART_OPERATION_INVALID", "CHART_AGGREGATE_INVALID", "CHART_BUCKET_INVALID",
   "CHART_ORDERING_INVALID", "CHART_SORT_PROPERTY_UNKNOWN", "CHART_QUERY_EMPTY",
   "CHART_SHAPE_UNSUPPORTED"]

def code : Rejection → String
  | .columnUnknown .. => "CHART_COLUMN_UNKNOWN"
  | .columnRole .. => "CHART_COLUMN_ROLE"
  | .entityNotInvolved .. => "CHART_ENTITY_NOT_INVOLVED"
  | .filterArity .. => "CHART_FILTER_ARITY"
  | .operationInvalid .. => "CHART_OPERATION_INVALID"
  | .aggregateInvalid .. => "CHART_AGGREGATE_INVALID"
  | .bucketInvalid .. => "CHART_BUCKET_INVALID"
  | .orderingInvalid .. => "CHART_ORDERING_INVALID"
  | .sortPropertyUnknown .. => "CHART_SORT_PROPERTY_UNKNOWN"
  | .queryEmpty => "CHART_QUERY_EMPTY"
  | .rootUnknown .. | .projectionFansOut .. | .noCommonRoot .. | .unrelated .. | .mixedFanOut .. =>
    "CHART_SHAPE_UNSUPPORTED"

def kind : Rejection → RejectionKind
  | .rootUnknown .. | .projectionFansOut .. | .noCommonRoot .. | .unrelated .. | .mixedFanOut .. =>
    .unsupportedShape
  | _ => .configuration

def message : Rejection → String
  | .columnUnknown label role => s!"Column '{label}' used as {role.name} is not in the catalog"
  | .columnRole label role entity =>
    s!"Column '{label}' of {entity} cannot be used as {role.name}"
  | .entityNotInvolved label role entity =>
    s!"Column '{label}' used as {role.name} belongs to {entity}, " ++
      "which the query does not involve for that role"
  | .filterArity label op count =>
    s!"Filter '{label}' with {op.display} takes {op.expectedArity} value(s), got {count}"
  | .operationInvalid label op kind =>
    s!"Filter '{label}' cannot apply {op.display} to a {kind.name} column"
  | .aggregateInvalid label function kind =>
    s!"Aggregation '{label}' cannot apply {function.display} to a {kind.name} column"
  | .bucketInvalid label kind =>
    s!"Projection '{label}' is a {kind.name} column and cannot be bucketed by date"
  | .orderingInvalid label => s!"Ordering column '{label}' is neither projected nor aggregated"
  | .sortPropertyUnknown property => s!"Sort property '{property}' names no output column"
  | .queryEmpty => "Query has neither projection nor aggregation columns"
  | .rootUnknown root => s!"Root entity '{root}' is not in the catalog"
  | .projectionFansOut label entity root =>
    s!"Projection '{label}' on {entity} fans out from root {root}"
  | .noCommonRoot entities =>
    let names := ", ".intercalate entities
    s!"Projected entities [{names}] cannot share a root without fan-out"
  | .unrelated _ _ entity root => s!"{entity} is not related to root {root}"
  | .mixedFanOut keys =>
    let texts := "; ".intercalate (keys.map FanOutKey.text)
    s!"Flat strategy cannot combine aggregates at fan-out keys [{texts}]"

/-- The column at fault. -/
def label? : Rejection → Option String
  | .columnUnknown label _ | .columnRole label _ _ | .entityNotInvolved label _ _
  | .filterArity label _ _ | .operationInvalid label _ _ | .aggregateInvalid label _ _
  | .bucketInvalid label _ | .orderingInvalid label | .sortPropertyUnknown label
  | .projectionFansOut label _ _ | .unrelated label _ _ _ => some label
  | .queryEmpty | .rootUnknown _ | .noCommonRoot _ | .mixedFanOut _ => none

/-- What the column at fault is used for. -/
def role? : Rejection → Option ColumnRole
  | .columnUnknown _ role | .columnRole _ role _ | .entityNotInvolved _ role _
  | .unrelated _ role _ _ => some role
  | .filterArity _ _ _ | .operationInvalid _ _ _ => some .filter
  | .aggregateInvalid _ _ _ => some .aggregation
  | .bucketInvalid _ _ | .projectionFansOut _ _ _ => some .projection
  | .orderingInvalid _ | .sortPropertyUnknown _ => some .ordering
  | .queryEmpty | .rootUnknown _ | .noCommonRoot _ | .mixedFanOut _ => none

/-- The entity type at fault. -/
def entity? : Rejection → Option EntityType
  | .columnRole _ _ entity | .entityNotInvolved _ _ entity | .projectionFansOut _ entity _
  | .unrelated _ _ entity _ => some entity
  | _ => none

def display (r : Rejection) : String := s!"[REJECT] {r.code}: {r.message}"

end Rejection

end Tabulation.Plan
