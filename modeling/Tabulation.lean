import Tabulation.Main
import Tabulation.Plan.Document
import Tabulation.Proofs.Catalog.Acceptance
import Tabulation.Proofs.Catalog.Reloading
import Tabulation.Proofs.Catalog.Route
import Tabulation.Proofs.Engine.Accounting
import Tabulation.Proofs.Engine.Pages
import Tabulation.Proofs.Engine.Rights
import Tabulation.Proofs.Engine.Transparency
import Tabulation.Proofs.Evaluation.ActiveFilters
import Tabulation.Proofs.Evaluation.Aliases
import Tabulation.Proofs.Evaluation.Buckets
import Tabulation.Proofs.Evaluation.Distinct
import Tabulation.Proofs.Evaluation.DrillDown
import Tabulation.Proofs.Evaluation.Exclusion
import Tabulation.Proofs.Evaluation.Extremes
import Tabulation.Proofs.Evaluation.FanOut
import Tabulation.Proofs.Evaluation.Filling
import Tabulation.Proofs.Evaluation.JoinStyles
import Tabulation.Proofs.Evaluation.Measures
import Tabulation.Proofs.Evaluation.Multiplicity
import Tabulation.Proofs.Evaluation.NestedLoops
import Tabulation.Proofs.Evaluation.Pairing
import Tabulation.Proofs.Evaluation.RowByRow
import Tabulation.Proofs.Evaluation.RowOrder
import Tabulation.Proofs.Evaluation.Scoping
import Tabulation.Proofs.Evaluation.Slots
import Tabulation.Proofs.Evaluation.Splitting
import Tabulation.Proofs.Evaluation.Strategies
import Tabulation.Proofs.Evaluation.Widening
import Tabulation.Proofs.Journal.Reading
import Tabulation.Proofs.Pattern.Like
import Tabulation.Proofs.Plan.Acceptance
import Tabulation.Proofs.Plan.Aliases
import Tabulation.Proofs.Plan.Binding
import Tabulation.Proofs.Plan.Checking
import Tabulation.Proofs.Plan.CommonRoot
import Tabulation.Proofs.Plan.Documents
import Tabulation.Proofs.Plan.Restriction
import Tabulation.Proofs.Plan.WellFormed
import Tabulation.Proofs.Scope.Argument
import Tabulation.Proofs.Scope.Resolution
import Tabulation.Query.Builder
