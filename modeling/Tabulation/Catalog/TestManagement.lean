import Tabulation.Catalog.Registry

/-! The catalog of test management: requirements, test cases, campaigns and their executions. -/
namespace Tabulation.Catalog.TestManagement

def entities : List Entity :=
  ["Requirement", "RequirementVersion", "Coverage", "TestCase", "Campaign", "Iteration",
    "TestPlanItem", "Execution", "Issue"].map fun name => { name }

/-- Each row of `child` names its parent in `foreignKey`. -/
def owns (parent child : EntityType) (foreignKey : String) : Relation :=
  ⟨parent, "id", child, foreignKey, .oneToMany⟩

def relations : List Relation :=
  [owns "Requirement" "RequirementVersion" "requirement_id",
   owns "RequirementVersion" "Coverage" "requirement_version_id",
   owns "TestCase" "Coverage" "test_case_id",
   owns "TestCase" "TestPlanItem" "test_case_id",
   owns "Campaign" "Iteration" "campaign_id",
   owns "Iteration" "TestPlanItem" "iteration_id",
   owns "TestPlanItem" "Execution" "item_id",
   owns "Execution" "Issue" "execution_id"]

def column (label : String) (entity : EntityType) (field : String) (kind : DataKind) : Column :=
  { label, entity, field, kind }

/-- A column that describes: there is nothing to aggregate in it. -/
def descriptive (label : String) (entity : EntityType) (field : String) : Column :=
  ⟨label, entity, field, .text, OrderedSet.ofList [.projection, .filter, .ordering]⟩

def columns : List Column :=
  [column "REQUIREMENT_ID" "Requirement" "id" .id,
   column "REQUIREMENT_PROJECT_ID" "Requirement" "project_id" .id,
   column "REQUIREMENT_CRITICALITY" "Requirement" "criticality" .enumerated,
   column "REQUIREMENT_VERSION_ID" "RequirementVersion" "id" .id,
   descriptive "REQUIREMENT_VERSION_NAME" "RequirementVersion" "name",
   column "REQUIREMENT_VERSION_STATUS" "RequirementVersion" "status" .enumerated,
   column "REQUIREMENT_VERSION_MILESTONE_ID" "RequirementVersion" "milestone_id" .id,
   column "REQUIREMENT_VERSION_CREATED_ON" "RequirementVersion" "created_on" .date,
   column "COVERAGE_ID" "Coverage" "id" .id,
   column "TEST_CASE_ID" "TestCase" "id" .id,
   descriptive "TEST_CASE_NAME" "TestCase" "name",
   column "TEST_CASE_IMPORTANCE" "TestCase" "importance" .enumerated,
   column "TEST_CASE_STATUS" "TestCase" "status" .enumerated,
   column "TEST_CASE_PROJECT_ID" "TestCase" "project_id" .id,
   column "TEST_CASE_MILESTONE_ID" "TestCase" "milestone_id" .id,
   column "TEST_CASE_CREATED_ON" "TestCase" "created_on" .date,
   column "CAMPAIGN_ID" "Campaign" "id" .id,
   descriptive "CAMPAIGN_NAME" "Campaign" "name",
   column "CAMPAIGN_PROJECT_ID" "Campaign" "project_id" .id,
   column "CAMPAIGN_MILESTONE_ID" "Campaign" "milestone_id" .id,
   column "CAMPAIGN_SCHEDULED_START" "Campaign" "scheduled_start" .date,
   column "ITERATION_ID" "Iteration" "id" .id,
   descriptive "ITERATION_NAME" "Iteration" "name",
   column "ITEM_ID" "TestPlanItem" "id" .id,
   column "ITEM_STATUS" "TestPlanItem" "status" .enumerated,
   column "EXECUTION_ID" "Execution" "id" .id,
   column "EXECUTION_STATUS" "Execution" "status" .enumerated,
   column "EXECUTION_LAST_EXECUTED_ON" "Execution" "last_executed_on" .date,
   column "EXECUTION_DURATION" "Execution" "duration" .numeric,
   column "EXECUTION_SUCCESSFUL" "Execution" "successful" .boolean,
   column "ISSUE_ID" "Issue" "id" .id,
   descriptive "ISSUE_REMOTE_KEY" "Issue" "remote_key"]

/-- The catalog that is used where no other one is given. -/
def catalog : Except Error Catalog := build ⟨entities, relations, columns⟩

end Tabulation.Catalog.TestManagement
