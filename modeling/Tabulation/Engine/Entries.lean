import Tabulation.Catalog.Registry
import Tabulation.Journal.Entry
import Tabulation.Plan.Rejection
import Tabulation.Query.Restriction
import Tabulation.Scope.Resolver
import Tabulation.Storage.Fault

/-! The journal entries of an engine and of what it is started from. -/
namespace Tabulation.Engine
open Journal (Entry Event FieldValue Severity Span)
open Scope (Identity Reference Resolution Visit)

def referenceFields (r : Reference) : List Journal.Field :=
  [("entity_type", .text r.entityType),
    ("id", .text (String.ofList (Json.integerChars r.id.toInt)))]

/-- What is written of a visit. A granted leaf is not worth an entry. -/
def visitEntries (caller : Identity) : Visit → List Entry
  | .dropped r => [Event.scopeReferenceDropped.entry (referenceFields r)]
  | .denied leaf =>
    [Event.scopeReadDenied.entry (referenceFields leaf ++ [("login", .text caller.login)])]
  | .granted _ => []

/-- The entries of a resolved scope. A scope without restriction has none. -/
def scopeEntries (caller : Identity) (r : Resolution) : List Entry :=
  match r.scope with
  | .unrestricted => []
  | .restricted _ =>
    r.visits.flatMap (visitEntries caller) ++
      [Event.scopeResolved.entry [("leaves", .text s!"{r.scope.leafCount}"),
        ("dropped", .text s!"{r.droppedCount}"), ("denied", .text s!"{r.deniedCount}")]]

/-- The restrictions that put no filter on the query because they have no values. -/
def restrictionEntries (restrictions : List Query.Restriction) : List Entry :=
  restrictions.filterMap fun r =>
    r.skippedLabel?.map fun label => Event.scopingFilterSkipped.entry [("label", .text label)]

def aclEntry (epoch : Nat) : Entry := Event.aclRefreshed.entry [("epoch", .text s!"{epoch}")]

/-- How loading a catalog file ended. -/
def catalogEntry (source : String) : Except Catalog.Error Catalog → Entry
  | .ok catalog =>
    Event.catalogLoaded.entry
      [("source", .text source), ("columns", .text s!"{catalog.columns.size}")]
  | .error e => Event.catalogLoadFailed.entry [("source", .text source), ("code", .text e.code)]

def settingsEntry (source : String) (level : Severity) : Entry :=
  Event.configLoaded.entry [("source", .text source), ("log_level", .text level.display)]

def hitEntry (fingerprint : String) : Entry :=
  Event.planCacheHit.entry [("execution_id", .executionId), ("fingerprint", .text fingerprint)]

def prepareSpan : Span := ⟨.queryPrepare, [("execution_id", .executionId)]⟩

def rejectionEntries (r : Plan.Rejection) : List Entry :=
  [Event.queryRejected.entry [("execution_id", .executionId), ("code", .text r.code),
      ("label", .text (r.label?.getD ""))],
   prepareSpan.failed r.code r.message]

def executeSpan (root : EntityType) : Span :=
  ⟨.queryExecute, [("execution_id", .executionId), ("root", .text root)]⟩

def faultEntries (root : EntityType) (f : Storage.Fault) : List Entry :=
  [Event.queryFailed.entry [("execution_id", .executionId), ("code", .text f.code),
      ("retryable", .text (if f.isRetryable then "true" else "false"))],
   (executeSpan root).failed f.code f.message]

end Tabulation.Engine
