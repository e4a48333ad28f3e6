import Tabulation.Files
import Tabulation.Journal.Entry
import Tabulation.Json.Parser

/-! The settings of an engine, as their file gives them. -/
namespace Tabulation
open Json (Value Reader required optional)
open Journal (Severity)

structure Settings where
  /-- The catalog file; without it the built-in catalog is used. -/
  catalogPath : Option String := none
  dataPath : Option String := none
  aclPath : Option String := none
  logLevel : Severity := .info
  /-- The number of plans that are kept; 0 for none. -/
  planCacheCapacity : Nat := 0
  maxPageSize : Nat := 1000
deriving DecidableEq, Repr

namespace Settings

inductive Error where
  | unreadable (path : String) (fault : FileFault)
  | malformed
  | pageSizeZero
deriving DecidableEq, Repr

def Error.message : Error → String
  | .unreadable path fault => s!"Failed to read config {path}: {fault.message}"
  | .malformed => "Invalid config JSON"
  | .pageSizeZero => "Invalid config: max_page_size must be > 0"

def isCacheEnabled (s : Settings) : Bool := s.planCacheCapacity > 0

/-- All fields have defaults. -/
def reader : Reader Settings := fun d =>
  match d.fields? ["catalog_path", "data_path", "acl_path", "log_level", "plan_cache_capacity",
    "max_page_size"] with
  | some [catalogPath, dataPath, aclPath, logLevel, planCacheCapacity, maxPageSize] => do
    return {
      catalogPath := ← optional none (.nullable .string) catalogPath
      dataPath := ← optional none (.nullable .string) dataPath
      aclPath := ← optional none (.nullable .string) aclPath
      logLevel := ← optional .info Severity.reader logLevel
      planCacheCapacity := ← optional 0 .nat64 planCacheCapacity
      maxPageSize := ← optional 1000 .nat64 maxPageSize }
  | _ => none

def ofText (text : String) : Except Error Settings :=
  match (Json.parse text).bind reader with
  | none => .error .malformed
  | some s => if s.maxPageSize = 0 then .error .pageSizeZero else .ok s

/-- Takes the paths as seen from a directory. -/
def rebase (s : Settings) (directory : String) : Settings :=
  { s with
    catalogPath := s.catalogPath.map (FilePath.join directory)
    dataPath := s.dataPath.map (FilePath.join directory)
    aclPath := s.aclPath.map (FilePath.join directory) }

/-- The settings in a file that has been read from a path. The paths in it are relative to the
directory of the file. -/
def ofFile (path : String) (contents : Except FileFault String) : Except Error Settings :=
  match contents with
  | .error fault => .error (.unreadable path fault)
  | .ok text => (ofText text).map fun s => ((FilePath.parent? path).map s.rebase).getD s

end Settings

end Tabulation
