import Tabulation.Catalog.Document
import Tabulation.Catalog.TestManagement
import Tabulation.CommandLine.Arguments
import Tabulation.Engine.Session
import Tabulation.Scope.Argument
import Tabulation.Settings

/-! Running commands: each starts an engine as the settings say and makes one request. Files are
read through a function that is given, in whatever monad it works. -/
namespace Tabulation.CommandLine
open Engine (Request Setup)
open Journal (Entry Severity)
open Json (Value)
open Scope (Reference Identity)
open Storage (Fault Store)

/-- Why a command fails. -/
inductive Error where
  | settings (e : Settings.Error)
  | catalog (e : Catalog.Error)
  | storage (f : Fault)
  | request (f : Engine.Failure)
  | unreadable (path : String) (fault : FileFault)
  | invalidQuery (path : String)
  | scopeArgument (e : Scope.ArgumentError)
  | unknownEntity (name : String)
deriving DecidableEq

namespace Error

def codes : List String :=
  ["CHART_CLI_CONFIG_ERROR", "CHART_CLI_IO_ERROR", "CHART_CLI_INVALID_REQUEST",
   "CHART_CLI_ENGINE_ERROR"]

def code : Error → String
  | .settings _ => "CHART_CLI_CONFIG_ERROR"
  | .unreadable _ _ => "CHART_CLI_IO_ERROR"
  | .invalidQuery _ | .scopeArgument _ | .unknownEntity _ => "CHART_CLI_INVALID_REQUEST"
  | .catalog _ | .storage _ | .request _ => "CHART_CLI_ENGINE_ERROR"

def message : Error → String
  | .settings e => e.message
  | .catalog e => e.display
  | .storage f => f.display
  | .request f => f.display
  | .unreadable path fault => s!"Failed to read {path}: {fault.message}"
  | .invalidQuery path => s!"Invalid query {path}"
  | .scopeArgument e => e.message
  | .unknownEntity name => s!"Unknown entity type '{name}'"

def display (e : Error) : String := s!"{e.code}: {e.message}"

end Error

/-- What a command has written so far. -/
structure Progress where
  /-- The least severity of entries that are written. -/
  level : Severity
  entries : List Entry := []
  /-- The lines of the command's own output, which follow the entries. -/
  output : List String := []

/-- A command under way: what it has written stays if it fails. -/
abbrev Running (m : Type → Type) := ExceptT Error (StateT Progress m)

variable {m : Type → Type} [Monad m]

def record (entries : List Entry) : Running m Unit :=
  modify fun p => { p with entries := p.entries ++ Journal.written p.level entries }

def printLines (lines : List String) : Running m Unit :=
  modify fun p => { p with output := p.output ++ lines }

/-- Goes on with a value, or fails. -/
def check {ε α : Type} (wrap : ε → Error) : Except ε α → Running m α
  | .ok a => pure a
  | .error e => throw (wrap e)

/-- Reads a file by its path. -/
abbrev FileReader (m : Type → Type) := String → m (Except FileFault String)

def readFile (read : FileReader m) (path : String) : Running m (Except FileFault String) :=
  liftM (read path)

def loadSettings (read : FileReader m) (path : String) : Running m Settings := do
  let settings ← check .settings (Settings.ofFile path (← readFile read path))
  record [Engine.settingsEntry path settings.logLevel]
  modify fun p => { p with level := settings.logLevel }
  return settings

/-- The catalog in a file that has been read; `path` names it in errors. -/
def catalogOfFile (path : String) : Except FileFault String → Except Catalog.Error Catalog
  | .ok text => Catalog.ofText path text
  | .error fault => .error (.malformed path s!"Failed to read file: {fault.message}")

def loadCatalog (read : FileReader m) : Option String → Running m Catalog
  | none => check .catalog Catalog.TestManagement.catalog
  | some path => do
    let loaded := catalogOfFile path (← readFile read path)
    record [Engine.catalogEntry path loaded]
    check .catalog loaded

def loadStore (read : FileReader m) : Option String → Running m Store
  | none => pure {}
  | some path => do
    match ← readFile read path with
    | .ok text => check .storage (Store.ofText text)
    | .error fault => throw (.storage (.unavailable s!"Cannot read {path}: {fault.message}"))

def loadGrants (read : FileReader m) : Option String → Running m Scope.Grants
  | none => pure {}
  | some path => do
    match ← readFile read path with
    | .ok text =>
      match (Json.parse text).bind Scope.Grants.reader with
      | some grants => pure grants
      | none => throw (.settings .malformed)
    | .error fault => throw (.settings (.unreadable path fault))

/-- Starts an engine whose store is its backend and its directory too. -/
def boot (read : FileReader m) (config : String) : Running m (Setup × Engine.State) := do
  let settings ← loadSettings read config
  let catalog ← loadCatalog read settings.catalogPath
  let store ← loadStore read settings.dataPath
  let grants ← loadGrants read settings.aclPath
  let setup := ⟨catalog, store.directory, store.run, settings.maxPageSize⟩
  let state : Engine.State := { acl := { grants } }
  return (setup, state.withCache settings.planCacheCapacity)

/-- The document with names in order, as the data of a response. -/
def response (data : Value) : String :=
  (Value.object [("status", .string "ok"), ("data", data)]).normalized.text

def errorResponse (e : Error) : String :=
  (Value.object [("status", .string "error"), ("code", .string e.code),
    ("message", .string e.message)]).normalized.text

/-- The columns of one entity type, or the whole catalog. -/
def catalogData (catalog : Catalog) : Option String → Except Error Value
  | none => .ok catalog.toJson
  | some name =>
    if catalog.forest.contains name then
      .ok (.object [("entity", .string name),
        ("columns", .array ((catalog.columnsOf name).map Catalog.Column.toJson))])
    else .error (.unknownEntity name)

def readQuery (read : FileReader m) (path : String) : Running m Query.Definition := do
  match ← readFile read path with
  | .error fault => throw (.unreadable path fault)
  | .ok text =>
    match Query.Definition.ofText text with
    | some definition => pure definition
    | none => throw (.invalidQuery path)

/-- The request that the arguments make. Without a login it is made as an administrator. -/
def request (read : FileReader m) (arguments : RequestArguments) : Running m Request := do
  let definition ← readQuery read arguments.query
  let caller : Identity :=
    match arguments.user with
    | some login => ⟨login, false⟩
    | none => ⟨"cli", true⟩
  let references ← check .scopeArgument (arguments.scope.mapM Reference.ofText)
  return {
    model := definition.toModel
    scope := if arguments.scope.isEmpty then none else some references
    caller }

/-- Runs one engine operation and takes over what it wrote into the journal. -/
def operate {α : Type} (state : Engine.State) (operation : StateM Engine.State α) :
    Running m (α × Engine.State) := do
  let (a, state) := operation.run state
  record state.journal
  return (a, state)

def runQuery (read : FileReader m) (arguments : RequestArguments) (page size : Option UInt64) :
    Running m Unit := do
  let (setup, state) ← boot read arguments.config
  let request ← request read arguments
  let paging : Option Query.Paging := size.map fun size => ⟨page.getD 0, size, []⟩
  let (result, state) ← operate state (Engine.execute setup { request with paging })
  match result with
  | .ok result =>
    printLines [response (.object [("columns", .array (result.columns.map .string)),
      ("tuples", .array (result.tuples.map .array)), ("metrics", state.metrics.toJson)])]
  | .error failure =>
    let e := Error.request failure
    printLines [errorResponse e]
    throw e

/-- Runs a command. -/
def runCommand (read : FileReader m) : Command → Running m Unit
  | .catalog config entity => do
    let (setup, _) ← boot read config
    printLines [response (← check id (catalogData setup.catalog entity))]
  | .explain arguments => do
    let (setup, state) ← boot read arguments.config
    let request ← request read arguments
    let (explanation, _) ← operate state (Engine.explain setup request)
    printLines (explanation.text.splitOn "\n")
  | .run arguments page size => runQuery read arguments page size

/-- Runs a command from the beginning, where `level` is in force until the settings are; why it
failed, if it did, and what it wrote. -/
def perform (read : FileReader m) (level : Severity) (command : Command) :
    m (Option Error × Progress) := do
  let (result, progress) ← (runCommand read command).run.run { level }
  match result with
  | .ok () => return (none, progress)
  | .error e => return (some e, progress)

end Tabulation.CommandLine
