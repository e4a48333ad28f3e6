import Tabulation.Decimal.Reading
import Tabulation.Query.Paging

/-! Command lines: a command and its options, each of which takes a value. -/
namespace Tabulation.CommandLine

/-- What the commands on a query have in common. -/
structure RequestArguments where
  config : String
  query : String
  scope : List String
  user : Option String
deriving DecidableEq, Repr

inductive Command where
  | catalog (config : String) (entity : Option String)
  | explain (request : RequestArguments)
  | run (request : RequestArguments) (page size : Option UInt64)
deriving DecidableEq, Repr

/-- Why no command is to be run. -/
inductive Usage where
  /-- Help or the version was asked for. -/
  | asked
  | mistaken
deriving DecidableEq, Repr

def Usage.exitCode : Usage → Nat
  | .asked => 0
  | .mistaken => 2

/-- What an option accepts as its value. -/
inductive ValueKind where
  | text
  /-- A text that is not empty. -/
  | path
  | number
deriving DecidableEq, Repr

structure OptionRule where
  name : String
  kind : ValueKind
  repeatable : Bool := false
deriving DecidableEq, Repr

def configRule : OptionRule := ⟨"config", .path, false⟩

def requestRules : List OptionRule :=
  [configRule, ⟨"query", .path, false⟩, ⟨"scope", .text, true⟩, ⟨"user", .text, false⟩]

/-- The options of every command. -/
def rules : List (String × List OptionRule) :=
  [("catalog", [configRule, ⟨"entity", .text, false⟩]),
   ("explain", requestRules),
   ("run", requestRules ++ [⟨"page", .number, false⟩, ⟨"size", .number, false⟩])]

/-- A number of 64 bits, in decimal digits after an optional plus sign. -/
def readSize (s : String) : Option UInt64 :=
  let digits := match s.toList with
    | '+' :: digits => digits
    | digits => digits
  let n := Decimal.natOfDigits digits
  if digits ≠ [] ∧ digits.all Char.isDigit ∧ n ≤ Query.maxSize then some (.ofNat n) else none

def ValueKind.accepts (kind : ValueKind) (value : String) : Bool :=
  match kind with
  | .text => true
  | .path => value ≠ ""
  | .number => (readSize value).isSome

/-- The values given, by option. -/
abbrev Given := List (String × String)

/-- Whether an argument is one of options, and so no value by itself. A hyphen alone is a value. -/
def isOption (argument : String) : Bool :=
  match argument.toList with
  | ['-'] => false
  | '-' :: _ => true
  | _ => false

/-- Takes the value of an option, which may be given once if it is not repeatable. -/
def take (rules : List OptionRule) (name value : String) (given : Given) : Except Usage Given :=
  match rules.find? fun rule => rule.name = name with
  | none => .error .mistaken
  | some rule =>
    if rule.kind.accepts value ∧ (rule.repeatable ∨ (given.lookup name).isNone) then
      .ok (given ++ [(name, value)])
    else .error .mistaken

/-- The name and the value of a long option that holds both. -/
def splitOption (argument : List Char) : Option (String × String) :=
  match argument.dropWhile (· ≠ '=') with
  | _ :: value => some (String.ofList (argument.takeWhile (· ≠ '=')), String.ofList value)
  | [] => none

/-- Whether an argument asks for help: in full, or as the first of short options. -/
def asksHelp (argument : String) : Bool :=
  match argument.toList with
  | '-' :: 'h' :: _ => true
  | _ => argument = "--help"

/-- Reads the options of a command from left to right, up to the first mistake or the first request
for help. -/
def readOptions (rules : List OptionRule) (given : Given) : List String → Except Usage Given
  | [] => .ok given
  | argument :: rest =>
    if asksHelp argument then .error .asked
    else if argument = "--" then if rest.isEmpty then .ok given else .error .mistaken
    else
      match argument.toList with
      | '-' :: '-' :: option =>
        match splitOption option, rest with
        | some (name, value), rest =>
          match take rules name value given with
          | .ok given => readOptions rules given rest
          | .error usage => .error usage
        | none, value :: rest =>
          if isOption value then .error .mistaken
          else
            match take rules (String.ofList option) value given with
            | .ok given => readOptions rules given rest
            | .error usage => .error usage
        | none, [] => .error .mistaken
      | _ => .error .mistaken

def Given.config (given : Given) : String := (given.lookup "config").getD "./chartquery.json"

def Given.number (given : Given) (name : String) : Option UInt64 :=
  (given.lookup name).bind readSize

/-- The arguments on a query, which has to be given. -/
def Given.request (given : Given) : Except Usage RequestArguments :=
  match given.lookup "query" with
  | none => .error .mistaken
  | some query =>
    .ok ⟨given.config, query, (given.filter fun g => g.1 = "scope").map (·.2),
      given.lookup "user"⟩

/-- The command of that name with the options given. A page number needs a page size. -/
def Given.command (given : Given) : String → Except Usage Command
  | "catalog" => .ok (.catalog given.config (given.lookup "entity"))
  | "explain" => given.request.map .explain
  | _ =>
    if (given.lookup "page").isSome ∧ (given.lookup "size").isNone then .error .mistaken
    else given.request.map fun request => .run request (given.number "page") (given.number "size")

/-- Whether an argument before the command asks for help or the version. -/
def asksAtOnce (argument : String) : Bool :=
  match argument.toList with
  | '-' :: 'V' :: _ => true
  | _ => argument = "--version" ∨ asksHelp argument

/-- Reads a command line, without the name of the program. -/
def read : List String → Except Usage Command
  | [] => .error .mistaken
  | name :: rest =>
    if asksAtOnce name then .error .asked
    else if name = "help" then
      match rest with
      | [] => .error .asked
      | [topic] =>
        if topic = "help" ∨ (rules.lookup topic).isSome then .error .asked else .error .mistaken
      | _ => .error .mistaken
    else
      match rules.lookup name with
      | none => .error .mistaken
      | some rules =>
        match readOptions rules [] rest with
        | .ok given => given.command name
        | .error usage => .error usage

end Tabulation.CommandLine
