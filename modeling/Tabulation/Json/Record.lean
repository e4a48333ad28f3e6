import Tabulation.Json.Document
import Tabulation.Ordered.Map
import Tabulation.Ordered.Set

/-! Typed documents: readers from JSON documents to records, closed sets, lists and maps. What a
reader does not ask for may be without a value. -/
namespace Tabulation.Json

/-- Reads a document of one type; a document of another form is refused. -/
abbrev Reader (α : Type) := Document → Option α

/-- A field of a record, as a document gives it. -/
inductive Field where
  | given (document : Document)
  /-- An object without the field. -/
  | missing
  /-- A list that ends before the place of the field. -/
  | cutOff

namespace Document

/-- The named fields of a record, in the order of the names. Other members of an object are passed
over; a field given twice is refused. A list gives the fields by position and may be shorter, but
not longer. -/
def fields? (names : List String) : Document → Option (List Field)
  | .object members =>
    names.mapM fun name =>
      match members.filter fun m => m.1 = name with
      | [] => some .missing
      | [m] => some (.given m.2)
      | _ => none
  | .array items =>
    if items.length ≤ names.length then
      some (items.map .given ++ List.replicate (names.length - items.length) .cutOff)
    else none
  | _ => none

/-- A named alternative: its name alone, or an object whose only member has the name and what the
alternative holds. -/
def variant? : Document → Option (String × Option Document)
  | .string name => some (name, none)
  | .object [(name, d)] => some (name, some d)
  | _ => none

end Document

namespace Reader

/-- Reads the value that a document writes. -/
def run {α : Type} (read : Reader α) (v : Value) : Option α := read v.document

/-- Any value; names in it ascend and occur once. -/
def any : Reader Value := fun d => d.value?.map Value.normalized

/-- What is read from any value by a function on values. -/
def ofValue {α : Type} (read : Value → Option α) : Reader α := fun d => d.value?.bind read

def string : Reader String := .ofValue Value.text?

def bool : Reader Bool
  | .bool b => some b
  | _ => none

def int64 : Reader Int64 := .ofValue Value.int64?

def nat64 : Reader Nat := .ofValue Value.nat64?

def uint64 : Reader UInt64 := fun d => (nat64 d).map UInt64.ofNat

/-- Null stands for nothing. -/
def nullable {α : Type} (read : Reader α) : Reader (Option α)
  | .null => some none
  | d => (read d).map some

def list {α : Type} (read : Reader α) : Reader (List α)
  | .array items => items.mapM read
  | _ => none

def set {α : Type} [Ord α] [Std.TransOrd α] (read : Reader α) : Reader (OrderedSet α) :=
  fun d => (list read d).map OrderedSet.ofList

/-- A map from an object; of a name given several times the last value counts. -/
def map {κ α : Type} [Ord κ] [Std.TransOrd κ] (readKey : String → Option κ) (read : Reader α) :
    Reader (OrderedMap κ α)
  | .object members =>
    (members.mapM fun m : String × Document => do
      let key ← readKey m.1
      let a ← read m.2
      return (key, a)).map OrderedMap.ofList
  | _ => none

/-- One of a closed set of names. -/
def oneOf {α : Type} (names : List (String × α)) : Reader α := fun d =>
  match d.variant? with
  | some (name, none) | some (name, some .null) => names.lookup name
  | _ => none

end Reader

/-- A field that has to be given. -/
def required {α : Type} (read : Reader α) : Field → Option α
  | .given d => read d
  | .missing | .cutOff => none

/-- A field with a default. -/
def optional {α : Type} (default : α) (read : Reader α) : Field → Option α
  | .given d => read d
  | .missing | .cutOff => some default

/-- A field that an object may leave out instead of giving null; a list has to give it. -/
def orNull {α : Type} (read : Reader α) : Field → Option (Option α)
  | .given d => Reader.nullable read d
  | .missing => some none
  | .cutOff => none

end Tabulation.Json
