/-!
Values of TOML, and the tables that are built up from the lines of a document. A table may be
added to as long as it was only passed on the way to another one: by headers if a header passed it
or a dotted key made it, and by dotted keys under the same conditions; a table that has its own
header, or that is written between braces, is closed for them.
-/
namespace LabelMail.Toml

/-- How a table came to be. -/
inductive Origin where
  /-- It has a header of its own, or is the document. -/
  | stated
  /-- A header names a table in it. -/
  | passed
  /-- A dotted key names a value in it. -/
  | dotted
  /-- It is written between braces. -/
  | inline
  deriving DecidableEq, Repr

inductive Value where
  | string (s : String)
  | integer (n : Int)
  | float
  | boolean (b : Bool)
  | date
  /-- An array; headers may add tables to one that was made by headers. -/
  | array (byHeaders : Bool) (items : List Value)
  | table (origin : Origin) (fields : List (String × Value))
  deriving Repr

namespace Value

def emptyTable (origin : Origin) : Value := .table origin []

def put (key : String) (v : Value) (fields : List (String × Value)) : List (String × Value) :=
  (key, v) :: fields.filter (·.1 != key)

/-- Whether a path may lead through a table of this origin. -/
def isOpen (byDots : Bool) : Origin → Bool
  | .stated => !byDots
  | .passed | .dotted => true
  | .inline => false

/-- Changes the value at the end of a path. Tables that are missing on the way are made, and in an
array that was made by headers the path leads to the last table. -/
def within (byDots : Bool) (change : Value → Option Value) : List String → Value → Option Value
  | [], v => change v
  | key :: path, .table origin fields => do
    let child := (fields.lookup key).getD (.emptyTable (if byDots then .dotted else .passed))
    let changed ← match child with
      | .table o _ => if isOpen byDots o then within byDots change path child else none
      | .array true items => do
        let last ← within byDots change path (← items.getLast?)
        return .array true (items.dropLast ++ [last])
      | _ => none
    return .table origin (put key changed fields)
  | _ :: _, _ => none

/-- Adds a field to the table that a dotted key leads to. Only tables made by dotted keys can be
added to in this way. -/
def addField (path : List String) (key : String) (v : Value) : Value → Option Value :=
  within true (fun
    | .table origin fields =>
      if (origin == .dotted) == path.isEmpty || fields.any (·.1 == key) then none
      else some (.table origin ((key, v) :: fields))
    | _ => none) path

/-- Enters the table of a header, which may have been passed before but not stated. -/
def stateTable (path : List String) (key : String) : Value → Option Value :=
  within false (fun
    | .table origin fields =>
      match fields.lookup key with
      | none => some (.table origin ((key, .emptyTable .stated) :: fields))
      | some (.table .passed inner) => some (.table origin (put key (.table .stated inner) fields))
      | some _ => none
    | _ => none) path

/-- Adds a table to the array of a header. -/
def appendTable (path : List String) (key : String) : Value → Option Value :=
  within false (fun
    | .table origin fields =>
      match fields.lookup key with
      | none => some (.table origin ((key, .array true [.emptyTable .stated]) :: fields))
      | some (.array true items) =>
        some (.table origin (put key (.array true (items ++ [.emptyTable .stated])) fields))
      | some _ => none
    | _ => none) path

end Value

end LabelMail.Toml
