import LabelMail.Toml.Value

/-!
Shapes of TOML values. A record may be written as a table, in which fields that nobody knows are
skipped, or as the array of its fields in their order; a date stands for a record without fields.
-/
namespace LabelMail.Toml.Value

def asText : Value → Option String
  | string s => some s
  | _ => none

def asNat : Value → Option Nat
  | integer n => if 0 ≤ n then some n.toNat else none
  | _ => none

def isEmptyCollection : Value → Bool
  | array _ [] => true
  | table _ [] => true
  | _ => false

/-- One of several words, given as a string or as a table whose only field holds nothing. -/
def asChoice (choices : List (String × α)) : Value → Option α
  | string s => choices.lookup s
  | table _ [(s, v)] => if isEmptyCollection v then choices.lookup s else none
  | _ => none

/-- The fields of a record in their order. -/
def asRecord (names : List String) : Value → Option (List (Option Value))
  | table _ fields => some (names.map fun n => fields.lookup n)
  | array _ items => some ((List.range names.length).map fun i => items[i]?)
  | date => some (names.map fun _ => none)
  | _ => none

def withDefault (default : α) (item : Value → Option α) : Option Value → Option α
  | some v => item v
  | none => some default

end LabelMail.Toml.Value
