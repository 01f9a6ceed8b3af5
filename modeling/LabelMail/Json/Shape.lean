import LabelMail.Json.Basic

/-!
Shapes of JSON values. A record may be written as an object, in which fields that nobody knows are
skipped and no known field may occur twice, or as the array of its fields in their order, in which
fields at the end may be missing.
-/
namespace LabelMail.Json

def asText : Doc → Option String
  | string s => s
  | _ => none

def asBool : Doc → Option Bool
  | bool b => some b
  | _ => none

def asList (item : Doc → Option α) : Doc → Option (List α)
  | array js => js.mapM item
  | _ => none

/-- A value that may be null. -/
def asOptional (item : Doc → Option α) : Doc → Option (Option α)
  | null => some none
  | j => (item j).map some

/-- The field with one of the names, if it occurs, provided that it occurs once. -/
def onlyField (names : List String) (fields : List (String × Doc)) : Option (Option Doc) :=
  match fields.filter (fun f => names.contains f.1) with
  | [] => some none
  | [f] => some (some f.2)
  | _ => none

/-- The fields of a record in their order, each under any of its names. -/
def asRecord (names : List (List String)) : Doc → Option (List (Option Doc))
  | array js =>
    if js.length ≤ names.length then
      some (js.map some ++ List.replicate (names.length - js.length) none)
    else none
  | object fields => do
    let fields ← fields.mapM fun (k, j) => k.map fun k => (k, j)
    names.mapM fun n => onlyField n fields
  | _ => none

def required (item : Doc → Option α) (j : Option Doc) : Option α :=
  j.bind item

/-- A field that may be missing; `default` stands for it then. -/
def withDefault (default : α) (item : Doc → Option α) : Option Doc → Option α
  | some j => item j
  | none => some default

/-- One of several words, given as a string or as an object whose only field is null. -/
def asChoice (choices : List (String × α)) : Doc → Option α
  | string (some s) => choices.lookup s
  | object [(some s, null)] => choices.lookup s
  | _ => none

end LabelMail.Json
