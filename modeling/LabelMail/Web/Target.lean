import LabelMail.Text.Pieces
import LabelMail.Web.Percent

/-!
What a request is about: the segments of its path and the fields of its query. Empty segments do
not count, and one segment that says `api` may come first. The fields of a query are joined by
ampersands and written with plus signs for blanks; what they spell wrongly is read as far as
possible.
-/
namespace LabelMail.Web.Target

open Text

/-- The parts of a path as they are written. -/
def written (path : String) : List (List Char) :=
  (pieces (· == '/') path.toList).filter fun s => !s.isEmpty

/-- What the parts spell, or else the first part that spells nothing. -/
def spelled : List (List Char) → Except String (List String)
  | [] => .ok []
  | part :: rest =>
    match Percent.decode part with
    | none => .error (String.ofList part)
    | some s => (spelled rest).map (s :: ·)

def withoutFirstApi : List String → List String
  | "api" :: rest => rest
  | segments => segments

def segments (path : String) : Except String (List String) :=
  (spelled (written path)).map withoutFirstApi

def fieldText (s : List Char) : String :=
  let spaced := s.map fun c => if c == '+' then ' ' else c
  Utf8.decodeLossy (Percent.decodeBytes (Utf8.encode (String.ofList spaced)))

/-- The fields of a query as names and values; a field without an equals sign has an empty value. -/
def fields (query : String) : List (String × String) :=
  ((pieces (· == '&') query.toList).filter fun s => !s.isEmpty).map fun s =>
    let (name, value) := cutFirst (· == '=') s
    (fieldText name, fieldText (value.getD []))

/-- The value of the first field of that name. -/
def field? (query : Option String) (name : String) : Option String :=
  query.bind fun q => (fields q).lookup name

/-- A target without the scheme and the host that it may start with. What starts with neither them
nor a slash is a host alone. -/
def withoutHost (s : List Char) : List Char :=
  match s, cutFirst (· == ':') s with
  | '/' :: _, _ => s
  | _, (_, some ('/' :: '/' :: r)) => r.dropWhile fun c => c != '/' && c != '?' && c != '#'
  | _, _ => []

/-- The path of a target and its query, which starts behind the first question mark; what a number
sign starts is left out. -/
def split (target : String) : String × Option String :=
  let (path, query) := cutFirst (· == '?') ((withoutHost target.toList).takeWhile (· != '#'))
  (String.ofList path, query.map String.ofList)

end LabelMail.Web.Target
