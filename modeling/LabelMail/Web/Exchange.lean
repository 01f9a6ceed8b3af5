import LabelMail.Mailroom.Record
import LabelMail.Web.Endpoint
import LabelMail.Web.Status

/-!
Requests over the web and their responses. A request names its user in a header that the layer in
front of the mailroom sets. It is refused or stands for one operation of the mailroom, whose outcome
is told in the response.
-/
namespace LabelMail.Web

open Json Mailroom

inductive Body where
  | bytes (content : List UInt8)
  /-- Reading the body failed. -/
  | broken (why : String)
  deriving DecidableEq, Repr

structure Request where
  method : String
  path : String
  query : Option String
  user : Option String
  body : Body
  deriving DecidableEq, Repr

/-- The reason for which a request stands for no operation. -/
inductive Refused where
  | noUser
  | badSegment (written : String)
  | brokenBody (why : String)
  | noEndpoint
  | badBody
  deriving DecidableEq, Repr

def Refused.status : Refused → Nat
  | noUser => 401
  | badSegment _ | brokenBody _ | badBody => 400
  | noEndpoint => 404

def Refused.message : Refused → String
  | noUser => "missing X-User-Id header"
  | badSegment written => "bad path segment `" ++ written ++ "`"
  | brokenBody why => "could not read body: " ++ why
  | noEndpoint => "no such route"
  | badBody => "invalid body: unexpected content"

/-- A character that the value of a header may hold. -/
def isHeaderChar (c : Char) : Bool :=
  (32 ≤ c.toNat && c.toNat ≤ 126) || c == '\t'

def isHeaderText (s : String) : Bool :=
  s.toList.all isHeaderChar

/-- The user whom the header names. -/
def Request.caller (r : Request) : Option String :=
  ((r.user.filter isHeaderText).map Text.trim).filter fun u => !u.isEmpty

def isBodySpace (b : UInt8) : Bool :=
  b == 32 || b == 9 || b == 10 || b == 12 || b == 13

/-- The document in a body; one of blanks only is an object without fields. -/
def docOfBody (content : List UInt8) : Option Doc :=
  if content.all isBodySpace then some (.object [])
  else parse (symbolsOfBytes content)

def Endpoint.operation (content : List UInt8) : Endpoint → Except Refused Operation
  | .plain o => .ok o
  | .withBody read =>
    match docOfBody content >>= read with
    | some o => .ok o
    | none => .error .badBody

/-- Who asks for which operation. -/
def Request.operation (r : Request) : Except Refused (String × Operation) := do
  let some caller := r.caller | throw .noUser
  let segments ← (Target.segments r.path).mapError .badSegment
  match r.body with
  | .broken why => throw (.brokenBody why)
  | .bytes content =>
    let some endpoint := Endpoint.find r.method r.query segments | throw .noEndpoint
    return (caller, ← endpoint.operation content)

structure Response where
  status : Nat
  body : Option (Json String)
  location : Option String
  /-- The seconds after which the client may try again. -/
  retryAfter : Option Nat

namespace Response

def json (status : Nat) (body : Json String) : Response :=
  ⟨status, some body, none, none⟩

def noContent : Response :=
  ⟨204, none, none, none⟩

def error (status : Nat) (message : String) : Response :=
  json status (.object [("error", .string message)])

def ofRefused (r : Refused) : Response :=
  error r.status r.message

def ofFailure (e : Failure) : Response :=
  { error (statusOf e) e.message with retryAfter := if e.isTemporary then some 1 else none }

def contentType (r : Response) : Option String :=
  r.body.map fun _ => "application/json"

def labelPath (l : Label) : String :=
  "/api/labels/" ++ l.id

def ofNewLabel (l : Label) : Response :=
  { json 201 l.toJson with location := some (labelPath l) |>.filter isHeaderText }

def ofSweep (s : Sweep) : Response :=
  json 200 (.object [("message", .string s!"Deleted {s.count} emails from trash."),
    ("count", .nat s.count)])

def ofListing (added : Bool) : Response :=
  if added then json 201 (.object [("result", .string "added")])
  else json 200 (.object [("result", .string "alreadyPresent")])

def ofUnlisting (url : String) (removed : Bool) : Response :=
  if removed then noContent else ofFailure (.notFound s!"url {url}")

/-- The response to an operation that succeeded. Some operations have nothing to tell. -/
def ofOutcome : Operation → Outcome → Response
  | .editDraft _ _, _ | .delete _, _ | .markAllRead, _ | .markUnread _, _ | .renameLabel _ _, _
  | .deleteLabel _, _ => noContent
  | .saveDraft _, .message m => json 201 m.toJson
  | .createLabel _, .label l => ofNewLabel l
  | .blacklist _, .flag added => ofListing added
  | .unblacklist url, .flag removed => ofUnlisting url removed
  | _, .delivery d => json 201 d.senderCopy.toJson
  | _, .sweep s => ofSweep s
  | _, .done => noContent
  | _, outcome => json 200 outcome.toJson

end Response

/-- Answers a request. -/
def handle (r : Request) (m : Mailroom σ) : Response × Mailroom σ :=
  match r.operation with
  | .error e => (.ofRefused e, m)
  | .ok (caller, o) =>
    match perform caller o m with
    | .ok a m => (.ofOutcome o a, m)
    | .error e m => (.ofFailure e, m)

end LabelMail.Web
