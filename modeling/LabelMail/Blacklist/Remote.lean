import LabelMail.Blacklist.Server
import LabelMail.Text.Hidden
import LabelMail.Url

/-!
A blacklist kept by a service elsewhere. Each call opens a connection, sends one command and waits
for the reply no longer than the client's limit. Whatever goes wrong on the way leaves the call
without an answer: the client never takes a broken reply for yes or no.
-/
namespace LabelMail.Blacklist

/-- How far a connection gets. -/
inductive Route where
  | reachable
  | refused
  | unreachable
  deriving DecidableEq, Repr

structure Remote where
  address : String
  limit : Nat
  route : Route
  server : Server
  deriving DecidableEq, Repr

namespace Remote

open Wire Text

/-- The address of a service as it is set, which must not be blank. -/
def addressOf (setting : String) : Except Failure String :=
  let address := trim setting
  if address.isEmpty then .error (.config "oracle.address is required for the remote backend")
  else .ok address

/-- A character of a line as it is shown in a message. -/
def shown (c : Char) : List Char :=
  if c = '"' then ['\\', '"']
  else if c = '\\' then ['\\', '\\']
  else if c = '\t' then ['\\', 't']
  else if c = '\r' then ['\\', 'r']
  else if c = '\n' then ['\\', 'n']
  else if c.toNat = 0 then ['\\', '0']
  else if isHidden c then
    ['\\', 'u', '\x7b'] ++ Nat.toDigits 16 c.toNat ++ ['\x7d']
  else [c]

def statusText : Status → String
  | .ok => "Ok"
  | .created => "Created"
  | .noContent => "NoContent"
  | .notFound => "NotFound"
  | .conflict => "Conflict"
  | .other line => "Other(\"" ++ String.ofList (line.toList.flatMap shown) ++ "\")"

def unexpected (c : Call) (s : Status) : Failure :=
  .oracleUnavailable s!"unexpected reply to {c.verb.word} {c.url}: {statusText s}"

/-- What an answer means for the call. -/
def verdict (c : Call) (a : Answer) : Except Failure Bool :=
  match c.verb, a.status, a.listed with
  | .lookup, .ok, some listed => .ok listed
  | .lookup, .notFound, _ => .ok false
  | .add, .created, _ => .ok true
  | .add, .conflict, _ => .ok false
  | .remove, .noContent, _ => .ok true
  | .remove, .notFound, _ => .ok false
  | _, status, _ => .error (unexpected c status)

/-- The outcome of a call on which the server sent `bytes` and closed the connection. -/
def outcome (address : String) (c : Call) (bytes : List UInt8) : Except Failure Bool :=
  match readAnswer c.verb (lines bytes) with
  | .ok a => verdict c a
  | .error why => .error (.oracleUnavailable (address ++ ": " ++ why))

/-- A call for an address that is in order. -/
def exchange (r : Remote) (c : Call) : Reply × Remote :=
  let broken (why : String) : Reply :=
    .atOnce (.error (.oracleUnavailable (r.address ++ ": " ++ why)))
  match r.route with
  | .unreachable => (broken "Network is unreachable (os error 101)", r)
  | .refused => (broken "Connection refused (os error 111)", r)
  | .reachable =>
    let (served, server) := r.server.serve (Utf8.encode (command c.verb c.url))
    let r := { r with server := server }
    match served with
    | .bytes bytes => (.atOnce (outcome r.address c bytes), r)
    | .silence =>
      let late := Failure.oracleUnavailable s!"{r.address}: no reply within {r.limit}ms"
      (⟨.error late, some r.limit, false⟩, r)

def ask : Oracle Remote := fun c r =>
  match Url.accepted c.url with
  | .error e => (.atOnce (.error e), r)
  | .ok url => r.exchange { c with url := url }

end Remote

end LabelMail.Blacklist
