import LabelMail.Blacklist.Wire

/-!
A blacklist service. It reads one line of what it receives, splits it at its first blank into verb
and address, and answers from its set of addresses. For trials its first replies can be laid down.
-/
namespace LabelMail.Blacklist

/-- What a server does on a connection. -/
inductive Served where
  /-- It sends these bytes and closes the connection. -/
  | bytes (reply : List UInt8)
  | silence
  deriving DecidableEq, Repr

structure Server where
  urls : List String
  /-- The replies laid down for the next connections; none stands for an answer from the set. -/
  script : List (Option Served)
  received : List String
  deriving DecidableEq, Repr

namespace Server

def empty : Server := ⟨[], [], []⟩

/-- The answer from the set, and the set afterwards. -/
def honest (urls : List String) (verb url : String) : String × List String :=
  let listed := urls.contains url
  if verb == "GET" then
    (if listed then "200 Ok\n\ntrue true\n" else "404 Not Found\n", urls)
  else if verb == "POST" then
    if listed then ("409 Conflict\n", urls) else ("201 Created\n", urls ++ [url])
  else if verb == "DELETE" then
    if listed then ("204 No Content\n", urls.filter (· != url)) else ("404 Not Found\n", urls)
  else ("400 Bad Request\n", urls)

/-- The verb and the address of a command line. -/
def splitCommand (line : String) : String × String :=
  let (verb, url) := Text.cutFirst (· == ' ') line.toList
  (String.ofList verb, String.ofList (url.getD []))

/-- The first line of what was received, if there is one and it is text. -/
def commandLine (bytes : List UInt8) : Option String :=
  (Wire.lines bytes).head?.bind fun line => (Wire.lineText line).toOption

/-- A connection on which the server receives `bytes`. -/
def serve (s : Server) (bytes : List UInt8) : Served × Server :=
  match commandLine bytes with
  | none => (.bytes [], s)
  | some line =>
    let s := { s with received := s.received ++ [line] }
    match s.script with
    | some served :: r => (served, { s with script := r })
    | rest =>
      let (verb, url) := splitCommand line
      let (reply, urls) := honest s.urls verb url
      (.bytes (Text.Utf8.encode reply), { s with urls := urls, script := rest.tail })

end Server

end LabelMail.Blacklist
