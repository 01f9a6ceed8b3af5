import LabelMail.Blacklist.Remote
import LabelMail.Json.Basic
import LabelMail.Screening
import LabelMail.Text.Utf8
import LabelMail.Toml.Document
import LabelMail.Toml.Shape

/-!
The settings of the mailroom and the file that they are read from. What the file does not say, and a
file that does not exist, leaves the settings at their defaults.
-/
namespace LabelMail

/-- Which blacklist is asked. -/
inductive Backend where
  | exact
  | remote
  deriving DecidableEq, Repr

structure Settings where
  /-- Where the web interface listens. -/
  bind : String
  url : String
  replicaUrl : String
  backend : Backend
  /-- Where the remote blacklist is, and the milliseconds that one call to it may take. -/
  address : String
  callLimit : Nat
  rules : Screening.Rules
  logFilter : String
  deriving DecidableEq, Repr

namespace Settings

open Toml Value

def default : Settings where
  bind := "127.0.0.1:3000"
  url := "sqlite:tagmail.db?mode=rwc"
  replicaUrl := "sqlite:tagmail-replica.db?mode=rwc"
  backend := .exact
  address := "127.0.0.1:5555"
  callLimit := 2000
  rules := ⟨.failClosed, 10000⟩
  logFilter := "info"

instance : Inhabited Settings := ⟨default⟩

def withServer (v : Value) (s : Settings) : Option Settings := do
  match ← asRecord ["bind"] v with
  | [bind] => return { s with bind := ← withDefault s.bind asText bind }
  | _ => none

def withDatabase (v : Value) (s : Settings) : Option Settings := do
  match ← asRecord ["url", "replica_url"] v with
  | [url, replicaUrl] =>
    return { s with
      url := ← withDefault s.url asText url
      replicaUrl := ← withDefault s.replicaUrl asText replicaUrl }
  | _ => none

def asBackend : Value → Option Backend :=
  asChoice [("exact", .exact), ("remote", .remote)]

def withBlacklist (v : Value) (s : Settings) : Option Settings := do
  match ← asRecord ["backend", "address", "timeout_ms"] v with
  | [backend, address, limit] =>
    return { s with
      backend := ← withDefault s.backend asBackend backend
      address := ← withDefault s.address asText address
      callLimit := ← withDefault s.callLimit asNat limit }
  | _ => none

def asPolicy : Value → Option Screening.Policy :=
  asChoice [("fail_closed", .failClosed), ("fail_open", .failOpen)]

def withScreening (v : Value) (s : Settings) : Option Settings := do
  match ← asRecord ["on_oracle_failure", "timeout_ms"] v with
  | [policy, budget] =>
    return { s with
      rules := ⟨← withDefault s.rules.policy asPolicy policy,
        ← withDefault s.rules.budget asNat budget⟩ }
  | _ => none

def withLogging (v : Value) (s : Settings) : Option Settings := do
  match ← asRecord ["filter"] v with
  | [filter] => return { s with logFilter := ← withDefault s.logFilter asText filter }
  | _ => none

/-- The settings after a section that may be missing. -/
def withSection (read : Value → Settings → Option Settings) (v : Option Value) (s : Settings) :
    Option Settings :=
  match v with
  | some v => read v s
  | none => some s

def ofValue (v : Value) : Option Settings := do
  match ← asRecord ["server", "database", "oracle", "classification", "logging"] v with
  | [server, database, oracle, classification, logging] =>
    withSection withServer server default
      >>= withSection withDatabase database
      >>= withSection withBlacklist oracle
      >>= withSection withScreening classification
      >>= withSection withLogging logging
  | _ => none

def parse (text : String) : Option Settings :=
  Toml.parse text >>= ofValue

def ofText (text : String) : Except Failure Settings :=
  match parse text with
  | some s => .ok s
  | none => .error (.config "the settings cannot be read")

/-- The settings in a file with this content; none stands for a file that does not exist. -/
def ofFile : Option (List UInt8) → Except Failure Settings
  | none => .ok default
  | some content =>
    match Text.Utf8.decode content with
    | .ok text => ofText text
    | .error e => .error (.file e.message)

def backendName : Backend → String
  | .exact => "exact"
  | .remote => "remote"

def policyName : Screening.Policy → String
  | .failClosed => "fail_closed"
  | .failOpen => "fail_open"

/-- All settings under the names that they have in the file. -/
def toJson (s : Settings) : Json String :=
  .object [("server", .object [("bind", .string s.bind)]),
    ("database", .object [("url", .string s.url), ("replica_url", .string s.replicaUrl)]),
    ("oracle", .object [("backend", .string (backendName s.backend)),
      ("address", .string s.address), ("timeout_ms", .nat s.callLimit)]),
    ("classification", .object [("on_oracle_failure", .string (policyName s.rules.policy)),
      ("timeout_ms", .nat s.rules.budget)]),
    ("logging", .object [("filter", .string s.logFilter)])]

/-- The address of the remote blacklist, if that is the one to ask. -/
def remoteAddress (s : Settings) : Except Failure (Option String) :=
  match s.backend with
  | .exact => .ok none
  | .remote => some <$> Blacklist.Remote.addressOf s.address

end Settings

end LabelMail
