/-!
The reasons for which an operation fails, and the sentence that each of them is reported with. A
failure is temporary when the same request may succeed later without any change to it.
-/
namespace LabelMail

inductive Failure where
  /-- No message or label of that description, or not one of the caller's. -/
  | notFound (what : String)
  | invalid (why : String)
  | conflict (why : String)
  /-- The blacklist gave no answer. -/
  | oracleUnavailable (why : String)
  | cancelled
  /-- The links of a message were cleared, and only some of the new ones were made. -/
  | interrupted (messageId : String) (linked expected : Nat)
  | config (why : String)
  | database (detail : String)
  | json (detail : String)
  | file (detail : String)
  deriving DecidableEq, Repr

namespace Failure

def message : Failure → String
  | notFound what => "not found: " ++ what
  | invalid why => "invalid input: " ++ why
  | conflict why => "conflict: " ++ why
  | oracleUnavailable why => "blacklist oracle unavailable: " ++ why
  | cancelled => "operation cancelled"
  | interrupted id linked expected =>
    s!"reconciliation of message {id} interrupted after clearing links " ++
      s!"({linked}/{expected} relinked); retry required"
  | config why => "configuration error: " ++ why
  | database detail => "database error: " ++ detail
  | json detail => "json error: " ++ detail
  | file detail => "io error: " ++ detail

def isTemporary : Failure → Bool
  | oracleUnavailable _ => true
  | interrupted _ _ _ => true
  | _ => false

end Failure

end LabelMail
