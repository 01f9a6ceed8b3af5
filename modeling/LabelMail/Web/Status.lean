import LabelMail.Failure

/-!
The status codes with which failures are reported to the clients of the web interface.
-/
namespace LabelMail.Web

def statusOf : Failure → Nat
  | .notFound _ => 404
  | .invalid _ => 400
  | .conflict _ => 409
  | .oracleUnavailable _ => 503
  | .interrupted _ _ _ => 503
  | .cancelled => 499
  | .config _ => 500
  | .database _ => 500
  | .json _ => 500
  | .file _ => 500

end LabelMail.Web
