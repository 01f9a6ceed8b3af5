import LabelMail.Mailroom.Operation
import LabelMail.Web.Target

/-!
The endpoints of the web interface. A method and the segments of a path name an endpoint or none;
the operation that it stands for may depend on the body of the request as well.
-/
namespace LabelMail.Web

open Json Mailroom Request

/-- An endpoint with what its path says. -/
inductive Endpoint where
  | plain (o : Operation)
  /-- The operation is told by the body. -/
  | withBody (read : Doc → Option Operation)

namespace Endpoint

def ofBody (read : Doc → Option α) (o : α → Operation) : Endpoint :=
  .withBody fun j => (read j).map o

/-- The endpoints for messages, without the first segment of the path. -/
def mails (query : Option String) : String → List String → Option Endpoint
  | "GET", [] => some (.plain (.list (Target.field? query "label")))
  | "GET", ["spam"] => some (.plain .listSpam)
  | "GET", ["search", query] => some (.plain (.search query))
  | "GET", ["search", folder, query] => some (.plain (.searchIn folder query))
  | "GET", [id] => some (.plain (.find id))
  | "POST", [] => some (ofBody asCompose fun c => .send c false)
  | "POST", ["draft"] => some (ofBody asCompose .saveDraft)
  | "POST", [id, "spam"] => some (.plain (.flipSpam id))
  | "PATCH", ["markAllRead"] => some (.plain .markAllRead)
  | "PATCH", ["markUnread"] => some (ofBody asIds .markUnread)
  | "PATCH", [id, "label"] => some (ofBody asLabelChange (.changeLabel id))
  | "PATCH", [id, "read"] => some (ofBody asRead (.markRead id))
  | "PATCH", [id, "star"] => some (.plain (.flipStar id))
  | "PATCH", [id, "archive"] => some (.plain (.flipArchive id))
  | "PATCH", [id, "trash"] => some (.plain (.flipTrash id))
  | "PATCH", [id] => some (ofBody asDraftEdit (.editDraft id))
  | "DELETE", ["trash", "clear"] => some (.plain .clearTrash)
  | "DELETE", [id, "label", label] => some (.plain (.changeLabel id ⟨some label, .remove⟩))
  | "DELETE", [id] => some (.plain (.delete id))
  | _, _ => none

def labels : String → List String → Option Endpoint
  | "GET", [] => some (.plain .labels)
  | "POST", [] => some (ofBody asLabelName .createLabel)
  | "GET", [name, "emails"] => some (.plain (.list (some name)))
  | "GET", [id] => some (.plain (.findLabel id))
  | "PATCH", [id] => some (ofBody asLabelName (.renameLabel id))
  | "DELETE", [id] => some (.plain (.deleteLabel id))
  | _, _ => none

def blacklist : String → List String → Option Endpoint
  | "POST", [] => some (ofBody asBlacklisted .blacklist)
  | "DELETE", [url] => some (.plain (.unblacklist url))
  | _, _ => none

def sync : String → List String → Option Endpoint
  | "POST", [] => some (.plain .synchronize)
  | "GET", ["pending"] => some (.plain .pending)
  | "POST", ["retry"] => some (.plain .retryPending)
  | _, _ => none

def find (method : String) (query : Option String) : List String → Option Endpoint
  | "mails" :: rest => mails query method rest
  | "labels" :: rest => labels method rest
  | "blacklist" :: rest => blacklist method rest
  | "sync" :: rest => sync method rest
  | _ => none

end Endpoint

end LabelMail.Web
