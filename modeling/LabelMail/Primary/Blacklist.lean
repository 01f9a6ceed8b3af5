import LabelMail.Blacklist.Oracle
import LabelMail.Primary.Basic
import LabelMail.Url

/-!
The blacklist that the primary store keeps itself: an address is listed when it is in the table,
letter by letter.
-/
namespace LabelMail.Primary

open Database Blacklist

/-- A statement about the table of the blacklist, which is refused when there is none. -/
def onListings (writes : List ListingRow → List Write)
    (f : List ListingRow → α × List ListingRow) : Query α :=
  statement (.database "") (fun rows => (rows.blacklist.map writes).getD []) fun rows =>
    match rows.blacklist with
    | none => .error .broken
    | some table =>
      let (a, table) := f table
      .ok (a, { rows with blacklist := some table })

def isListed (url : String) (table : List ListingRow) : Bool :=
  table.any (·.url == url)

/-- The answer to a call for an address that is in order. -/
def askTable (now : Int) (c : Call) : Query Bool :=
  match c.verb with
  | .lookup => onListings (fun _ => []) fun table => (isListed c.url table, table)
  | .add => onListings (fun _ => [.insertListing c.url]) fun table =>
    if isListed c.url table then (false, table) else (true, table ++ [⟨c.url, now, now⟩])
  | .remove =>
    onListings (fun table => if isListed c.url table then [.deleteListing c.url] else [])
      fun table => (isListed c.url table, table.filter (·.url != c.url))

def ask (now : Int) (c : Call) : Query Bool :=
  match Url.accepted c.url with
  | .ok url => askTable now { c with url := url }
  | .error e => throw e

def listings : Query (List Listing) :=
  onListings (fun _ => []) fun table =>
    ((sortBy (fun a b => decide (a.url ≤ b.url)) table).map ListingRow.listing, table)

end LabelMail.Primary
