import LabelMail.Calendar.Instant
import LabelMail.Failure

/-!
The backlog: the messages whose copy in the replica could not be brought up to date. An entry keeps
the labels that the message should have there, how often it was tried, and what went wrong last.
Entries are kept in ascending order of the message ids.
-/
namespace LabelMail

structure Arrear where
  messageId : String
  ownerId : String
  labelIds : List String
  attempts : Nat
  lastError : String
  firstFailed : Calendar.Instant
  deriving DecidableEq, Repr

structure Backlog where
  arrears : List Arrear
  deriving DecidableEq, Repr

namespace Backlog

def empty : Backlog := ⟨[]⟩

def find? (b : Backlog) (id : String) : Option Arrear :=
  b.arrears.find? (·.messageId == id)

def holds (b : Backlog) (id : String) : Bool :=
  b.arrears.any (·.messageId == id)

/-- Puts an entry at its place; one with the same message id gives way. -/
def put (a : Arrear) : List Arrear → List Arrear
  | [] => [a]
  | x :: r =>
    if a.messageId < x.messageId then a :: x :: r
    else if a.messageId = x.messageId then a :: r
    else x :: put a r

/-- Enters a failure. The time is that of the first one for this message. -/
def record (b : Backlog) (now : Calendar.Instant) (id owner : String) (labelIds : List String)
    (e : Failure) : Backlog :=
  let earlier := b.find? id
  ⟨put { messageId := id
         ownerId := owner
         labelIds := labelIds
         attempts := (earlier.map Arrear.attempts).getD 0 + 1
         lastError := e.message
         firstFailed := (earlier.map Arrear.firstFailed).getD now } b.arrears⟩

/-- Strikes out the entry of a message and says whether there was one. -/
def resolve (b : Backlog) (id : String) : Backlog × Bool :=
  (⟨b.arrears.filter (·.messageId != id)⟩, b.holds id)

end Backlog

end LabelMail
