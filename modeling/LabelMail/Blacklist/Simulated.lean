import LabelMail.Blacklist.Oracle

/-!
A blacklist for trials. It keeps its addresses and a record of all calls, and can be told for each
address to refuse it, to be out of order, to leave a call without an answer, or to withdraw the
request while the call runs.
-/
namespace LabelMail.Blacklist

structure Simulated where
  urls : List String
  failing : List String
  refused : List String
  hanging : List String
  withdrawing : List String
  failingLookups : Bool
  failingWrites : Bool
  calls : List Call
  deriving DecidableEq, Repr

namespace Simulated

def failsOn (s : Simulated) (c : Call) : Bool :=
  s.failing.contains c.url ||
  match c.verb with
  | .lookup => s.failingLookups
  | .add | .remove => s.failingWrites

/-- What the call answers and does when nothing goes wrong. -/
def perform (s : Simulated) (c : Call) : Bool × Simulated :=
  let listed := s.urls.contains c.url
  match c.verb with
  | .lookup => (listed, s)
  | .add => (!listed, if listed then s else { s with urls := s.urls ++ [c.url] })
  | .remove => (listed, { s with urls := s.urls.filter (· != c.url) })

def ask : Oracle Simulated := fun c s =>
  let logged := { s with calls := s.calls ++ [c] }
  let withdrawn := s.withdrawing.contains c.url
  if s.hanging.contains c.url then (⟨.error .cancelled, none, withdrawn⟩, logged)
  else if s.refused.contains c.url then
    (⟨.error (.invalid "refused"), some 0, withdrawn⟩, logged)
  else if s.failsOn c then
    (⟨.error (.oracleUnavailable "down"), some 0, withdrawn⟩, logged)
  else
    let (answer, done) := logged.perform c
    (⟨.ok answer, some 0, withdrawn⟩, done)

end Simulated

end LabelMail.Blacklist
