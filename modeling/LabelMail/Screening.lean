import LabelMail.Blacklist.Oracle
import LabelMail.Message
import LabelMail.Url

/-!
Screening of mail against the blacklist. A new message goes to spam when one of its addresses is
listed and to the inbox when none is. The addresses are looked up one after the other, and the first
answer that is not no decides. Marking a message as spam lists its addresses and stops at the first
failure, with the message as it was; taking it out of spam removes them as far as possible.

Time is counted in the delays of the answers. What waits longer than the budget allows is given up.
-/
namespace LabelMail.Screening

open Blacklist

/-- What happens to a new message when the blacklist does not answer. -/
inductive Policy where
  | failClosed
  | failOpen
  deriving DecidableEq, Repr

structure Rules where
  policy : Policy
  /-- The time for one message in milliseconds. -/
  budget : Nat
  deriving DecidableEq, Repr

/-- How a series of calls ended. -/
inductive Ended (α : Type) where
  | answered (a : α)
  | failed (e : Failure)
  | outOfTime
  | withdrawn

structure Scan (τ : Type) where
  ended : Ended Bool
  withdrawn : Bool
  state : τ

/-- Looks the addresses up until one is listed. The request may be withdrawn at any time, which is
noticed as soon as something is waited for. -/
def scan (ask : Oracle τ) (budget : Nat) : (elapsed : Nat) → (withdrawn : Bool) → List String → τ →
    Scan τ
  | _, withdrawn, [], s => ⟨.answered false, withdrawn, s⟩
  | elapsed, withdrawn, url :: rest, s =>
    let (reply, s) := ask ⟨.lookup, url⟩ s
    let withdrawn := withdrawn || reply.withdrawn
    if withdrawn && reply.delay != some 0 then ⟨.withdrawn, true, s⟩
    else match reply.delay with
      | none => ⟨.outOfTime, withdrawn, s⟩
      | some d =>
        if budget < elapsed + d then ⟨.outOfTime, withdrawn, s⟩
        else match reply.answer with
          | .error e => ⟨.failed e, withdrawn, s⟩
          | .ok true => ⟨.answered true, withdrawn, s⟩
          | .ok false => scan ask budget (elapsed + d) withdrawn rest s

def lateScan (budget : Nat) : Failure :=
  .oracleUnavailable s!"classification exceeded {budget}ms"

/-- Where a message goes whose screening failed. -/
def afterFailure (policy : Policy) (e : Failure) : Except Failure TagSet :=
  match e, policy with
  | .oracleUnavailable _, .failOpen => .ok (.ofList [.inbox])
  | e, _ => .error e

def sentence (rules : Rules) : Ended Bool → Except Failure TagSet
  | .answered true => .ok (.ofList [.spam])
  | .answered false => .ok (.ofList [.inbox])
  | .failed e => afterFailure rules.policy e
  | .outOfTime => afterFailure rules.policy (lateScan rules.budget)
  | .withdrawn => .error .cancelled

structure Verdict (τ : Type) where
  tags : Except Failure TagSet
  /-- Whether the request is withdrawn by now. -/
  withdrawn : Bool
  state : τ

/-- The tags of a new message. A request that was withdrawn before makes no call. -/
def classify (ask : Oracle τ) (rules : Rules) (subject content : String) (withdrawn : Bool)
    (s : τ) : Verdict τ :=
  if withdrawn then ⟨.error .cancelled, true, s⟩
  else
    let r := scan ask rules.budget 0 false (Url.inText (subject ++ " " ++ content)) s
    ⟨sentence rules r.ended, r.withdrawn, r.state⟩

/-- What became of one address. -/
inductive Effect where
  | added (url : String)
  | alreadyPresent (url : String)
  | removed (url : String)
  | notFound (url : String)
  | failed (url : String) (error : String)
  deriving DecidableEq, Repr

structure Toggled where
  tags : TagSet
  spam : Bool
  effects : List Effect
  deriving DecidableEq, Repr

/-- Lists the addresses in order, all within one budget. -/
def listAll (ask : Oracle τ) (budget : Nat) : (elapsed : Nat) → List String → τ →
    Ended (List Effect) × τ
  | _, [], s => (.answered [], s)
  | elapsed, url :: rest, s =>
    let (reply, s) := ask ⟨.add, url⟩ s
    match reply.delay with
    | none => (.outOfTime, s)
    | some d =>
      if budget < elapsed + d then (.outOfTime, s)
      else match reply.answer with
        | .error e => (.failed e, s)
        | .ok added =>
          match listAll ask budget (elapsed + d) rest s with
          | (.answered effects, s) =>
            (.answered ((if added then .added url else .alreadyPresent url) :: effects), s)
          | (other, s) => (other, s)

def lateListing (budget : Nat) : Failure :=
  .oracleUnavailable s!"blacklisting exceeded {budget}ms"

/-- Marks a message as spam. -/
def condemn (ask : Oracle τ) (rules : Rules) (m : Message) (s : τ) : Except Failure Toggled × τ :=
  match listAll ask rules.budget 0 (Url.inText m.text) s with
  | (.answered effects, s) => (.ok ⟨m.tags.intoSpam.1, true, effects⟩, s)
  | (.failed e, s) => (.error e, s)
  | (.outOfTime, s) => (.error (lateListing rules.budget), s)
  | (.withdrawn, s) => (.error .cancelled, s)

/-- The removal of one address; each has a budget of its own. -/
def unlist (ask : Oracle τ) (budget : Nat) (url : String) (s : τ) : Effect × τ :=
  let (reply, s) := ask ⟨.remove, url⟩ s
  let late := Effect.failed url "timed out"
  match reply.delay with
  | none => (late, s)
  | some d =>
    if budget < d then (late, s)
    else match reply.answer with
      | .ok true => (.removed url, s)
      | .ok false => (.notFound url, s)
      | .error e => (.failed url e.message, s)

def unlistAll (ask : Oracle τ) (budget : Nat) : List String → τ → List Effect × τ
  | [], s => ([], s)
  | url :: rest, s =>
    let (effect, s) := unlist ask budget url s
    let (effects, s) := unlistAll ask budget rest s
    (effect :: effects, s)

/-- Takes a message out of spam. -/
def acquit (ask : Oracle τ) (rules : Rules) (m : Message) (s : τ) : Toggled × τ :=
  let (effects, s) := unlistAll ask rules.budget (Url.inText m.text) s
  (⟨m.tags.outOfSpam.1, false, effects⟩, s)

/-- Moves a message into spam or out of it. -/
def flipSpam (ask : Oracle τ) (rules : Rules) (m : Message) (s : τ) : Except Failure Toggled × τ :=
  if m.tags.isSpam then
    let (t, s) := acquit ask rules m s
    (.ok t, s)
  else condemn ask rules m s

end LabelMail.Screening
