import LabelMail.Backlog
import LabelMail.Primary.Blacklist
import LabelMail.Replica.Linking
import LabelMail.Screening

/-!
The mailroom: the primary store, its replica, the backlog of messages that the replica still
lacks, and the blacklist, which the primary store keeps itself unless it is kept elsewhere. An
action may fail and leaves behind whatever it did before.
-/
namespace LabelMail

/-- Where the blacklist is kept. -/
inductive Keeping (σ : Type) where
  | own
  | elsewhere (ask : Blacklist.Oracle σ)

structure Mailroom (σ : Type) where
  primary : Primary.Store
  replica : Replica
  backlog : Backlog
  keeping : Keeping σ
  /-- The blacklist that is kept elsewhere. -/
  outside : σ
  rules : Screening.Rules
  /-- The supply of new ids, and how many of them are used up. -/
  idAt : Nat → String
  drawn : Nat
  /-- The time in milliseconds. -/
  now : Int

namespace Mailroom

variable {σ α : Type}

abbrev Action (σ α : Type) := EStateM Failure (Mailroom σ) α

def onPrimary (q : Primary.Query α) : Action σ α := fun m =>
  match q m.primary with
  | .ok a db => .ok a { m with primary := db }
  | .error e db => .error e { m with primary := db }

def onReplica (q : Replica.Query α) : Action σ α := fun m =>
  match q m.replica with
  | .ok a r => .ok a { m with replica := r }
  | .error e r => .error e { m with replica := r }

/-- Runs an action whose failure is a result; what it did before stays. -/
def attempt (a : Action σ α) : Action σ (Except Failure α) := fun m =>
  match a m with
  | .ok a m => .ok (.ok a) m
  | .error e m => .ok (.error e) m

def drawId : Action σ String := fun m =>
  .ok (m.idAt m.drawn) { m with drawn := m.drawn + 1 }

def time : Action σ Calendar.Instant := do
  return .ofMillis (← get).now

/-- A call to the blacklist, wherever it is kept. -/
def ask : Blacklist.Oracle (Mailroom σ) := fun c m =>
  match m.keeping with
  | .own =>
    match Primary.ask m.now c m.primary with
    | .ok b db => (.atOnce (.ok b), { m with primary := db })
    | .error e db => (.atOnce (.error e), { m with primary := db })
  | .elsewhere ask =>
    let (reply, outside) := ask c m.outside
    (reply, { m with outside := outside })

/-- One call that is waited for until it is answered. -/
def call (verb : Blacklist.Verb) (url : String) : Action σ Bool := fun m =>
  match ask ⟨verb, url⟩ m with
  | (⟨.ok b, _, _⟩, m) => .ok b m
  | (⟨.error e, _, _⟩, m) => .error e m

/-- The screening of mail under the rules of the mailroom. -/
def screening
    (f : Blacklist.Oracle (Mailroom σ) → Screening.Rules → Mailroom σ →
      Except Failure α × Mailroom σ) : Action σ α := fun m =>
  match f ask m.rules m with
  | (.ok a, m) => .ok a m
  | (.error e, m) => .error e m

end Mailroom

end LabelMail
