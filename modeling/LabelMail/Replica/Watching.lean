import LabelMail.Replica.Reading

/-!
Watching the replica. A watch reads a part of it again whenever something was written; a feed starts
with what is there and goes on with what each look finds changed. Writes between two looks count as
one change.
-/
namespace LabelMail.Replica

/-- The part of the replica that is watched. -/
inductive Subject where
  | message (id : String)
  | mailbox (owner : String)
  | label (owner labelId : String)
  deriving DecidableEq, Repr

inductive Snapshot where
  | message (copy : Option Copy)
  | messages (ms : List Message)
  deriving DecidableEq, Repr

def Subject.current : Subject → Query Snapshot
  | .message id => .message <$> find id
  | .mailbox owner => .messages <$> messagesOf owner
  | .label owner labelId => .messages <$> messagesLinkedTo owner labelId

structure Watch where
  subject : Subject
  /-- The version of the replica at the last look. -/
  seen : Nat
  deriving DecidableEq, Repr

def watch (s : Subject) : Query Watch := do
  return ⟨s, (← get).version⟩

/-- The watch after a look at this version; none if nothing was written since the last one. -/
def Watch.look (w : Watch) (version : Nat) : Option Watch :=
  if w.seen = version then none else some { w with seen := version }

structure Feed where
  watch : Watch
  started : Bool
  deriving DecidableEq, Repr

/-- The feed after its next look, if that finds something to show. -/
def Feed.look (f : Feed) (version : Nat) : Option Feed :=
  if f.started then (f.watch.look version).map fun w => { f with watch := w }
  else some { f with started := true }

end LabelMail.Replica
