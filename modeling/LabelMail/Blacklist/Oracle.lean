import LabelMail.Failure

/-!
The blacklist as seen by those who ask it. A call names an address and is answered with yes or no:
whether the address is listed, whether it was added, or whether it was removed. An answer may take
time, or never come, and while a call runs the request that made it may be withdrawn.
-/
namespace LabelMail.Blacklist

inductive Verb where
  | lookup
  | add
  | remove
  deriving DecidableEq, Repr

structure Call where
  verb : Verb
  url : String
  deriving DecidableEq, Repr

structure Reply where
  answer : Except Failure Bool
  /-- The milliseconds until the answer is there; none if it never comes. -/
  delay : Option Nat
  /-- The request is withdrawn during the call. -/
  withdrawn : Bool

def Reply.atOnce (answer : Except Failure Bool) : Reply :=
  ⟨answer, some 0, false⟩

/-- A blacklist whose state is part of a `τ`. -/
abbrev Oracle (τ : Type) := Call → τ → Reply × τ

end LabelMail.Blacklist
