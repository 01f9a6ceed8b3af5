import LabelMail.Failure

/-!
A database that may fail. It holds rows and a plan of failures, which says for every statement,
from its number and the row writes it is about to make, whether it is refused. A refused statement
changes no row, and a transaction that fails at any point leaves the rows as they were at its
start.
-/
namespace LabelMail

inductive Refusal where
  | broken
  /-- The write would repeat a key that has to be unique. -/
  | duplicate
  deriving DecidableEq, Repr

structure Database (ρ ω : Type) where
  rows : ρ
  plan : Nat → List ω → Option Refusal
  /-- The number of statements so far. -/
  count : Nat

namespace Database

variable {ρ ω α : Type}

abbrev Query (ρ ω α : Type) := EStateM Failure (Database ρ ω) α

/-- A plan on which nothing fails. -/
def sound : Nat → List ω → Option Refusal := fun _ _ => none

def failureOf (onDuplicate : Failure) : Refusal → Failure
  | .broken => .database ""
  | .duplicate => onDuplicate

/-- One statement, which makes the given writes unless the plan or the rows refuse it. -/
def statement (onDuplicate : Failure) (writes : ρ → List ω) (f : ρ → Except Refusal (α × ρ)) :
    Query ρ ω α := fun db =>
  let next := { db with count := db.count + 1 }
  match db.plan db.count (writes db.rows) with
  | some refusal => .error (failureOf onDuplicate refusal) next
  | none =>
    match f db.rows with
    | .ok (a, rows) => .ok a { next with rows := rows }
    | .error refusal => .error (failureOf onDuplicate refusal) next

def select (f : ρ → α) : Query ρ ω α :=
  statement (.database "") (fun _ => []) (fun rows => .ok (f rows, rows))

def modifyRows (writes : ρ → List ω) (f : ρ → α × ρ) : Query ρ ω α :=
  statement (.database "") writes (fun rows => .ok (f rows))

/-- The statement that opens or closes a transaction. -/
def boundary : Query ρ ω Unit :=
  select fun _ => ()

def rollback (rows : ρ) : EStateM.Result Failure (Database ρ ω) α →
    EStateM.Result Failure (Database ρ ω) α
  | .ok a db => .ok a db
  | .error e db => .error e { db with rows := rows }

def transaction (q : Query ρ ω α) : Query ρ ω α := fun db =>
  rollback db.rows ((do boundary; let a ← q; boundary; return a : Query ρ ω α) db)

end Database

end LabelMail
