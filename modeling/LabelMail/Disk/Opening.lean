import LabelMail.Disk.Basic
import LabelMail.Disk.Location
import LabelMail.Mailroom.Refresh

/-!
Opening the stores of a mailroom on a disk. A database that can only be read refuses every write,
and so it must have its tables already; otherwise those that are missing are laid out.
-/
namespace LabelMail.Disk

abbrev Action (α : Type) := EStateM Failure Disk α

/-- A database in use: the file it is kept in, unless it goes away, and what was found there. -/
structure Opened where
  path : Option Path
  tables : Tables
  readOnly : Bool
  deriving DecidableEq, Repr

def openFile (l : Location) (name : String) : Action Opened := do
  let d ← get
  let p := Path.follow d.current name
  if d.isDirectory p || !d.isDirectory p.dropLast then throw Location.refused
  match d.file? p with
  | some c =>
    match c.tables? with
    | some tables => return ⟨some p, tables, l.onlyReads⟩
    | none => throw Location.refused
  | none =>
    if l.create && !l.readOnly then
      set (d.write p (.bytes []))
      return ⟨some p, .none, l.onlyReads⟩
    else throw Location.refused

def openAt (l : Location) : Action Opened := do
  match ← MonadExcept.ofExcept l.target with
  | some name => openFile l name
  | none => return ⟨none, .none, l.onlyReads⟩

/-- The plan on which all statements that write fail. -/
def withoutWrites {ω : Type} : Nat → List ω → Option Refusal :=
  fun _ writes => if writes.isEmpty then none else some .broken

/-- The database of tables of which some may have to be laid out. -/
def Opened.database {ρ ω : Type} (o : Opened) (empty : ρ) (rows : Option ρ) :
    Except Failure (Database ρ ω) :=
  match rows, o.readOnly with
  | some rows, readOnly => .ok ⟨rows, if readOnly then withoutWrites else Database.sound, 0⟩
  | none, true => .error Location.refused
  | none, false => .ok ⟨empty, Database.sound, 0⟩

/-- Changes the tables in the file at the path. -/
def change (path : Option Path) (f : Tables → Tables) : Action Unit :=
  modify fun d =>
    match path with
    | some p => d.write p (.database (f (((d.file? p).bind Content.tables?).getD .none)))
    | none => d

def keepPrimary (path : Option Path) (s : Primary.Store) : Action Unit :=
  change path fun t => { t with primary := some s.rows }

def keepReplica (path : Option Path) (r : Replica) : Action Unit :=
  change path fun t => { t with replica := some r.database.rows }

/-- The database at a URL, which is made if it does not exist. -/
def openOrMake (url : String) : Action Opened := do
  let l ← MonadExcept.ofExcept (Location.parse url)
  openAt { l with create := true }

def openPrimary (url : String) : Action (Option Path × Primary.Store) := do
  let o ← openOrMake url
  let store ← MonadExcept.ofExcept (o.database Primary.Rows.empty o.tables.primary)
  keepPrimary o.path store
  return (o.path, store)

def openReplica (url : String) : Action (Option Path × Replica) := do
  let o ← openOrMake url
  let database ← MonadExcept.ofExcept (o.database Replica.Rows.empty o.tables.replica)
  keepReplica o.path ⟨database, 0⟩
  return (o.path, ⟨database, 0⟩)

/-- The result of an action on `σ`, after which `keep` stores what it leaves behind. -/
def finish {σ α : Type} (keep : σ → Action Unit) : EStateM.Result Failure σ α → Action α
  | .ok a s => do
    keep s
    return a
  | .error e s => do
    keep s
    throw e

def withPrimary (url : String) (q : Primary.Query α) : Action α := do
  let (path, store) ← openPrimary url
  finish (keepPrimary path) (q store)

def withReplica (url : String) (q : Replica.Query α) : Action α := do
  let (path, replica) ← openReplica url
  finish (keepReplica path) (q replica)

/-- A mailroom that keeps the blacklist itself and gives out no ids. -/
def roomOf (s : Settings) (primary : Primary.Store) (replica : Replica) : Mailroom Unit :=
  { primary, replica, backlog := Backlog.empty, keeping := .own, outside := (), rules := s.rules,
    idAt := fun _ => "", drawn := 0, now := 0 }

/-- Runs an action in the mailroom whose stores are where the settings say. -/
def withStores (s : Settings) (a : Mailroom.Action Unit α) : Action α := do
  let (primaryPath, primary) ← openPrimary s.url
  let (replicaPath, replica) ← openReplica s.replicaUrl
  finish (fun m => do
    keepPrimary primaryPath m.primary
    keepReplica replicaPath m.replica) (a (roomOf s primary replica))

end LabelMail.Disk
