import LabelMail.Disk.Path
import LabelMail.Primary.Basic
import LabelMail.Replica.Basic
import LabelMail.Settings

/-!
A disk with directories and files. A file holds bytes or a database, and an empty file is a database
without tables. The tables of the primary store and those of the replica are kept apart, so that one
file can hold both.
-/
namespace LabelMail

namespace Disk

structure Tables where
  primary : Option Primary.Rows
  replica : Option Replica.Rows
  deriving DecidableEq, Repr

def Tables.none : Tables := ⟨Option.none, Option.none⟩

inductive Content where
  | bytes (content : List UInt8)
  | database (tables : Tables)
  deriving DecidableEq, Repr

/-- The tables in a file, unless it is no database. -/
def Content.tables? : Content → Option Tables
  | bytes [] => some .none
  | bytes (_ :: _) => none
  | database tables => some tables

/-- The settings in a file. A database with tables starts with bytes that spell no settings. -/
def Content.settings : Content → Except Failure Settings
  | bytes content => Settings.ofFile (some content)
  | database tables =>
    if tables = .none then .ok Settings.default else .error (.file "a database holds no settings")

end Disk

open Disk

structure Disk where
  /-- The directories apart from the root. -/
  directories : List Path
  files : List (Path × Content)
  /-- The directory where relative paths start. -/
  current : Path
  deriving DecidableEq, Repr

namespace Disk

def isDirectory (d : Disk) (p : Path) : Bool :=
  p.isEmpty || d.directories.contains p

def file? (d : Disk) (p : Path) : Option Content :=
  d.files.lookup p

def write (d : Disk) (p : Path) (c : Content) : Disk :=
  { d with files := (p, c) :: d.files.filter (·.1 != p) }

/-- Follows parts of a path as long as all but the last one lead to directories. -/
def walk (d : Disk) : Path → List String → Option Path
  | p, [] => some p
  | p, part :: rest => if d.isDirectory p then d.walk (Path.step p part) rest else none

/-- The settings in the file with that path. A file that does not exist leaves the defaults. -/
def settings (d : Disk) (path : String) : Except Failure Settings :=
  match d.walk (Path.start d.current path) (Path.parts path) with
  | none => .ok Settings.default
  | some p =>
    if d.isDirectory p then .error (.file "a directory holds no settings")
    else match d.file? p with
      | some c => c.settings
      | none => .ok Settings.default

theorem lookup_filter_ne [BEq α] [LawfulBEq α] {p q : α} (h : q ≠ p) (l : List (α × β)) :
    (l.filter (·.1 != p)).lookup q = l.lookup q := by
  induction l with
  | nil => rfl
  | cons f r ih =>
    by_cases hf : f.1 = p
    · have hq : (q == f.1) = false := by simp [hf, h]
      rw [List.filter_cons_of_neg (by simp [hf]), List.lookup_cons, hq, ih]
    · rw [List.filter_cons_of_pos (by simp [hf]), List.lookup_cons, List.lookup_cons, ih]

theorem file?_write (d : Disk) (p q : Path) (c : Content) :
    (d.write p c).file? q = if q = p then some c else d.file? q := by
  unfold file? write
  by_cases h : q = p
  · simp [h]
  · have hb : (q == p) = false := by simp [h]
    simp only [List.lookup_cons, hb, if_neg h]
    exact lookup_filter_ne h d.files

end Disk

end LabelMail
