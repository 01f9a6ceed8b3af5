import LabelMail.Failure
import LabelMail.Web.Target

/-!
Where a database is, as its URL says: after the scheme comes the path of a file, in which percent
signs encode bytes, or the word for memory, and then the ways in which the file is to be opened.
-/
namespace LabelMail.Disk

open Text

structure Location where
  /-- The path of the file; an empty one stands for a file that is gone when it is closed. -/
  path : String
  inMemory : Bool
  /-- Whether a file that does not exist is made. -/
  create : Bool
  readOnly : Bool
  /-- The file is taken to be one that nobody changes, and so is only read. -/
  immutable : Bool
  /-- The file system to use instead of the usual one. -/
  fileSystem : Option String
  deriving DecidableEq, Repr

namespace Location

def refused : Failure := .database ""

/-- The text without the copies of `word` at its start. -/
def withoutLeading (word s : List Char) : List Char :=
  if _ : word ≠ [] ∧ word <+: s then withoutLeading word (s.drop word.length) else s
termination_by s.length
decreasing_by
  rename_i h
  have := h.2.length_le
  have := List.length_pos_iff.mpr h.1
  simp only [List.length_drop]
  omega

def scheme : List Char := "sqlite:".toList

def memoryName : String := ":memory:"

def ofPath (path : String) : Location :=
  ⟨path, path == memoryName, false, false, false, none⟩

/-- One of the ways in which a database can be opened. -/
def withOption (l : Location) : String × String → Option Location
  | ("mode", "ro") => some { l with readOnly := true }
  | ("mode", "rw") => some l
  | ("mode", "rwc") => some { l with create := true }
  | ("mode", "memory") => some { l with inMemory := true }
  | ("cache", value) => if value ∈ ["private", "shared"] then some l else none
  | ("immutable", value) =>
    if value ∈ ["true", "1"] then some { l with immutable := true }
    else if value ∈ ["false", "0"] then some { l with immutable := false }
    else none
  | ("vfs", value) => some { l with fileSystem := some value }
  | _ => none

def parse? (url : String) : Option Location := do
  let rest := withoutLeading scheme (withoutLeading (scheme ++ ['/', '/']) url.toList)
  let (name, options) := cutFirst (· == '?') rest
  let path ← Web.Percent.decode name
  if path.any (·.toNat == 0) then failure
  (Web.Target.fields (String.ofList (options.getD []))).foldlM withOption (ofPath path)

def parse (url : String) : Except Failure Location :=
  match parse? url with
  | some l => .ok l
  | none => .error refused

/-- A path that is written as a URL of its own. No other computer may be named in it. -/
def pathInUrl (s : List Char) : Option String :=
  let (path, _) := cutFirst (fun c => c == '?' || c == '#') s
  match path with
  | '/' :: '/' :: r =>
    let (host, rest) := cutFirst (· == '/') r
    if host = [] ∨ host = "localhost".toList then
      match rest with
      | some rest => Web.Percent.decode ('/' :: rest)
      | none => some ""
    else none
  | path => Web.Percent.decode path

/-- The path of the file. -/
def filePath (l : Location) : Option String :=
  let s := l.path.toList
  if l.immutable || l.fileSystem.isSome then some l.path
  else if "file:".toList.isPrefixOf s then pathInUrl (s.drop 5)
  else some l.path

/-- The file systems that keep files where the usual one does. -/
def fileSystems : List String := ["unix", "unix-dotfile", "unix-excl", "unix-none"]

/-- The file system that keeps everything in memory. -/
def memorySystem : String := "memdb"

/-- The path at which a file is to be opened, if the database is in one that stays. -/
def target (l : Location) : Except Failure (Option String) :=
  if l.inMemory then .ok none
  else if l.fileSystem.any fun name => !(memorySystem :: fileSystems).contains name then
    .error refused
  else if l.fileSystem == some memorySystem then .ok none
  else match l.filePath with
    | none => .error refused
    | some path => .ok (if path == "" || path == memoryName then none else some path)

/-- Whether what is opened can only be read. -/
def onlyReads (l : Location) : Bool := l.readOnly || l.immutable

end Location

end LabelMail.Disk
