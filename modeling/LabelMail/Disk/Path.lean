import LabelMail.Text.Pieces

/-!
Paths on a disk. A path is the names that lead from the root to a file or a directory. As text it
may start at the current directory instead, and hold empty parts and dots, which lead nowhere, and
double dots, which lead back.
-/
namespace LabelMail.Disk

abbrev Path := List String

namespace Path

def parts (text : String) : List String :=
  (Text.pieces (· == '/') text.toList).map String.ofList

def start (current : Path) (text : String) : Path :=
  if text.startsWith "/" then [] else current

def step (p : Path) (part : String) : Path :=
  if part = "" ∨ part = "." then p
  else if part = ".." then p.dropLast
  else p ++ [part]

/-- Where a text leads, whatever is there. -/
def follow (current : Path) (text : String) : Path :=
  (parts text).foldl step (start current text)

end Path

end LabelMail.Disk
