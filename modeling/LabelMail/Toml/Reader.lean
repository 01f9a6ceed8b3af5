/-!
Readers of text. A reader takes a value off the front of the text and leaves the rest, or fails and
leaves all of it, so that another reader can be tried instead.
-/
namespace LabelMail.Toml

abbrev Reader (α : Type) := StateT (List Char) Option α

namespace Reader

/-- One character that satisfies `p`. -/
def one (p : Char → Bool) : Reader Char
  | c :: r => if p c then some (c, r) else none
  | [] => none

/-- The longest run of characters that satisfy `p`, which may be empty. -/
def run (p : Char → Bool) : Reader (List Char) := fun s =>
  some (s.takeWhile p, s.dropWhile p)

/-- As many characters that satisfy `p`. -/
def exactly (p : Char → Bool) : Nat → Reader (List Char)
  | 0 => return []
  | n + 1 => do return (← one p) :: (← exactly p n)

/-- The text itself. -/
def word : List Char → Reader Unit
  | [] => return
  | c :: r => do
    discard (one (· == c))
    word r

/-- Succeeds at the end of the text only. -/
def finished : Reader Unit
  | [] => some ((), [])
  | _ :: _ => none

/-- Looks at what follows without taking it. -/
def ahead (p : Reader α) : Reader Unit := fun s =>
  (p s).map fun _ => ((), s)

def repeated (p : Reader α) (s : List Char) : List α × List Char :=
  match p s with
  | none => ([], s)
  | some (a, r) =>
    if _ : r.length < s.length then
      let (as, rest) := repeated p r
      (a :: as, rest)
    else ([], s)
termination_by s.length

/-- As many as there are; what takes nothing off the text counts as a failure. -/
def many (p : Reader α) : Reader (List α) := fun s => some (repeated p s)

/-- One or more with a separator between neighbours. -/
def separated (p : Reader α) (separator : Reader Unit) : Reader (List α) := do
  let first ← p
  let rest ← many (do separator; p)
  return first :: rest

def blank (c : Char) : Bool := c == ' ' || c == '\t'

def blanks : Reader Unit := discard (run blank)

def lineFeed : Reader Unit := word ['\n'] <|> word ['\r', '\n']

/-- Neither a control character nor a line feed; tabs are allowed. -/
def printable (c : Char) : Bool :=
  c == '\t' || (32 ≤ c.toNat && c.toNat != 127)

def comment : Reader Unit := do
  word ['#']
  discard (run printable)

/-- The rest of a line of which everything that counts was read. -/
def lineRest : Reader Unit := do
  blanks
  discard (optional comment)
  lineFeed <|> finished

end Reader

end LabelMail.Toml
