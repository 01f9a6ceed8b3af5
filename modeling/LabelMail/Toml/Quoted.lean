import LabelMail.Toml.Reader

/-!
Strings of TOML. A basic string stands in double quotes and may hold escapes, a literal string in
single quotes and holds none; either may run over several lines between three quotes, where a line
feed right behind the opening ones does not count.
-/
namespace LabelMail.Toml.Quoted

open Reader

def isHex (c : Char) : Bool :=
  c.isDigit || ('a' ≤ c && c ≤ 'f') || ('A' ≤ c && c ≤ 'F')

def hexValue (c : Char) : Nat :=
  if c.isDigit then c.toNat - 48 else c.toLower.toNat - 87

def hexNumber (digits : List Char) : Nat :=
  digits.foldl (fun n c => 16 * n + hexValue c) 0

/-- A code point in as many hexadecimal digits. -/
def codePoint (digits : Nat) : Reader Char := do
  let n := hexNumber (← exactly isHex digits)
  if n.isValidChar then return Char.ofNat n else failure

def escaped : List (Char × Nat) :=
  [('b', 8), ('t', 9), ('n', 10), ('f', 12), ('r', 13), ('"', 34), ('\\', 92)]

def escape : Reader Char := do
  word ['\\']
  let c ← one fun _ => true
  match escaped.lookup c with
  | some code => return Char.ofNat code
  | none => if c = 'u' then codePoint 4 else if c = 'U' then codePoint 8 else failure

/-- A character that stands for itself between quotes of this kind. -/
def plain (quote : Char) : Reader Char :=
  one fun c => printable c && c != quote && !(quote == '"' && c == '\\')

/-- A backslash at the end of a line hides the line feed and all blanks up to the next text. -/
def hiddenBreak : Reader (List Char) := do
  word ['\\']
  blanks
  lineFeed
  discard (many (lineFeed <|> discard (one blank)))
  return []

def withEscapes (quote : Char) : Reader Char :=
  if quote = '"' then plain quote <|> escape else plain quote

def singleLine (quote : Char) : Reader (List Char) := do
  word [quote]
  let content ← many (withEscapes quote)
  word [quote]
  return content

/-- What may stand in a string of several lines, quotes apart. -/
def part (quote : Char) : Reader (List Char) :=
  (if quote = '"' then hiddenBreak else failure)
    <|> (do return [← withEscapes quote])
    <|> (do lineFeed; return ['\n'])

/-- One or two quotes in front of something else. -/
def looseQuotes (quote : Char) (next : Reader α) : Reader (List Char) :=
  (do word [quote, quote]; ahead next; return [quote, quote])
    <|> (do word [quote]; ahead next; return [quote])

def severalLines (quote : Char) : Reader (List Char) := do
  let ending := word [quote, quote, quote]
  ending
  discard (optional lineFeed)
  let content ← many (part quote <|> looseQuotes quote (part quote))
  let last ← optional (looseQuotes quote ending)
  ending
  return content.flatten ++ last.getD []

def string : Reader String := do
  String.ofList <$>
    (severalLines '"' <|> singleLine '"' <|> severalLines '\'' <|> singleLine '\'')

end LabelMail.Toml.Quoted
