import LabelMail.Text.Collation

/-!
Wildcard patterns for searching. A percent sign stands for any run of characters, an underscore for
any one character, and a character behind the escape sign for itself; letters match without regard
to ASCII case. A pattern and a text both end at their first NUL, and two code points that are no
characters are read in both as the replacement character.
-/
namespace LabelMail.Text.Wildcard

inductive Item where
  | anyRun
  | anyOne
  | letter (c : Char)
  /-- An escape sign with nothing behind it. -/
  | never
  deriving DecidableEq, Repr

def read (escape : Option Char) : List Char → List Item
  | [] => []
  | c :: r =>
    if escape = some c then
      match r with
      | [] => [.never]
      | d :: r => .letter d :: read escape r
    else if c = '%' then .anyRun :: read escape r
    else if c = '_' then .anyOne :: read escape r
    else .letter c :: read escape r

def anySuffix (p : List Char → Bool) : List Char → Bool
  | [] => p []
  | c :: r => p (c :: r) || anySuffix p r

def accepts : List Item → List Char → Bool
  | [], s => s.isEmpty
  | .anyRun :: p, s => anySuffix (accepts p) s
  | .anyOne :: p, _ :: s => accepts p s
  | .letter a :: p, c :: s => sameFolded a c && accepts p s
  | _ :: _, _ => false

def beforeNul (s : String) : List Char :=
  s.toList.takeWhile (fun c => c.toNat != 0)

/-- U+FFFE and U+FFFF are read as the replacement character. -/
def asRead (c : Char) : Char :=
  if c.toNat = 0xFFFE ∨ c.toNat = 0xFFFF then Char.ofNat 0xFFFD else c

def charsRead (s : String) : List Char :=
  (beforeNul s).map asRead

/-- Whether `text` matches the pattern as written. -/
def matchesText (escape : Option Char) (pattern text : String) : Bool :=
  accepts (read escape (charsRead pattern)) (charsRead text)

def escaped : List Char → List Char
  | [] => []
  | c :: r => if c = '%' ∨ c = '_' ∨ c = '\\' then '\\' :: c :: escaped r else c :: escaped r

/-- The pattern of the texts that contain `query`; the escape sign is the backslash. -/
def containing (query : String) : String :=
  String.ofList ('%' :: escaped query.toList ++ ['%'])

/-- A pattern longer than this many bytes is refused. -/
def lengthLimit : Nat := 50000

def tooLong (pattern : String) : Bool :=
  lengthLimit < pattern.utf8ByteSize

end LabelMail.Text.Wildcard
