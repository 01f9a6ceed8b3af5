import LabelMail.Distinct
import LabelMail.Failure
import LabelMail.Text.Blank
import LabelMail.Text.WordChar

/-!
Addresses in running text. A candidate begins where a word begins, with a scheme and its colon and
slashes or with a bare host name in www, and reaches to the next blank, quote or angle bracket. Of a
candidate the punctuation at its end is dropped; a bare host gets the scheme http, and a candidate
without a host is none.
-/
namespace LabelMail.Url

open Text

/-- The long s and the sign for kelvin fold to letters of ASCII. -/
def isSchemeLetter (c : Char) : Bool :=
  c.isAlpha || c.toNat == 0x17F || c.toNat == 0x212A

def isSchemeChar (c : Char) : Bool :=
  isSchemeLetter c || c.isDigit || c == '+' || c == '.' || c == '-'

def isBodyChar (c : Char) : Bool :=
  !(isBlank c || c == '<' || c == '>' || c == '"' || c.toNat == 0x27 || c.toNat == 0x60)

def body (lead rest : List Char) : Option (List Char) :=
  let b := rest.takeWhile isBodyChar
  if b.isEmpty then none else some (lead ++ b)

def withScheme : List Char → Option (List Char)
  | [] => none
  | c :: r =>
    if isSchemeLetter c then
      let more := r.takeWhile isSchemeChar
      match r.drop more.length with
      | ':' :: '/' :: '/' :: rest => body (c :: more ++ [':', '/', '/']) rest
      | _ => none
    else none

def bareHost (s : List Char) : Option (List Char) :=
  let lead := s.take 4
  if lead.map Char.toLower == ['w', 'w', 'w', '.'] then body lead (s.drop 4) else none

/-- The candidate at the start of the text; a scheme goes before a bare host. -/
def candidate (s : List Char) : Option (List Char) :=
  (withScheme s).or (bareHost s)

/-- The candidates from left to right. The first `skip` characters belong to the one before, and
`afterWord` says that a word character stands in front. -/
def candidates (skip : Nat) (afterWord : Bool) : List Char → List (List Char)
  | [] => []
  | c :: r =>
    match skip with
    | n + 1 => candidates n (isWordChar c) r
    | 0 =>
      match if afterWord then none else candidate (c :: r) with
      | some found => found :: candidates (found.length - 1) (isWordChar c) r
      | none => candidates 0 (isWordChar c) r

/-- Punctuation that ends a sentence or a bracket around an address. -/
def isTrailing (c : Char) : Bool :=
  ['.', ',', ';', ':', '!', '?', ')', ']', '\x7d', '\'', '"', '>'].contains c

/-- What follows the first colon with two slashes. -/
def afterSlashes : List Char → Option (List Char)
  | [] => none
  | c :: r =>
    match c :: r with
    | ':' :: '/' :: '/' :: rest => some rest
    | _ => afterSlashes r

def defaultScheme : List Char := ['h', 't', 't', 'p', ':', '/', '/']

/-- The host with what follows it; www in small or in capital letters alone is no host. -/
def host (rest : List Char) : List Char :=
  let lead := rest.take 4
  if lead == ['w', 'w', 'w', '.'] || lead == ['W', 'W', 'W', '.'] then rest.drop 4 else rest

/-- The address of a candidate. -/
def ofCandidate (found : List Char) : Option (List Char) :=
  let kept := dropEndWhile isTrailing found
  match afterSlashes kept with
  | some rest => if (host rest).isEmpty then none else some kept
  | none => if (host kept).isEmpty then none else some (defaultScheme ++ kept)

/-- The addresses in a text, each once, in the order of their first occurrence. -/
def inText (text : String) : List String :=
  distinct (((candidates 0 false text.toList).filterMap ofCandidate).map String.ofList)

/-- An address as the blacklist keeps it: without blanks around or in it, and not empty. -/
def accepted (text : String) : Except Failure String :=
  let url := trim text
  if url.isEmpty then .error (.invalid "url must be a non-empty string")
  else if hasBlank url then .error (.invalid "url must not contain whitespace")
  else .ok url

end LabelMail.Url
