import LabelMail.Text.LetterCase

/-!
Title case for display: spaces, hyphens and underscores become spaces, a new word also starts where
a lower case character meets an upper case one, and every word is written in lower case with its
first character raised.
-/
namespace LabelMail.Text

def spaced (c : Char) : Char :=
  if c == '-' || c == '_' then ' ' else c

/-- A space goes between a lower case character and an upper case one that follows it directly. -/
def partHumps : List Char → List Char
  | c :: d :: r =>
    if isLowercase c && isUppercase d then c :: ' ' :: partHumps (d :: r)
    else c :: partHumps (d :: r)
  | s => s

/-- `start` says that the next character begins a word. -/
def raiseWords (start : Bool) : List Char → List Char
  | [] => []
  | c :: r =>
    if c == ' ' then c :: raiseWords true r
    else if start then upper c ++ raiseWords false r
    else c :: raiseWords false r

def titleCase (s : String) : String :=
  String.ofList (raiseWords true ((partHumps (s.toList.map spaced)).flatMap lower))

end LabelMail.Text
