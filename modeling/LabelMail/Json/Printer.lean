import LabelMail.Json.Basic

/-!
The text of a JSON value, without blanks. A string escapes its quotes, backslashes and control
characters and writes all other characters as they are.
-/
namespace LabelMail.Json

def hexDigit (n : Nat) : Char :=
  if n < 10 then Char.ofNat (48 + n) else Char.ofNat (87 + n)

def escapeChar (c : Char) : List Char :=
  if c = '"' then ['\\', '"']
  else if c = '\\' then ['\\', '\\']
  else if c.toNat = 8 then ['\\', 'b']
  else if c.toNat = 9 then ['\\', 't']
  else if c.toNat = 10 then ['\\', 'n']
  else if c.toNat = 12 then ['\\', 'f']
  else if c.toNat = 13 then ['\\', 'r']
  else if c.toNat < 32 then
    ['\\', 'u', '0', '0', hexDigit (c.toNat / 16), hexDigit (c.toNat % 16)]
  else [c]

def escapeChars (s : List Char) : List Char :=
  s.flatMap escapeChar

def quoted (s : String) : List Char :=
  '"' :: escapeChars s.toList ++ ['"']

/-- The parts with a comma between neighbours. -/
def separated : List (List Char) → List Char
  | [] => []
  | [p] => p
  | p :: q :: r => p ++ ',' :: separated (q :: r)

mutual

def chars : Json String → List Char
  | null => ['n', 'u', 'l', 'l']
  | bool true => ['t', 'r', 'u', 'e']
  | bool false => ['f', 'a', 'l', 's', 'e']
  | number literal => literal.toList
  | string s => quoted s
  | array items => '[' :: separated (itemChars items) ++ [']']
  | object fields => '\x7b' :: separated (fieldChars fields) ++ ['\x7d']

def itemChars : List (Json String) → List (List Char)
  | [] => []
  | j :: r => chars j :: itemChars r

def fieldChars : List (String × Json String) → List (List Char)
  | [] => []
  | (k, j) :: r => (quoted k ++ ':' :: chars j) :: fieldChars r

end

def text (j : Json String) : String :=
  String.ofList (chars j)

end LabelMail.Json
