import LabelMail.Json.Basic
import LabelMail.Text.Utf8

/-!
Reading JSON. The reader works on symbols: a symbol is a character, or none for bytes that are no
UTF-8, which are harmless inside a string that nobody uses and wrong everywhere else. The depth of a
value is bounded by the length of what is read, which serves as fuel.
-/
namespace LabelMail.Json

open Text

abbrev Symbol := Option Char

def symbolsOfText (s : String) : List Symbol :=
  s.toList.map some

def symbolsOfBytes (bytes : List UInt8) : List Symbol :=
  (Utf8.chunks bytes).map fun
    | .char c => some c
    | _ => none

def isSpace : Symbol → Bool
  | some c => c = ' ' || c = '\t' || c = '\n' || c = '\r'
  | none => false

def skip (s : List Symbol) : List Symbol :=
  s.dropWhile isSpace

/-- A part of a string as written. -/
inductive Piece where
  | char (c : Char)
  /-- An escaped unit of UTF-16. -/
  | unit (code : Nat)
  | unreadable
  deriving DecidableEq, Repr

def hexValue : Symbol → Option Nat
  | some c =>
    if '0' ≤ c ∧ c ≤ '9' then some (c.toNat - 48)
    else if 'a' ≤ c ∧ c ≤ 'f' then some (c.toNat - 87)
    else if 'A' ≤ c ∧ c ≤ 'F' then some (c.toNat - 55)
    else none
  | none => none

def hexUnit (a b c d : Symbol) : Option Nat := do
  return ((16 * (← hexValue a) + (← hexValue b)) * 16 + (← hexValue c)) * 16 + (← hexValue d)

/-- The character behind a backslash, except for the letter u. -/
def simpleEscape (c : Char) : Option Char :=
  if c = '"' ∨ c = '\\' ∨ c = '/' then some c
  else if c = 'b' then some (Char.ofNat 8)
  else if c = 'f' then some (Char.ofNat 12)
  else if c = 'n' then some '\n'
  else if c = 'r' then some '\r'
  else if c = 't' then some '\t'
  else none

/-- The pieces up to the closing quote, and what follows it. -/
def pieces : List Symbol → Option (List Piece × List Symbol)
  | [] => none
  | none :: r => do
    let (ps, rest) ← pieces r
    return (.unreadable :: ps, rest)
  | some c :: r =>
    if c = '"' then some ([], r)
    else if c = '\\' then
      match r with
      | some e :: r =>
        if e = 'u' then
          match r with
          | a :: b :: c :: d :: r => do
            let code ← hexUnit a b c d
            let (ps, rest) ← pieces r
            return (.unit code :: ps, rest)
          | _ => none
        else do
          let e ← simpleEscape e
          let (ps, rest) ← pieces r
          return (.char e :: ps, rest)
      | _ => none
    else if c.toNat < 32 then none
    else do
      let (ps, rest) ← pieces r
      return (.char c :: ps, rest)

def isLead (code : Nat) : Bool := 0xD800 ≤ code && code ≤ 0xDBFF

def isTrail (code : Nat) : Bool := 0xDC00 ≤ code && code ≤ 0xDFFF

/-- The characters that the pieces spell; a lead surrogate needs its trail right behind it. -/
def joined : List Piece → Option (List Char)
  | [] => some []
  | .char c :: r => (joined r).map (c :: ·)
  | .unreadable :: _ => none
  | .unit code :: r =>
    if isLead code then
      match r with
      | .unit trail :: r =>
        if isTrail trail then
          (joined r).map (Char.ofNat (0x10000 + (code - 0xD800) * 1024 + (trail - 0xDC00)) :: ·)
        else none
      | _ => none
    else if isTrail code then none
    else (joined r).map (Char.ofNat code :: ·)

def stringText (ps : List Piece) : Option String :=
  (joined ps).map String.ofList

/-- A fraction and an exponent, either of which may be missing. -/
def isNumberTail (s : List Char) : Bool :=
  let exponent : List Char → Bool
    | [] => true
    | e :: r =>
      let digits := match r with
        | '+' :: d => d
        | '-' :: d => d
        | d => d
      (e = 'e' || e = 'E') && !digits.isEmpty && digits.all Char.isDigit
  match s with
  | '.' :: r => !(r.takeWhile Char.isDigit).isEmpty && exponent (r.dropWhile Char.isDigit)
  | s => exponent s

def isNumber (s : List Char) : Bool :=
  let unsigned := match s with
    | '-' :: r => r
    | s => s
  match unsigned with
  | '0' :: r => isNumberTail r
  | c :: r => c.isDigit && isNumberTail (r.dropWhile Char.isDigit)
  | [] => false

def isNumberChar : Symbol → Bool
  | some c => c.isDigit || c = '-' || c = '+' || c = '.' || c = 'e' || c = 'E'
  | none => false

def literal (word : String) (j : Doc) (s : List Symbol) : Option (Doc × List Symbol) :=
  let w := symbolsOfText word
  if w.isPrefixOf s then some (j, s.drop w.length) else none

def numberAt (s : List Symbol) : Option (Doc × List Symbol) :=
  let run := s.takeWhile isNumberChar
  let digits := run.reduceOption
  if isNumber digits then some (.number (String.ofList digits), s.drop run.length) else none

mutual

def value : Nat → List Symbol → Option (Doc × List Symbol)
  | 0, _ => none
  | n + 1, s =>
    match skip s with
    | some '"' :: r => do
      let (ps, rest) ← pieces r
      return (.string (stringText ps), rest)
    | some '[' :: r =>
      match skip r with
      | some ']' :: rest => some (.array [], rest)
      | _ => (items n r).map fun (js, rest) => (.array js, rest)
    | some '\x7b' :: r =>
      match skip r with
      | some '\x7d' :: rest => some (.object [], rest)
      | _ => (fields n r).map fun (fs, rest) => (.object fs, rest)
    | some 'n' :: r => literal "ull" .null r
    | some 't' :: r => literal "rue" (.bool true) r
    | some 'f' :: r => literal "alse" (.bool false) r
    | s => numberAt s

/-- The items of an array up to its closing bracket. -/
def items : Nat → List Symbol → Option (List Doc × List Symbol)
  | 0, _ => none
  | n + 1, s => do
    let (j, rest) ← value n s
    match skip rest with
    | some ',' :: r => (items n r).map fun (js, rest) => (j :: js, rest)
    | some ']' :: r => some ([j], r)
    | _ => none

/-- The fields of an object up to its closing brace. -/
def fields : Nat → List Symbol → Option (List (Option String × Doc) × List Symbol)
  | 0, _ => none
  | n + 1, s =>
    match skip s with
    | some '"' :: r => do
      let (ps, rest) ← pieces r
      match skip rest with
      | some ':' :: r => do
        let (j, rest) ← value n r
        match skip rest with
        | some ',' :: r =>
          (fields n r).map fun (fs, rest) => ((stringText ps, j) :: fs, rest)
        | some '\x7d' :: r => some ([(stringText ps, j)], r)
        | _ => none
      | _ => none
    | _ => none

end

/-- The value that the whole text holds. -/
def parse (s : List Symbol) : Option Doc :=
  match value (s.length + 1) s with
  | some (j, rest) => if (skip rest).isEmpty then some j else none
  | none => none

end LabelMail.Json
