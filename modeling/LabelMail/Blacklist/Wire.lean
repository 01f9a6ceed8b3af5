import LabelMail.Blacklist.Oracle
import LabelMail.Text.Blank
import LabelMail.Text.Utf8

/-!
The line protocol of a blacklist service. A connection carries one command, a verb and an address in
one line, and one reply: a line that starts with a status code and, when a lookup succeeds, a later
line of flags. An address counts as listed when every flag is true; a reply of any other form is no
answer at all.
-/
namespace LabelMail.Blacklist

open Text

def Verb.word : Verb → String
  | .lookup => "GET"
  | .add => "POST"
  | .remove => "DELETE"

namespace Wire

def command (v : Verb) (url : String) : String :=
  v.word ++ " " ++ url ++ "\n"

inductive Status where
  | ok
  | created
  | noContent
  | notFound
  | conflict
  | other (line : String)
  deriving DecidableEq, Repr

def Status.ofLine (line : String) : Status :=
  let code := (words line.toList).head?.map String.ofList
  if code = some "200" then .ok
  else if code = some "201" then .created
  else if code = some "204" then .noContent
  else if code = some "404" then .notFound
  else if code = some "409" then .conflict
  else .other (trim line)

/-- Whether all flags are true; none if the line holds no flag or something else. -/
def flagsOfLine (line : String) : Option Bool :=
  let flags := (words line.toList).map String.ofList
  if flags.isEmpty then none
  else if flags.all (fun f => f == "true" || f == "false") then some (flags.all (· == "true"))
  else none

/-- The lines of what was received, each with the line feed that ends it. -/
def lines : List UInt8 → List (List UInt8)
  | [] => []
  | b :: r =>
    if b == 10 then [b] :: lines r
    else match lines r with
      | [] => [[b]]
      | l :: ls => (b :: l) :: ls

def isLineEnd (c : Char) : Bool := c == '\r' || c == '\n'

def lineText (line : List UInt8) : Except String String :=
  match Utf8.decode line with
  | .ok s => .ok (String.ofList (dropEndWhile isLineEnd s.toList))
  | .error e => .error e.message

def closedEarly : String := "connection closed before a reply"

/-- The flags in the first line that is not blank. -/
def readFlags : List (List UInt8) → Except String Bool
  | [] => .error closedEarly
  | line :: r => do
    let s ← lineText line
    if allBlank s then readFlags r
    else match flagsOfLine s with
      | some listed => .ok listed
      | none => .error s!"malformed membership line `{trim s}`"

structure Answer where
  status : Status
  listed : Option Bool
  deriving DecidableEq, Repr

def readAnswer (v : Verb) : List (List UInt8) → Except String Answer
  | [] => .error closedEarly
  | line :: r => do
    let status := Status.ofLine (← lineText line)
    if v = .lookup ∧ status = .ok then return ⟨status, some (← readFlags r)⟩
    else return ⟨status, none⟩

end Wire

end LabelMail.Blacklist
