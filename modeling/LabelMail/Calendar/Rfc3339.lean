import LabelMail.Calendar.Instant
import LabelMail.Text.Blank

/-!
Reading instants from text. The form is that of RFC 3339 with some freedom: numbers may have fewer
digits, blanks may stand in front of a number or a separator, a blank may stand for the letter T, a
year may have a sign and then any number of digits, and the offset may lack its colon.
-/
namespace LabelMail.Calendar.Rfc3339

open LabelMail.Text

abbrev Reader (α : Type) := StateT (List Char) Option α

def skipBlanks : Reader Unit :=
  modify (·.dropWhile isBlank)

def literal (c : Char) : Reader Unit := do
  match ← get with
  | d :: r => if c = d then set r else failure
  | [] => failure

/-- The largest number that is read at all. -/
def numberLimit : Nat := 9223372036854775807

def valueOf (digits : List Char) : Nat :=
  digits.foldl (fun n c => 10 * n + (c.toNat - 48)) 0

/-- A number of one digit up to `width`, or of as many as there are. -/
def number (width : Option Nat) : Reader Nat := do
  let s ← get
  let run := s.takeWhile Char.isDigit
  let digits := match width with
    | some n => run.take n
    | none => run
  if digits.isEmpty || numberLimit < valueOf digits then failure
  set (s.drop digits.length)
  return valueOf digits

def twoDigits : Reader Nat := do
  skipBlanks
  number (some 2)

def year : Reader Int := do
  skipBlanks
  match ← get with
  | '-' :: r => set r; return -(← number none : Nat)
  | '+' :: r => set r; return (← number none : Nat)
  | _ => return (← number (some 4) : Nat)

def separator (c : Char) : Reader Unit := do
  skipBlanks
  literal c

/-- The digits behind a point as nanoseconds; those behind the ninth are dropped. -/
def fraction : Reader Nat := do
  match ← get with
  | '.' :: r =>
    let run := r.takeWhile Char.isDigit
    let digits := run.take 9
    if digits.isEmpty then failure
    set (r.drop run.length)
    return valueOf digits * Nat.pow 10 (9 - digits.length)
  | _ => return 0

/-- The letter T in either case, or a space. -/
def dateEnd : Reader Unit := do
  match ← get with
  | c :: r => if c = 't' ∨ c = 'T' ∨ c = ' ' then set r else failure
  | [] => failure

def fixedDigits : Reader Nat := do
  match ← get with
  | a :: b :: r => if a.isDigit && b.isDigit then set r; return valueOf [a, b] else failure
  | _ => failure

/-- The offset from universal time in seconds. -/
def offset : Reader Int := do
  match ← get with
  | [] => failure
  | c :: r =>
    if (c :: r).take 3 |>.map Char.toLower |> (· == ['u', 't', 'c']) then
      set (r.drop 2)
      return 0
    else if c = 'Z' ∨ c = 'z' then
      set r
      return 0
    else
      let negative := c = '-' ∨ c.toNat = 0x2212
      if !negative && c != '+' then failure
      set r
      let hours ← fixedDigits
      modify (·.dropWhile fun d => d == ':' || isBlank d)
      let minutes ← fixedDigits
      if 23 < hours || 59 < minutes then failure
      let seconds : Int := hours * 3600 + minutes * 60
      return if negative then -seconds else seconds

def instant : Reader Instant := do
  let y ← year
  separator '-'
  let month ← twoDigits
  separator '-'
  let day ← twoDigits
  dateEnd
  let hour ← twoDigits
  separator ':'
  let minute ← twoDigits
  separator ':'
  let second ← twoDigits
  let nanos ← fraction
  skipBlanks
  let off ← offset
  let date : Date := ⟨y, month, day⟩
  if !date.isValid || 23 < hour || 59 < minute || 60 < second then failure
  let leap := second == 60
  let ofDay : Int := hour * 3600 + minute * 60 + (if leap then 59 else second : Nat)
  let wall := date.toDays * 86400 + ofDay
  if !Instant.isCovered wall || !Instant.isCovered (wall - off) then failure
  return ⟨wall - off, if leap then nanos + 1000000000 else nanos⟩

def parse (s : String) : Option Instant :=
  match instant.run s.toList with
  | some (t, []) => some t
  | _ => none

end LabelMail.Calendar.Rfc3339
