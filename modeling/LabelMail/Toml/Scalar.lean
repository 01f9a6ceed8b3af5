import LabelMail.Calendar.Date
import LabelMail.Toml.Quoted
import LabelMail.Toml.Value

/-!
Numbers, dates, truth values and strings of TOML. An integer fits 64 bits, and a number with a
fraction or an exponent must not round to positive infinity, though it may be written as infinity.
Of numbers with fractions and of dates only the form counts.
-/
namespace LabelMail.Toml

open Reader

namespace Scalar

def afterDigit (p : Char → Bool) : List Char → List Char × List Char
  | '_' :: c :: r =>
    if p c then
      let (digits, rest) := afterDigit p r
      (c :: digits, rest)
    else ([], '_' :: c :: r)
  | c :: r =>
    if p c then
      let (digits, rest) := afterDigit p r
      (c :: digits, rest)
    else ([], c :: r)
  | [] => ([], [])

/-- Digits, with single underscores between them that do not count. -/
def digits (p : Char → Bool) : Reader (List Char) := do
  let first ← one p
  let rest ← fun s => some (afterDigit p s)
  return first :: rest

def number (base : Nat) (digits : List Char) : Nat :=
  digits.foldl (fun n c => base * n + Quoted.hexValue c) 0

def sign : Reader Bool :=
  (do word ['-']; return true) <|> (do word ['+']; return false) <|> return false

/-- A whole number without a leading zero, as its sign and its digits. -/
def whole : Reader (Bool × List Char) := do
  let negative ← sign
  let ds ← (do word ['0']; return ['0']) <|> (do ahead (one (· != '0')); digits Char.isDigit)
  return (negative, ds)

def fits (n : Int) : Bool :=
  -9223372036854775808 ≤ n && n ≤ 9223372036854775807

def fitting (n : Int) : Reader Int :=
  if fits n then return n else failure

def based (letter : Char) (base : Nat) (p : Char → Bool) : Reader Int := do
  word ['0', letter]
  fitting (number base (← digits p))

def decimal : Reader Int := do
  let (negative, ds) ← whole
  let n : Int := number 10 ds
  fitting (if negative then -n else n)

def integer : Reader Int :=
  based 'x' 16 Quoted.isHex
    <|> based 'o' 8 (fun c => '0' ≤ c && c ≤ '7')
    <|> based 'b' 2 (fun c => c == '0' || c == '1')
    <|> decimal

/-- Half a unit in the last place above the greatest finite number of 64 bits. -/
def roundingLimit : Nat := (Nat.pow 2 54 - 1) * Nat.pow 2 970

/-- Whether `m` times the power of ten, with `m` of so many digits, rounds to infinity. -/
def overflows (m digits : Nat) (exponent : Int) : Bool :=
  if m == 0 then false
  else if 310 < digits + exponent then true
  else if digits + exponent < 308 then false
  else if 0 ≤ exponent then roundingLimit ≤ m * Nat.pow 10 exponent.toNat
  else roundingLimit * Nat.pow 10 (-exponent).toNat ≤ m

def exponent : Reader Int := do
  discard (one fun c => c == 'e' || c == 'E')
  let negative ← sign
  let n : Int := number 10 (← digits Char.isDigit)
  return if negative then -n else n

def fraction : Reader (List Char) := do
  word ['.']
  digits Char.isDigit

def finite : Reader Unit := do
  let (negative, ds) ← whole
  let (places, e) ←
    (do return ([], ← exponent)) <|> (do return (← fraction, (← optional exponent).getD 0))
  let significant := (ds ++ places).dropWhile (· == '0')
  let size := significant.length
  if !negative && overflows (number 10 significant) size (e - places.length) then failure

def float : Reader Unit :=
  finite <|> (do discard sign; word ['i', 'n', 'f'] <|> word ['n', 'a', 'n'])

def twoDigits (least most : Nat) : Reader Nat := do
  let n := number 10 (← exactly Char.isDigit 2)
  if least ≤ n ∧ n ≤ most then return n else failure

def date : Reader Unit := do
  let year := number 10 (← exactly Char.isDigit 4)
  word ['-']
  let month ← twoDigits 1 12
  word ['-']
  discard (twoDigits 1 (Calendar.daysInMonth year month))

def time : Reader Unit := do
  discard (twoDigits 0 23)
  word [':']
  discard (twoDigits 0 59)
  word [':']
  discard (twoDigits 0 60)
  discard (optional (do word ['.']; discard (one Char.isDigit); discard (run Char.isDigit)))

def offset : Reader Unit :=
  discard (one fun c => c == 'Z' || c == 'z') <|> do
    discard (one fun c => c == '+' || c == '-')
    discard (twoDigits 0 23)
    word [':']
    discard (twoDigits 0 59)

def dateOrTime : Reader Unit :=
  (do
    date
    discard <| optional do
      discard (one fun c => c == 'T' || c == 't' || c == ' ')
      time
      optional offset) <|> time

def boolean : Reader Bool :=
  (do word ['t', 'r', 'u', 'e']; return true)
    <|> (do word ['f', 'a', 'l', 's', 'e']; return false)

end Scalar

open Scalar

def scalar : Reader Value :=
  .string <$> Quoted.string
    <|> (do dateOrTime; return .date)
    <|> (do float; return .float)
    <|> .integer <$> integer
    <|> .boolean <$> boolean

end LabelMail.Toml
