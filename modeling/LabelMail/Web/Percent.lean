import LabelMail.Text.Utf8

/-!
Percent encoding. A percent sign with two hexadecimal digits stands for a byte; a percent sign
without them stands for itself.
-/
namespace LabelMail.Web.Percent

def digitValue (b : UInt8) : Option Nat :=
  if 48 ≤ b && b ≤ 57 then some (b.toNat - 48)
  else if 65 ≤ b && b ≤ 70 then some (b.toNat - 55)
  else if 97 ≤ b && b ≤ 102 then some (b.toNat - 87)
  else none

/-- The byte that two digits spell. -/
def byteOf (a b : UInt8) : Option UInt8 := do
  return (16 * (← digitValue a) + (← digitValue b)).toUInt8

def decodeBytes : List UInt8 → List UInt8
  | p :: a :: b :: r =>
    if p = 37 then
      match byteOf a b with
      | some byte => byte :: decodeBytes r
      | none => p :: decodeBytes (a :: b :: r)
    else p :: decodeBytes (a :: b :: r)
  | rest => rest

/-- The text that is spelled; bytes that are no UTF-8 spell none. -/
def decode (s : List Char) : Option String :=
  (Text.Utf8.decode (decodeBytes (Text.Utf8.encode (String.ofList s)))).toOption

end LabelMail.Web.Percent
