import LabelMail.Text.Pieces

/-!
Blank characters and what is built on them: trimming, and cutting a text into words. A character is
blank when Unicode gives it the property White_Space.
-/
namespace LabelMail.Text

def isBlank (c : Char) : Bool :=
  (9 ≤ c.toNat && c.toNat ≤ 13) || c.toNat == 0x20 || c.toNat == 0x85 || c.toNat == 0xA0 ||
  c.toNat == 0x1680 || (0x2000 ≤ c.toNat && c.toNat ≤ 0x200A) || c.toNat == 0x2028 ||
  c.toNat == 0x2029 || c.toNat == 0x202F || c.toNat == 0x205F || c.toNat == 0x3000

def trimChars (s : List Char) : List Char :=
  dropEndWhile isBlank (s.dropWhile isBlank)

def trim (s : String) : String :=
  String.ofList (trimChars s.toList)

/-- The longest runs of characters that are not blank, from left to right. -/
def words (s : List Char) : List (List Char) :=
  (pieces isBlank s).filter (fun w => !w.isEmpty)

def hasBlank (s : String) : Bool :=
  s.toList.any isBlank

def allBlank (s : String) : Bool :=
  s.toList.all isBlank

end LabelMail.Text
