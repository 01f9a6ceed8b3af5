/-!
Comparison of texts. Letters of ASCII compare without regard to case; all other characters compare
by code point, which is also the order of their UTF-8 bytes. The collation reads a text up to a NUL
and lets the lengths in bytes decide what follows.
-/
namespace LabelMail.Text

def sameFolded (a b : Char) : Bool :=
  a.toLower == b.toLower

def byteLength (s : List Char) : Nat :=
  s.foldl (fun n c => n + c.utf8Size) 0

def compareFolded : List Char → List Char → Ordering
  | [], [] => .eq
  | [], _ :: _ => .lt
  | _ :: _, [] => .gt
  | a :: r, b :: s =>
    if sameFolded a b then
      if a.toNat == 0 then compare (byteLength r) (byteLength s) else compareFolded r s
    else compare a.toLower.toNat b.toLower.toNat

/-- Two names that the collation does not tell apart. -/
def sameName (a b : String) : Bool :=
  compareFolded a.toList b.toList == .eq

def nameLe (a b : String) : Bool :=
  compareFolded a.toList b.toList != .gt

theorem sameFolded_self (a : Char) : sameFolded a a = true := by
  simp [sameFolded]

theorem compareFolded_self (s : List Char) : compareFolded s s = .eq := by
  induction s with
  | nil => rfl
  | cons a r ih =>
    rw [compareFolded, if_pos (sameFolded_self a), ih]
    split
    · exact Std.ReflCmp.compare_self
    · rfl

theorem sameName_self (s : String) : sameName s s = true := by
  simp [sameName, compareFolded_self]

end LabelMail.Text
