/-!
JSON values. The texts of a value have a type of their own, because what is read may hold strings
that spell no text: escapes of half a surrogate pair, or bytes that are no UTF-8. Such a string only
matters where it is used.
-/
namespace LabelMail

inductive Json (τ : Type) where
  | null
  | bool (b : Bool)
  | number (literal : String)
  | string (s : τ)
  | array (items : List (Json τ))
  | object (fields : List (τ × Json τ))

namespace Json

/-- A value that was read; a string that spells no text is none. -/
abbrev Doc := Json (Option String)

def nat (n : Nat) : Json τ := .number (toString n)

def strings (texts : List τ) : Json τ := .array (texts.map .string)

end Json

end LabelMail
