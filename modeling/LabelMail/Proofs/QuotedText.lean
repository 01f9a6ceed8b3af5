import LabelMail.Json.Parser
import LabelMail.Json.Printer
import LabelMail.Json.Shape

/-!
Reading back an array of texts. Every text survives its quoted form, whatever characters it has, so
an array of texts is read from its own text as what it was.
-/
namespace LabelMail.Json

theorem hexValue_hexDigit {n : Nat} (h : n < 16) : hexValue (some (hexDigit n)) = some n := by
  revert n
  decide

theorem hexUnit_of_lt {n : Nat} (h : n < 32) :
    hexUnit (some '0') (some '0') (some (hexDigit (n / 16))) (some (hexDigit (n % 16))) =
      some n := by
  have h0 : hexValue (some '0') = some 0 := by decide
  have hhigh := hexValue_hexDigit (n := n / 16) (by omega)
  have hlow := hexValue_hexDigit (n := n % 16) (by omega)
  simp only [hexUnit, h0, hhigh, hlow, bind, Option.bind, pure, Option.some.injEq]
  omega

theorem pieces_unit {a b c d : Symbol} {code : Nat} (h : hexUnit a b c d = some code)
    (rest : List Symbol) : pieces (some '\\' :: some 'u' :: a :: b :: c :: d :: rest) =
      (pieces rest).map fun found => (Piece.unit code :: found.1, found.2) := by
  conv => lhs; unfold pieces
  rw [if_neg (by decide), if_pos rfl]
  dsimp only
  rw [if_pos rfl, h]
  cases pieces rest <;> rfl

theorem pieces_simple {e d : Char} (he : simpleEscape e = some d) (hu : e ≠ 'u')
    (rest : List Symbol) : pieces (some '\\' :: some e :: rest) =
      (pieces rest).map fun found => (Piece.char d :: found.1, found.2) := by
  conv => lhs; unfold pieces
  rw [if_neg (by decide), if_pos rfl]
  dsimp only
  rw [if_neg hu, he]
  cases pieces rest <;> rfl

theorem pieces_plain {c : Char} (hquote : c ≠ '"') (hslash : c ≠ '\\') (hcontrol : ¬ c.toNat < 32)
    (rest : List Symbol) : pieces (some c :: rest) =
      (pieces rest).map fun found => (Piece.char c :: found.1, found.2) := by
  conv => lhs; unfold pieces
  rw [if_neg hquote, if_neg hslash, if_neg hcontrol]
  cases pieces rest <;> rfl

/-- `p` is how the symbols `w` are read, and it spells `c`. -/
def ReadsAs (w : List Char) (p : Piece) (c : Char) : Prop :=
  (∀ rest, pieces (w.map some ++ rest) = (pieces rest).map fun found => (p :: found.1, found.2)) ∧
    ∀ ps cs, joined ps = some cs → joined (p :: ps) = some (c :: cs)

theorem joined_char {c : Char} {ps : List Piece} {cs : List Char} (h : joined ps = some cs) :
    joined (.char c :: ps) = some (c :: cs) := by
  simp [joined, h]

theorem joined_unit {c : Char} (hc : c.toNat < 32) {ps : List Piece} {cs : List Char}
    (h : joined ps = some cs) : joined (.unit c.toNat :: ps) = some (c :: cs) := by
  have hlead : isLead c.toNat = false := by simp [isLead]; omega
  have htrail : isTrail c.toNat = false := by simp [isTrail]; omega
  unfold joined
  rw [hlead, htrail, h, Char.ofNat_toNat]
  rfl

/-- One character, however it is written, is read as one piece that spells it. -/
theorem exists_readsAs (c : Char) : ∃ p, ReadsAs (escapeChar c) p c := by
  have hback : Char.ofNat c.toNat = c := Char.ofNat_toNat c
  have hsimple (e : Char) (he : simpleEscape e = some c) (hu : e ≠ 'u') :
      ∃ p, ReadsAs ['\\', e] p c :=
    ⟨.char c, pieces_simple he hu, fun _ _ => joined_char⟩
  unfold escapeChar
  split
  · next h => exact hsimple '"' (by rw [h]; decide) (by decide)
  split
  · next h => exact hsimple '\\' (by rw [h]; decide) (by decide)
  split
  · next h => exact hsimple 'b' (by rw [← hback, h]; decide) (by decide)
  split
  · next h => exact hsimple 't' (by rw [← hback, h]; decide) (by decide)
  split
  · next h => exact hsimple 'n' (by rw [← hback, h]; decide) (by decide)
  split
  · next h => exact hsimple 'f' (by rw [← hback, h]; decide) (by decide)
  split
  · next h => exact hsimple 'r' (by rw [← hback, h]; decide) (by decide)
  split
  · next h => exact ⟨.unit c.toNat, pieces_unit (hexUnit_of_lt h), fun _ _ => joined_unit h⟩
  · next hquote hslash _ _ _ _ _ hcontrol =>
    exact ⟨.char c, pieces_plain hquote hslash hcontrol, fun _ _ => joined_char⟩

/-- The pieces of an escaped text end at its closing quote and spell the text. -/
theorem pieces_escapeChars (s : List Char) (rest : List Symbol) : ∃ ps,
    pieces ((escapeChars s).map some ++ some '"' :: rest) = some (ps, rest) ∧
      joined ps = some s := by
  induction s with
  | nil =>
    refine ⟨[], ?_, rfl⟩
    change pieces (some '"' :: rest) = some ([], rest)
    unfold pieces
    rfl
  | cons c s ih =>
    obtain ⟨p, hp, hjoin⟩ := exists_readsAs c
    obtain ⟨ps, hps, hs⟩ := ih
    refine ⟨p :: ps, ?_, hjoin ps s hs⟩
    have hsplit : (escapeChars (c :: s)).map some ++ some '"' :: rest =
        (escapeChar c).map some ++ ((escapeChars s).map some ++ some '"' :: rest) := by
      simp [escapeChars]
    rw [hsplit, hp, hps]
    rfl

/-- A quoted text is read as the text, whatever follows it. -/
theorem value_quoted (n : Nat) (s : String) (rest : List Symbol) :
    value (n + 1) ((quoted s).map some ++ rest) = some (.string (some s), rest) := by
  obtain ⟨ps, hps, hs⟩ := pieces_escapeChars s.toList rest
  have hshape : (quoted s).map some ++ rest =
      some '"' :: ((escapeChars s.toList).map some ++ some '"' :: rest) := by
    simp [quoted]
  have hskip : skip (some '"' :: ((escapeChars s.toList).map some ++ some '"' :: rest)) =
      some '"' :: ((escapeChars s.toList).map some ++ some '"' :: rest) :=
    List.dropWhile_cons_of_neg (by decide)
  rw [hshape, value, hskip]
  simp only [hps, bind, Option.bind, pure, stringText, hs, Option.map_some, String.ofList_toList]

/-- The items of an array of texts are read up to its closing bracket. -/
theorem items_quoted (s : String) (texts : List String) (n : Nat) (hn : texts.length + 1 < n)
    (rest : List Symbol) :
    items n ((separated ((s :: texts).map quoted)).map some ++ some ']' :: rest) =
      some (((s :: texts).map fun t => .string (some t)), rest) := by
  induction texts generalizing s n with
  | nil =>
    obtain ⟨n, rfl⟩ : ∃ k, n = k + 2 := ⟨n - 2, by simp at hn; omega⟩
    have hskip : skip (some ']' :: rest) = some ']' :: rest :=
      List.dropWhile_cons_of_neg (by decide)
    simp only [List.map_cons, List.map_nil, separated]
    rw [items, value_quoted]
    simp [hskip]
  | cons t texts ih =>
    obtain ⟨n, rfl⟩ : ∃ k, n = k + 2 := ⟨n - 2, by simp at hn; omega⟩
    have hshape : (separated ((s :: t :: texts).map quoted)).map some ++ some ']' :: rest =
        (quoted s).map some ++
          some ',' :: ((separated ((t :: texts).map quoted)).map some ++ some ']' :: rest) := by
      simp [separated]
    have hskip (r : List Symbol) : skip (some ',' :: r) = some ',' :: r :=
      List.dropWhile_cons_of_neg (by decide)
    have hnext := ih t (n + 1) (by simp at hn; omega)
    rw [hshape, items, value_quoted]
    simp only [bind, Option.bind, hskip]
    rw [hnext]
    rfl

theorem length_separated_quoted (texts : List String) :
    texts.length ≤ (separated (texts.map quoted)).length := by
  induction texts with
  | nil => simp
  | cons s texts ih =>
    cases texts with
    | nil => simp [separated, quoted]
    | cons t texts =>
      simp only [List.map_cons, separated, List.length_append, List.length_cons] at ih ⊢
      omega

theorem itemChars_strings (texts : List String) :
    itemChars (texts.map Json.string) = texts.map quoted := by
  induction texts with
  | nil => rfl
  | cons s texts ih => simp only [List.map_cons, itemChars, chars, ih]

/-- An array of texts is read back from its own text. -/
theorem parse_strings (texts : List String) :
    parse (symbolsOfText (strings texts).text) =
      some (.array (texts.map fun t => .string (some t))) := by
  have htext : symbolsOfText (strings texts).text =
      some '[' :: ((separated (texts.map quoted)).map some ++ [some ']']) := by
    simp [symbolsOfText, text, strings, chars, itemChars_strings]
  have hopen (r : List Symbol) : skip (some '[' :: r) = some '[' :: r :=
    List.dropWhile_cons_of_neg (by decide)
  rw [htext, parse]
  cases texts with
  | nil => rfl
  | cons s texts =>
    obtain ⟨r, hr⟩ : ∃ r, (separated ((s :: texts).map quoted)).map some ++ [some ']'] =
        some '"' :: r := by
      cases texts <;> simp [separated, quoted]
    have hskip : skip (some '"' :: r) = some '"' :: r := List.dropWhile_cons_of_neg (by decide)
    have hlength := length_separated_quoted (s :: texts)
    have hitems := items_quoted s texts
      ((separated ((s :: texts).map quoted)).map some ++ [some ']']).length.succ
      (by simp at hlength ⊢; omega) []
    rw [value, hopen]
    rw [hr] at hitems ⊢
    simp only [hskip, List.length_cons]
    rw [show r.length + 1 + 1 = (some '"' :: r).length.succ from rfl, hitems]
    rfl

end LabelMail.Json
