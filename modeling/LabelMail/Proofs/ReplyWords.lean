import LabelMail.Proofs.DecodedText
import LabelMail.Proofs.HonestService

/-!
The words of a line. Blanks around words do not count, so that a line has the same words with and
without the line feed or the carriage return that ends it. The lines of a reply are what its line
feeds cut it into, the last of them only if something stands there, and the service is understood
by the words of its lines alone.
-/
namespace LabelMail

namespace Text

variable {α : Type} {p : α → Bool} {c : α} {r s ends : List α}

theorem pieces_separator (hc : p c) (r : List α) : pieces p (c :: r) = [] :: pieces p r := by
  rw [pieces, if_pos hc]

theorem pieces_other (hc : p c = false) (r : List α) :
    ∃ w ws, pieces p r = w :: ws ∧ pieces p (c :: r) = (c :: w) :: ws := by
  obtain ⟨w, ws, hr⟩ := List.exists_cons_of_ne_nil (pieces_ne_nil p r)
  refine ⟨w, ws, hr, ?_⟩
  rw [pieces, hr]
  simp [hc]

theorem pieces_append_separators (hends : ∀ c ∈ ends, p c) (s : List α) :
    pieces p (s ++ ends) = pieces p s ++ List.replicate ends.length [] := by
  induction s with
  | nil =>
    rw [List.nil_append]
    induction ends with
    | nil => rfl
    | cons c ends ih =>
      rw [pieces_separator (hends c List.mem_cons_self),
        ih fun d hd => hends d (List.mem_cons_of_mem c hd)]
      rfl
  | cons c r ih =>
    cases hc : p c with
    | true => rw [List.cons_append, pieces_separator hc, pieces_separator hc, ih, List.cons_append]
    | false =>
      obtain ⟨w, ws, hr, hcr⟩ := pieces_other hc r
      obtain ⟨v, vs, hre, hcre⟩ := pieces_other hc (r ++ ends)
      rw [hr, hre] at ih
      obtain ⟨rfl, rfl⟩ := List.cons.inj ih
      rw [List.cons_append, hcre, hcr]
      rfl

theorem pieces_append_separator {w : List α} (hw : ∀ d ∈ w, p d = false) (hc : p c = true)
    (r : List α) : pieces p (w ++ c :: r) = w :: pieces p r := by
  induction w with
  | nil => exact pieces_separator hc r
  | cons d w ih =>
    obtain ⟨v, vs, hr, hdr⟩ := pieces_other (hw d List.mem_cons_self) (w ++ c :: r)
    rw [ih fun e he => hw e (List.mem_cons_of_mem d he)] at hr
    obtain ⟨rfl, rfl⟩ := List.cons.inj hr
    exact hdr

/-- What is joined with separators falls apart again. -/
theorem pieces_intercalate {ws : List (List α)} (hc : p c = true) (hne : ws ≠ [])
    (hws : ∀ w ∈ ws, ∀ d ∈ w, p d = false) : pieces p ([c].intercalate ws) = ws := by
  induction ws with
  | nil => exact absurd rfl hne
  | cons w ws ih =>
    have hw : ∀ d ∈ w, p d = false := hws w List.mem_cons_self
    cases ws with
    | nil =>
      rw [List.intercalate_singleton]
      exact pieces_of_none hw
    | cons v ws =>
      rw [List.intercalate_cons_cons, List.append_assoc, List.singleton_append,
        pieces_append_separator hw hc]
      exact congrArg (w :: ·) (ih (List.cons_ne_nil v ws) fun u hu =>
        hws u (List.mem_cons_of_mem w hu))

theorem dropEndWhile_append (p : α → Bool) (s : List α) :
    ∃ ends, s = dropEndWhile p s ++ ends ∧ ∀ c ∈ ends, p c := by
  refine ⟨(s.reverse.takeWhile p).reverse, ?_, fun c hc => ?_⟩
  · rw [dropEndWhile, ← List.reverse_append, List.takeWhile_append_dropWhile, List.reverse_reverse]
  · exact (List.all_eq_true.mp (List.all_takeWhile (p := p))) c (List.mem_reverse.mp hc)

theorem words_append_blanks {ends : List Char} (hends : ∀ c ∈ ends, isBlank c) (s : List Char) :
    words (s ++ ends) = words s := by
  rw [words, pieces_append_separators hends, List.filter_append]
  simp [words]

theorem words_blank {c : Char} (hc : isBlank c) (r : List Char) : words (c :: r) = words r := by
  rw [words, pieces_separator hc]
  rfl

theorem words_other {c : Char} (hc : isBlank c = false) (r : List Char) :
    words (c :: r) ≠ [] := by
  obtain ⟨w, ws, -, hcr⟩ := pieces_other hc r
  rw [words, hcr]
  simp

theorem words_eq_nil {s : List Char} : words s = [] ↔ ∀ c ∈ s, isBlank c := by
  induction s with
  | nil => simp [words, pieces]
  | cons c r ih =>
    rw [List.forall_mem_cons]
    cases hc : isBlank c with
    | true => rw [words_blank hc, ih]; simp
    | false => simp [words_other hc]

/-- The words of a text, from left to right. -/
def wordsOf (s : String) : List String :=
  (words s.toList).map String.ofList

theorem wordsOf_lineFeed (s : String) : wordsOf (s ++ "\n") = wordsOf s := by
  have hblank : ∀ c ∈ ['\n'], isBlank c := List.forall_mem_singleton.mpr (by decide)
  rw [wordsOf, String.toList_append]
  exact congrArg _ (words_append_blanks hblank s.toList)

theorem wordsOf_eq_nil {s : String} : wordsOf s = [] ↔ allBlank s := by
  rw [wordsOf, List.map_eq_nil_iff, words_eq_nil, allBlank, List.all_eq_true]

namespace Utf8

theorem encode_lineFeed : encode "\n" = [10] := by
  decide +kernel

/-- An encoded text that ends with a line feed is an encoded text without it. -/
theorem of_encode_lineFeed {line : List UInt8} {s : String} (h : line ++ [10] = encode s) :
    ∃ t, line = encode t ∧ s = t ++ "\n" := by
  rcases List.eq_nil_or_concat s.toList with hnil | ⟨cs, c, hcs⟩
  · rw [encode_eq, hnil] at h
    simp at h
  · have hs : s = String.ofList cs ++ String.ofList [c] := by
      rw [← String.toList_inj, hcs]
      simp
    have hbytes : line ++ [10] = encode (String.ofList cs) ++ String.utf8EncodeChar c := by
      rw [h, hs, encode_append, encode_eq (String.ofList [c])]
      simp
    have hc : c = '\n' := by
      have hne : String.utf8EncodeChar c ≠ [] := by
        have hpos := c.utf8Size_pos
        rw [← List.length_pos_iff, String.length_utf8EncodeChar]
        exact hpos
      apply lineFeed_mem_encodeChar
      have hlast := congrArg List.getLast? hbytes
      rw [List.getLast?_append_of_ne_nil _ hne] at hlast
      exact List.mem_of_getLast? (by simpa using hlast.symm)
    subst hc
    exact ⟨_, List.append_cancel_right hbytes, hs⟩

end Utf8

end Text

namespace Blacklist.Wire

open Text

variable {line : List UInt8} {ws ws' : List String}

/-- The line is a text with these words. -/
def Spells (line : List UInt8) (ws : List String) : Prop :=
  ∃ s, line = Utf8.encode s ∧ wordsOf s = ws

theorem Spells.unique (h : Spells line ws) (h' : Spells line ws') : ws = ws' := by
  obtain ⟨s, rfl, rfl⟩ := h
  obtain ⟨t, ht, rfl⟩ := h'
  rw [Utf8.encode_inj ht]

/-- The lines that line feeds cut a reply into. -/
def linesOf (reply : List UInt8) : List (List UInt8) :=
  pieces (· == 10) reply

/-- The lines with the line feeds that end them. Nothing is left of a last line that is empty. -/
def ended : List (List UInt8) → List (List UInt8)
  | [] => []
  | [line] => if line = [] then [] else [line]
  | line :: rest => (line ++ [10]) :: ended rest

theorem ended_cons_of_ne_nil {later : List (List UInt8)} (h : later ≠ []) (line : List UInt8) :
    ended (line :: later) = (line ++ [10]) :: ended later := by
  cases later with
  | nil => exact absurd rfl h
  | cons next rest => rfl

/-- What is received line by line are the lines of the reply. -/
theorem lines_eq (reply : List UInt8) : lines reply = ended (linesOf reply) := by
  induction reply with
  | nil => rfl
  | cons b r ih =>
    unfold linesOf at *
    by_cases hb : b = 10
    · rw [pieces_separator (by simpa using hb), ended_cons_of_ne_nil (pieces_ne_nil _ r), ← ih, hb]
      rfl
    · have hb : (b == 10) = false := by simpa using hb
      obtain ⟨w, ws, hr, hbr⟩ := pieces_other (p := (· == 10)) hb r
      rw [hbr, lines, ih, hr]
      cases ws with
      | nil => by_cases hw : w = [] <;> simp [ended, hb, hw]
      | cons next rest => simp [ended, hb]

theorem wordsOf_text (s : String) :
    wordsOf (String.ofList (dropEndWhile isLineEnd s.toList)) = wordsOf s := by
  obtain ⟨ends, hs, hends⟩ := dropEndWhile_append isLineEnd s.toList
  have hblank : ∀ c ∈ ends, isBlank c := fun c hc => isBlank_of_isLineEnd (hends c hc)
  rw [wordsOf, String.toList_ofList, ← words_append_blanks hblank, ← hs, wordsOf]

theorem lineText_encode (s : String) :
    lineText (Utf8.encode s) = .ok (String.ofList (dropEndWhile isLineEnd s.toList)) := by
  rw [lineText, Utf8.decode_encode]

theorem of_lineText {bytes : List UInt8} {t : String} (h : lineText bytes = .ok t) :
    ∃ s, bytes = Utf8.encode s ∧ t = String.ofList (dropEndWhile isLineEnd s.toList) := by
  unfold lineText at h
  split at h
  · next s hs => exact ⟨s, Utf8.decode_eq_ok.mp hs, (Except.ok.inj h).symm⟩
  · cases h

/-- A line is read as a text with its words, whether a line feed ends it or not. -/
theorem spells_iff {e : List UInt8} (he : e = [] ∨ e = [10]) :
    Spells line ws ↔ ∃ t, lineText (line ++ e) = .ok t ∧ wordsOf t = ws := by
  constructor
  · rintro ⟨s, rfl, rfl⟩
    rcases he with rfl | rfl
    · exact ⟨_, by rw [List.append_nil, lineText_encode], wordsOf_text s⟩
    · refine ⟨_, by rw [← Utf8.encode_lineFeed, ← Utf8.encode_append, lineText_encode], ?_⟩
      rw [wordsOf_text, wordsOf_lineFeed]
  · rintro ⟨t, ht, rfl⟩
    obtain ⟨s, hs, rfl⟩ := of_lineText ht
    rw [wordsOf_text]
    rcases he with rfl | rfl
    · exact ⟨s, by rw [← hs, List.append_nil], rfl⟩
    · obtain ⟨v, rfl, rfl⟩ := Utf8.of_encode_lineFeed hs
      exact ⟨v, rfl, (wordsOf_lineFeed v).symm⟩

end Blacklist.Wire

end LabelMail
