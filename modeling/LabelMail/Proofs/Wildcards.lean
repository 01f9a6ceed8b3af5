import LabelMail.Text.Wildcard
import Mathlib.Data.List.Infix
import Mathlib.Data.List.TakeWhile

/-!
What a pattern accepts. The matcher decides a relation that has one rule for each sign of a pattern.
An escaped query is read as its own letters whatever signs it has. Main statement: with a percent
sign before and behind it, it matches just those texts in which it stands somewhere, with its
letters in either case.
-/
namespace LabelMail.Text.Wildcard

/-- The texts that a pattern stands for, with a rule for each way in which it begins. -/
inductive Matches (escape : Option Char) : List Char → List Char → Prop
  | nil : Matches escape [] []
  | anyRun {p s : List Char} (run : List Char) : escape ≠ some '%' → Matches escape p s →
      Matches escape ('%' :: p) (run ++ s)
  | anyOne {p s : List Char} (c : Char) : escape ≠ some '_' → Matches escape p s →
      Matches escape ('_' :: p) (c :: s)
  | escaped {p s : List Char} {e a c : Char} : escape = some e → a.toLower = c.toLower →
      Matches escape p s → Matches escape (e :: a :: p) (c :: s)
  | letter {p s : List Char} {a c : Char} : escape ≠ some a → a ≠ '%' → a ≠ '_' →
      a.toLower = c.toLower → Matches escape p s → Matches escape (a :: p) (c :: s)

variable {p : List Char → Bool} {items : List Item} {query r s t : List Char} {a c : Char}
variable {escape : Option Char} {pattern : List Char}

/-- A run of characters may be followed by any end of the text that is left. -/
theorem anySuffix_iff : anySuffix p s = true ↔ ∃ t, t <:+ s ∧ p t = true := by
  induction s with
  | nil => simp [anySuffix]
  | cons c s ih =>
    rw [anySuffix, Bool.or_eq_true, ih]
    constructor
    · rintro (hwhole | ⟨t, hsuffix, ht⟩)
      · exact ⟨c :: s, List.suffix_rfl, hwhole⟩
      · exact ⟨t, hsuffix.trans (List.suffix_cons c s), ht⟩
    · rintro ⟨t, hsuffix, ht⟩
      rcases List.suffix_cons_iff.mp hsuffix with rfl | hsuffix
      · exact .inl ht
      · exact .inr ⟨t, hsuffix, ht⟩

theorem accepts_anyRun :
    accepts (.anyRun :: items) s = true ↔ ∃ t, t <:+ s ∧ accepts items t = true := by
  rw [accepts, anySuffix_iff]

theorem accepts_letter_cons :
    accepts (.letter a :: items) (c :: s) = true ↔
      a.toLower = c.toLower ∧ accepts items s = true := by
  simp [accepts, sameFolded]

theorem accepts_letter :
    accepts (.letter a :: items) s = true ↔
      ∃ c t, s = c :: t ∧ a.toLower = c.toLower ∧ accepts items t = true := by
  cases s with
  | nil => simp [accepts]
  | cons c s => simp [accepts_letter_cons]

theorem accepts_anyOne :
    accepts (.anyOne :: items) s = true ↔ ∃ c t, s = c :: t ∧ accepts items t = true := by
  cases s with
  | nil => simp [accepts]
  | cons c s => simp [accepts]

/-- Letters are matched by letters that differ from them in their case only. -/
theorem accepts_letters_append :
    accepts (query.map .letter ++ items) s = true ↔
      ∃ r t, s = r ++ t ∧ r.map Char.toLower = query.map Char.toLower ∧
        accepts items t = true := by
  induction query generalizing s with
  | nil => simp
  | cons a query ih =>
    cases s with
    | nil => simp [accepts]
    | cons c s =>
      rw [List.map_cons, List.cons_append, accepts_letter_cons, ih]
      constructor
      · rintro ⟨hcase, r, t, rfl, hr, ht⟩
        exact ⟨c :: r, t, rfl, by rw [List.map_cons, List.map_cons, hcase, hr], ht⟩
      · rintro ⟨r, t, hs, hr, ht⟩
        cases r with
        | nil => cases hr
        | cons d r =>
          obtain ⟨rfl, rfl⟩ := List.cons.inj hs
          obtain ⟨hcase, hr⟩ := List.cons.inj hr
          exact ⟨hcase.symm, r, t, rfl, hr, ht⟩

theorem read_escape (c : Char) (r : List Char) :
    read (some c) (c :: a :: r) = .letter a :: read (some c) r :=
  if_pos rfl

/-- What an unescaped character is read as. -/
def plainItem (c : Char) : Item :=
  if c = '%' then .anyRun else if c = '_' then .anyOne else .letter c

theorem read_plain {escape : Option Char} (hc : escape ≠ some c) (r : List Char) :
    read escape (c :: r) = plainItem c :: read escape r := by
  have hread : read escape (c :: r) =
      if c = '%' then .anyRun :: read escape r
      else if c = '_' then .anyOne :: read escape r
      else .letter c :: read escape r := by
    cases r with
    | nil => exact if_neg hc
    | cons d r => exact if_neg hc
  rw [hread, plainItem]
  split
  · rfl
  · split <;> rfl

theorem accepts_of_matches (h : Matches escape pattern s) :
    accepts (read escape pattern) s = true := by
  induction h with
  | nil => rfl
  | anyRun run hplain _ ih =>
    rw [read_plain hplain]
    exact accepts_anyRun.mpr ⟨_, List.suffix_append run _, ih⟩
  | anyOne c hplain _ ih =>
    rw [read_plain hplain]
    exact accepts_anyOne.mpr ⟨c, _, rfl, ih⟩
  | escaped hescape hcase _ ih =>
    rw [hescape] at ih ⊢
    rw [read_escape]
    exact accepts_letter_cons.mpr ⟨hcase, ih⟩
  | letter hplain hrun hone hcase _ ih =>
    rw [read_plain hplain, plainItem, if_neg hrun, if_neg hone]
    exact accepts_letter_cons.mpr ⟨hcase, ih⟩

/-- By induction on the length of the pattern, since an escape sign and what it escapes are read at
once. -/
theorem matches_of_accepts (h : accepts (read escape pattern) s = true) :
    Matches escape pattern s := by
  induction hn : pattern.length using Nat.strong_induction_on generalizing pattern s with
  | _ n ih =>
    subst hn
    cases pattern with
    | nil =>
      obtain rfl := List.isEmpty_iff.mp h
      exact .nil
    | cons c p =>
      by_cases hescape : escape = some c
      · cases p with
        | nil =>
          have hread : read escape [c] = [.never] := if_pos hescape
          rw [hread] at h
          cases h
        | cons a p =>
          subst hescape
          rw [read_escape] at h
          obtain ⟨d, t, rfl, hcase, ht⟩ := accepts_letter.mp h
          have hp : p.length < (c :: a :: p).length := Nat.lt_add_of_pos_right Nat.two_pos
          exact .escaped rfl hcase (ih p.length hp ht rfl)
      · rw [read_plain hescape, plainItem] at h
        have hrest {t : List Char} (ht : accepts (read escape p) t = true) : Matches escape p t :=
          ih p.length (Nat.lt_succ_self _) ht rfl
        split at h
        · next hrun =>
          subst hrun
          obtain ⟨t, ⟨run, rfl⟩, ht⟩ := accepts_anyRun.mp h
          exact .anyRun run hescape (hrest ht)
        · split at h
          · next hone =>
            subst hone
            obtain ⟨d, t, rfl, ht⟩ := accepts_anyOne.mp h
            exact .anyOne d hescape (hrest ht)
          · next hrun hone =>
            obtain ⟨d, t, rfl, hcase, ht⟩ := accepts_letter.mp h
            exact .letter hescape hrun hone hcase (hrest ht)

/-- The matcher decides what the rules say, for every pattern and with any escape sign or none. -/
theorem matchesText_iff_matches (escape : Option Char) (pattern text : String) :
    matchesText escape pattern text = true ↔
      Matches escape (charsRead pattern) (charsRead text) :=
  ⟨matches_of_accepts, accepts_of_matches⟩

/-- What was escaped is read as its letters. -/
theorem read_escaped_append :
    read (some '\\') (escaped query ++ r) = query.map .letter ++ read (some '\\') r := by
  induction query with
  | nil => rfl
  | cons c query ih =>
    rw [escaped, List.map_cons, List.cons_append, ← ih]
    split
    · exact read_escape '\\' (escaped query ++ r)
    · next hplain =>
      obtain ⟨hrun, hplain⟩ := not_or.mp hplain
      obtain ⟨hone, hescape⟩ := not_or.mp hplain
      have hitem : plainItem c = .letter c := by rw [plainItem, if_neg hrun, if_neg hone]
      rw [List.cons_append, read_plain fun h => hescape (Option.some.inj h).symm, hitem]

theorem read_containing :
    read (some '\\') ('%' :: escaped query ++ ['%']) =
      .anyRun :: (query.map .letter ++ [.anyRun]) := by
  have hend : read (some '\\') ['%'] = [.anyRun] := rfl
  rw [List.cons_append, read_plain (by decide), read_escaped_append, hend]
  rfl

/-- A text stands in another, as far as `f` tells letters apart. -/
theorem isInfix_map_iff {f : Char → Char} :
    query.map f <:+: s.map f ↔
      ∃ before found behind, s = before ++ found ++ behind ∧ found.map f = query.map f := by
  constructor
  · rintro ⟨before, behind, hs⟩
    obtain ⟨begun, behind', rfl, hbegun, -⟩ := List.map_eq_append_iff.mp hs.symm
    obtain ⟨before', found, rfl, -, hfound⟩ := List.map_eq_append_iff.mp hbegun
    exact ⟨before', found, behind', rfl, hfound⟩
  · rintro ⟨before, found, behind, rfl, hfound⟩
    refine ⟨before.map f, behind.map f, ?_⟩
    rw [← hfound, List.map_append, List.map_append]

theorem accepts_containing :
    accepts (read (some '\\') ('%' :: escaped query ++ ['%'])) s = true ↔
      query.map Char.toLower <:+: s.map Char.toLower := by
  have hrest (t : List Char) : accepts [.anyRun] t = true :=
    accepts_anyRun.mpr ⟨[], t.nil_suffix, rfl⟩
  rw [read_containing, accepts_anyRun, isInfix_map_iff]
  constructor
  · rintro ⟨_, ⟨before, rfl⟩, hfound⟩
    obtain ⟨found, behind, rfl, hfound, -⟩ := accepts_letters_append.mp hfound
    exact ⟨before, found, behind, (List.append_assoc _ _ _).symm, hfound⟩
  · rintro ⟨before, found, behind, rfl, hfound⟩
    refine ⟨found ++ behind, ⟨before, (List.append_assoc _ _ _).symm⟩, ?_⟩
    exact accepts_letters_append.mpr ⟨found, behind, rfl, hfound, hrest behind⟩

theorem mem_escaped : c ∈ escaped query → c ∈ query ∨ c = '\\' := by
  induction query with
  | nil => simp [escaped]
  | cons d query ih =>
    intro hc
    rw [escaped] at hc
    split at hc
    · rcases List.mem_cons.mp hc with rfl | hc
      · exact .inr rfl
      · rcases List.mem_cons.mp hc with rfl | hc
        · exact .inl List.mem_cons_self
        · exact (ih hc).imp_left (List.mem_cons_of_mem d)
    · rcases List.mem_cons.mp hc with rfl | hc
      · exact .inl List.mem_cons_self
      · exact (ih hc).imp_left (List.mem_cons_of_mem d)

theorem beforeNul_eq_self {text : String} (hnul : ∀ c ∈ text.toList, c.toNat ≠ 0) :
    beforeNul text = text.toList := by
  refine List.takeWhile_eq_self_iff.mpr fun c hc => ?_
  simpa using hnul c hc

theorem ne_nul_of_all {text : String} (h : text.toList.all (·.toNat != 0) = true) :
    ∀ c ∈ text.toList, c.toNat ≠ 0 := fun c hc =>
  bne_iff_ne.mp (List.all_eq_true.mp h c hc)

theorem asRead_eq_iff (ha : a.toNat < 0xFFFD) : asRead c = a ↔ c = a := by
  rw [asRead]
  split
  · next hc =>
    constructor
    · rintro rfl
      exact absurd ha (by decide)
    · rintro rfl
      omega
  · exact Iff.rfl

/-- No character is read as one of the signs, so that what is escaped does not depend on the
reading. -/
theorem map_asRead_escaped : (escaped query).map asRead = escaped (query.map asRead) := by
  have hrun (c : Char) : asRead c = '%' ↔ c = '%' := asRead_eq_iff (by decide)
  have hone (c : Char) : asRead c = '_' ↔ c = '_' := asRead_eq_iff (by decide)
  have hescape (c : Char) : asRead c = '\\' ↔ c = '\\' := asRead_eq_iff (by decide)
  have hsign : asRead '\\' = '\\' := by decide
  induction query with
  | nil => rfl
  | cons c query ih =>
    rw [List.map_cons, escaped, escaped]
    simp only [hrun, hone, hescape]
    split
    · rw [List.map_cons, List.map_cons, hsign, ih]
    · rw [List.map_cons, ih]

theorem charsRead_containing {query : String} (hnul : ∀ c ∈ query.toList, c.toNat ≠ 0) :
    charsRead (containing query) = '%' :: escaped (query.toList.map asRead) ++ ['%'] := by
  have hpattern : beforeNul (containing query) = '%' :: escaped query.toList ++ ['%'] := by
    rw [beforeNul_eq_self] <;> rw [containing, String.toList_ofList]
    intro c hc
    rw [List.cons_append, List.mem_cons, List.mem_append, List.mem_singleton] at hc
    rcases hc with rfl | hc | rfl
    · decide
    · rcases mem_escaped hc with hc | rfl
      · exact hnul c hc
      · decide
    · decide
  rw [charsRead, hpattern, List.map_append, List.map_cons, map_asRead_escaped]
  rfl

/-- What a character counts as where it is compared. -/
def folded (c : Char) : Char := (asRead c).toLower

/-- A text, as far as its first NUL, contains a query without NUL in either case of the letters, the
characters being compared as they are read. -/
def Finds (query text : String) : Prop :=
  query.toList.map folded <:+: (beforeNul text).map folded

instance (query text : String) : Decidable (Finds query text) :=
  inferInstanceAs (Decidable (_ <:+: _))

theorem matchesText_containing_iff {query text : String}
    (hnul : ∀ c ∈ query.toList, c.toNat ≠ 0) :
    matchesText (some '\\') (containing query) text = true ↔ Finds query text := by
  rw [matchesText, charsRead_containing hnul, accepts_containing, charsRead, List.map_map,
    List.map_map]
  rfl

theorem length_le_utf8ByteSize (l : List Char) : l.length ≤ (String.ofList l).utf8ByteSize := by
  induction l with
  | nil => exact Nat.zero_le _
  | cons c l ih =>
    have hc : 0 < c.utf8Size := c.utf8Size_pos
    rw [String.ofList_cons, String.utf8ByteSize_append, String.utf8ByteSize_singleton,
      List.length_cons]
    omega

theorem length_le_length_escaped (l : List Char) : l.length ≤ (escaped l).length := by
  induction l with
  | nil => exact Nat.le_refl _
  | cons c l ih =>
    rw [escaped]
    split
    all_goals
      simp only [List.length_cons]
      omega

/-- The two percent signs count as well. -/
theorem tooLong_containing {query : String} (h : lengthLimit < query.toList.length + 2) :
    tooLong (containing query) = true := by
  have hpattern := length_le_utf8ByteSize ('%' :: escaped query.toList ++ ['%'])
  have hescaped := length_le_length_escaped query.toList
  simp only [List.cons_append, List.length_cons, List.length_append, List.length_nil] at hpattern
  rw [tooLong, containing, decide_eq_true_iff]
  exact Nat.lt_of_lt_of_le h (Nat.le_trans (by omega) hpattern)

/-- The pattern for a query matches a text, both without NUL, as the rules for patterns say. It does
just if some part of the text is the query, with letters in either case and with U+FFFE and U+FFFF
for U+FFFD. Where neither of these two occurs, only the case of the letters may differ. -/
theorem matches_containing {query text : String} (hquery : ∀ c ∈ query.toList, c.toNat ≠ 0)
    (htext : ∀ c ∈ text.toList, c.toNat ≠ 0) :
    (matchesText (some '\\') (containing query) text = true ↔
      Matches (some '\\') (charsRead (containing query)) (charsRead text)) ∧
    (matchesText (some '\\') (containing query) text = true ↔
      ∃ before found behind, text.toList = before ++ found ++ behind ∧
        found.map folded = query.toList.map folded) ∧
    ((∀ c ∈ query.toList ++ text.toList, asRead c = c) →
      (matchesText (some '\\') (containing query) text = true ↔
        ∃ before found behind, text.toList = before ++ found ++ behind ∧
          found.map Char.toLower = query.toList.map Char.toLower)) := by
  have hfinds : matchesText (some '\\') (containing query) text = true ↔
      query.toList.map folded <:+: text.toList.map folded := by
    rw [matchesText_containing_iff hquery, Finds, beforeNul_eq_self htext]
  refine ⟨matchesText_iff_matches _ _ _, hfinds.trans isInfix_map_iff, fun hread => ?_⟩
  have hfolded {l : List Char} (hl : l ⊆ query.toList ++ text.toList) :
      l.map folded = l.map Char.toLower := by
    refine List.map_congr_left fun c hc => ?_
    rw [folded, hread c (hl hc)]
  rw [hfinds, hfolded (List.subset_append_left _ _), hfolded (List.subset_append_right _ _),
    isInfix_map_iff]

/-- The three signs are found where they stand as in the query, and not where there are others in
between. -/
theorem matches_containing_signs :
    (∀ c ∈ "o%_\\".toList, c.toNat ≠ 0) ∧ (∀ c ∈ "50 O%_\\FF".toList, c.toNat ≠ 0) ∧
    (∀ c ∈ "o%x_y\\".toList, c.toNat ≠ 0) ∧
    Matches (some '\\') (charsRead (containing "o%_\\")) (charsRead "50 O%_\\FF") ∧
    (∃ before found behind, "50 O%_\\FF".toList = before ++ found ++ behind ∧
      found.map Char.toLower = "o%_\\".toList.map Char.toLower) ∧
    ¬ Matches (some '\\') (charsRead (containing "o%_\\")) (charsRead "o%x_y\\") := by
  have hquery : ∀ c ∈ "o%_\\".toList, c.toNat ≠ 0 := ne_nul_of_all (by decide +kernel)
  have htext : ∀ c ∈ "50 O%_\\FF".toList, c.toNat ≠ 0 := ne_nul_of_all (by decide +kernel)
  have hapart : ∀ c ∈ "o%x_y\\".toList, c.toNat ≠ 0 := ne_nul_of_all (by decide +kernel)
  have hletters : ("o%_\\".toList ++ "50 O%_\\FF".toList).all (fun c => asRead c == c) = true := by
    decide +kernel
  have hread : ∀ c ∈ "o%_\\".toList ++ "50 O%_\\FF".toList, asRead c = c := fun c hc =>
    beq_iff_eq.mp (List.all_eq_true.mp hletters c hc)
  have hfound : matchesText (some '\\') (containing "o%_\\") "50 O%_\\FF" = true := by
    decide +kernel
  obtain ⟨hrules, -, hstands⟩ := matches_containing hquery htext
  refine ⟨hquery, htext, hapart, hrules.mp hfound, (hstands hread).mp hfound, ?_⟩
  rw [← (matches_containing hquery hapart).1]
  decide +kernel

/-- U+FFFE is found in a text that has only U+FFFD. -/
theorem noncharacter_found :
    (∀ c ∈ "\uFFFE".toList, c.toNat ≠ 0) ∧ (∀ c ∈ "\uFFFD".toList, c.toNat ≠ 0) ∧
    tooLong (containing "\uFFFE") = false ∧
    matchesText (some '\\') (containing "\uFFFE") "\uFFFD" = true ∧
    Matches (some '\\') (charsRead (containing "\uFFFE")) (charsRead "\uFFFD") ∧
    ¬ ∃ before found behind, "\uFFFD".toList = before ++ found ++ behind ∧
      found.map Char.toLower = "\uFFFE".toList.map Char.toLower := by
  have hfound : matchesText (some '\\') (containing "\uFFFE") "\uFFFD" = true := by decide +kernel
  refine ⟨ne_nul_of_all (by decide +kernel), ne_nul_of_all (by decide +kernel), by decide +kernel,
    hfound, (matchesText_iff_matches _ _ _).mp hfound, ?_⟩
  rw [← isInfix_map_iff]
  decide +kernel

end LabelMail.Text.Wildcard
