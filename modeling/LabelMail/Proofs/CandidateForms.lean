import LabelMail.Proofs.Addresses

/-!
The two forms of a candidate, and the address of each. A candidate begins with a scheme or, where no
scheme with something behind it can be read, with a bare host. Dropping the punctuation at the end
leaves a scheme whole, since its slashes are no punctuation, and the three letters of a bare host,
but not the dot behind them.
-/
namespace LabelMail.Url

open Text

variable {lead found before after rest s t : List Char} {c : Char}

/-- What stands between a scheme and its host. -/
def slashes : List Char := [':', '/', '/']

/-- The three letters with their dot, in small letters or capitals. -/
def IsWww (lead : List Char) : Prop :=
  lead.map Char.toLower = ['w', 'w', 'w', '.']

instance : Decidable (IsWww lead) :=
  inferInstanceAs (Decidable (_ = _))

/-- What begins with a scheme. -/
def HasScheme (s : List Char) : Prop :=
  ∃ lead rest, IsScheme lead ∧ s = lead ++ rest

/-- A scheme with something behind it. -/
def Qualified (found : List Char) : Prop :=
  ∃ lead c rest, IsScheme lead ∧ found = lead ++ c :: rest

/-- A bare host, where no scheme can be read. -/
structure Bare (found : List Char) : Prop where
  starts : ∃ lead rest, IsWww lead ∧ found = lead ++ rest
  unqualified : ¬ Qualified found

theorem IsScheme.ne_nil (h : IsScheme lead) : lead ≠ [] := by
  obtain ⟨c, more, -, -, rfl⟩ := h
  exact List.cons_ne_nil c _

theorem IsWww.length_eq (h : IsWww lead) : lead.length = 4 := by
  simpa using congrArg List.length h

/-- Behind the run of scheme characters stand the slashes. -/
theorem HasScheme.slashes (h : HasScheme s) : (s.dropWhile isSchemeChar).take 3 = slashes := by
  obtain ⟨lead, rest, ⟨c, more, hc, hmore, rfl⟩, rfl⟩ := h
  have hrun : ∀ d ∈ c :: more, isSchemeChar d := by
    rw [List.forall_mem_cons]
    exact ⟨by simp [isSchemeChar, hc], hmore⟩
  rw [List.append_assoc, List.dropWhile_append_of_pos hrun]
  rfl

theorem qualified_iff (h : ∀ c ∈ found, isBodyChar c) :
    Qualified found ↔ (withScheme found).isSome := by
  constructor
  · rintro ⟨lead, c, rest, hlead, rfl⟩
    exact withScheme_isSome hlead (h c (by simp))
  · intro hsome
    obtain ⟨x, hx⟩ := Option.isSome_iff_exists.mp hsome
    obtain ⟨lead, hlead, rest, rfl, hbody⟩ := withScheme_eq_some hx
    cases rest with
    | nil => exact absurd rfl (body_eq_some hbody).2
    | cons c rest => exact ⟨lead, c, rest, hlead, rfl⟩

theorem bare_iff (h : ∀ c ∈ found, isBodyChar c) :
    Bare found ↔ IsWww (found.take 4) ∧ withScheme found = none := by
  have hqualified : ¬ Qualified found ↔ withScheme found = none := by
    rw [qualified_iff h, Option.not_isSome_iff_eq_none]
  constructor
  · rintro ⟨⟨lead, rest, hlead, rfl⟩, hnot⟩
    exact ⟨by rwa [List.take_left' hlead.length_eq], hqualified.mp hnot⟩
  · rintro ⟨hlead, hnone⟩
    exact ⟨⟨_, _, hlead, (List.take_append_drop 4 found).symm⟩, hqualified.mpr hnone⟩

/-- A candidate is of one of the two forms. -/
theorem qualified_or_bare (h : candidate s = some found) : Qualified found ∨ Bare found := by
  by_cases hqualified : Qualified found
  · exact .inl hqualified
  · refine .inr ⟨?_, hqualified⟩
    rcases Option.or_eq_some_iff.mp h with h | ⟨-, h⟩
    · obtain ⟨lead, hlead, rest, -, hbody⟩ := withScheme_eq_some h
      obtain ⟨rfl, hne⟩ := body_eq_some hbody
      obtain ⟨c, r, hrest⟩ := List.exists_cons_of_ne_nil hne
      exact absurd ⟨lead, c, r, hlead, by rw [hrest]⟩ hqualified
    · obtain ⟨lead, hlead, rest, -, hbody⟩ := bareHost_eq_some h
      exact ⟨lead, _, hlead, (body_eq_some hbody).1⟩

/-! ### The first colon with two slashes -/

theorem afterSlashes_cons (h : ¬ slashes <+: c :: s) : afterSlashes (c :: s) = afterSlashes s := by
  rw [afterSlashes]
  split
  · next rest heq => exact absurd ⟨rest, heq.symm⟩ h
  · rfl

/-- What follows the first colon with two slashes follows it nowhere before. -/
theorem afterSlashes_eq_some_iff :
    afterSlashes s = some rest ↔
      ∃ before, s = before ++ slashes ++ rest ∧ ¬ slashes <:+: before := by
  constructor
  · intro h
    induction s with
    | nil => cases h
    | cons c s ih =>
      by_cases hprefix : slashes <+: c :: s
      · obtain ⟨t, ht⟩ := hprefix
        rw [← ht] at h ⊢
        obtain rfl : t = rest := by simpa [slashes, afterSlashes] using h
        exact ⟨[], rfl, by decide⟩
      · obtain ⟨before, rfl, hbefore⟩ := ih ((afterSlashes_cons hprefix).symm.trans h)
        refine ⟨c :: before, rfl, fun hinfix => ?_⟩
        rcases List.infix_cons_iff.mp hinfix with hstart | hinfix
        · exact hprefix (hstart.trans ⟨slashes ++ rest, by simp⟩)
        · exact hbefore hinfix
  · rintro ⟨before, rfl, hbefore⟩
    induction before with
    | nil => simp [slashes, afterSlashes]
    | cons c before ih =>
      have hstart : ¬ slashes <+: c :: (before ++ slashes ++ rest) := by
        -- no end of the marks is their beginning, so that none begin in front of the first
        rintro ⟨t, ht⟩
        rcases before with _ | ⟨d, _ | ⟨e, before⟩⟩
        · simp [slashes] at ht
        · simp [slashes] at ht
        · simp only [slashes, List.cons_append, List.nil_append, List.cons.injEq] at ht
          obtain ⟨rfl, rfl, rfl, -⟩ := ht
          exact hbefore ⟨[], before, rfl⟩
      rw [List.cons_append, List.cons_append, afterSlashes_cons hstart]
      exact ih fun hinfix => hbefore (List.infix_cons hinfix)

theorem afterSlashes_eq_none_iff : afterSlashes s = none ↔ ¬ slashes <:+: s := by
  induction s with
  | nil => simp [slashes, afterSlashes]
  | cons c s ih =>
    rw [List.infix_cons_iff, not_or]
    by_cases hprefix : slashes <+: c :: s
    · obtain ⟨t, ht⟩ := hprefix
      rw [← ht]
      simp [slashes, afterSlashes]
    · rw [afterSlashes_cons hprefix, ih]
      exact (and_iff_right hprefix).symm

theorem afterSlashes_append (h : ':' ∉ s) : afterSlashes (s ++ t) = afterSlashes t := by
  induction s with
  | nil => rfl
  | cons c s ih =>
    obtain ⟨hc, hs⟩ := not_or.mp (mt List.mem_cons.mpr h)
    have hprefix : ¬ slashes <+: c :: (s ++ t) := fun ⟨_, ht⟩ => hc (List.cons.inj ht).1
    rw [List.cons_append, afterSlashes_cons hprefix, ih hs]

theorem afterSlashes_of_isScheme (h : IsScheme lead) : afterSlashes (lead ++ rest) = some rest := by
  obtain ⟨c, more, hc, hmore, rfl⟩ := h
  have hcolon : ':' ∉ c :: more := by
    rw [List.mem_cons, not_or]
    constructor
    · rintro rfl
      exact absurd hc (by decide)
    · exact fun hmem => absurd (hmore _ hmem) (by decide)
  rw [List.append_assoc, afterSlashes_append hcolon]
  rfl

/-! ### What is left when the punctuation at the end is dropped -/

theorem dropEndWhile_append_of_kept {p : Char → Bool} (hs : ∀ c ∈ s.getLast?, p c = false) :
    dropEndWhile p (s ++ t) = s ++ dropEndWhile p t := by
  induction t using List.reverseRecOn with
  | nil =>
    rw [List.append_nil, dropEndWhile_eq_self fun c hc => hs c hc]
    exact (List.append_nil s).symm
  | append_singleton t c ih =>
    have hlast (l : List Char) :
        dropEndWhile p (l ++ [c]) = if p c then dropEndWhile p l else l ++ [c] :=
      List.rdropWhile_concat p l c
    rw [← List.append_assoc, hlast, hlast, ih]
    split
    · rfl
    · exact List.append_assoc s t [c]

theorem dropEndWhile_eq_nil_iff {p : Char → Bool} : dropEndWhile p s = [] ↔ ∀ c ∈ s, p c :=
  List.rdropWhile_eq_nil_iff

theorem not_of_mem_getLast?_dropEndWhile {p : Char → Bool} (hc : c ∈ (dropEndWhile p s).getLast?) :
    p c = false := by
  have hne : dropEndWhile p s ≠ [] := by
    intro hnil
    rw [hnil] at hc
    cases hc
  rw [List.getLast?_eq_getLast_of_ne_nil hne] at hc
  obtain rfl := Option.some.inj hc
  exact Bool.not_eq_true _ ▸ List.rdropWhile_last_not p s hne

/-- The slashes of a scheme are no punctuation, so that it stays. -/
theorem dropEndWhile_of_isScheme (h : IsScheme lead) :
    dropEndWhile isTrailing (lead ++ rest) = lead ++ dropEndWhile isTrailing rest := by
  obtain ⟨d, more, -, -, rfl⟩ := h
  refine dropEndWhile_append_of_kept fun c hc => ?_
  rw [List.getLast?_append_cons] at hc
  obtain rfl := Option.some.inj hc
  decide

theorem isTrailing_of_toLower (h : c.toLower = 'w') : isTrailing c = false := by
  have hother : ∀ d, isTrailing d → d.toLower ≠ 'w' := by simp [isTrailing]
  exact Bool.eq_false_iff.mpr fun htrailing => hother c htrailing h

theorem eq_dot_of_toLower (h : c.toLower = '.') : c = '.' := by
  unfold Char.toLower at h
  split at h
  · next hrange =>
    have hval : c.val = '.'.val - ('a'.val - 'A'.val) :=
      UInt32.eq_sub_iff_add_eq.mpr (congrArg Char.val h)
    rw [hval] at hrange
    exact absurd hrange (by decide)
  · exact h

theorem IsWww.eq (h : IsWww lead) :
    lead = lead.take 3 ++ ['.'] ∧ ∀ c ∈ lead.take 3, isTrailing c = false := by
  match lead, h.length_eq with
  | [a, b, c, d], _ =>
    simp only [IsWww, List.map_cons, List.map_nil, List.cons.injEq, and_true] at h
    obtain ⟨ha, hb, hc, hd⟩ := h
    rw [eq_dot_of_toLower hd]
    refine ⟨rfl, ?_⟩
    simp [isTrailing_of_toLower, *]

/-- The dot behind the letters is punctuation like what follows it. -/
theorem dropEndWhile_of_isWww (h : IsWww lead) :
    dropEndWhile isTrailing (lead ++ rest) =
      lead.take 3 ++ dropEndWhile isTrailing ('.' :: rest) := by
  obtain ⟨hlead, hletters⟩ := h.eq
  nth_rewrite 1 [hlead]
  rw [List.append_assoc]
  exact dropEndWhile_append_of_kept fun c hc => hletters c (List.mem_of_getLast? hc)

theorem IsWww.take_ne_nil (h : IsWww lead) : lead.take 3 ≠ [] :=
  List.ne_nil_of_length_pos (by simp [h.length_eq])

theorem IsWww.colon_not_mem (h : IsWww lead) : ':' ∉ lead := fun hmem =>
  absurd (isSchemeChar_of_bare h hmem) (by decide)

/-- What is left never ends behind the dot, so that only nothing at all is no host. -/
theorem host_isEmpty (h : ∀ c ∈ rest.getLast?, isTrailing c = false) :
    (host rest).isEmpty = rest.isEmpty := by
  unfold host
  dsimp only
  split
  · next hwww =>
    obtain ⟨w, hw⟩ : ∃ w, rest.take 4 = w ++ ['.'] := by
      rw [Bool.or_eq_true, beq_iff_eq, beq_iff_eq] at hwww
      rcases hwww with hwww | hwww
      · exact ⟨['w', 'w', 'w'], hwww⟩
      · exact ⟨['W', 'W', 'W'], hwww⟩
    have hsplit : rest = w ++ '.' :: rest.drop 4 := by
      conv_lhs => rw [← List.take_append_drop 4 rest, hw]
      simp
    cases hdrop : rest.drop 4 with
    | nil =>
      rw [hdrop] at hsplit
      exact absurd (h '.' (by simp [hsplit])) (by decide)
    | cons c r =>
      rw [hsplit]
      simp
  · rfl

/-- The address of a candidate: without slashes it gets the scheme, with them it stays as it is. -/
theorem ofCandidate_eq (hne : dropEndWhile isTrailing found ≠ []) :
    ofCandidate found =
      match afterSlashes (dropEndWhile isTrailing found) with
      | none => some (defaultScheme ++ dropEndWhile isTrailing found)
      | some rest => if rest = [] then none else some (dropEndWhile isTrailing found) := by
  have hlast : ∀ c ∈ (dropEndWhile isTrailing found).getLast?, isTrailing c = false :=
    fun c hc => not_of_mem_getLast?_dropEndWhile hc
  unfold ofCandidate
  dsimp only
  split
  · next rest hslashes =>
    obtain ⟨before, hbefore, -⟩ := afterSlashes_eq_some_iff.mp hslashes
    have hrest : ∀ c ∈ rest.getLast?, isTrailing c = false := fun c hc => by
      refine hlast c ?_
      rw [hbefore, List.getLast?_append, Option.mem_def.mp hc]
      rfl
    rw [hslashes, host_isEmpty hrest]
    simp
  · next hslashes =>
    rw [hslashes, host_isEmpty hlast]
    simp [hne]

theorem ofCandidate_of_isScheme (h : IsScheme lead) :
    ofCandidate (lead ++ rest) =
      if dropEndWhile isTrailing rest = [] then none
      else some (lead ++ dropEndWhile isTrailing rest) := by
  have hkept : dropEndWhile isTrailing (lead ++ rest) = lead ++ dropEndWhile isTrailing rest :=
    dropEndWhile_of_isScheme h
  have hne : dropEndWhile isTrailing (lead ++ rest) ≠ [] := by
    rw [hkept]
    exact List.append_ne_nil_of_left_ne_nil h.ne_nil _
  rw [ofCandidate_eq hne, hkept, afterSlashes_of_isScheme h]

/-- Of a candidate there is always something left. -/
theorem dropEndWhile_ne_nil (h : candidate s = some found) :
    dropEndWhile isTrailing found ≠ [] := by
  rcases qualified_or_bare h with ⟨lead, c, rest, hlead, rfl⟩ | hbare
  · rw [dropEndWhile_of_isScheme hlead]
    exact List.append_ne_nil_of_left_ne_nil hlead.ne_nil _
  · obtain ⟨lead, rest, hlead, rfl⟩ := hbare.starts
    rw [dropEndWhile_of_isWww hlead]
    exact List.append_ne_nil_of_left_ne_nil hlead.take_ne_nil _

end LabelMail.Url
