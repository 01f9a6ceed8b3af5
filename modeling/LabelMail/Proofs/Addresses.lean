import LabelMail.Url
import Mathlib.Data.List.DropRight

/-!
Addresses found again. An address that was found in one text is found in every other in which it
stands between blanks, and it is one that the blacklist accepts. A candidate reaches as far as body
characters do, so that none reaches over a blank, and an address is a candidate of which nothing
more is dropped.
-/
namespace LabelMail.Url

open Text

theorem isBodyChar_of_isBlank {c : Char} (h : isBlank c) : isBodyChar c = false := by
  simp [isBodyChar, h]

theorem isWordChar_of_isBlank {c : Char} (h : isBlank c) : isWordChar c = false := by
  have htable : ∀ n ∈ [9, 10, 11, 12, 13, 0x20, 0x85, 0xA0, 0x1680, 0x2000, 0x2001, 0x2002, 0x2003,
      0x2004, 0x2005, 0x2006, 0x2007, 0x2008, 0x2009, 0x200A, 0x2028, 0x2029, 0x202F, 0x205F,
      0x3000], inIntervals n wordIntervals = false := by decide +kernel
  refine htable c.toNat ?_
  simp only [isBlank, Bool.or_eq_true, Bool.and_eq_true, decide_eq_true_eq, beq_iff_eq] at h
  simp only [List.mem_cons, List.not_mem_nil, or_false]
  omega

theorem isUpper_iff {c : Char} : c.isUpper ↔ 65 ≤ c.toNat ∧ c.toNat ≤ 90 :=
  decide_eq_true_iff

theorem isLower_iff {c : Char} : c.isLower ↔ 97 ≤ c.toNat ∧ c.toNat ≤ 122 :=
  (Bool.and_eq_true_iff).trans (and_congr decide_eq_true_iff decide_eq_true_iff)

theorem isAlpha_iff {c : Char} : c.isAlpha ↔ c.isUpper ∨ c.isLower :=
  Bool.or_eq_true_iff

/-- A scheme is made of letters, digits and three marks. -/
theorem range_of_isSchemeChar {c : Char} (h : isSchemeChar c) :
    (48 ≤ c.toNat ∧ c.toNat ≤ 57) ∨ (65 ≤ c.toNat ∧ c.toNat ≤ 90) ∨
      (97 ≤ c.toNat ∧ c.toNat ≤ 122) ∨ c.toNat = 0x17F ∨ c.toNat = 0x212A ∨ c.toNat = 43 ∨
      c.toNat = 46 ∨ c.toNat = 45 := by
  simp only [isSchemeChar, isSchemeLetter, Bool.or_eq_true, beq_iff_eq, isAlpha_iff, isUpper_iff,
    isLower_iff, Char.isDigit_iff_toNat] at h
  have hdigits : '0'.toNat = 48 ∧ '9'.toNat = 57 := ⟨rfl, rfl⟩
  have hmarks : '+'.toNat = 43 ∧ '.'.toNat = 46 ∧ '-'.toNat = 45 := ⟨rfl, rfl, rfl⟩
  rcases h with (((hletter | hdigit) | rfl) | rfl) | rfl
  all_goals omega

theorem isBodyChar_of_isSchemeChar {c : Char} (h : isSchemeChar c) : isBodyChar c := by
  have hrange := range_of_isSchemeChar h
  have hblank : isBlank c = false := by
    by_contra hblank
    simp only [isBlank, Bool.not_eq_false, Bool.or_eq_true, Bool.and_eq_true, decide_eq_true_eq,
      beq_iff_eq] at hblank
    omega
  have hquote : (c.toNat == 0x27) = false ∧ (c.toNat == 0x60) = false := by
    rw [beq_eq_false_iff_ne, beq_eq_false_iff_ne]
    omega
  have hne {d : Char} (hd : isSchemeChar d = false) : (c == d) = false := by
    refine beq_eq_false_iff_ne.mpr fun hcd => ?_
    rw [← hcd, h] at hd
    cases hd
  simp [isBodyChar, hblank, hne (by decide : isSchemeChar '<' = false),
    hne (by decide : isSchemeChar '>' = false), hne (by decide : isSchemeChar '"' = false), hquote]

/-- A scheme with its colon and slashes. -/
def IsScheme (lead : List Char) : Prop :=
  ∃ c more, isSchemeLetter c ∧ (∀ d ∈ more, isSchemeChar d) ∧ lead = c :: more ++ [':', '/', '/']

/-- What a candidate begins with. -/
inductive IsLead : List Char → Prop
  | scheme {c : Char} {more : List Char} (hc : isSchemeLetter c)
      (hmore : ∀ d ∈ more, isSchemeChar d) : IsLead (c :: more ++ [':', '/', '/'])
  | bare {lead : List Char} (h : lead.map Char.toLower = ['w', 'w', 'w', '.']) : IsLead lead

variable {lead found address before after rest s t : List Char} {c : Char}

theorem IsScheme.isLead (h : IsScheme lead) : IsLead lead := by
  obtain ⟨c, more, hc, hmore, rfl⟩ := h
  exact .scheme hc hmore

theorem isScheme_defaultScheme : IsScheme defaultScheme :=
  ⟨'h', ['t', 't', 'p'], by decide, List.all_eq_true.mp (by decide), rfl⟩

theorem isSchemeChar_of_bare (h : lead.map Char.toLower = ['w', 'w', 'w', '.']) (hc : c ∈ lead) :
    isSchemeChar c := by
  have hmem : c.toLower ∈ ['w', 'w', 'w', '.'] := h ▸ List.mem_map_of_mem hc
  by_cases hupper : c.isUpper
  · have halpha : c.isAlpha := isAlpha_iff.mpr (.inl hupper)
    simp [isSchemeChar, isSchemeLetter, halpha]
  · have hsame : c.toLower = c := dif_neg fun hrange => hupper (isUpper_iff.mpr hrange)
    rw [hsame] at hmem
    simp only [List.mem_cons, List.not_mem_nil, or_false, or_self_left] at hmem
    obtain rfl | rfl := hmem <;> decide

theorem IsLead.body (h : IsLead lead) : ∀ c ∈ lead, isBodyChar c := by
  cases h with
  | @scheme c more hc hmore =>
    have hc' : isSchemeChar c := by simp [isSchemeChar, hc]
    simp only [List.cons_append, List.forall_mem_cons, List.forall_mem_append]
    refine ⟨isBodyChar_of_isSchemeChar hc', fun d hd => isBodyChar_of_isSchemeChar (hmore d hd), ?_⟩
    exact ⟨by decide, by decide, by decide, List.forall_mem_nil _⟩
  | bare h => exact fun c hc => isBodyChar_of_isSchemeChar (isSchemeChar_of_bare h hc)

/-- The colon with two slashes is the end of a lead. -/
theorem IsLead.slashes (h : IsLead (before ++ ':' :: '/' :: '/' :: rest)) : rest = [] := by
  have hcolon : ¬ isSchemeChar ':' := by decide
  generalize hlead : before ++ ':' :: '/' :: '/' :: rest = lead at h
  cases h with
  | @scheme c more hc hmore =>
    rcases List.append_eq_append_iff.mp hlead with ⟨mid, hfront, hrest⟩ | ⟨mid, -, hrest⟩
    · cases mid with
      | nil => simpa using hrest
      | cons d mid =>
        have hd : ':' = d := (List.cons.inj hrest).1
        have hmem : ':' ∈ c :: more := by
          rw [hfront, hd]
          exact List.mem_append_right before List.mem_cons_self
        rcases List.mem_cons.mp hmem with rfl | hmem
        · exact absurd hc (by decide)
        · exact absurd (hmore _ hmem) hcolon
    · have hlength := congrArg List.length hrest
      simp only [List.length_append, List.length_cons, List.length_nil] at hlength
      exact List.length_eq_zero_iff.mp (by omega)
  | bare h => exact absurd (isSchemeChar_of_bare h (by simp [← hlead])) hcolon

theorem body_eq_some (h : body lead rest = some found) :
    found = lead ++ rest.takeWhile isBodyChar ∧ rest.takeWhile isBodyChar ≠ [] := by
  unfold body at h
  dsimp only at h
  split at h
  · cases h
  · next hne => exact ⟨(Option.some.inj h).symm, by simpa using hne⟩

theorem drop_takeWhile {p : Char → Bool} : s.drop (s.takeWhile p).length = s.dropWhile p :=
  calc s.drop (s.takeWhile p).length
      = (s.takeWhile p ++ s.dropWhile p).drop (s.takeWhile p).length := by
        rw [List.takeWhile_append_dropWhile]
    _ = s.dropWhile p := List.drop_left

theorem withScheme_eq_some (h : withScheme s = some found) :
    ∃ lead, IsScheme lead ∧ ∃ rest, s = lead ++ rest ∧ body lead rest = some found := by
  cases s with
  | nil => cases h
  | cons c r =>
    simp only [withScheme] at h
    split at h
    · next hc =>
      split at h
      · next rest hdrop =>
        have hr : r.takeWhile isSchemeChar ++ ':' :: '/' :: '/' :: rest = r := by
          rw [← hdrop, drop_takeWhile, List.takeWhile_append_dropWhile]
        refine ⟨_, ⟨c, _, hc, fun d hd => List.mem_takeWhile_imp hd, rfl⟩, rest, ?_, h⟩
        simp [hr]
      · cases h
    · cases h

theorem bareHost_eq_some (h : bareHost s = some found) :
    ∃ lead, lead.map Char.toLower = ['w', 'w', 'w', '.'] ∧
      ∃ rest, s = lead ++ rest ∧ body lead rest = some found := by
  unfold bareHost at h
  dsimp only at h
  split at h
  · next hlead =>
    exact ⟨s.take 4, by simpa using hlead, s.drop 4, (List.take_append_drop 4 s).symm, h⟩
  · cases h

/-- A candidate is a lead and at least one character behind it. -/
theorem candidate_eq_some (h : candidate s = some found) :
    ∃ lead, IsLead lead ∧ ∃ rest, s = lead ++ rest ∧ body lead rest = some found := by
  rcases Option.or_eq_some_iff.mp h with h | ⟨-, h⟩
  · obtain ⟨lead, hlead, hrest⟩ := withScheme_eq_some h
    exact ⟨lead, hlead.isLead, hrest⟩
  · obtain ⟨lead, hlead, hrest⟩ := bareHost_eq_some h
    exact ⟨lead, .bare hlead, hrest⟩

/-- A candidate reaches as far as body characters do. -/
theorem candidate_eq_takeWhile (h : candidate s = some found) :
    found = s.takeWhile isBodyChar ∧ ∃ lead c rest, IsLead lead ∧ found = lead ++ c :: rest := by
  obtain ⟨lead, hlead, rest, rfl, hbody⟩ := candidate_eq_some h
  obtain ⟨rfl, hne⟩ := body_eq_some hbody
  refine ⟨(List.takeWhile_append_of_pos hlead.body).symm, lead, ?_⟩
  cases hrest : rest.takeWhile isBodyChar with
  | nil => exact absurd hrest hne
  | cons c r => exact ⟨c, r, hlead, rfl⟩

theorem body_isSome (hc : isBodyChar c) : (body lead (c :: rest)).isSome := by
  simp [body, List.takeWhile_cons_of_pos hc]

/-- The run of scheme characters ends at the colon. -/
theorem withScheme_isSome (h : IsScheme lead) (hc : isBodyChar c) :
    (withScheme (lead ++ c :: rest)).isSome := by
  obtain ⟨d, more, hd, hmore, rfl⟩ := h
  have hrun : (more ++ ':' :: '/' :: '/' :: c :: rest).takeWhile isSchemeChar = more := by
    rw [List.takeWhile_append_of_pos hmore, List.takeWhile_cons_of_neg (by decide), List.append_nil]
  have htext : d :: more ++ [':', '/', '/'] ++ c :: rest =
      d :: (more ++ ':' :: '/' :: '/' :: c :: rest) := by simp
  rw [htext, withScheme, if_pos hd]
  simp only [hrun, List.drop_left]
  exact body_isSome hc

theorem bareHost_isSome (h : lead.map Char.toLower = ['w', 'w', 'w', '.']) (hc : isBodyChar c) :
    (bareHost (lead ++ c :: rest)).isSome := by
  have hlength : lead.length = 4 := by simpa using congrArg List.length h
  have htake : (lead ++ c :: rest).take 4 = lead := List.take_left' hlength
  have hdrop : (lead ++ c :: rest).drop 4 = c :: rest := List.drop_left' hlength
  simp only [bareHost, htake, hdrop, h, BEq.rfl, if_true]
  exact body_isSome hc

/-- A lead with a body character behind it starts a candidate. -/
theorem candidate_of_isLead (h : IsLead lead) (hc : isBodyChar c) :
    candidate (lead ++ c :: rest) = some ((lead ++ c :: rest).takeWhile isBodyChar) := by
  have hsome : (candidate (lead ++ c :: rest)).isSome := by
    rw [candidate, Option.isSome_or, Bool.or_eq_true]
    cases h with
    | scheme hd hmore => exact .inl (withScheme_isSome ⟨_, _, hd, hmore, rfl⟩ hc)
    | bare hlead => exact .inr (bareHost_isSome hlead hc)
  obtain ⟨found, hfound⟩ := Option.isSome_iff_exists.mp hsome
  rw [hfound, (candidate_eq_takeWhile hfound).1]

/-- No candidate begins with a blank. -/
theorem candidate_of_isBlank (hc : isBlank c) : candidate (c :: s) = none := by
  by_contra hsome
  obtain ⟨found, hfound⟩ := Option.ne_none_iff_exists'.mp hsome
  obtain ⟨hrun, lead, d, rest, -, hsplit⟩ := candidate_eq_takeWhile hfound
  rw [hsplit, List.takeWhile_cons_of_neg (by simp [isBodyChar_of_isBlank hc])] at hrun
  simp at hrun

/-- A candidate of which nothing is dropped and to which nothing is added. -/
structure IsAddress (address : List Char) : Prop where
  body : ∀ c ∈ address, isBodyChar c
  starts : ∃ lead c rest, IsLead lead ∧ address = lead ++ c :: rest
  kept : ofCandidate address = some address

theorem afterSlashes_eq_some (h : afterSlashes s = some rest) :
    ∃ before, s = before ++ ':' :: '/' :: '/' :: rest := by
  induction s with
  | nil => cases h
  | cons c r ih =>
    unfold afterSlashes at h
    split at h
    · next heq =>
      obtain rfl := Option.some.inj h
      exact ⟨[], heq⟩
    · obtain ⟨before, rfl⟩ := ih h
      exact ⟨c :: before, rfl⟩

theorem afterSlashes_defaultScheme : afterSlashes (defaultScheme ++ s) = some s := by
  simp [defaultScheme, afterSlashes]

theorem dropEndWhile_prefix {p : Char → Bool} : dropEndWhile p s <+: s :=
  List.rdropWhile_prefix p s

theorem dropEndWhile_append_self {p : Char → Bool} (hne : dropEndWhile p s ≠ []) :
    dropEndWhile p (t ++ dropEndWhile p s) = t ++ dropEndWhile p s := by
  have hlast := List.rdropWhile_last_not p s hne
  refine List.rdropWhile_eq_self_iff.mpr fun hl => ?_
  rwa [List.getLast_append_of_ne_nil hl hne]

/-- Every address that is found is one in full. -/
theorem isAddress_of_candidate (hfound : candidate s = some found)
    (h : ofCandidate found = some address) : IsAddress address := by
  obtain ⟨hrun, lead, d, rest', hlead, hsplit⟩ := candidate_eq_takeWhile hfound
  have hbody : ∀ c ∈ found, isBodyChar c := by
    rw [hrun]
    exact fun c hc => List.mem_takeWhile_imp hc
  have hfront : dropEndWhile isTrailing found <+: found := dropEndWhile_prefix
  have hkept : ∀ c ∈ dropEndWhile isTrailing found, isBodyChar c :=
    fun c hc => hbody c (hfront.mem hc)
  unfold ofCandidate at h
  dsimp only at h
  split at h
  · next rest hslashes =>
    split at h
    · cases h
    · next hhost =>
      obtain rfl := Option.some.inj h
      obtain ⟨before, hbefore⟩ := afterSlashes_eq_some hslashes
      have hne : dropEndWhile isTrailing found ≠ [] := by
        rw [hbefore]
        simp
      refine ⟨hkept, ?_, ?_⟩
      · -- it reaches beyond the lead, since behind the slashes there is a host
        rcases List.prefix_or_prefix_of_prefix hfront ⟨_, hsplit.symm⟩ with hshort | hlong
        · obtain ⟨tail, htail⟩ := hshort
          rw [hbefore, List.append_assoc, List.cons_append, List.cons_append,
            List.cons_append] at htail
          have hnil := IsLead.slashes (htail ▸ hlead)
          simp [(List.append_eq_nil_iff.mp hnil).1, host] at hhost
        · obtain ⟨more, hmore⟩ := hlong
          cases more with
          | nil =>
            rw [List.append_nil] at hmore
            have hnil := IsLead.slashes ((hmore.trans hbefore) ▸ hlead)
            simp [hnil, host] at hhost
          | cons e more => exact ⟨lead, e, more, hlead, hmore.symm⟩
      · have hsame := dropEndWhile_append_self (t := []) hne
        rw [List.nil_append] at hsame
        rw [ofCandidate, hsame, hslashes]
        simp only [hhost, Bool.false_eq_true, if_false]
  · next hslashes =>
    split at h
    · cases h
    · next hhost =>
      obtain rfl := Option.some.inj h
      have hne : dropEndWhile isTrailing found ≠ [] := by
        intro hnil
        simp [hnil, host] at hhost
      have hscheme : IsLead defaultScheme := isScheme_defaultScheme.isLead
      obtain ⟨e, more, hmore⟩ := List.exists_cons_of_ne_nil hne
      refine ⟨?_, ⟨defaultScheme, e, more, hscheme, by rw [hmore]⟩, ?_⟩
      · exact List.forall_mem_append.mpr ⟨hscheme.body, hkept⟩
      · rw [ofCandidate, dropEndWhile_append_self hne, afterSlashes_defaultScheme]
        simp only [hhost, Bool.false_eq_true, if_false]

/-- The word stands in the text between blanks or the text's ends. -/
def StandsIn (word s : List Char) : Prop :=
  ∃ before after, s = before ++ word ++ after ∧ (∀ c ∈ before.getLast?, isBlank c) ∧
    ∀ c ∈ after.head?, isBlank c

theorem mem_candidates_of_candidate (h : candidate s = some found) :
    found ∈ candidates 0 false s := by
  cases s with
  | nil => cases h
  | cons c r =>
    rw [candidates]
    simp [h]

/-- An address with a blank behind it, or nothing, is the candidate there. -/
theorem IsAddress.candidate_append (h : IsAddress address) (hafter : ∀ c ∈ after.head?, isBlank c) :
    candidate (address ++ after) = some address := by
  obtain ⟨lead, c, rest, hlead, hsplit⟩ := h.starts
  have hc : isBodyChar c := h.body c (by simp [hsplit])
  have hrun : (address ++ after).takeWhile isBodyChar = address := by
    rw [List.takeWhile_append_of_pos h.body]
    cases after with
    | nil => simp
    | cons d after =>
      have hd : isBodyChar d = false := isBodyChar_of_isBlank (hafter d rfl)
      rw [List.takeWhile_cons_of_neg (by simp [hd]), List.append_nil]
  have hcandidate : candidate (lead ++ c :: (rest ++ after)) = some _ :=
    candidate_of_isLead hlead hc
  rwa [← List.cons_append, ← List.append_assoc, ← hsplit, hrun] at hcandidate

/-- A candidate that is found is one at some place of the text. -/
theorem exists_candidate {skip : Nat} {afterWord : Bool} (h : found ∈ candidates skip afterWord s) :
    ∃ t, candidate t = some found := by
  induction s generalizing skip afterWord with
  | nil => cases h
  | cons c r ih =>
    cases skip with
    | succ n => exact ih h
    | zero =>
      rw [candidates] at h
      split at h
      · next x hx =>
        rcases List.mem_cons.mp h with rfl | h
        · split at hx
          · cases hx
          · exact ⟨_, hx⟩
        · exact ih h
      · exact ih h

theorem mem_inText {text url : String} :
    url ∈ inText text ↔
      ∃ found ∈ candidates 0 false text.toList, ofCandidate found = some url.toList := by
  simp only [inText, mem_distinct, List.mem_map, List.mem_filterMap]
  constructor
  · intro h
    obtain ⟨address, hfound, rfl⟩ := h
    simpa using hfound
  · intro h
    exact ⟨url.toList, h, String.ofList_toList⟩

theorem isAddress_of_mem_inText {text url : String} (h : url ∈ inText text) :
    IsAddress url.toList := by
  obtain ⟨found, hfound, hurl⟩ := mem_inText.mp h
  obtain ⟨t, ht⟩ := exists_candidate hfound
  exact isAddress_of_candidate ht hurl

theorem IsAddress.ne_nil (h : IsAddress address) : address ≠ [] := by
  obtain ⟨lead, c, rest, -, rfl⟩ := h.starts
  simp

theorem IsAddress.not_blank (h : IsAddress address) : ∀ c ∈ address, isBlank c = false := by
  intro c hc
  by_contra hblank
  have hbody := h.body c hc
  rw [isBodyChar_of_isBlank (by simpa using hblank)] at hbody
  cases hbody

/-- The blacklist keeps an address as it was found. -/
theorem accepted_of_mem_inText {text url : String} (h : url ∈ inText text) :
    accepted url = .ok url := by
  have haddress : IsAddress url.toList := isAddress_of_mem_inText h
  have hblank := haddress.not_blank
  have hstart : url.toList.dropWhile isBlank = url.toList := by
    obtain ⟨c, r, hsplit⟩ := List.exists_cons_of_ne_nil haddress.ne_nil
    rw [hsplit, List.dropWhile_cons_of_neg (by simp [hblank c (by simp [hsplit])])]
  have hend : dropEndWhile isBlank url.toList = url.toList :=
    dropEndWhile_eq_self fun c hc => hblank c (List.mem_of_getLast? hc)
  have htrim : trim url = url := by
    rw [trim, trimChars, hstart, hend, String.ofList_toList]
  have hsolid : hasBlank url = false := by
    simpa [hasBlank] using hblank
  have hsome : url.isEmpty = false := by
    by_contra hempty
    rw [Bool.not_eq_false, String.isEmpty_iff] at hempty
    exact haddress.ne_nil (by simp [hempty])
  simp only [accepted, htrim, hsome, hsolid, Bool.false_eq_true, if_false]

variable {word : List Char}

theorem StandsIn.reverse (h : StandsIn word s) : StandsIn word.reverse s.reverse := by
  obtain ⟨before, after, rfl, hbefore, hafter⟩ := h
  refine ⟨after.reverse, before.reverse, by simp, ?_, ?_⟩
  · simpa using hafter
  · simpa using hbefore

theorem StandsIn.dropWhile (hne : word ≠ []) (hword : ∀ c ∈ word, isBlank c = false)
    (h : StandsIn word s) : StandsIn word (s.dropWhile isBlank) := by
  obtain ⟨before, after, rfl, hbefore, hafter⟩ := h
  refine ⟨before.dropWhile isBlank, after, ?_, ?_, hafter⟩
  · rw [List.append_assoc, List.append_assoc, List.dropWhile_append]
    split
    · next hnil =>
      obtain ⟨c, r, rfl⟩ := List.exists_cons_of_ne_nil hne
      have hc : isBlank c = false := hword c List.mem_cons_self
      rw [List.isEmpty_iff.mp hnil, List.cons_append, List.dropWhile_cons_of_neg (by simp [hc]),
        List.nil_append]
    · rfl
  · intro c hc
    have hsuffix : before.dropWhile isBlank <:+ before := List.dropWhile_suffix isBlank
    obtain ⟨front, hfront⟩ := hsuffix
    refine hbefore c ?_
    rw [← hfront, List.getLast?_append, Option.mem_def.mp hc]
    rfl

/-- Trimming takes no word away. -/
theorem StandsIn.trimChars (hne : word ≠ []) (hword : ∀ c ∈ word, isBlank c = false)
    (h : StandsIn word s) : StandsIn word (trimChars s) := by
  have hreverse : StandsIn word.reverse ((s.dropWhile isBlank).reverse.dropWhile isBlank) :=
    (h.dropWhile hne hword).reverse.dropWhile (by simpa using hne) (by simpa using hword)
  simpa [Text.trimChars, dropEndWhile] using hreverse.reverse

theorem StandsIn.append_left (h : StandsIn word s) : StandsIn word (t ++ ' ' :: s) := by
  obtain ⟨before, after, rfl, hbefore, hafter⟩ := h
  refine ⟨t ++ ' ' :: before, after, by simp, fun c hc => ?_, hafter⟩
  rw [List.getLast?_append_cons, List.getLast?_cons] at hc
  cases hlast : before.getLast? with
  | none =>
    rw [hlast] at hc
    obtain rfl := Option.some.inj hc
    decide
  | some d =>
    rw [hlast] at hc
    obtain rfl := Option.some.inj hc
    exact hbefore d hlast

theorem StandsIn.append_right (h : StandsIn word s) : StandsIn word (s ++ ' ' :: t) := by
  have hreverse : StandsIn word.reverse (t.reverse ++ ' ' :: s.reverse) := h.reverse.append_left
  simpa using hreverse.reverse

end LabelMail.Url
