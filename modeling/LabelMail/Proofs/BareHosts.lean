import LabelMail.Proofs.CandidateForms
import Mathlib.Data.List.Infix

/-!
Bare hosts. The scheme is added by looking for a colon with two slashes anywhere in what is left of
a candidate, and not by the form of the candidate: a bare host with another address in its path or
query stays without a scheme, and one that ends at its first slashes is no address. And a host is
found missing only after the punctuation at the end is dropped, and with it the dot behind the three
letters: the letters alone pass for a host.
-/
namespace LabelMail.Url

open Text

variable {lead found hostname before after rest s : List Char} {c : Char}

/-! ### The address of a bare host -/

theorem ofCandidate_of_isWww (hlead : IsWww lead) (hne : hostname ≠ [])
    (hkept : dropEndWhile isTrailing found = lead ++ hostname) (h : ¬ slashes <:+: hostname) :
    ofCandidate found = some (defaultScheme ++ (lead ++ hostname)) := by
  have hne : dropEndWhile isTrailing found ≠ [] := by
    rw [hkept]
    exact List.append_ne_nil_of_right_ne_nil _ hne
  rw [ofCandidate_eq hne, hkept, afterSlashes_append hlead.colon_not_mem,
    afterSlashes_eq_none_iff.mpr h]

theorem ofCandidate_of_isWww_slashes (hlead : IsWww lead)
    (hkept : dropEndWhile isTrailing found = lead ++ (before ++ slashes ++ after))
    (h : ¬ slashes <:+: before) :
    ofCandidate found = if after = [] then none else some (dropEndWhile isTrailing found) := by
  have hne : dropEndWhile isTrailing found ≠ [] := by
    rw [hkept]
    simp [slashes]
  rw [ofCandidate_eq hne, hkept, afterSlashes_append hlead.colon_not_mem,
    afterSlashes_eq_some_iff.mpr ⟨before, rfl, h⟩]

/-- An address begins with a scheme, or it is what is left of a bare host with slashes in it. -/
theorem qualified_or_bare_of_ofCandidate {address : List Char}
    (hcandidate : candidate s = some found) (h : ofCandidate found = some address) :
    Qualified address ∨
      (Bare found ∧ slashes <:+: address ∧ address = dropEndWhile isTrailing found) := by
  rcases qualified_or_bare hcandidate with ⟨lead, c, rest, hlead, rfl⟩ | hbare
  · rw [ofCandidate_of_isScheme hlead] at h
    split at h
    · cases h
    · next hne =>
      obtain ⟨d, r, hrest⟩ := List.exists_cons_of_ne_nil hne
      exact .inl ⟨lead, d, r, hlead, by rw [← Option.some.inj h, hrest]⟩
  · have hne : dropEndWhile isTrailing found ≠ [] := dropEndWhile_ne_nil hcandidate
    rw [ofCandidate_eq hne] at h
    split at h
    · obtain ⟨d, r, hkept⟩ := List.exists_cons_of_ne_nil hne
      refine .inl ⟨defaultScheme, d, r, isScheme_defaultScheme, ?_⟩
      rw [← Option.some.inj h, hkept]
    · next rest hslashes =>
      split at h
      · cases h
      · obtain ⟨before, hsplit, -⟩ := afterSlashes_eq_some_iff.mp hslashes
        obtain rfl := Option.some.inj h
        exact .inr ⟨hbare, ⟨before, rest, hsplit.symm⟩, rfl⟩

/-- What a bare host contributes. Without a colon and two slashes behind its first dot it gets the
scheme; with them it stays without one if something is left behind the first of them, and is
dropped if nothing is. Every address in the text begins with a scheme but these. -/
theorem bare_hosts (text : String) :
    (∀ found ∈ candidates 0 false text.toList, Bare found → ∀ lead hostname, IsWww lead →
      hostname ≠ [] → dropEndWhile isTrailing found = lead ++ hostname →
        (¬ slashes <:+: hostname →
          ofCandidate found = some (defaultScheme ++ (lead ++ hostname))) ∧
        ∀ before after, hostname = before ++ slashes ++ after → ¬ slashes <:+: before →
          ofCandidate found = if after = [] then none else some (lead ++ hostname)) ∧
    ∀ url ∈ inText text,
      ¬ HasScheme url.toList ↔
        ∃ found ∈ candidates 0 false text.toList, Bare found ∧ slashes <:+: url.toList ∧
          url.toList = dropEndWhile isTrailing found := by
  constructor
  · intro found hfound hbare lead hostname hlead hne hkept
    refine ⟨ofCandidate_of_isWww hlead hne hkept, ?_⟩
    rintro before after rfl hbefore
    rw [ofCandidate_of_isWww_slashes hlead hkept hbefore, hkept]
  · intro url hurl
    constructor
    · intro hscheme
      obtain ⟨found, hfound, haddress⟩ := mem_inText.mp hurl
      obtain ⟨s, hs⟩ := exists_candidate hfound
      rcases qualified_or_bare_of_ofCandidate hs haddress with
        ⟨lead, c, rest, hlead, hsplit⟩ | hbare
      · exact absurd ⟨lead, c :: rest, hlead, hsplit⟩ hscheme
      · exact ⟨found, hfound, hbare⟩
    · rintro ⟨found, hfound, hbare, -, hkept⟩ ⟨lead, rest, hlead, hsplit⟩
      obtain ⟨dropped, hdropped⟩ : dropEndWhile isTrailing found <+: found := dropEndWhile_prefix
      -- behind the scheme there is something, since the address itself contributes
      have hrest : rest ≠ [] := by
        rintro rfl
        have hself : ofCandidate url.toList = some url.toList := (isAddress_of_mem_inText hurl).kept
        rw [hsplit, ofCandidate_of_isScheme hlead] at hself
        simp [dropEndWhile] at hself
      obtain ⟨c, r, rfl⟩ := List.exists_cons_of_ne_nil hrest
      refine hbare.unqualified ⟨lead, c, r ++ dropped, hlead, ?_⟩
      rw [← hdropped, ← hkept, hsplit]
      simp

theorem bare_hosts_sample :
    Bare "www.a.test/x,".toList ∧
      ofCandidate "www.a.test/x,".toList = some "http://www.a.test/x".toList ∧
      Bare "WWW.b.test/?u=http://c.test".toList ∧
      ofCandidate "WWW.b.test/?u=http://c.test".toList =
        some "WWW.b.test/?u=http://c.test".toList := by
  have hplain : Bare "www.a.test/x,".toList :=
    (bare_iff (List.all_eq_true.mp (by decide))).mpr (by decide)
  have hnested : Bare "WWW.b.test/?u=http://c.test".toList :=
    (bare_iff (List.all_eq_true.mp (by decide))).mpr (by decide)
  refine ⟨hplain, ?_, hnested, ?_⟩
  · have hall := (bare_hosts "www.a.test/x,").1
    exact (hall "www.a.test/x,".toList (mem_candidates_of_candidate (by decide)) hplain
      "www.".toList "a.test/x".toList (by decide) (by decide) (by decide)).1 (by decide)
  · have hall := (bare_hosts "WWW.b.test/?u=http://c.test").1
    exact (hall "WWW.b.test/?u=http://c.test".toList (mem_candidates_of_candidate (by decide))
      hnested "WWW.".toList "b.test/?u=http://c.test".toList (by decide) (by decide) (by decide)).2
      "b.test/?u=http".toList "c.test".toList (by decide) (by decide)

/-- A bare host that stays without a scheme, since another address stands in its query. -/
theorem bare_host_unqualified :
    "www.a.test/?u=http://b.test".toList ∈ candidates 0 false "www.a.test/?u=http://b.test".toList ∧
      Bare "www.a.test/?u=http://b.test".toList ∧
      inText "www.a.test/?u=http://b.test" = ["www.a.test/?u=http://b.test"] ∧
      ¬ HasScheme "www.a.test/?u=http://b.test".toList := by
  have hbare : Bare "www.a.test/?u=http://b.test".toList :=
    (bare_iff (List.all_eq_true.mp (by decide))).mpr (by decide)
  exact ⟨by decide, hbare, by decide, fun h => absurd h.slashes (by decide)⟩

/-! ### Candidates without a host -/

theorem ofCandidate_of_isScheme_isTrailing (hlead : IsScheme lead) (h : ∀ c ∈ rest, isTrailing c) :
    ofCandidate (lead ++ rest) = none := by
  rw [ofCandidate_of_isScheme hlead, if_pos (dropEndWhile_eq_nil_iff.mpr h)]

/-- Of the three letters with their dot and punctuation behind it the letters are left. -/
theorem dropEndWhile_of_isWww_isTrailing {www : List Char} (hwww : IsWww www)
    (h : ∀ c ∈ rest, isTrailing c) : dropEndWhile isTrailing (www ++ rest) = www.take 3 := by
  have hall : ∀ c ∈ '.' :: rest, isTrailing c := List.forall_mem_cons.mpr ⟨by decide, h⟩
  rw [dropEndWhile_of_isWww hwww, dropEndWhile_eq_nil_iff.mpr hall, List.append_nil]

/-- Which candidates are dropped. -/
theorem ofCandidate_eq_none_iff (hcandidate : candidate s = some found) :
    ofCandidate found = none ↔
      (∃ lead rest, IsScheme lead ∧ (∀ c ∈ rest, isTrailing c) ∧ found = lead ++ rest) ∨
        Bare found ∧ ∃ before, dropEndWhile isTrailing found = before ++ slashes ∧
          ¬ slashes <:+: before := by
  constructor
  · intro h
    rcases qualified_or_bare hcandidate with ⟨lead, c, rest, hlead, rfl⟩ | hbare
    · refine .inl ⟨lead, c :: rest, hlead, dropEndWhile_eq_nil_iff.mp ?_, rfl⟩
      by_contra hne
      rw [ofCandidate_of_isScheme hlead, if_neg hne] at h
      cases h
    · refine .inr ⟨hbare, ?_⟩
      rw [ofCandidate_eq (dropEndWhile_ne_nil hcandidate)] at h
      split at h
      · cases h
      · next rest hslashes =>
        split at h
        · next hnil =>
          obtain ⟨before, hsplit, hbefore⟩ := afterSlashes_eq_some_iff.mp hslashes
          exact ⟨before, by rw [hsplit, hnil, List.append_nil], hbefore⟩
        · cases h
  · rintro (⟨lead, rest, hlead, hrest, rfl⟩ | ⟨-, before, hkept, hbefore⟩)
    · exact ofCandidate_of_isScheme_isTrailing hlead hrest
    · have hslashes : afterSlashes (dropEndWhile isTrailing found) = some [] :=
        afterSlashes_eq_some_iff.mpr ⟨before, by rw [hkept, List.append_nil], hbefore⟩
      rw [ofCandidate_eq (dropEndWhile_ne_nil hcandidate), hslashes]
      rfl

/-- What candidates without a host contribute. A scheme with punctuation alone contributes nothing;
the three letters with punctuation alone, behind a scheme or without one, contribute the letters as
a host. Nothing else is dropped but bare hosts that end at their first slashes. -/
theorem empty_hosts (text : String) (found : List Char)
    (hfound : found ∈ candidates 0 false text.toList) :
    (∃ c ∈ found, isTrailing c = false) ∧
      (∀ lead rest, IsScheme lead → (∀ c ∈ rest, isTrailing c) → found = lead ++ rest →
        ofCandidate found = none) ∧
      (∀ lead www rest, IsScheme lead → IsWww www → (∀ c ∈ rest, isTrailing c) →
        found = lead ++ (www ++ rest) → ofCandidate found = some (lead ++ www.take 3)) ∧
      (∀ www rest, IsWww www → (∀ c ∈ rest, isTrailing c) → found = www ++ rest →
        ofCandidate found = some (defaultScheme ++ www.take 3)) ∧
      (ofCandidate found = none ↔
        (∃ lead rest, IsScheme lead ∧ (∀ c ∈ rest, isTrailing c) ∧ found = lead ++ rest) ∨
          Bare found ∧ ∃ before, dropEndWhile isTrailing found = before ++ slashes ∧
            ¬ slashes <:+: before) := by
  obtain ⟨s, hs⟩ := exists_candidate hfound
  refine ⟨?_, ?_, ?_, ?_, ofCandidate_eq_none_iff hs⟩
  · simpa using mt dropEndWhile_eq_nil_iff.mpr (dropEndWhile_ne_nil hs)
  · rintro lead rest hlead hrest rfl
    exact ofCandidate_of_isScheme_isTrailing hlead hrest
  · rintro lead www rest hlead hwww hrest rfl
    rw [ofCandidate_of_isScheme hlead, dropEndWhile_of_isWww_isTrailing hwww hrest,
      if_neg hwww.take_ne_nil]
  · rintro www rest hwww hrest rfl
    have hkept := dropEndWhile_of_isWww_isTrailing hwww hrest
    have hcolon : ':' ∉ www.take 3 := fun hmem => hwww.colon_not_mem (List.mem_of_mem_take hmem)
    have hslashes : afterSlashes (www.take 3) = none := by
      rw [← List.append_nil (www.take 3), afterSlashes_append hcolon]
      rfl
    rw [ofCandidate_eq (dropEndWhile_ne_nil hs), hkept, hslashes]

theorem empty_hosts_sample :
    ofCandidate "http://...".toList = none ∧
      ofCandidate "http://Www.)".toList = some "http://Www".toList ∧
      ofCandidate "www.!".toList = some "http://www".toList := by
  have hall := empty_hosts "http://... (or http://Www.) or www.!"
  have hdots : ∀ c ∈ "...".toList, isTrailing c := List.all_eq_true.mp (by decide)
  have hbracket : ∀ c ∈ ")".toList, isTrailing c := List.all_eq_true.mp (by decide)
  have hmark : ∀ c ∈ "!".toList, isTrailing c := List.all_eq_true.mp (by decide)
  refine ⟨?_, ?_, ?_⟩
  · exact (hall "http://...".toList (by decide)).2.1 defaultScheme "...".toList
      isScheme_defaultScheme hdots (by decide)
  · exact (hall "http://Www.)".toList (by decide)).2.2.1 defaultScheme "Www.".toList
      ")".toList isScheme_defaultScheme (by decide) hbracket (by decide)
  · exact (hall "www.!".toList (by decide)).2.2.2.1 "www.".toList "!".toList (by decide)
      hmark (by decide)

/-- The three letters with two dots: the letters pass for a host. -/
theorem letters_as_host :
    "www..".toList ∈ candidates 0 false "www..".toList ∧ IsWww "www.".toList ∧
      (∀ c ∈ ".".toList, isTrailing c) ∧ "www..".toList = "www.".toList ++ ".".toList ∧
      inText "www.." = ["http://www"] := by
  exact ⟨by decide, by decide, List.all_eq_true.mp (by decide), by decide,
    by decide⟩

end LabelMail.Url
