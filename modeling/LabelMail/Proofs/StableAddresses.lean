import LabelMail.Blacklist.Remote
import LabelMail.Primary.Blacklist
import LabelMail.Proofs.CandidateForms
import LabelMail.Proofs.Ends

/-!
Addresses that stay what they are. An address that was found is a candidate as it stands, so that a
text of addresses with a blank between any two has these for its candidates and no others. The
blacklist takes each of them as it is.
-/
namespace LabelMail

namespace Database

variable {ρ ω α : Type} {db : Database ρ ω}

/-- The failures of a statement are those of the database and the one given for repeated keys. -/
theorem statement_failure {onDuplicate : Failure} {writes : ρ → List ω}
    {f : ρ → Except Refusal (α × ρ)} :
    Ends (statement onDuplicate writes f db) (fun _ _ => True)
      (fun e _ => e = .database "" ∨ e = onDuplicate) := by
  have hfailure (refusal : Refusal) :
      failureOf onDuplicate refusal = .database "" ∨
        failureOf onDuplicate refusal = onDuplicate := by
    cases refusal with
    | broken => exact .inl rfl
    | duplicate => exact .inr rfl
  unfold statement
  dsimp only
  split
  · next refusal _ => exact .of_error (hfailure refusal)
  · split
    · exact .of_ok trivial
    · next refusal _ => exact .of_error (hfailure refusal)

end Database

namespace Primary

theorem onListings_failure {α : Type} (writes : List ListingRow → List Write)
    (f : List ListingRow → α × List ListingRow) (db : Store) :
    Ends (onListings writes f db) (fun _ _ => True) (fun e _ => e = .database "") :=
  Database.statement_failure.mono (fun _ _ _ => trivial) fun _ _ h => h.elim id id

/-- The table refuses no address that is in order, whatever else may happen. -/
theorem ask_of_accepted {url : String} (h : Url.accepted url = .ok url) (now : Int)
    (verb : Blacklist.Verb) (db : Store) :
    Ends (ask now ⟨verb, url⟩ db) (fun _ _ => True) (fun e _ => ∀ why, e ≠ .invalid why) := by
  have hask : ask now ⟨verb, url⟩ = askTable now ⟨verb, url⟩ := by
    simp only [ask, h]
  have htable : Ends (askTable now ⟨verb, url⟩ db) (fun _ _ => True)
      (fun e _ => e = .database "") := by
    unfold askTable
    cases verb with
    | lookup => exact onListings_failure _ _ db
    | add => exact onListings_failure _ _ db
    | remove => exact onListings_failure _ _ db
  rw [hask]
  refine htable.mono (fun _ _ _ => trivial) ?_
  rintro e _ rfl why
  exact Failure.noConfusion

end Primary

namespace Blacklist.Remote

theorem verdict_not_invalid (c : Call) (a : Wire.Answer) (why : String) :
    verdict c a ≠ .error (.invalid why) := by
  unfold verdict unexpected
  split <;> simp

/-- The client refuses no address that is in order, whatever the service replies. -/
theorem ask_of_accepted {url : String} (h : Url.accepted url = .ok url) (verb : Verb) (r : Remote)
    (why : String) : (ask ⟨verb, url⟩ r).1.answer ≠ .error (.invalid why) := by
  have hask : ask ⟨verb, url⟩ r = r.exchange ⟨verb, url⟩ := by
    simp only [ask, h]
  rw [hask]
  unfold exchange outcome
  dsimp only
  split
  · simp [Reply.atOnce]
  · simp [Reply.atOnce]
  · split
    · split
      · exact verdict_not_invalid _ _ why
      · simp [Reply.atOnce]
    · simp

end Blacklist.Remote

namespace Url

open Text

variable {address found s t : List Char} {c : Char}

/-! ### The candidates of a text made of addresses -/

theorem candidates_of_length {afterWord : Bool} : candidates t.length afterWord t = [] := by
  induction t generalizing afterWord with
  | nil => rfl
  | cons c t ih => exact ih

/-- Behind what it skips, a search that meets a blank starts afresh. -/
theorem candidates_append_blank {afterWord : Bool} (hc : isBlank c) :
    candidates t.length afterWord (t ++ c :: s) = candidates 0 false s := by
  induction t generalizing afterWord with
  | nil => simp [candidates, candidate_of_isBlank hc, isWordChar_of_isBlank hc]
  | cons d t ih => exact ih

theorem IsAddress.candidates (h : IsAddress address) : candidates 0 false address = [address] := by
  have hnil : candidate (address ++ []) = some address := h.candidate_append (by simp)
  have hwhole : candidate address = some address := by simpa using hnil
  obtain ⟨c, r, rfl⟩ := List.exists_cons_of_ne_nil h.ne_nil
  rw [Url.candidates]
  simp [hwhole, candidates_of_length]

theorem IsAddress.candidates_append_blank (h : IsAddress address) (hc : isBlank c) :
    Url.candidates 0 false (address ++ c :: s) = address :: Url.candidates 0 false s := by
  have hstart : candidate (address ++ c :: s) = some address :=
    h.candidate_append fun d hd => by
      obtain rfl := Option.some.inj hd
      exact hc
  obtain ⟨d, r, rfl⟩ := List.exists_cons_of_ne_nil h.ne_nil
  rw [List.cons_append] at hstart ⊢
  rw [Url.candidates]
  simp [hstart, Url.candidates_append_blank hc]

/-- Addresses with a blank between any two are the candidates of the text that they make. -/
theorem candidates_intercalate {l : List (List Char)} (h : ∀ address ∈ l, IsAddress address) :
    candidates 0 false ([' '].intercalate l) = l := by
  induction l with
  | nil => rfl
  | cons address l ih =>
    obtain ⟨haddress, hl⟩ := List.forall_mem_cons.mp h
    cases l with
    | nil => simpa using haddress.candidates
    | cons next l =>
      have hblank : isBlank ' ' := by decide
      rw [List.intercalate_cons_cons, List.append_assoc, List.singleton_append,
        haddress.candidates_append_blank hblank, ih hl]

/-- Addresses found in a text are found again, in their order, where they alone stand. -/
theorem inText_intercalate (text : String) :
    inText (" ".intercalate (inText text)) = inText text := by
  have haddress : ∀ address ∈ (inText text).map String.toList, IsAddress address := by
    rw [List.forall_mem_map]
    exact fun url hurl => isAddress_of_mem_inText hurl
  have hkept : ((inText text).map String.toList).filterMap ofCandidate =
      (inText text).map String.toList := by
    rw [List.filterMap_congr fun address h => (haddress address h).kept]
    exact List.filterMap_some
  have hjoined : (" ".intercalate (inText text)).toList =
      [' '].intercalate ((inText text).map String.toList) := String.toList_intercalate
  calc inText (" ".intercalate (inText text))
      = distinct ((((inText text).map String.toList).filterMap ofCandidate).map String.ofList) := by
        rw [inText, hjoined, candidates_intercalate haddress]
    _ = distinct (inText text) := by
        rw [hkept, List.map_map]
        simp
    _ = inText text := distinct_of_nodup (nodup_distinct _)

theorem not_isTrailing_of_ofCandidate (hcandidate : candidate s = some found)
    (h : ofCandidate found = some address) : ∃ c ∈ address.getLast?, isTrailing c = false := by
  have hne : dropEndWhile isTrailing found ≠ [] := dropEndWhile_ne_nil hcandidate
  have hlast : (dropEndWhile isTrailing found).getLast hne ∈
      (dropEndWhile isTrailing found).getLast? := List.getLast?_eq_getLast_of_ne_nil hne
  refine ⟨_, ?_, not_of_mem_getLast?_dropEndWhile hlast⟩
  rw [ofCandidate_eq hne] at h
  split at h
  · obtain rfl := Option.some.inj h
    rw [List.getLast?_append, Option.mem_def.mp hlast]
    rfl
  · split at h
    · cases h
    · obtain rfl := Option.some.inj h
      exact hlast

/-- Extraction gives each address once and without punctuation at its end, the blacklist takes each
of them as it is and refuses none, and the text that they make has the same addresses in the same
order. -/
theorem extraction_stable (text : String) :
    (inText text).Nodup ∧
      (∀ url ∈ inText text, accepted url = .ok url ∧
        (∃ c ∈ url.toList.getLast?, isTrailing c = false) ∧
        ∀ verb : Blacklist.Verb,
          (∀ now db, Ends (Primary.ask now ⟨verb, url⟩ db) (fun _ _ => True)
            (fun e _ => ∀ why, e ≠ .invalid why)) ∧
          ∀ (r : Blacklist.Remote) why,
            (Blacklist.Remote.ask ⟨verb, url⟩ r).1.answer ≠ .error (.invalid why)) ∧
      inText (" ".intercalate (inText text)) = inText text := by
  refine ⟨nodup_distinct _, fun url hurl => ?_, inText_intercalate text⟩
  have haccepted : accepted url = .ok url := accepted_of_mem_inText hurl
  obtain ⟨found, hfound, haddress⟩ := mem_inText.mp hurl
  obtain ⟨s, hs⟩ := exists_candidate hfound
  refine ⟨haccepted, not_isTrailing_of_ofCandidate hs haddress, fun verb => ⟨?_, ?_⟩⟩
  · exact fun now db => Primary.ask_of_accepted haccepted now verb db
  · exact fun r why => Blacklist.Remote.ask_of_accepted haccepted verb r why

theorem extraction_stable_sample :
    "http://www.b.test" ∈ inText "see https://a.test, www.b.test and HTTP://c.test." ∧
      accepted "http://www.b.test" = .ok "http://www.b.test" ∧
      inText (" ".intercalate (inText "see https://a.test, www.b.test and HTTP://c.test.")) =
        ["https://a.test", "http://www.b.test", "HTTP://c.test"] := by
  have hurls : inText "see https://a.test, www.b.test and HTTP://c.test." =
      ["https://a.test", "http://www.b.test", "HTTP://c.test"] := by decide +kernel
  have hmem : "http://www.b.test" ∈ inText "see https://a.test, www.b.test and HTTP://c.test." := by
    simp [hurls]
  have hstable := extraction_stable "see https://a.test, www.b.test and HTTP://c.test."
  exact ⟨hmem, (hstable.2.1 _ hmem).1, hstable.2.2.trans hurls⟩

end Url

end LabelMail
