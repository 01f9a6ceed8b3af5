import LabelMail.Screening
import LabelMail.Proofs.TagText

/-!
What the screening of mail leaves behind. It reaches the blacklist by calls only, so that whatever
every call keeps is kept by it, however the calls are answered.
-/
namespace LabelMail.Screening

open Blacklist

variable {τ : Type} {ask : Oracle τ} {I : τ → Prop} {rules : Rules} {m : Message}

theorem sentence_eq_ok {ended : Ended Bool} {tags : TagSet} (h : sentence rules ended = .ok tags) :
    tags = .ofList [.inbox] ∨ tags = .ofList [.spam] := by
  have hfailure {e : Failure} (h : afterFailure rules.policy e = .ok tags) :
      tags = .ofList [.inbox] := by
    unfold afterFailure at h
    split at h
    · exact (Except.ok.inj h).symm
    · cases h
  cases ended with
  | answered b =>
    cases b with
    | true => exact .inr (Except.ok.inj h).symm
    | false => exact .inl (Except.ok.inj h).symm
  | failed e => exact .inl (hfailure h)
  | outOfTime => exact .inl (hfailure h)
  | withdrawn => cases h

/-- A new message goes to the inbox or to spam. -/
theorem classify_tags {subject content : String} {withdrawn : Bool} {s : τ} {tags : TagSet}
    (h : (classify ask rules subject content withdrawn s).tags = .ok tags) :
    tags = .ofList [.inbox] ∨ tags = .ofList [.spam] := by
  unfold classify at h
  split at h
  · cases h
  · exact sentence_eq_ok h

theorem condemn_tags {s : τ} {t : Toggled} (h : (condemn ask rules m s).1 = .ok t) :
    t.tags = m.tags.intoSpam.1 := by
  unfold condemn at h
  split at h
  · rw [← Except.ok.inj h]
  · cases h
  · cases h
  · cases h

theorem scan_keeps {budget elapsed : Nat} {withdrawn : Bool} {urls : List String} {s : τ}
    (hask : ∀ url s, I s → I (ask ⟨.lookup, url⟩ s).2) (hs : I s) :
    I (scan ask budget elapsed withdrawn urls s).state := by
  induction urls generalizing elapsed withdrawn s with
  | nil => exact hs
  | cons url rest ih =>
    have hs' : I (ask ⟨.lookup, url⟩ s).2 := hask url s hs
    simp only [scan]
    split
    · exact hs'
    · split
      · exact hs'
      · split
        · exact hs'
        · split
          · exact hs'
          · exact hs'
          · exact ih hs'

theorem classify_keeps {subject content : String} {withdrawn : Bool} {s : τ}
    (hask : ∀ url s, I s → I (ask ⟨.lookup, url⟩ s).2) (hs : I s) :
    I (classify ask rules subject content withdrawn s).state := by
  unfold classify
  split
  · exact hs
  · exact scan_keeps hask hs

theorem listAll_keeps {budget elapsed : Nat} {urls : List String} {s : τ}
    (hask : ∀ url s, I s → I (ask ⟨.add, url⟩ s).2) (hs : I s) :
    I (listAll ask budget elapsed urls s).2 := by
  induction urls generalizing elapsed s with
  | nil => exact hs
  | cons url rest ih =>
    have hs' : I (ask ⟨.add, url⟩ s).2 := hask url s hs
    simp only [listAll]
    split
    · exact hs'
    · next d _ =>
      split
      · exact hs'
      · split
        · exact hs'
        · have hrest : I (listAll ask budget (elapsed + d) rest (ask ⟨.add, url⟩ s).2).2 := ih hs'
          split
          · next hlisted => rwa [hlisted] at hrest
          · next hlisted => rwa [hlisted] at hrest

theorem condemn_keeps {s : τ} (hask : ∀ url s, I s → I (ask ⟨.add, url⟩ s).2) (hs : I s) :
    I (condemn ask rules m s).2 := by
  have hlisted : I (listAll ask rules.budget 0 (Url.inText m.text) s).2 := listAll_keeps hask hs
  unfold condemn
  split
  all_goals
    next h => rwa [h] at hlisted

theorem unlist_keeps {budget : Nat} {url : String} {s : τ}
    (hask : ∀ s, I s → I (ask ⟨.remove, url⟩ s).2) (hs : I s) :
    I (unlist ask budget url s).2 := by
  have hs' : I (ask ⟨.remove, url⟩ s).2 := hask s hs
  simp only [unlist]
  split
  · exact hs'
  · split
    · exact hs'
    · split <;> exact hs'

theorem unlistAll_keeps {budget : Nat} {urls : List String} {s : τ}
    (hask : ∀ url ∈ urls, ∀ s, I s → I (ask ⟨.remove, url⟩ s).2) (hs : I s) :
    I (unlistAll ask budget urls s).2 := by
  induction urls generalizing s with
  | nil => exact hs
  | cons url rest ih =>
    exact ih (fun u hu => hask u (List.mem_cons_of_mem url hu))
      (unlist_keeps (hask url List.mem_cons_self) hs)

theorem acquit_keeps {s : τ}
    (hask : ∀ url ∈ Url.inText m.text, ∀ s, I s → I (ask ⟨.remove, url⟩ s).2) (hs : I s) :
    I (acquit ask rules m s).2 :=
  unlistAll_keeps hask hs

/-- Only a message that is in spam has its addresses removed. -/
theorem flipSpam_keeps {s : τ} (hadd : ∀ url s, I s → I (ask ⟨.add, url⟩ s).2)
    (hremove : m.tags.isSpam → ∀ url ∈ Url.inText m.text, ∀ s, I s → I (ask ⟨.remove, url⟩ s).2)
    (hs : I s) : I (flipSpam ask rules m s).2 := by
  unfold flipSpam
  split
  · next hspam => exact acquit_keeps (hremove hspam) hs
  · exact condemn_keeps hadd hs

/-- Where all answers come at once, a listing that does not get to its end stops at a call that
failed and leaves behind what that call does. -/
theorem listAll_stopped {E : τ → Prop} {budget elapsed : Nat} {urls : List String} {s : τ}
    (honce : ∀ url s, I s → (ask ⟨.add, url⟩ s).1.delay = some 0)
    (hok : ∀ url ∈ urls, ∀ s b, I s → (ask ⟨.add, url⟩ s).1.answer = .ok b →
      I (ask ⟨.add, url⟩ s).2)
    (herror : ∀ url ∈ urls, ∀ s e, I s → (ask ⟨.add, url⟩ s).1.answer = .error e →
      E (ask ⟨.add, url⟩ s).2)
    (hs : I s) (htime : elapsed ≤ budget) :
    (∃ effects, (listAll ask budget elapsed urls s).1 = .answered effects) ∨
      E (listAll ask budget elapsed urls s).2 := by
  induction urls generalizing elapsed s with
  | nil => exact .inl ⟨[], rfl⟩
  | cons url rest ih =>
    have hlate : elapsed + 0 ≤ budget := htime
    simp only [listAll, honce url s hs, Nat.not_lt.mpr hlate, if_false]
    cases hanswer : (ask ⟨.add, url⟩ s).1.answer with
    | error e => exact .inr (herror url List.mem_cons_self s e hs hanswer)
    | ok b =>
      have hrest := ih (fun u hu => hok u (List.mem_cons_of_mem url hu))
        (fun u hu => herror u (List.mem_cons_of_mem url hu))
        (hok url List.mem_cons_self s b hs hanswer) hlate
      dsimp only
      split
      · exact .inl ⟨_, rfl⟩
      · next other t hother hlisted =>
        rw [hlisted] at hrest
        obtain ⟨effects, rfl⟩ | hend := hrest
        · exact (hother effects rfl).elim
        · exact .inr hend

theorem condemn_stopped {E : τ → Prop} {s : τ} {e : Failure}
    (honce : ∀ url s, I s → (ask ⟨.add, url⟩ s).1.delay = some 0)
    (hok : ∀ url ∈ Url.inText m.text, ∀ s b, I s → (ask ⟨.add, url⟩ s).1.answer = .ok b →
      I (ask ⟨.add, url⟩ s).2)
    (herror : ∀ url ∈ Url.inText m.text, ∀ s e, I s → (ask ⟨.add, url⟩ s).1.answer = .error e →
      E (ask ⟨.add, url⟩ s).2)
    (hs : I s) (h : (condemn ask rules m s).1 = .error e) : E (condemn ask rules m s).2 := by
  have hlisted := listAll_stopped honce hok herror hs (Nat.zero_le rules.budget)
  unfold condemn at h ⊢
  split at h
  · cases h
  all_goals
    next hended =>
      rw [hended] at hlisted
      obtain ⟨effects, heffects⟩ | hend := hlisted
      · cases heffects
      · exact hend

end LabelMail.Screening
