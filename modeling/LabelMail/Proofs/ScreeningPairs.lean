import LabelMail.Screening

/-!
The screening of mail from two states. As long as every call is answered in both of them alike, the
screening ends alike, and it leaves states behind that are still related.
-/
namespace LabelMail.Screening

open Blacklist

variable {τ : Type} {ask : Oracle τ} {R : τ → τ → Prop} {s t : τ}

/-- Calls are answered alike in related states, which are related afterwards. -/
def Parallel (ask : Oracle τ) (R : τ → τ → Prop) : Prop :=
  ∀ c s t, R s t → (ask c s).1 = (ask c t).1 ∧ R (ask c s).2 (ask c t).2

/-- What two computations return is the same, and the states are related. -/
def Agree (R : τ → τ → Prop) (x y : α × τ) : Prop :=
  x.1 = y.1 ∧ R x.2 y.2

theorem scan_parallel (hask : Parallel ask R) (h : R s t) (budget elapsed : Nat)
    (withdrawn : Bool) (urls : List String) :
    (scan ask budget elapsed withdrawn urls s).ended =
        (scan ask budget elapsed withdrawn urls t).ended ∧
      (scan ask budget elapsed withdrawn urls s).withdrawn =
        (scan ask budget elapsed withdrawn urls t).withdrawn ∧
      R (scan ask budget elapsed withdrawn urls s).state
        (scan ask budget elapsed withdrawn urls t).state := by
  induction urls generalizing elapsed withdrawn s t with
  | nil => exact ⟨rfl, rfl, h⟩
  | cons url rest ih =>
    obtain ⟨hreply, hstate⟩ := hask ⟨.lookup, url⟩ s t h
    simp only [scan, hreply]
    split
    · exact ⟨rfl, rfl, hstate⟩
    · split
      · exact ⟨rfl, rfl, hstate⟩
      · split
        · exact ⟨rfl, rfl, hstate⟩
        · split
          · exact ⟨rfl, rfl, hstate⟩
          · exact ⟨rfl, rfl, hstate⟩
          · exact ih hstate _ _

theorem classify_parallel (hask : Parallel ask R) (h : R s t) (rules : Rules)
    (subject content : String) (withdrawn : Bool) :
    (classify ask rules subject content withdrawn s).tags =
        (classify ask rules subject content withdrawn t).tags ∧
      (classify ask rules subject content withdrawn s).withdrawn =
        (classify ask rules subject content withdrawn t).withdrawn ∧
      R (classify ask rules subject content withdrawn s).state
        (classify ask rules subject content withdrawn t).state := by
  unfold classify
  split
  · exact ⟨rfl, rfl, h⟩
  · obtain ⟨hended, hwithdrawn, hstate⟩ :=
      scan_parallel hask h rules.budget 0 false (Url.inText (subject ++ " " ++ content))
    exact ⟨congrArg (sentence rules) hended, hwithdrawn, hstate⟩

theorem listAll_parallel (hask : Parallel ask R) (h : R s t) (budget elapsed : Nat)
    (urls : List String) :
    Agree R (listAll ask budget elapsed urls s) (listAll ask budget elapsed urls t) := by
  induction urls generalizing elapsed s t with
  | nil => exact ⟨rfl, h⟩
  | cons url rest ih =>
    obtain ⟨hreply, hstate⟩ := hask ⟨.add, url⟩ s t h
    simp only [listAll, hreply]
    split
    · exact ⟨rfl, hstate⟩
    · next d _ =>
      split
      · exact ⟨rfl, hstate⟩
      · split
        · exact ⟨rfl, hstate⟩
        · obtain ⟨hended, hrest⟩ := ih hstate (elapsed + d)
          generalize listAll ask budget (elapsed + d) rest (ask ⟨.add, url⟩ s).2 = x at hended hrest
          generalize listAll ask budget (elapsed + d) rest (ask ⟨.add, url⟩ t).2 = y at hended hrest
          obtain ⟨ended, s'⟩ := x
          obtain ⟨ended', t'⟩ := y
          obtain rfl : ended = ended' := hended
          cases ended with
          | answered effects => exact ⟨rfl, hrest⟩
          | failed e => exact ⟨rfl, hrest⟩
          | outOfTime => exact ⟨rfl, hrest⟩
          | withdrawn => exact ⟨rfl, hrest⟩

theorem condemn_parallel (hask : Parallel ask R) (h : R s t) (rules : Rules) (m : Message) :
    Agree R (condemn ask rules m s) (condemn ask rules m t) := by
  obtain ⟨hended, hstate⟩ := listAll_parallel hask h rules.budget 0 (Url.inText m.text)
  unfold condemn
  generalize listAll ask rules.budget 0 (Url.inText m.text) s = x at hended hstate
  generalize listAll ask rules.budget 0 (Url.inText m.text) t = y at hended hstate
  obtain ⟨ended, s'⟩ := x
  obtain ⟨ended', t'⟩ := y
  obtain rfl : ended = ended' := hended
  cases ended with
  | answered effects => exact ⟨rfl, hstate⟩
  | failed e => exact ⟨rfl, hstate⟩
  | outOfTime => exact ⟨rfl, hstate⟩
  | withdrawn => exact ⟨rfl, hstate⟩

theorem unlist_parallel (hask : Parallel ask R) (h : R s t) (budget : Nat) (url : String) :
    Agree R (unlist ask budget url s) (unlist ask budget url t) := by
  obtain ⟨hreply, hstate⟩ := hask ⟨.remove, url⟩ s t h
  simp only [unlist, hreply]
  split
  · exact ⟨rfl, hstate⟩
  · split
    · exact ⟨rfl, hstate⟩
    · split <;> exact ⟨rfl, hstate⟩

theorem unlistAll_parallel (hask : Parallel ask R) (h : R s t) (budget : Nat)
    (urls : List String) : Agree R (unlistAll ask budget urls s) (unlistAll ask budget urls t) := by
  induction urls generalizing s t with
  | nil => exact ⟨rfl, h⟩
  | cons url rest ih =>
    obtain ⟨heffect, hstate⟩ := unlist_parallel hask h budget url
    obtain ⟨heffects, hrest⟩ := ih hstate
    exact ⟨List.cons_eq_cons.mpr ⟨heffect, heffects⟩, hrest⟩

theorem acquit_parallel (hask : Parallel ask R) (h : R s t) (rules : Rules) (m : Message) :
    Agree R (acquit ask rules m s) (acquit ask rules m t) := by
  obtain ⟨heffects, hstate⟩ := unlistAll_parallel hask h rules.budget (Url.inText m.text)
  exact ⟨congrArg (Toggled.mk m.tags.outOfSpam.1 false) heffects, hstate⟩

theorem flipSpam_parallel (hask : Parallel ask R) (h : R s t) (rules : Rules) (m : Message) :
    Agree R (flipSpam ask rules m s) (flipSpam ask rules m t) := by
  unfold flipSpam
  split
  · obtain ⟨htoggled, hstate⟩ := acquit_parallel hask h rules m
    exact ⟨congrArg Except.ok htoggled, hstate⟩
  · exact condemn_parallel hask h rules m

end LabelMail.Screening
