import LabelMail.Proofs.AddressCalls
import LabelMail.Proofs.TagRules
import Mathlib.Logic.Relation

/-!
Marking a message as spam and taking it out again, against a blacklist whose calls may fail or hang
at any time. A marking either lists all addresses of the message or breaks off at the first call
that does not go through, with the addresses listed that came before it. It may be tried again until
it gets to its end, and then it ends like one that got there at once. To take a message out of spam
always succeeds, and what is said of each address is what became of it.
-/
namespace LabelMail.Screening

open Blacklist Relation

variable {τ : Type} {ask : Oracle τ} {listed : τ → List String} {rules : Rules} {m : Message}
variable {s s' : τ}

/-- The calls that are made when the message is marked as spam. -/
def markings (ask : Oracle τ) (rules : Rules) (m : Message) (s : τ) : List (Asked τ) :=
  listings ask rules.budget (Url.inText m.text) s

/-- The calls that are made when it is taken out of spam. -/
def unmarkings (ask : Oracle τ) (rules : Rules) (m : Message) (s : τ) : List (Asked τ) :=
  removals ask rules.budget (Url.inText m.text) s

/-- The message is marked: all its addresses are listed, and only the tag for spam is left of the
folder-like ones. -/
structure Marked (ask : Oracle τ) (listed : τ → List String) (rules : Rules) (m : Message)
    (s s' : τ) (t : Toggled) : Prop extends
    AllListed ask listed (Url.inText m.text) (markings ask rules m s) s s' t.effects where
  tags : ∀ u, u ∈ t.tags ↔ (u ∈ m.tags ∧ u.isFolderLike = false) ∨ u = .spam
  spam : t.spam = true

/-- The message is out of spam, and its addresses are gone as far as that was possible. -/
structure Unmarked (ask : Oracle τ) (listed : τ → List String) (rules : Rules) (m : Message)
    (s s' : τ) (t : Toggled) : Prop extends
    AllRemoved ask listed (Url.inText m.text) (unmarkings ask rules m s) s s' t.effects where
  addresses : t.effects.map Effect.address = Url.inText m.text
  tags : ∀ u, u ∈ t.tags ↔ u ∈ m.tags ∧ u ≠ .spam
  spam : t.spam = false

/-- The marking came to nothing, after which the blacklist has the addresses that it had when the
marking broke off; whatever else may have changed. -/
structure Vain (ask : Oracle τ) (listed : τ → List String) (rules : Rules) (m : Message)
    (s s' : τ) : Prop where
  heeded : ∀ a ∈ markings ask rules m s, a.Heeded ask listed
  failed : ∃ e, (condemn ask rules m s).1 = .error e
  same : ∀ u, u ∈ listed s' ↔ u ∈ listed (condemn ask rules m s).2

/-- The marking got to its end. -/
structure Succeeds (ask : Oracle τ) (listed : τ → List String) (rules : Rules) (m : Message)
    (s s' : τ) (t : Toggled) : Prop where
  heeded : ∀ a ∈ markings ask rules m s, a.Heeded ask listed
  ends : condemn ask rules m s = (.ok t, s')

theorem condemn_eq (ask : Oracle τ) (rules : Rules) (m : Message) (s : τ) :
    let r := listAll ask rules.budget 0 (Url.inText m.text) s
    condemn ask rules m s =
      ((r.1.settle (lateListing rules.budget)).map (⟨m.tags.intoSpam.1, true, ·⟩), r.2) := by
  intro r
  unfold condemn
  rcases hr : listAll ask rules.budget 0 (Url.inText m.text) s with ⟨ended, s'⟩
  simp only [r, hr]
  cases ended <;> rfl

/-- A marking gets to its end or breaks off. -/
theorem condemn_course (hheeded : ∀ a ∈ markings ask rules m s, a.Heeded ask listed) :
    let r := condemn ask rules m s
    (∃ t, r.1 = .ok t ∧ Marked ask listed rules m s r.2 t) ∨
    ∃ e k, r.1 = .error e ∧ BrokenOff ask listed (lateListing rules.budget) (Url.inText m.text)
      (markings ask rules m s) s r.2 e k := by
  intro r
  have hnodup : (Url.inText m.text).Nodup := nodup_distinct _
  have hcourse := listAll_course (lateListing rules.budget) hnodup (Nat.zero_le _) hheeded
  rw [show r = _ from condemn_eq ask rules m s]
  rcases hcourse with ⟨effects, heffects, h⟩ | ⟨e, k, he, h⟩
  · rw [heffects]
    refine .inl ⟨_, rfl, h, fun u => ?_, rfl⟩
    rw [TagSet.mem_intoSpam, or_comm]
  · rw [he]
    exact .inr ⟨e, k, rfl, h⟩

/-- A marking gets to its end just when all its calls go through. -/
theorem condemn_ok_iff (hheeded : ∀ a ∈ markings ask rules m s, a.Heeded ask listed) :
    (∃ t, (condemn ask rules m s).1 = .ok t) ↔ ∀ a ∈ markings ask rules m s, a.Through ask := by
  rcases condemn_course hheeded with ⟨t, ht, hmarked⟩ | ⟨e, k, he, hbroken⟩
  · exact ⟨fun _ => hmarked.through, fun _ => ⟨t, ht⟩⟩
  · constructor
    · rintro ⟨t, ht⟩
      cases he.symm.trans ht
    · intro hall
      obtain ⟨a, ha, hnot, -⟩ := hbroken.last
      exact absurd (hall a (List.mem_of_getElem? ha)) hnot

theorem acquit_course (hheeded : ∀ a ∈ unmarkings ask rules m s, a.Heeded ask listed) :
    Unmarked ask listed rules m s (acquit ask rules m s).2 (acquit ask rules m s).1 := by
  have hnodup : (Url.inText m.text).Nodup := nodup_distinct _
  have hcourse := unlistAll_course hnodup hheeded
  have htags : ∀ u, u ∈ m.tags.outOfSpam.1 ↔ u ∈ m.tags ∧ u ≠ .spam := fun _ => TagSet.mem_erase
  exact ⟨hcourse, hcourse.addresses, htags, rfl⟩

theorem Succeeds.marked {t : Toggled} (h : Succeeds ask listed rules m s s' t) :
    Marked ask listed rules m s s' t := by
  have hends := h.ends
  rcases condemn_course h.heeded with ⟨t', ht', hmarked⟩ | ⟨e, k, he, -⟩
  · rw [hends] at ht' hmarked
    obtain rfl := Except.ok.inj ht'
    exact hmarked
  · rw [hends] at he
    cases he

/-- An attempt lists no address that is not in the message. -/
theorem Vain.grown (h : Vain ask listed rules m s s') (u : String) :
    u ∈ listed s' ∨ u ∈ Url.inText m.text ↔ u ∈ listed s ∨ u ∈ Url.inText m.text := by
  obtain ⟨e, he⟩ := h.failed
  rcases condemn_course h.heeded with ⟨t, ht, -⟩ | ⟨e', k, -, hbroken⟩
  · rw [he] at ht
    cases ht
  · rw [h.same, hbroken.grown, or_assoc, or_iff_right_of_imp List.mem_of_mem_take]

/-- After any number of attempts, by induction on them. -/
theorem grown_of_vain (h : ReflTransGen (Vain ask listed rules m) s s') (u : String) :
    u ∈ listed s' ∨ u ∈ Url.inText m.text ↔ u ∈ listed s ∨ u ∈ Url.inText m.text := by
  induction h with
  | refl => rfl
  | tail _ hlast ih => rw [hlast.grown, ih]

/-- A marking that succeeds in the end has done what one does that succeeds at once. -/
theorem Succeeds.alike {first last fresh after : τ} {t t' : Toggled}
    (hvain : ReflTransGen (Vain ask listed rules m) first s)
    (hretried : Succeeds ask listed rules m s last t)
    (hsame : ∀ u, u ∈ listed fresh ↔ u ∈ listed first)
    (honce : Succeeds ask listed rules m fresh after t') :
    t.tags = t'.tags ∧ t.spam = t'.spam ∧ ∀ u, u ∈ listed last ↔ u ∈ listed after := by
  have hretried' := hretried.marked
  have honce' := honce.marked
  refine ⟨TagSet.ext fun u => ?_, hretried'.spam.trans honce'.spam.symm, fun u => ?_⟩
  · rw [hretried'.tags, honce'.tags]
  · rw [hretried'.grown, grown_of_vain hvain, honce'.grown, hsame]

theorem condemn_recording (ask : Oracle τ) (rules : Rules) (m : Message) (s : τ) :
    (condemn (recording ask) rules m (s, [])).2 =
      ((condemn ask rules m s).2, written ask (markings ask rules m s)) := by
  rw [condemn_eq, condemn_eq, listAll_recording (Nat.zero_le _)]
  rfl

theorem acquit_recording (ask : Oracle τ) (rules : Rules) (m : Message) (s : τ) :
    (acquit (recording ask) rules m (s, [])).2 =
      ((acquit ask rules m s).2, written ask (unmarkings ask rules m s)) := by
  simp only [acquit, unlistAll_recording]
  rfl

end LabelMail.Screening
