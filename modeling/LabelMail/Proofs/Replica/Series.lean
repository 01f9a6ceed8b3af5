import LabelMail.Proofs.Replica.Linking
import Mathlib.Logic.Relation

/-!
Queries of the replica as series of writes. Which writes are in order is left open: if those that a
query may make are, then it makes a series of such, whether it goes through or fails on the way.
-/
namespace LabelMail.Replica

open Relation (ReflTransGen)

/-- However the query ends, it has made a series of writes that are in order. -/
def Obeys (S : Rows → Rows → Prop) (r : Replica) (q : Query α) : Prop :=
  Leaves r q (fun _ R => ReflTransGen S r.rows R) fun R => ReflTransGen S r.rows R

namespace Rows

/-- One label in the place of the one with its id, or at the end. -/
def putLabel (l : Label) (R : Rows) : Rows :=
  { R with labels := putLabelRow l R.labels }

/-- One more label at the end. -/
def enterLabel (l : Label) (R : Rows) : Rows :=
  { R with labels := R.labels ++ [l] }

/-- The links of a message are gone. -/
def clear (id : String) (R : Rows) : Rows :=
  { R with links := R.links.filter (·.messageId != id) }

/-- A link is there. -/
def link (l : Link) (R : Rows) : Rows :=
  { R with links := if l ∈ R.links then R.links else R.links ++ [l] }

/-- The writes of which a relinking consists are in order. -/
structure Relinks (S : Rows → Rows → Prop) (id owner : String) (labelIds : List String) :
    Prop where
  enter : ∀ R : Rows, ∀ i ∈ labelIds, (∀ k ∈ R.labels, k.id ≠ i) →
    S R (R.enterLabel (placeholder owner i))
  clear : ∀ R : Rows, S R (R.clear id)
  link : ∀ R : Rows, ∀ i ∈ labelIds, (∃ k ∈ R.labels, k.id = i) → S R (R.link ⟨id, i⟩)

/-- The series so far has added labels only, and those in question are there. -/
structure Entered (S : Rows → Rows → Prop) (labelIds : List String) (R R' : Rows) : Prop where
  series : ReflTransGen S R R'
  kept : R.labels ⊆ R'.labels
  known : ∀ i ∈ labelIds, ∃ k ∈ R'.labels, k.id = i

end Rows

variable {α β : Type} {S : Rows → Rows → Prop} {r : Replica} {R : Rows} {m : Message}
variable {labels : List Label} {l : Label} {id i owner : String} {ids labelIds : List String}

/-- A query that makes one known change or none. -/
theorem Obeys.of_leaves {q : Query α} (hq : Leaves r q (fun _ R' => R' = R) (· = r.rows))
    (hs : ReflTransGen S r.rows R) : Obeys S r q :=
  hq.mono (fun _ _ hR => hR ▸ hs) fun _ hR => hR ▸ .refl

theorem Obeys.bind {q : Query α} {f : α → Query β} (hq : Obeys S r q)
    (hf : ∀ a r', Obeys S r' (f a)) : Obeys S r (q >>= f) :=
  Leaves.bind hq fun a r' h => (hf a r').mono (fun _ _ h' => h.trans h') fun _ h' => h.trans h'

theorem series_putLabelRows (hlabels : ∀ l ∈ labels, ∀ R : Rows, S R (R.putLabel l)) :
    ReflTransGen S R (R.putLabelRows labels) := by
  induction labels generalizing R with
  | nil => exact .refl
  | cons l labels ih =>
    have hrest := fun k hk => hlabels k (List.mem_cons_of_mem l hk)
    exact (ih hrest).head (hlabels l List.mem_cons_self R)

theorem series_withoutAll (hids : ∀ id ∈ ids, ∀ R : Rows, S R (R.without id)) :
    ReflTransGen S R (R.withoutAll ids) := by
  induction ids generalizing R with
  | nil => exact .refl
  | cons id ids ih =>
    have hrest := fun i hi => hids i (List.mem_cons_of_mem id hi)
    exact (ih hrest).head (hids id List.mem_cons_self R)

theorem placeholder_id (owner id : String) : (placeholder owner id).id = id := by
  unfold placeholder
  split <;> rfl

theorem placeholder_name (owner id : String) : (placeholder owner id).name = id := by
  unfold placeholder
  split <;> rfl

/-- A text that spells a reserved tag stands for the label that all mailboxes share. -/
theorem placeholder_of_spells (hspells : Tag.SpellsReserved id) :
    placeholder owner id = ⟨id, shared, id⟩ := by
  obtain ⟨t, ht, hid⟩ := hspells
  have hreserved : t.isReserved = true := by
    simp only [Tag.reserved, List.mem_cons, List.not_mem_nil, or_false] at ht
    rcases ht with rfl | rfl | rfl | rfl | rfl | rfl | rfl | rfl <;> rfl
  simp [placeholder, hid, hreserved]

theorem placeholder_of_not_spells (hspells : ¬ Tag.SpellsReserved id) :
    placeholder owner id = ⟨id, owner, id⟩ := by
  unfold placeholder
  split
  · next t ht =>
    cases t with
    | custom name => rfl
    | _ => exact absurd ⟨_, by decide, ht⟩ hspells
  · rfl

theorem placeholder_reserved {t : Tag} (ht : t ∈ Tag.reserved) :
    placeholder owner t.name = sharedLabel t :=
  placeholder_of_spells ⟨t, ht, Tag.proper_of_mem_reserved ht⟩

theorem leaves_insertLabel_entered (hl : ∀ R : Rows, (∀ k ∈ R.labels, k.id ≠ l.id) →
    S R (R.enterLabel l)) :
    Leaves r (onDatabase (insertLabel l)) (fun _ R => Rows.Entered S [l.id] r.rows R)
      (· = r.rows) := by
  refine (Leaves.statement _ _).mono (fun b R hR => ?_) (fun _ h => h)
  split at hR
  · next hknown =>
    obtain ⟨-, rfl⟩ := Prod.mk.inj hR
    refine ⟨.refl, List.Subset.refl _, List.forall_mem_singleton.mpr ?_⟩
    simpa [hasLabel] using hknown
  · next hfree =>
    obtain ⟨-, rfl⟩ := Prod.mk.inj hR
    refine ⟨.single (hl _ fun k hk hkl => hfree ?_), List.subset_append_left _ _,
      List.forall_mem_singleton.mpr ⟨l, List.mem_append_right _ List.mem_cons_self, rfl⟩⟩
    exact List.any_eq_true.mpr ⟨k, hk, by simpa using hkl⟩

theorem leaves_insertEach_entered (hlabels : ∀ l ∈ labels, ∀ R : Rows,
    (∀ k ∈ R.labels, k.id ≠ l.id) → S R (R.enterLabel l)) :
    Leaves r (labels.mapM fun l => onDatabase (insertLabel l))
      (fun _ R => Rows.Entered S (labels.map Label.id) r.rows R)
      (fun R => ReflTransGen S r.rows R) := by
  induction labels generalizing r with
  | nil => exact .pure ⟨.refl, List.Subset.refl _, List.forall_mem_nil _⟩
  | cons l labels ih =>
    rw [List.mapM_cons]
    refine ((leaves_insertLabel_entered (hlabels l List.mem_cons_self)).mono (fun _ _ h => h)
      fun _ h => h ▸ .refl).bind fun b r₁ h₁ => ?_
    have hrest := ih (r := r₁) fun k hk => hlabels k (List.mem_cons_of_mem l hk)
    refine (hrest.mono (fun _ _ h => h) fun R h => h₁.series.trans h).bind fun bs r₂ h₂ => ?_
    refine .pure ⟨h₁.series.trans h₂.series, List.Subset.trans h₁.kept h₂.kept, ?_⟩
    refine List.forall_mem_cons.mpr ⟨?_, h₂.known⟩
    obtain ⟨k, hk, hkl⟩ := h₁.known l.id List.mem_cons_self
    exact ⟨k, h₂.kept hk, hkl⟩

theorem leaves_insertLabels_entered (hlabels : ∀ l ∈ labels, ∀ R : Rows,
    (∀ k ∈ R.labels, k.id ≠ l.id) → S R (R.enterLabel l)) :
    Leaves r (insertLabels labels)
      (fun _ R => Rows.Entered S (labels.map Label.id) r.rows R)
      (fun R => ReflTransGen S r.rows R) := by
  refine (leaves_insertEach_entered hlabels).bind fun added r₁ h₁ => ?_
  dsimp only
  split
  · exact (Leaves.announce (T := fun _ R => R = r₁.rows) rfl).bind fun _ r₂ h₂ =>
      .pure (by rw [h₂]; exact h₁)
  · exact .pure h₁

theorem obeys_addLinks {expected linked : Nat} (hS : Rows.Relinks S id owner labelIds)
    (hknown : ∀ i ∈ labelIds, ∃ k ∈ r.rows.labels, k.id = i) :
    Obeys S r (addLinks id expected linked labelIds) := by
  induction labelIds generalizing r linked with
  | nil => exact .pure .refl
  | cons i labelIds ih =>
    have hfirst : Leaves r (interrupt (.interrupted id linked expected) (addLink ⟨id, i⟩))
        (fun _ R => ReflTransGen S r.rows R ∧ R.labels = r.rows.labels)
        (fun R => ReflTransGen S r.rows R) := by
      refine leaves_interrupt (((Leaves.statement _ _).mono (fun _ _ h => h)
        fun _ h => h ▸ .refl).bind fun _ r₁ h₁ => .announce ?_)
      have hrows : r₁.rows = r.rows.link ⟨id, i⟩ := by
        rw [← (Prod.mk.inj h₁).2, Rows.link]
        split <;> rfl
      rw [hrows]
      exact ⟨.single (hS.link _ i List.mem_cons_self (hknown i List.mem_cons_self)), rfl⟩
    refine hfirst.bind fun _ r₁ h₁ => ?_
    have hrest : Rows.Relinks S id owner labelIds :=
      ⟨fun R j hj => hS.enter R j (List.mem_cons_of_mem i hj), hS.clear,
        fun R j hj => hS.link R j (List.mem_cons_of_mem i hj)⟩
    refine (ih (r := r₁) hrest fun j hj => ?_).mono (fun _ _ h => h₁.1.trans h)
      fun _ h => h₁.1.trans h
    rw [h₁.2]
    exact hknown j (List.mem_cons_of_mem i hj)

theorem obeys_relink (hS : Rows.Relinks S id owner labelIds) :
    Obeys S r (relink id owner labelIds) := by
  refine ((leaves_unknownLabels labelIds).mono (fun _ _ h => h) fun R h => h ▸ .refl).bind
    fun unknown r₁ h₁ => ?_
  obtain ⟨rfl, hrows₁⟩ := h₁
  let unknown : List String := labelIds.filter fun i => !hasLabel r.rows i
  have hentered : ∀ l ∈ unknown.map (placeholder owner), ∀ R : Rows,
      (∀ k ∈ R.labels, k.id ≠ l.id) → S R (R.enterLabel l) := by
    intro l hl R hfree
    obtain ⟨i, hi, rfl⟩ := List.mem_map.mp hl
    exact hS.enter R i (List.mem_filter.mp hi).1 (placeholder_id owner i ▸ hfree)
  have hinsert := leaves_insertLabels_entered (r := r₁) hentered
  rw [hrows₁] at hinsert
  refine (Leaves.discard (T := fun _ R => Rows.Entered S
    ((unknown.map (placeholder owner)).map Label.id) r.rows R) hinsert).bind fun _ r₂ h₂ => ?_
  have hknown : ∀ i ∈ labelIds, ∃ k ∈ r₂.rows.labels, k.id = i := by
    intro i hi
    by_cases hthere : hasLabel r.rows i = true
    · obtain ⟨k, hk, hki⟩ := List.any_eq_true.mp hthere
      exact ⟨k, h₂.kept hk, by simpa using hki⟩
    · refine h₂.known i ?_
      rw [List.map_map]
      exact List.mem_map.mpr ⟨i, List.mem_filter.mpr ⟨hi, by simpa using hthere⟩,
        placeholder_id owner i⟩
  refine (Leaves.discard (T := fun _ R => R = r₂.rows.clear id)
    ((leaves_clearLinks (r := r₂) id).mono (fun _ _ h => h) fun R h => h ▸ h₂.series)).bind
    fun _ r₃ h₃ => ?_
  have hcleared : ReflTransGen S r.rows r₃.rows := by
    rw [h₃]
    exact h₂.series.tail (hS.clear _)
  have hadd : Obeys S r₃ (addLinks id labelIds.length 0 labelIds) := by
    refine obeys_addLinks hS fun i hi => ?_
    rw [h₃]
    exact hknown i hi
  exact (hadd.mono (fun _ _ h => h) fun R h => hcleared.trans h).bind
    fun _ r₄ h₄ => .pure (hcleared.trans h₄)

end LabelMail.Replica
