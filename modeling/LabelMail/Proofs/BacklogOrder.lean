import LabelMail.Backlog
import Mathlib.Tactic.ByContra

/-!
What the backlog holds after an entry is made or struck out. Its entries are in ascending order of
the message ids, so that each message has one at most.
-/
namespace LabelMail.Backlog

open Calendar (Instant)

def Ascending (arrears : List Arrear) : Prop :=
  arrears.Pairwise (·.messageId < ·.messageId)

variable {b : Backlog} {a x : Arrear} {l : List Arrear} {now : Instant} {id i owner : String}
variable {labelIds : List String} {e : Failure}

/-- The backlog with the entries of several messages struck out. -/
def resolveAll (ids : List String) (b : Backlog) : Backlog :=
  ids.foldl (fun b id => (b.resolve id).1) b

theorem any_put (a : Arrear) (l : List Arrear) (i : String) :
    (put a l).any (·.messageId == i) = (a.messageId == i || l.any (·.messageId == i)) := by
  induction l with
  | nil => simp [put]
  | cons x l ih =>
    rw [put]
    split
    · rw [List.any_cons]
    · split
      · next hsame => simp [hsame]
      · rw [List.any_cons, ih, List.any_cons, Bool.or_left_comm]

@[simp] theorem holds_record :
    (b.record now id owner labelIds e).holds i = (id == i || b.holds i) :=
  any_put _ _ _

@[simp] theorem holds_resolve : (b.resolve id).1.holds i = (b.holds i && i != id) := by
  rw [Bool.eq_iff_iff, Bool.and_eq_true, bne_iff_ne]
  simp only [holds, resolve, List.any_filter, List.any_eq_true, Bool.and_eq_true, beq_iff_eq,
    bne_iff_ne]
  constructor
  · rintro ⟨a, ha, hne, rfl⟩
    exact ⟨⟨a, ha, rfl⟩, hne⟩
  · rintro ⟨⟨a, ha, rfl⟩, hne⟩
    exact ⟨a, ha, hne, rfl⟩

theorem mem_put (hx : x ∈ put a l) : x = a ∨ x ∈ l := by
  induction l with
  | nil => exact .inl (List.mem_singleton.mp hx)
  | cons y l ih =>
    rw [put] at hx
    split at hx
    · exact List.mem_cons.mp hx
    · split at hx
      · exact (List.mem_cons.mp hx).imp_right (List.mem_cons_of_mem y)
      · rcases List.mem_cons.mp hx with rfl | hx
        · exact .inr List.mem_cons_self
        · exact (ih hx).imp_right (List.mem_cons_of_mem y)

theorem ascending_put (hl : Ascending l) : Ascending (put a l) := by
  induction l with
  | nil => exact List.pairwise_singleton _ _
  | cons y l ih =>
    obtain ⟨hy, hrest⟩ := List.pairwise_cons.mp hl
    rw [put]
    split
    · next hlt =>
      refine List.pairwise_cons.mpr ⟨fun x hx => ?_, hl⟩
      rcases List.mem_cons.mp hx with rfl | hx
      · exact hlt
      · exact String.lt_trans hlt (hy x hx)
    · next hle =>
      split
      · next hsame => exact List.pairwise_cons.mpr ⟨fun x hx => hsame ▸ hy x hx, hrest⟩
      · next hne =>
        refine List.pairwise_cons.mpr ⟨fun x hx => ?_, ih hrest⟩
        rcases mem_put hx with rfl | hx
        · by_contra hge
          exact hne (String.le_antisymm hge hle)
        · exact hy x hx

theorem ascending_record (hb : Ascending b.arrears) :
    Ascending (b.record now id owner labelIds e).arrears :=
  ascending_put hb

theorem ascending_resolve (hb : Ascending b.arrears) : Ascending (b.resolve id).1.arrears :=
  List.Pairwise.filter _ hb

@[simp] theorem holds_resolveAll {ids : List String} :
    (b.resolveAll ids).holds i = (b.holds i && !ids.contains i) := by
  induction ids generalizing b with
  | nil => simp [resolveAll]
  | cons id ids ih =>
    have hrest : (b.resolveAll (id :: ids)) = (b.resolve id).1.resolveAll ids := rfl
    rw [hrest, ih, holds_resolve, List.contains_cons, Bool.not_or, Bool.and_assoc]
    rfl

theorem ascending_resolveAll {ids : List String} (hb : Ascending b.arrears) :
    Ascending (b.resolveAll ids).arrears := by
  induction ids generalizing b with
  | nil => exact hb
  | cons id ids ih => exact ih (ascending_resolve hb)

theorem resolveAll_concat {ids : List String} :
    b.resolveAll (ids ++ [id]) = ((b.resolveAll ids).resolve id).1 := by
  simp [resolveAll]

theorem eq_empty_of_holds (hb : ∀ i, b.holds i = false) : b = empty := by
  have hnone : ∀ a, a ∉ b.arrears := by
    intro a ha
    have hheld : b.holds a.messageId = true := List.any_eq_true.mpr ⟨a, ha, by simp⟩
    rw [hb] at hheld
    cases hheld
  exact congrArg Backlog.mk (List.eq_nil_iff_forall_not_mem.mpr hnone)

/-- Nothing remains once the messages of all entries are struck out. -/
theorem resolveAll_arrears (b : Backlog) :
    b.resolveAll (b.arrears.map Arrear.messageId) = empty := by
  refine eq_empty_of_holds fun i => ?_
  rw [holds_resolveAll]
  cases hheld : b.holds i with
  | false => rfl
  | true =>
    obtain ⟨a, ha, hid⟩ := List.any_eq_true.mp hheld
    have hmem : i ∈ b.arrears.map Arrear.messageId := List.mem_map.mpr ⟨a, ha, by simpa using hid⟩
    simp [hmem]

theorem Ascending.nodup (hl : Ascending l) : (l.map Arrear.messageId).Nodup := by
  refine List.pairwise_map.mpr (List.Pairwise.imp (fun hlt heq => ?_) hl)
  exact String.lt_irrefl _ (heq ▸ hlt)

end LabelMail.Backlog
