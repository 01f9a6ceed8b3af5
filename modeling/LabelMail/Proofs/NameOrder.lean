import LabelMail.Proofs.RowOrder
import LabelMail.Proofs.TagText

/-!
The order of a listing by name. The collation compares texts by numbers, one after the other, so
that its order is transitive and total, and only names that it does not tell apart are in both
orders.
-/
namespace LabelMail.Text

open Std (OrientedCmp TransCmp)

/-- The numbers by which the collation compares a text. After a NUL only the length counts. -/
def sortKey : List Char → List Nat
  | [] => []
  | a :: r => a.toLower.toNat :: if a.toNat == 0 then [byteLength r] else sortKey r

variable {a b c : String}

theorem compareFolded_eq (r s : List Char) :
    compareFolded r s = List.compareLex compare (sortKey r) (sortKey s) := by
  induction r generalizing s with
  | nil =>
    cases s with
    | nil => rfl
    | cons d s => rfl
  | cons c r ih =>
    cases s with
    | nil => rfl
    | cons d s =>
      rw [compareFolded, sortKey, sortKey, List.compareLex_cons_cons]
      split
      · next hsame =>
        have hfold : c.toLower = d.toLower := by simpa [sameFolded] using hsame
        have hnul : c.toNat = 0 ↔ d.toNat = 0 :=
          ⟨toNat_eq_zero_of_toLower_eq hfold, toNat_eq_zero_of_toLower_eq hfold.symm⟩
        rw [hfold, Nat.compare_eq_eq.mpr rfl, Ordering.eq_then]
        by_cases hc : c.toNat = 0
        · simp only [hc, hnul.mp hc, beq_self_eq_true, if_true]
          rw [List.compareLex_cons_cons, List.compareLex_nil_nil, Ordering.then_eq]
        · have hd : d.toNat ≠ 0 := fun hd => hc (hnul.mpr hd)
          simp only [beq_iff_eq, hc, hd, if_false]
          exact ih s
      · next hdiff =>
        have hne : compare c.toLower.toNat d.toLower.toNat ≠ .eq := by
          rw [Ne, Nat.compare_eq_eq, Char.toNat_inj]
          exact fun hfold => hdiff (by simp [sameFolded, hfold])
        cases hcmp : compare c.toLower.toNat d.toLower.toNat with
        | eq => exact absurd hcmp hne
        | lt => rfl
        | gt => rfl

theorem sameName_trans (hab : sameName a b = true) (hbc : sameName b c = true) :
    sameName a c = true := by
  rw [sameName, beq_iff_eq, compareFolded_eq] at *
  exact TransCmp.eq_trans hab hbc

theorem nameLe_iff : nameLe a b = true ↔
    (List.compareLex compare (sortKey a.toList) (sortKey b.toList)).isLE = true := by
  rw [nameLe, compareFolded_eq]
  cases List.compareLex compare (sortKey a.toList) (sortKey b.toList) <;> decide

theorem nameLe_trans (hab : nameLe a b = true) (hbc : nameLe b c = true) : nameLe a c = true := by
  rw [nameLe_iff] at *
  exact TransCmp.isLE_trans hab hbc

theorem nameLe_total (a b : String) : nameLe a b = true ∨ nameLe b a = true := by
  have hswap : List.compareLex compare (sortKey b.toList) (sortKey a.toList) =
      (List.compareLex compare (sortKey a.toList) (sortKey b.toList)).swap := OrientedCmp.eq_swap
  rw [nameLe_iff, nameLe_iff, hswap]
  cases List.compareLex compare (sortKey a.toList) (sortKey b.toList) <;> decide

theorem sameName_of_nameLe (hab : nameLe a b = true) (hba : nameLe b a = true) :
    sameName a b = true := by
  rw [nameLe_iff] at hab hba
  rw [sameName, compareFolded_eq, OrientedCmp.isLE_antisymm hab hba]
  rfl

end LabelMail.Text
