import LabelMail.Proofs.Replica.Copies

/-!
The label table of the replica. While nothing fails, a row of the table never takes the id of a
label of another owner, so that a put makes the table agree with the primary store on the id of the
label.
-/
namespace LabelMail.Replica.Rows

/-- On the labels with this id the replica and the primary store agree: the replica has those that
are stored, and besides only what stands for a reserved tag. -/
structure Agrees (R : Rows) (h : Holdings) (i : String) : Prop where
  stands : ∀ l ∈ R.labels, l.id = i → h.Stands l
  stored : ∀ l ∈ h.labels, l.id = i → l ∈ R.labels

/-- Labels have the owners they should have. -/
def Assigned (R : Rows) (h : Holdings) : Prop :=
  ∀ k ∈ R.labels, ∀ l, h.Stands l → k.id = l.id → k.ownerId = l.ownerId

variable {R : Rows} {h : Holdings} {l k : Label} {labels : List Label} {i id : String}

theorem mem_putLabelRow_self (hk : R.Kept h) (ha : R.Assigned h) (hl : h.Stands l) :
    l ∈ putLabelRow l R.labels := by
  rw [putLabelRow_eq]
  refine mem_putKeyed_self hk.labelIds fun old hold hid => ?_
  have howner : old.ownerId = l.ownerId := ha old hold l hl hid
  cases l
  exact Label.mk.injEq .. ▸ ⟨hid, howner, rfl⟩

theorem of_mem_putLabelRow (hk : R.Kept h) (ha : R.Assigned h) (hl : h.Stands l)
    (hmem : k ∈ putLabelRow l R.labels) : k = l ∨ (k.id ≠ l.id ∧ k ∈ R.labels) := by
  by_cases hid : k.id = l.id
  · exact .inl (List.inj_on_of_nodup_map (labelIds_putLabelRow hk) hmem
      (mem_putLabelRow_self hk ha hl) hid)
  · exact .inr ⟨hid, (mem_putLabelRow_of_ne hk hid).mp hmem⟩

theorem Assigned.putLabelRow (ha : R.Assigned h) (hk : R.Kept h) (ho : h.Orderly)
    (hapart : h.Apart) (hl : h.Stands l) :
    Assigned { R with labels := Replica.putLabelRow l R.labels } h := by
  intro k hmem j hj hid
  rcases of_mem_putLabelRow hk ha hl hmem with rfl | ⟨-, hmem⟩
  · rw [Holdings.Stands.eq_of_id ho hapart hl hj hid]
  · exact ha k hmem j hj hid

/-- A put keeps the agreement on every id and brings it about on that of the label. -/
theorem Agrees.putLabelRow (hk : R.Kept h) (ha : R.Assigned h) (ho : h.Orderly) (hapart : h.Apart)
    (hl : h.Stands l) (hi : R.Agrees h i ∨ l.id = i) :
    Agrees { R with labels := Replica.putLabelRow l R.labels } h i := by
  have hagrees {k : Label} (hki : k.id = i) (hid : k.id ≠ l.id) : R.Agrees h i :=
    hi.resolve_right fun hli => hid (hki.trans hli.symm)
  refine ⟨fun k hmem hki => ?_, fun k hstored hki => ?_⟩
  · rcases of_mem_putLabelRow hk ha hl hmem with rfl | ⟨hid, hmem⟩
    · exact hl
    · exact (hagrees hki hid).stands k hmem hki
  · by_cases hid : k.id = l.id
    · rw [Holdings.Stands.eq_of_id ho hapart (.inl hstored) hl hid]
      exact mem_putLabelRow_self hk ha hl
    · exact (mem_putLabelRow_of_ne hk hid).mpr ((hagrees hki hid).stored k hstored hki)

theorem putLabelRows_agrees (hk : R.Kept h) (ha : R.Assigned h) (ho : h.Orderly)
    (hapart : h.Apart) (hlabels : ∀ l ∈ labels, h.Stands l) :
    (R.putLabelRows labels).Assigned h ∧
      ∀ i, (R.Agrees h i ∨ ∃ l ∈ labels, l.id = i) → (R.putLabelRows labels).Agrees h i := by
  induction labels generalizing R with
  | nil =>
    refine ⟨ha, fun i hi => ?_⟩
    exact hi.resolve_right fun ⟨l, hl, _⟩ => List.not_mem_nil hl
  | cons l labels ih =>
    have hl : h.Stands l := hlabels l List.mem_cons_self
    have hput : Spares h "" R { R with labels := Replica.putLabelRow l R.labels } :=
      spares_putLabelRow "" hk ho hapart hl
    obtain ⟨hassigned, hagrees⟩ := ih hput.kept (ha.putLabelRow hk ho hapart hl)
      fun j hj => hlabels j (List.mem_cons_of_mem l hj)
    refine ⟨hassigned, fun i hi => hagrees i ?_⟩
    rcases hi with hi | ⟨j, hj, rfl⟩
    · exact .inl (.putLabelRow hk ha ho hapart hl (.inl hi))
    · rcases List.mem_cons.mp hj with rfl | hj
      · exact .inl (.putLabelRow hk ha ho hapart hl (.inr rfl))
      · exact .inr ⟨j, hj, rfl⟩

theorem Assigned.of_subset {R' : Rows} (ha : R.Assigned h) (hsub : R'.labels ⊆ R.labels) :
    R'.Assigned h := fun k hk => ha k (hsub hk)

theorem Agrees.withoutLabel (hfree : ∀ l, h.Stands l → l.id ≠ id) (hi : R.Agrees h i ∨ id = i) :
    (R.withoutLabel id).Agrees h i := by
  have hmem {k : Label} : k ∈ (R.withoutLabel id).labels ↔ k ∈ R.labels ∧ k.id ≠ id := by
    simp [Rows.withoutLabel]
  have hagrees {k : Label} (hki : k.id = i) (hid : k.id ≠ id) : R.Agrees h i :=
    hi.resolve_right fun h => hid (hki.trans h.symm)
  refine ⟨fun k hk hki => ?_, fun k hstored hki => ?_⟩
  · obtain ⟨hk, hid⟩ := hmem.mp hk
    exact (hagrees hki hid).stands k hk hki
  · have hid : k.id ≠ id := hfree k (.inl hstored)
    exact hmem.mpr ⟨(hagrees hki hid).stored k hstored hki, hid⟩

end LabelMail.Replica.Rows
