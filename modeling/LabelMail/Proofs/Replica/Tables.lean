import LabelMail.Proofs.TagLabels

/-!
The tables of the replica. Message rows and labels are put by key, and a put changes one entry only.
A message is mirrored when its row is there and it is linked to just the labels of its tags, under
the right names; the replica then gives the message back.
-/
namespace LabelMail.Replica

section Keyed

variable {α : Type} {key : α → String} {f : α → α} {a b x : α} {l : List α}

/-- Puts an entry into a table. If there is one with its key, that one is changed by `f` instead. -/
def putKeyed (key : α → String) (f : α → α) (a : α) : List α → List α
  | [] => [a]
  | b :: l => if key b = key a then f b :: l else b :: putKeyed key f a l

theorem putRow_eq (r : Row) (rows : List Row) :
    putRow r rows = putKeyed Row.id
      (fun old => { old with subject := r.subject, content := r.content, millis := r.millis,
                             read := r.read, starred := r.starred }) r rows := by
  induction rows with
  | nil => rfl
  | cons old rows ih => rw [putRow, putKeyed, ih]

theorem putLabelRow_eq (l : Label) (labels : List Label) :
    putLabelRow l labels =
      putKeyed Label.id (fun old => { old with name := l.name }) l labels := by
  induction labels with
  | nil => rfl
  | cons old labels ih => rw [putLabelRow, putKeyed, ih]

theorem mem_putKeyed (hnodup : (l.map key).Nodup) : x ∈ putKeyed key f a l ↔
    (x ∈ l ∧ key x ≠ key a) ∨ (∃ b ∈ l, key b = key a ∧ f b = x) ∨
      (x = a ∧ ∀ b ∈ l, key b ≠ key a) := by
  induction l with
  | nil => simp [putKeyed]
  | cons b l ih =>
    obtain ⟨hb, hl⟩ := List.nodup_cons.mp hnodup
    have hother : ∀ c ∈ l, key c ≠ key b := fun c hc hcb => hb (hcb ▸ List.mem_map_of_mem hc)
    rw [putKeyed]
    split
    · next hkey =>
      have hrest : ∀ c ∈ l, key c ≠ key a := fun c hc => hkey ▸ hother c hc
      constructor
      · intro hx
        rcases List.mem_cons.mp hx with rfl | hx
        · exact .inr (.inl ⟨b, List.mem_cons_self, hkey, rfl⟩)
        · exact .inl ⟨List.mem_cons_of_mem b hx, hrest x hx⟩
      · rintro (⟨hx, hne⟩ | ⟨c, hc, hckey, rfl⟩ | ⟨rfl, hnone⟩)
        · rcases List.mem_cons.mp hx with rfl | hx
          · exact absurd hkey hne
          · exact List.mem_cons_of_mem _ hx
        · rcases List.mem_cons.mp hc with rfl | hc
          · exact List.mem_cons_self
          · exact absurd hckey (hrest c hc)
        · exact absurd hkey (hnone b List.mem_cons_self)
    · next hkey =>
      rw [List.mem_cons, ih hl]
      constructor
      · rintro (rfl | ⟨hx, hne⟩ | ⟨c, hc, hckey, rfl⟩ | ⟨rfl, hnone⟩)
        · exact .inl ⟨List.mem_cons_self, hkey⟩
        · exact .inl ⟨List.mem_cons_of_mem b hx, hne⟩
        · exact .inr (.inl ⟨c, List.mem_cons_of_mem b hc, hckey, rfl⟩)
        · exact .inr (.inr ⟨rfl, by simpa [hkey] using hnone⟩)
      · rintro (⟨hx, hne⟩ | ⟨c, hc, hckey, rfl⟩ | ⟨rfl, hnone⟩)
        · rcases List.mem_cons.mp hx with rfl | hx
          · exact .inl rfl
          · exact .inr (.inl ⟨hx, hne⟩)
        · rcases List.mem_cons.mp hc with rfl | hc
          · exact absurd hckey hkey
          · exact .inr (.inr (.inl ⟨c, hc, hckey, rfl⟩))
        · exact .inr (.inr (.inr ⟨rfl, fun c hc => hnone c (List.mem_cons_of_mem b hc)⟩))

/-- Entries with other keys are neither gained nor lost. -/
theorem mem_putKeyed_of_ne (hf : ∀ b, key (f b) = key b) (hnodup : (l.map key).Nodup)
    (hne : key x ≠ key a) : x ∈ putKeyed key f a l ↔ x ∈ l := by
  rw [mem_putKeyed hnodup]
  constructor
  · rintro (⟨hx, -⟩ | ⟨b, -, hkey, rfl⟩ | ⟨rfl, -⟩)
    · exact hx
    · exact absurd ((hf b).trans hkey) hne
    · exact absurd rfl hne
  · exact fun hx => .inl ⟨hx, hne⟩

/-- Of an entry that `f` makes of those with its key, the table has it afterwards. -/
theorem mem_putKeyed_self (hnodup : (l.map key).Nodup)
    (hf : ∀ b ∈ l, key b = key a → f b = a) : a ∈ putKeyed key f a l := by
  rw [mem_putKeyed hnodup]
  by_cases hnone : ∃ b ∈ l, key b = key a
  · obtain ⟨b, hb, hkey⟩ := hnone
    exact .inr (.inl ⟨b, hb, hkey, hf b hb hkey⟩)
  · exact .inr (.inr ⟨rfl, fun b hb hkey => hnone ⟨b, hb, hkey⟩⟩)

/-- What a filter leaves of a table does not change if it passes over the entries with that key. -/
theorem filter_putKeyed {p : α → Bool} (hf : ∀ b, key (f b) = key b)
    (hp : ∀ b, key b = key a → p b = false) : (putKeyed key f a l).filter p = l.filter p := by
  induction l with
  | nil => simp [putKeyed, hp a rfl]
  | cons b l ih =>
    rw [putKeyed]
    split
    · next hkey => simp [hp b hkey, hp (f b) ((hf b).trans hkey)]
    · rw [List.filter_cons, List.filter_cons, ih]

theorem nodup_putKeyed (hf : ∀ b, key (f b) = key b) (hnodup : (l.map key).Nodup) :
    ((putKeyed key f a l).map key).Nodup := by
  induction l with
  | nil => simp [putKeyed]
  | cons b l ih =>
    obtain ⟨hb, hl⟩ := List.nodup_cons.mp hnodup
    rw [putKeyed]
    split
    · rw [List.map_cons, hf]
      exact hnodup
    · next hkey =>
      refine List.nodup_cons.mpr ⟨fun hmem => ?_, ih hl⟩
      obtain ⟨x, hx, hxb⟩ := List.mem_map.mp hmem
      have hxl : x ∈ l := (mem_putKeyed_of_ne hf hl (hxb ▸ hkey)).mp hx
      exact hb (hxb ▸ List.mem_map_of_mem hxl)

end Keyed

section Labels

variable {labels : List Label} {l k : Label} {i : String}

/-- A put gives the label of that id another name, or it adds the label. -/
theorem mem_putLabelRow (hnodup : (labels.map Label.id).Nodup) : k ∈ putLabelRow l labels ↔
    (k ∈ labels ∧ k.id ≠ l.id) ∨
      (∃ old ∈ labels, old.id = l.id ∧ { old with name := l.name } = k) ∨
      (k = l ∧ ∀ old ∈ labels, old.id ≠ l.id) := by
  rw [putLabelRow_eq, mem_putKeyed hnodup]

theorem nodup_putLabelRow (hnodup : (labels.map Label.id).Nodup) :
    ((putLabelRow l labels).map Label.id).Nodup := by
  rw [putLabelRow_eq]
  exact nodup_putKeyed (fun _ => rfl) hnodup

theorem nodup_enter (hnodup : (labels.map Label.id).Nodup) (hfree : ∀ k ∈ labels, k.id ≠ l.id) :
    ((labels ++ [l]).map Label.id).Nodup := by
  rw [List.map_append, List.nodup_append_comm]
  refine List.nodup_cons.mpr ⟨fun hmem => ?_, hnodup⟩
  obtain ⟨k, hk, hkl⟩ := List.mem_map.mp hmem
  exact hfree k hk hkl

theorem known_putLabelRow (hnodup : (labels.map Label.id).Nodup)
    (hknown : ∃ k ∈ labels, k.id = i) : ∃ k ∈ putLabelRow l labels, k.id = i := by
  obtain ⟨k, hk, rfl⟩ := hknown
  by_cases hid : k.id = l.id
  · refine ⟨{ k with name := l.name }, (mem_putLabelRow hnodup).mpr (.inr (.inl ?_)), rfl⟩
    exact ⟨k, hk, hid, rfl⟩
  · exact ⟨k, (mem_putLabelRow hnodup).mpr (.inl ⟨hk, hid⟩), rfl⟩

end Labels

end LabelMail.Replica
