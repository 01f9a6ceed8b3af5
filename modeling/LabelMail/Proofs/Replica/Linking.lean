import LabelMail.Proofs.Replica.Writing

/-!
Replacing the links of a message. If it goes through, the message is linked to just the labels asked
for. Interrupted at any point, it has made changes to this message only, apart from labels that were
added because they were unknown.
-/
namespace LabelMail.Replica

/-- At most labels were added. -/
structure Rows.Grown (R R' : Rows) : Prop where
  messages : R'.messages = R.messages
  links : R'.links = R.links
  labels : Rows.Extends R.labels R'.labels

theorem Rows.Grown.refl (R : Rows) : R.Grown R := ⟨rfl, rfl, .refl _⟩

theorem Rows.Grown.trans {R R' R'' : Rows} (hg : R.Grown R') (hg' : R'.Grown R'') : R.Grown R'' :=
  ⟨hg'.messages.trans hg.messages, hg'.links.trans hg.links, hg.labels.trans hg'.labels⟩

variable {r : Replica} {R : Rows} {h : Holdings} {id owner : String} {labelIds : List String}

theorem leaves_findLabel (id : String) :
    Leaves r (findLabel id) (fun l R => l.isSome = hasLabel r.rows id ∧ R = r.rows)
      (· = r.rows) := by
  refine (Leaves.select _).bind fun l r' hl => .pure ⟨?_, hl.2⟩
  rw [hl.1, Option.isSome_map, Bool.eq_iff_iff, List.find?_isSome, hasLabel, List.any_eq_true]

theorem leaves_unknownLabels (labelIds : List String) :
    Leaves r (unknownLabels labelIds)
      (fun unknown R => unknown = labelIds.filter (fun i => !hasLabel r.rows i) ∧ R = r.rows)
      (· = r.rows) := by
  induction labelIds generalizing r with
  | nil => exact .pure ⟨rfl, rfl⟩
  | cons i labelIds ih =>
    refine (leaves_findLabel i).bind fun l r₁ hl => ?_
    obtain ⟨hsome, hrows₁⟩ := hl
    rw [← hrows₁]
    refine (ih (r := r₁)).bind fun unknown r₂ hunknown => .pure ⟨?_, hunknown.2⟩
    rw [hunknown.1, hsome, List.filter_cons, hrows₁]
    cases hasLabel r.rows i <;> rfl

theorem leaves_insertLabel (l : Label) :
    Leaves r (onDatabase (insertLabel l)) (fun _ R => r.rows.Grown R) (· = r.rows) := by
  refine (Leaves.statement _ _).mono (fun b R hR => ?_) (fun _ h => h)
  split at hR
  · obtain ⟨-, rfl⟩ := Prod.mk.inj hR
    exact .refl _
  · next hfree =>
    obtain ⟨-, rfl⟩ := Prod.mk.inj hR
    refine ⟨rfl, rfl, List.prefix_append _ _, fun hnodup => nodup_enter hnodup fun k hk hkl => ?_⟩
    exact hfree (List.any_eq_true.mpr ⟨k, hk, by simpa using hkl⟩)

theorem leaves_insertEach (labels : List Label) :
    Leaves r (labels.mapM fun l => onDatabase (insertLabel l))
      (fun _ R => r.rows.Grown R ∧ (labels = [] → R = r.rows)) (fun R => r.rows.Grown R) := by
  induction labels generalizing r with
  | nil => exact .pure ⟨.refl _, fun _ => rfl⟩
  | cons l labels ih =>
    rw [List.mapM_cons]
    refine ((leaves_insertLabel l).mono (fun _ _ h => h) fun _ h => h ▸ .refl _).bind
      fun b r₁ h₁ => ?_
    refine ((ih (r := r₁)).mono (fun _ _ h => h) fun R h => h₁.trans h).bind fun bs r₂ h₂ => ?_
    exact .pure ⟨h₁.trans h₂.1, fun hnil => by cases hnil⟩

theorem leaves_insertLabels (labels : List Label) :
    Leaves r (insertLabels labels)
      (fun _ R => r.rows.Grown R ∧ (labels = [] → R = r.rows)) (fun R => r.rows.Grown R) := by
  refine (leaves_insertEach labels).bind fun added r₁ h₁ => ?_
  dsimp only
  split
  · exact (Leaves.announce (T := fun _ R => R = r₁.rows) rfl).bind fun _ r₂ h₂ =>
      .pure (by rw [h₂]; exact h₁)
  · exact .pure h₁

theorem leaves_clearLinks (id : String) :
    Leaves r (clearLinks id)
      (fun _ R => R = { r.rows with links := r.rows.links.filter (·.messageId != id) })
      (· = r.rows) := by
  have hunlink : Leaves r (onDatabase (unlink (·.messageId == id)))
      (fun _ R => R = { r.rows with links := r.rows.links.filter (·.messageId != id) })
      (· = r.rows) := .onDatabase (unlink_ends _ _)
  refine hunlink.bind fun n r₁ h₁ => ?_
  exact (Leaves.announce (T := fun _ R => R = r₁.rows) rfl).bind fun _ r₂ h₂ =>
    .pure (by rw [h₂]; exact h₁)

/-- Links of the message were added, to these labels. -/
structure Rows.Linked (id : String) (labelIds : List String) (R R' : Rows) : Prop where
  messages : R'.messages = R.messages
  labels : R'.labels = R.labels
  links : ∀ l : Link, l ∈ R'.links ↔ l ∈ R.links ∨ (l.messageId = id ∧ l.labelId ∈ labelIds)

theorem leaves_addLink (l : Link) :
    Leaves r (addLink l) (fun _ R => Rows.Linked l.messageId [l.labelId] r.rows R)
      (· = r.rows) := by
  refine (Leaves.statement _ _).bind fun _ r₁ h₁ => .announce ?_
  rw [← (Prod.mk.inj h₁).2]
  refine ⟨by split <;> rfl, by split <;> rfl, fun k => ?_⟩
  have hkl : k.messageId = l.messageId ∧ k.labelId ∈ [l.labelId] ↔ k = l := by
    rw [List.mem_singleton, Link.mk.injEq]
  rw [hkl]
  split
  · next hl => exact ⟨.inl, fun hk => hk.elim (fun hk => hk) fun hk => hk ▸ hl⟩
  · simp

theorem leaves_interrupt {e : Failure} {q : Query α} {Q : α → Rows → Prop} {E : Rows → Prop}
    (hq : Leaves r q Q E) : Leaves r (interrupt e q) Q E := by
  unfold Leaves interrupt
  split
  · next a r' hr => exact .of_ok (hq.ok a r' hr)
  · next e' r' hr => exact .of_error (hq.error e' r' hr)

/-- Only links of this message differ. -/
structure Rows.Relinking (id : String) (R R' : Rows) : Prop where
  messages : R'.messages = R.messages
  labels : R'.labels = R.labels
  links : ∀ l : Link, l.messageId ≠ id → (l ∈ R'.links ↔ l ∈ R.links)

theorem Rows.Linked.relinking {R R' : Rows} (hl : Linked id labelIds R R') :
    Relinking id R R' :=
  ⟨hl.messages, hl.labels, fun l hne => by simp [hl.links, hne]⟩

theorem Rows.Relinking.trans {R R' R'' : Rows} (hr : Relinking id R R')
    (hr' : Relinking id R' R'') : Relinking id R R'' :=
  ⟨hr'.messages.trans hr.messages, hr'.labels.trans hr.labels,
    fun l hne => (hr'.links l hne).trans (hr.links l hne)⟩

theorem leaves_addLinks (id : String) (expected linked : Nat) (labelIds : List String) :
    Leaves r (addLinks id expected linked labelIds)
      (fun _ R => Rows.Linked id labelIds r.rows R) (fun R => Rows.Relinking id r.rows R) := by
  induction labelIds generalizing r linked with
  | nil => exact .pure ⟨rfl, rfl, fun l => by simp⟩
  | cons i labelIds ih =>
    have hfirst : Leaves r (interrupt (.interrupted id linked expected) (addLink ⟨id, i⟩))
        (fun _ R => Rows.Linked id [i] r.rows R) (fun R => Rows.Relinking id r.rows R) :=
      (leaves_interrupt (leaves_addLink ⟨id, i⟩)).mono (fun _ _ h => h)
        fun R h => h ▸ ⟨rfl, rfl, fun _ _ => Iff.rfl⟩
    refine hfirst.bind fun _ r₁ h₁ => ?_
    refine (ih (r := r₁) (linked + 1)).mono (fun _ R h₂ => ?_) fun R h₂ => h₁.relinking.trans h₂
    refine ⟨h₂.messages.trans h₁.messages, h₂.labels.trans h₁.labels, fun l => ?_⟩
    rw [h₂.links, h₁.links, or_assoc, ← and_or_left, List.mem_singleton, List.mem_cons]

theorem Rows.Relinking.refl (id : String) (R : Rows) : Relinking id R R :=
  ⟨rfl, rfl, fun _ _ => Iff.rfl⟩

theorem Rows.Grown.spares {R R' R'' : Rows} (hg : R.Grown R') (hr : Relinking id R' R'')
    (hk : R.Kept h) : Spares h id R R'' := by
  have hmessages : R''.messages = R.messages := hr.messages.trans hg.messages
  refine spares_of_extends hk hmessages (fun l hne => ?_) (hr.labels ▸ hg.labels)
  rw [hr.links l hne, hg.links]

/-- Once the old links are gone, those to the labels are all there are. -/
theorem Rows.Grown.relinked {R R' R'' : Rows} (hg : R.Grown R')
    (hl : Linked id labelIds { R' with links := R'.links.filter (·.messageId != id) } R'')
    (hknown : (∀ i ∈ labelIds, hasLabel R i = true) → R' = R) : Relinked id labelIds R R'' := by
  refine ⟨hl.messages.trans hg.messages, fun l => ?_, hl.labels ▸ hg.labels, fun hall => ?_⟩
  · rw [hl.links, ← hg.links]
    by_cases hid : l.messageId = id
    · simp [hid]
    · simp [hid]
  · rw [hl.labels, hknown hall]

theorem leaves_relink (hk : r.rows.Kept h) (id owner : String) (labelIds : List String) :
    Leaves r (relink id owner labelIds) (fun _ R => Rows.Relinked id labelIds r.rows R)
      (fun R => Rows.Spares h id r.rows R) := by
  refine ((leaves_unknownLabels labelIds).mono (fun _ _ h => h) fun R h => ?_).bind
    fun unknown r₁ h₁ => ?_
  · rw [h]
    exact .refl hk
  obtain ⟨hunknown, hrows₁⟩ := h₁
  have hinsert := leaves_insertLabels (r := r₁) (unknown.map (placeholder owner))
  rw [hrows₁] at hinsert
  refine (Leaves.discard (T := fun _ R => r.rows.Grown R ∧
    (unknown.map (placeholder owner) = [] → R = r.rows))
    (hinsert.mono (fun _ _ h => h) fun R hg => hg.spares (.refl id R) hk)).bind fun _ r₂ h₂ => ?_
  obtain ⟨hgrown, hsame⟩ := h₂
  refine (Leaves.discard (T := fun _ R => R = { r₂.rows with
    links := r₂.rows.links.filter (·.messageId != id) })
    ((leaves_clearLinks (r := r₂) id).mono (fun _ _ h => h)
      fun R h => h ▸ hgrown.spares (.refl id _) hk)).bind fun _ r₃ h₃ => ?_
  have hcleared : Rows.Relinking id r₂.rows r₃.rows := by
    rw [h₃]
    exact ⟨rfl, rfl, fun l hne => by simp [hne]⟩
  refine ((leaves_addLinks (r := r₃) id labelIds.length 0 labelIds).mono (fun _ _ h => h)
    fun R h => hgrown.spares (hcleared.trans h) hk).bind fun _ r₄ h₄ => .pure ?_
  refine hgrown.relinked (h₃ ▸ h₄) fun hall => hsame ?_
  rw [hunknown, List.map_eq_nil_iff, List.filter_eq_nil_iff]
  exact fun i hi => by simp [hall i hi]

theorem steady_relink (id owner : String) (labelIds : List String) :
    Steady (relink id owner labelIds) :=
  (steady_of_leaves fun _ => leaves_unknownLabels labelIds).bind fun unknown =>
    (steady_of_leaves fun _ => leaves_insertLabels (unknown.map (placeholder owner))).discard.bind
      fun _ => (steady_of_leaves fun _ => leaves_clearLinks id).discard.bind fun _ =>
        (steady_of_leaves fun _ => leaves_addLinks id labelIds.length 0 labelIds).bind fun _ _ =>
          .pure trivial

end LabelMail.Replica
