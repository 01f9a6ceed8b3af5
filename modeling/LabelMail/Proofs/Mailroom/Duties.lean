import LabelMail.Proofs.Mailroom.Upkeep
import LabelMail.Proofs.Origins

/-!
The tasks that operations owe do what is due: they fit the holdings as they are after the acts, and
each message that an act touches is refreshed. Messages are lost to deletions and sweeps only.
-/
namespace LabelMail.Mailroom

open Holdings (Touched)

variable {h : Holdings} {caller id : String} {arrears : List Arrear} {op : Operation}
variable {acts : List Act} {tasks : List Task} {fresh : String → Prop} {sound : Prop}
variable {ids : List String} {ms : List Message}

theorem touched_map (act : Message → Act)
    (hact : ∀ (h : Holdings) (m : Message), h.Touches id (act m) → m.id = id)
    (ht : Touched id h (ms.map act)) : ∃ m ∈ ms, m.id = id := by
  induction ms generalizing h with
  | nil => exact ht.elim
  | cons m ms ih =>
    rcases ht with hm | hrest
    · exact ⟨m, List.mem_cons_self, hact h m hm⟩
    · exact (ih hrest).imp fun x hx => ⟨List.mem_cons_of_mem m hx.1, hx.2⟩

theorem not_touched_discard : ¬ Touched id h (ids.map .discard) := by
  induction ids generalizing h with
  | nil => exact fun ht => ht
  | cons i ids ih => exact fun ht => ht.elim (fun hi => hi) ih

theorem mem_affected {l : Label} {f : TagSet → TagSet} {m : Message} (hm : m ∈ h.messages)
    (howner : m.ownerId = l.ownerId) (hcarried : .custom l.name ∈ m.tags) :
    ∃ x ∈ Primary.affected h l f, x.id = m.id := by
  refine ⟨m.withTags (f (m.tags.erase (.custom l.name))), ?_, rfl⟩
  refine List.mem_map.mpr ⟨m, List.mem_filter.mpr ⟨?_, by simpa using hcarried⟩, rfl⟩
  exact Holdings.mem_mailbox.mpr ⟨hm, howner⟩

/-- Every message that an act touches has a refresh among the tasks. -/
theorem Owed.covers (howed : Owed caller h arrears op acts tasks) (ht : Touched id h acts) :
    .refresh id ∈ tasks := by
  have hmem {ms : List Message} {m : Message} (hm : m ∈ ms) :
      Task.refresh m.id ∈ ms.map fun m => .refresh m.id := List.mem_map_of_mem hm
  cases howed with
  | refreshed op ids hown => exact ht.elim
  | entered op ms hnone hown =>
    obtain ⟨m, hm, rfl⟩ := touched_map .enter (fun _ _ hm => hm) ht
    exact hmem hm
  | altered op ms hone =>
    obtain ⟨m, hm, rfl⟩ := touched_map .alter (fun _ _ hm => hm) ht
    exact hmem hm
  | labelled op l m howner hm hcarried hone =>
    rcases ht with ht | ht | ht
    · exact ht.elim
    · exact ht ▸ List.mem_cons_self
    · exact ht.elim
  | removed id => exact ht.elim (fun hi => hi.elim) fun hi => hi.elim
  | swept => exact absurd ht not_touched_discard
  | enteredLabel op l hnone => exact ht.elim (fun hi => hi.elim) fun hi => hi.elim
  | renamedLabel l name text =>
    obtain ⟨m, hm, rfl, howner, hcarried⟩ := ht.elim (fun hi => hi) fun hi => hi.elim
    obtain ⟨x, hx, hxid⟩ := mem_affected (f := (·.insert (.custom name))) hm howner hcarried
    exact List.mem_cons_of_mem _ (hxid ▸ hmem hx)
  | discardedLabel l =>
    obtain ⟨m, hm, rfl, howner, hcarried⟩ := ht.elim (fun hi => hi) fun hi => hi.elim
    obtain ⟨x, hx, hxid⟩ := mem_affected (f := fun s => s) hm howner hcarried
    exact List.mem_cons_of_mem _ (hxid ▸ hmem hx)
  | synchronized stale => exact ht.elim
  | retried => exact ht.elim

theorem Lapsed.covers (hlapsed : Lapsed caller h sound op acts tasks) (ht : Touched id h acts) :
    .refresh id ∈ tasks := by
  cases hlapsed with
  | refused op => exact ht.elim
  | stopped op l hsound => exact ht.elim (fun hi => hi.elim) fun hi => hi.elim
  | unlisted => exact ht.elim

theorem after_discard (ids : List String) (h : Holdings) :
    h.after (ids.map .discard) =
      { h with messages := h.messages.filter fun m => decide (m.id ∉ ids) } := by
  induction ids generalizing h with
  | nil => simp [Holdings.after]
  | cons i ids ih =>
    have hrest : h.after ((i :: ids).map .discard) =
        (h.apply (.discard i)).after (ids.map .discard) := rfl
    rw [hrest, ih, Holdings.apply, filter_ne_filter Message.id]

theorem mem_ids_after_discard : id ∈ (h.after (ids.map .discard)).ids ↔ id ∈ h.ids ∧ id ∉ ids := by
  simp only [after_discard, Holdings.mem_ids, List.mem_filter, decide_eq_true_iff]
  constructor
  · rintro ⟨m, ⟨hm, hne⟩, rfl⟩
    exact ⟨⟨m, hm, rfl⟩, hne⟩
  · rintro ⟨⟨m, hm, rfl⟩, hne⟩
    exact ⟨m, ⟨hm, hne⟩, rfl⟩

theorem fits_refresh {α : Type} (f : α → String) {xs : List α} :
    ∀ t ∈ xs.map (fun x => Task.refresh (f x)), t.Fits h := by
  intro t ht
  obtain ⟨x, -, rfl⟩ := List.mem_map.mp ht
  trivial

/-- The tasks fit what the acts leave. -/
theorem Owed.fits (howed : Owed caller h arrears op acts tasks)
    (hlegal : h.Legal caller fresh acts) (hapart : h.Apart) :
    ∀ t ∈ tasks, t.Fits (h.after acts) := by
  cases howed with
  | refreshed op ids hown => exact fits_refresh (fun i => i)
  | entered op ms hnone hown => exact fits_refresh Message.id
  | altered op ms hone => exact fits_refresh Message.id
  | labelled op l m howner hm hcarried hone => exact List.forall_mem_singleton.mpr trivial
  | removed id => exact List.forall_mem_singleton.mpr trivial
  | swept =>
    refine List.forall_mem_singleton.mpr fun id hid hmem => ?_
    exact (mem_ids_after_discard.mp hmem).2 hid
  | enteredLabel op l hnone =>
    exact List.forall_mem_singleton.mpr (List.mem_append_right _ List.mem_cons_self)
  | renamedLabel l name text =>
    refine List.forall_mem_cons.mpr ⟨?_, fits_refresh Message.id⟩
    exact Holdings.mem_labels_renameLabel.mpr ⟨l, hlegal.1.1, if_pos rfl⟩
  | discardedLabel l =>
    refine List.forall_mem_cons.mpr ⟨fun k hk => ?_, fits_refresh Message.id⟩
    rcases hk with hk | ⟨t, ht, rfl⟩
    · exact bne_iff_ne.mp (List.mem_filter.mp hk).2
    · exact (hapart l hlegal.1.1 t ht).symm
  | synchronized stale =>
    intro t ht
    rcases List.mem_append.mp ht with ht | ht
    · exact fits_refresh Message.id t ht
    · rcases List.mem_cons.mp ht with rfl | ht
      · trivial
      · exact fits_refresh (fun i => i) t ht
  | retried =>
    intro t ht
    obtain ⟨a, -, rfl⟩ := List.mem_map.mp ht
    trivial

theorem Lapsed.fits (hlapsed : Lapsed caller h sound op acts tasks) :
    ∀ t ∈ tasks, t.Fits (h.after acts) := by
  cases hlapsed with
  | refused op => exact List.forall_mem_nil _
  | stopped op l hsound => exact List.forall_mem_nil _
  | unlisted =>
    intro t ht
    rcases List.mem_append.mp ht with ht | ht
    · exact fits_refresh Message.id t ht
    · exact List.mem_singleton.mp ht ▸ trivial

/-- Only deletions and sweeps discard messages. -/
theorem Owed.discarded (howed : Owed caller h arrears op acts tasks) (ha : .discard id ∈ acts) :
    (op = .delete id ∧ tasks = [.refresh id]) ∨
      (op = .clearTrash ∧ id ∈ trash h caller ∧ tasks = [.sweep (trash h caller)]) := by
  cases howed with
  | removed i =>
    cases List.mem_singleton.mp ha
    exact .inl ⟨rfl, rfl⟩
  | swept =>
    obtain ⟨i, hi, hieq⟩ := List.mem_map.mp ha
    cases hieq
    exact .inr ⟨rfl, hi, rfl⟩
  | _ => simp at ha

theorem Lapsed.not_discarded (hlapsed : Lapsed caller h sound op acts tasks) :
    .discard id ∉ acts := by
  cases hlapsed <;> simp

/-- What is retried is in the backlog, and what is swept is in the trash. -/
theorem Owed.mem_tasks {t : Task} (howed : Owed caller h arrears op acts tasks) (ht : t ∈ tasks) :
    (∀ a, t = .retry a → op = .retryPending ∧ a ∈ arrears) ∧
      ∀ ids, t = .sweep ids → ids = trash h caller := by
  cases howed with
  | retried =>
    obtain ⟨a, ha, rfl⟩ := List.mem_map.mp ht
    refine ⟨fun b hb => ?_, fun ids hids => (by cases hids)⟩
    cases hb
    exact ⟨rfl, ha⟩
  | swept =>
    obtain rfl := List.mem_singleton.mp ht
    refine ⟨fun b hb => (by cases hb), fun ids hids => ?_⟩
    cases hids
    rfl
  | _ =>
    refine ⟨fun b hb => ?_, fun ids hids => ?_⟩
    · subst hb
      simp at ht
    · subst hids
      simp at ht

theorem Lapsed.mem_tasks {t : Task} (hlapsed : Lapsed caller h sound op acts tasks)
    (ht : t ∈ tasks) : (∀ a, t ≠ .retry a) ∧ ∀ ids, t ≠ .sweep ids := by
  cases hlapsed with
  | unlisted =>
    refine ⟨fun b hb => ?_, fun ids hids => ?_⟩
    · subst hb
      simp at ht
    · subst hids
      simp at ht
  | _ => cases ht

end LabelMail.Mailroom
