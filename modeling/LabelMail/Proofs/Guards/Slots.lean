import LabelMail.Guard
import LabelMail.Proofs.RowOrder
import Mathlib.Data.List.Nodup
import Mathlib.Data.List.Perm.Basic

/-!
Locks and their slots. Striking out idle slots forgets the locks of ids that nobody has, so an id
can have several locks one after the other. That two of them are never in use at a time comes from
one invariant: the slot of whatever is held or waited for is in the book.
-/
namespace LabelMail

section Squeezing

variable {a : String} {l : List String}

theorem mem_squeeze : a ∈ squeeze l ↔ a ∈ l := by
  fun_induction squeeze l with
  | case1 => rfl
  | case2 => rfl
  | case3 c r ih => simp [ih]
  | case4 c d r hne ih => simp [ih]

theorem pairwise_squeeze (hl : l.Pairwise (· ≤ ·)) : (squeeze l).Pairwise (· < ·) := by
  fun_induction squeeze l with
  | case1 => exact .nil
  | case2 => exact List.pairwise_singleton _ _
  | case3 c r ih => exact ih (List.pairwise_cons.mp hl).2
  | case4 c d r hne ih =>
    obtain ⟨hc, hrest⟩ := List.pairwise_cons.mp hl
    refine List.pairwise_cons.mpr ⟨fun x hx => ?_, ih hrest⟩
    have hdx : d ≤ x := by
      rcases List.mem_cons.mp (mem_squeeze.mp hx) with rfl | hx
      · exact String.le_refl _
      · exact (List.pairwise_cons.mp hrest).1 x hx
    refine String.not_le.mp fun hxc => hne ?_
    exact String.le_antisymm (hc d List.mem_cons_self) (String.le_trans hdx hxc)

end Squeezing

theorem nodup_map_append_singleton {α β : Type} {f : α → β} {a : α} {l : List α}
    (hl : (l.map f).Nodup) (ha : ∀ x ∈ l, f x ≠ f a) : ((l ++ [a]).map f).Nodup := by
  rw [List.map_append]
  refine hl.append (List.nodup_singleton _) fun y hy hya => ?_
  obtain ⟨x, hx, rfl⟩ := List.mem_map.mp hy
  exact ha x hx (List.mem_singleton.mp hya)

namespace GuardBook

variable {b : GuardBook} {g : Guard} {id : String} {ids : List String} {n : Nat}

theorem mem_inOrder : id ∈ inOrder ids ↔ id ∈ ids := by
  rw [inOrder, mem_squeeze, mem_sortBy]

theorem nodup_inOrder : (inOrder ids).Nodup := by
  refine (pairwise_squeeze (pairwise_sortBy_text ids)).imp fun {a b} hlt heq => ?_
  exact String.lt_irrefl b (heq ▸ hlt)

theorem isShut_iff : b.isShut n = true ↔ ∃ g ∈ b.held, g.lock = n := by
  simp [isShut]

theorem isUsed_of_isShut (h : b.isShut n = true) : b.isUsed n = true := by
  rw [isUsed, h, Bool.true_or]

/-- What is held or waited for has the lock of its id's slot, and every lock has one guard. -/
structure Exclusive (b : GuardBook) : Prop where
  ids : (b.slots.map Prod.fst).Nodup
  locks : (b.slots.map Prod.snd).Nodup
  made : ∀ s ∈ b.slots, s.2 < b.made
  guarded : (b.held.map Guard.lock).Nodup
  slotted : ∀ g ∈ b.held, (g.id, g.lock) ∈ b.slots
  awaited : ∀ w ∈ b.waiting, (w.guard.id, w.guard.lock) ∈ b.slots ∧ b.isShut w.guard.lock = true

namespace Exclusive

theorem lock_unique (hb : b.Exclusive) {m : Nat} (hm : (id, m) ∈ b.slots) (hn : (id, n) ∈ b.slots) :
    m = n :=
  congrArg Prod.snd (List.inj_on_of_nodup_map hb.ids hm hn rfl)

theorem id_unique (hb : b.Exclusive) {id' : String} (h : (id, n) ∈ b.slots)
    (h' : (id', n) ∈ b.slots) : id = id' :=
  congrArg Prod.fst (List.inj_on_of_nodup_map hb.locks h h' rfl)

/-- A lock is shut while its id is held, under whatever lock that happened. -/
theorem isShut_iff_held (hb : b.Exclusive) (hs : (id, n) ∈ b.slots) :
    b.isShut n = true ↔ ∃ g ∈ b.held, g.id = id := by
  rw [isShut_iff]
  constructor
  · rintro ⟨g, hg, rfl⟩
    exact ⟨g, hg, hb.id_unique (hb.slotted g hg) hs⟩
  · rintro ⟨g, hg, rfl⟩
    exact ⟨g, hg, hb.lock_unique (hb.slotted g hg) hs⟩

theorem nodup_ids (hb : b.Exclusive) : (b.held.map Guard.id).Nodup := by
  refine (List.nodup_map_iff_inj_on (List.Nodup.of_map _ hb.guarded)).mpr fun g hg h hh hid => ?_
  refine List.inj_on_of_nodup_map hb.guarded hg hh ?_
  exact hb.lock_unique (hb.slotted g hg) (hid ▸ hb.slotted h hh)

/-- Striking out slots spares those that are held or waited for. -/
theorem pruned (hb : b.Exclusive) : b.pruned.Exclusive := by
  rw [GuardBook.pruned]
  split
  · exact hb
  · have hsub := List.filter_sublist (p := fun s => b.isUsed s.2) (l := b.slots)
    refine ⟨hb.ids.sublist (hsub.map _), hb.locks.sublist (hsub.map _),
      fun s hs => hb.made s (hsub.subset hs), hb.guarded, fun g hg => ?_, fun w hw => ?_⟩
    · have hused := isUsed_of_isShut (isShut_iff.mpr ⟨g, hg, rfl⟩)
      exact List.mem_filter.mpr ⟨hb.slotted g hg, hused⟩
    · obtain ⟨hs, hshut⟩ := hb.awaited w hw
      exact ⟨List.mem_filter.mpr ⟨hs, isUsed_of_isShut hshut⟩, hshut⟩

/-- Where slots are struck out, there are as many left as guards at most. -/
theorem length_pruned (hb : b.Exclusive) :
    b.pruned.slots.length ≤ max (limit - 1) b.held.length := by
  rw [GuardBook.pruned]
  split
  · next hfew => omega
  · have hsub : ((b.slots.filter fun s => b.isUsed s.2).map Prod.snd) ⊆ b.held.map Guard.lock := by
      intro m hm
      obtain ⟨s, hs, rfl⟩ := List.mem_map.mp hm
      have hshut : b.isShut s.2 = true := by
        rcases Bool.or_eq_true_iff.mp (List.mem_filter.mp hs).2 with h | h
        · exact h
        · obtain ⟨w, hw, hlock⟩ := List.any_eq_true.mp h
          exact beq_iff_eq.mp hlock ▸ (hb.awaited w hw).2
      obtain ⟨g, hg, hlock⟩ := isShut_iff.mp hshut
      exact List.mem_map.mpr ⟨g, hg, hlock⟩
    have hnodup : ((b.slots.filter fun s => b.isUsed s.2).map Prod.snd).Nodup :=
      hb.locks.sublist (List.filter_sublist.map _)
    have hle := hnodup.length_le_of_subset hsub
    rw [List.length_map, List.length_map] at hle
    exact Nat.le_trans hle (Nat.le_max_right _ _)

theorem withSlot (hb : b.Exclusive) (id : String) : (b.withSlot id).1.Exclusive := by
  rw [GuardBook.withSlot]
  cases hfind : b.slots.find? (·.1 == id) with
  | some s => exact hb
  | none =>
    have hnew : ∀ s ∈ b.slots, s.1 ≠ id := by simpa using List.find?_eq_none.mp hfind
    have hfresh : ∀ s ∈ b.slots, s.2 ≠ b.made := fun s hs => Nat.ne_of_lt (hb.made s hs)
    refine ⟨nodup_map_append_singleton hb.ids hnew, nodup_map_append_singleton hb.locks hfresh,
      fun s hs => ?_, hb.guarded, fun g hg => ?_, fun w hw => ?_⟩
    · rcases List.mem_append.mp hs with hs | hs
      · exact Nat.lt_succ_of_lt (hb.made s hs)
      · rw [List.mem_singleton.mp hs]
        exact Nat.lt_succ_self _
    · exact List.mem_append_left _ (hb.slotted g hg)
    · exact ⟨List.mem_append_left _ (hb.awaited w hw).1, (hb.awaited w hw).2⟩

theorem grant (hb : b.Exclusive) (hs : (g.id, g.lock) ∈ b.slots) (hfree : b.isShut g.lock = false) :
    ({ b with held := b.held ++ [g] }).Exclusive := by
  have hnew : ∀ h ∈ b.held, h.lock ≠ g.lock := by simpa [isShut] using hfree
  refine ⟨hb.ids, hb.locks, hb.made, nodup_map_append_singleton hb.guarded hnew, fun h hh => ?_,
    fun w hw => ?_⟩
  · rcases List.mem_append.mp hh with hh | hh
    · exact hb.slotted h hh
    · exact List.mem_singleton.mp hh ▸ hs
  · obtain ⟨hs', hshut⟩ := hb.awaited w hw
    obtain ⟨h, hh, hlock⟩ := isShut_iff.mp hshut
    exact ⟨hs', isShut_iff.mpr ⟨h, List.mem_append_left _ hh, hlock⟩⟩

theorem queue (hb : b.Exclusive) {w : Wait} (hs : (w.guard.id, w.guard.lock) ∈ b.slots)
    (hshut : b.isShut w.guard.lock = true) :
    ({ b with waiting := b.waiting ++ [w] }).Exclusive := by
  refine ⟨hb.ids, hb.locks, hb.made, hb.guarded, hb.slotted, fun v hv => ?_⟩
  rcases List.mem_append.mp hv with hv | hv
  · exact hb.awaited v hv
  · obtain rfl := List.mem_singleton.mp hv
    exact ⟨hs, hshut⟩

/-- Whoever waits for the lock of a guard that is given back gets it, so that the others that wait
for it go on waiting for a lock that is shut. -/
theorem drop (hb : b.Exclusive) : (b.drop g).Exclusive := by
  rw [GuardBook.drop]
  split
  · next hout =>
    have hrest : (b.held.erase g).map Guard.lock |>.Nodup :=
      hb.guarded.sublist (List.erase_sublist.map _)
    have hgone : ∀ h ∈ b.held.erase g, h.lock ≠ g.lock := by
      have hcons := ((List.perm_cons_erase hout.1).map Guard.lock).nodup_iff.mp hb.guarded
      exact fun h hh heq => (List.nodup_cons.mp hcons).1 (List.mem_map.mpr ⟨h, hh, heq⟩)
    have hstay : ∀ n ≠ g.lock, b.isShut n = true → ∃ h ∈ b.held.erase g, h.lock = n := by
      intro n hn hshut
      obtain ⟨h, hh, rfl⟩ := isShut_iff.mp hshut
      have hne : h ≠ g := fun heq => hn (congrArg Guard.lock heq)
      exact ⟨h, (List.mem_erase_of_ne hne).mpr hh, rfl⟩
    cases hfind : b.waiting.find? (·.guard.lock == g.lock) with
    | none =>
      have hnone : ∀ w ∈ b.waiting, w.guard.lock ≠ g.lock := by
        simpa using List.find?_eq_none.mp hfind
      refine ⟨hb.ids, hb.locks, hb.made, hrest, fun h hh => ?_, fun w hw => ?_⟩
      · exact hb.slotted h (List.mem_of_mem_erase hh)
      · obtain ⟨hs, hshut⟩ := hb.awaited w hw
        exact ⟨hs, isShut_iff.mpr (hstay _ (hnone w hw) hshut)⟩
    | some w =>
      have hw : w ∈ b.waiting := List.mem_of_find?_eq_some hfind
      have hlock : w.guard.lock = g.lock := by simpa using List.find?_some hfind
      refine ⟨hb.ids, hb.locks, hb.made, ?_, fun h hh => ?_, fun v hv => ?_⟩
      · exact nodup_map_append_singleton hrest fun h hh => hlock ▸ hgone h hh
      · rcases List.mem_append.mp hh with hh | hh
        · exact hb.slotted h (List.mem_of_mem_erase hh)
        · exact List.mem_singleton.mp hh ▸ (hb.awaited w hw).1
      · obtain ⟨hs, hshut⟩ := hb.awaited v (List.mem_of_mem_erase hv)
        refine ⟨hs, isShut_iff.mpr ?_⟩
        by_cases hsame : v.guard.lock = g.lock
        · refine ⟨w.guard, ?_, hlock.trans hsame.symm⟩
          exact List.mem_append_right _ (List.mem_singleton_self _)
        · obtain ⟨h, hh, heq⟩ := hstay _ hsame hshut
          exact ⟨h, List.mem_append_left _ hh, heq⟩
  · exact hb

end Exclusive

end GuardBook

end LabelMail
