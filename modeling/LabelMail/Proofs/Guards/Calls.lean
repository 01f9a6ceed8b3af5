import LabelMail.Proofs.Guards.Slots

/-!
Calls and what they have taken. A call for several ids takes one guard after the other and may have
to wait in between, while other calls come and go. What it has taken is known at any time from the
ids that it has still to ask for.
-/
namespace LabelMail.GuardBook

variable {b : GuardBook} {c : Call} {g : Guard} {id : String} {ids rest : List String} {n : Nat}

/-- A call that is being answered has taken the guards of the ids before those still to come. -/
structure Taking (b : GuardBook) (c : Call) (rest : List String) : Prop where
  new : ∀ d ∈ b.opened, d.number ≠ c.number
  called : c.number < b.called
  distinct : c.ids.Nodup
  taken : (b.takenBy c.number).map Guard.id ++ rest = c.ids

/-- Calls have numbers of their own, and one that has not ended has taken the guards of the ids
before the one that it waits for, one for each. -/
structure Accounted (b : GuardBook) : Prop where
  numbers : (b.opened.map Call.number).Nodup
  called : ∀ c ∈ b.opened, c.number < b.called
  distinct : ∀ c ∈ b.opened, c.ids.Nodup
  known : ∀ g ∈ b.held, g.call < b.called
  waits : ∀ w ∈ b.waiting, w.guard.call = w.call.number ∧
    (b.takenBy w.call.number).map Guard.id ++ w.guard.id :: w.call.rest = w.call.ids
  wakes : ∀ c ∈ b.woken, (b.takenBy c.number).map Guard.id ++ c.rest = c.ids

theorem isOpen_iff : b.isOpen n = true ↔ ∃ c ∈ b.opened, c.number = n := by
  simp [isOpen]

theorem mem_opened : c ∈ b.opened ↔ (∃ w ∈ b.waiting, w.call = c) ∨ c ∈ b.woken := by
  simp [opened]

theorem mem_takenBy : g ∈ b.takenBy n ↔ g ∈ b.held ∧ g.call = n := by
  simp [takenBy]

theorem takenBy_append_of_eq (h : g.call = n) :
    ({ b with held := b.held ++ [g] }).takenBy n = b.takenBy n ++ [g] := by
  simp [takenBy, h]

theorem takenBy_append_of_ne (h : g.call ≠ n) :
    ({ b with held := b.held ++ [g] }).takenBy n = b.takenBy n := by
  simp [takenBy, h]

theorem takenBy_erase (h : g.call ≠ n) :
    ({ b with held := b.held.erase g }).takenBy n = b.takenBy n := by
  simp only [takenBy, ← List.erase_filter]
  exact List.erase_of_not_mem fun hmem => h (by simpa using (List.mem_filter.mp hmem).2)

namespace Taking

theorem grant (ht : b.Taking c (id :: rest)) (hid : g.id = id) (hcall : g.call = c.number) :
    ({ b with held := b.held ++ [g] }).Taking c rest := by
  refine ⟨ht.new, ht.called, ht.distinct, ?_⟩
  rw [takenBy_append_of_eq hcall, List.map_append, List.append_assoc, ← ht.taken, ← hid]
  rfl

end Taking

namespace Accounted

theorem grant (ha : b.Accounted) (ht : b.Taking c rest) (hcall : g.call = c.number) :
    ({ b with held := b.held ++ [g] }).Accounted := by
  have hne : ∀ d ∈ b.opened, g.call ≠ d.number := fun d hd => hcall ▸ (ht.new d hd).symm
  refine ⟨ha.numbers, ha.called, ha.distinct, fun h hh => ?_, fun w hw => ?_, fun d hd => ?_⟩
  · rcases List.mem_append.mp hh with hh | hh
    · exact ha.known h hh
    · rw [List.mem_singleton.mp hh, hcall]
      exact ht.called
  · rw [takenBy_append_of_ne (hne w.call (mem_opened.mpr (.inl ⟨w, hw, rfl⟩)))]
    exact ha.waits w hw
  · rw [takenBy_append_of_ne (hne d (mem_opened.mpr (.inr hd)))]
    exact ha.wakes d hd

theorem queue (ha : b.Accounted) (ht : b.Taking c (g.id :: rest)) (hcall : g.call = c.number) :
    ({ b with waiting := b.waiting ++ [Wait.mk { c with rest := rest } g] }).Accounted := by
  have hopened :
      ({ b with waiting := b.waiting ++ [Wait.mk { c with rest := rest } g] }).opened.Perm
        ({ c with rest := rest } :: b.opened) := by
    simp only [opened, List.map_append, List.map_cons, List.map_nil, List.append_assoc,
      List.singleton_append]
    exact List.perm_middle
  refine ⟨?_, fun d hd => ?_, fun d hd => ?_, ha.known, fun w hw => ?_, ha.wakes⟩
  · have hnew : c.number ∉ b.opened.map Call.number := fun hmem => by
      obtain ⟨d, hd, heq⟩ := List.mem_map.mp hmem
      exact ht.new d hd heq
    exact (hopened.map Call.number).nodup_iff.mpr (List.nodup_cons.mpr ⟨hnew, ha.numbers⟩)
  · rcases List.mem_cons.mp (hopened.mem_iff.mp hd) with rfl | hd
    · exact ht.called
    · exact ha.called d hd
  · rcases List.mem_cons.mp (hopened.mem_iff.mp hd) with rfl | hd
    · exact ht.distinct
    · exact ha.distinct d hd
  · rcases List.mem_append.mp hw with hw | hw
    · exact ha.waits w hw
    · obtain rfl := List.mem_singleton.mp hw
      exact ⟨hcall, ht.taken⟩

/-- A call that starts has a number that no guard has. -/
theorem start (ha : b.Accounted) (holder : String) (hids : ids.Nodup) :
    ({ b with called := b.called + 1 }).Accounted ∧
      ({ b with called := b.called + 1 }).Taking ⟨b.called, holder, ids, ids⟩ ids := by
  constructor
  · exact ⟨ha.numbers, fun d hd => Nat.lt_succ_of_lt (ha.called d hd), ha.distinct,
      fun g hg => Nat.lt_succ_of_lt (ha.known g hg), ha.waits, ha.wakes⟩
  · refine ⟨fun d hd => Nat.ne_of_lt (ha.called d hd), Nat.lt_succ_self _, hids, ?_⟩
    have hnone : ({ b with called := b.called + 1 }).takenBy b.called = [] :=
      List.filter_eq_nil_iff.mpr fun g hg => by simpa using Nat.ne_of_lt (ha.known g hg)
    rw [hnone]
    rfl

/-- Calls that leave the book take their numbers with them. -/
theorem part (ha : b.Accounted) {waiting : List Wait} {woken : List Call}
    (hwaiting : waiting.Sublist b.waiting) (hwoken : woken.Sublist b.woken) :
    ({ b with waiting := waiting, woken := woken }).Accounted := by
  have hopened : ({ b with waiting := waiting, woken := woken }).opened.Sublist b.opened :=
    (hwaiting.map _).append hwoken
  exact ⟨ha.numbers.sublist (hopened.map _), fun d hd => ha.called d (hopened.subset hd),
    fun d hd => ha.distinct d (hopened.subset hd), ha.known,
    fun w hw => ha.waits w (hwaiting.subset hw), fun d hd => ha.wakes d (hwoken.subset hd)⟩

theorem resume (ha : b.Accounted) (hc : c ∈ b.woken) :
    ({ b with woken := b.woken.erase c }).Accounted ∧
      ({ b with woken := b.woken.erase c }).Taking c c.rest := by
  refine ⟨ha.part (.refl _) List.erase_sublist, fun d hd heq => ?_, ?_, ?_, ha.wakes c hc⟩
  · have hperm : b.opened.Perm (c :: ({ b with woken := b.woken.erase c }).opened) :=
      ((List.perm_cons_erase hc).append_left _).trans List.perm_middle
    have hnodup := (hperm.map Call.number).nodup_iff.mp ha.numbers
    exact (List.nodup_cons.mp hnodup).1 (List.mem_map.mpr ⟨d, hd, heq⟩)
  · exact ha.called c (mem_opened.mpr (.inr hc))
  · exact ha.distinct c (mem_opened.mpr (.inr hc))

/-- A call whose wait ends has the guard that it waited for. -/
theorem wake (ha : b.Accounted) {w : Wait} (hw : w ∈ b.waiting) :
    ({ b with
      held := b.held ++ [w.guard]
      waiting := b.waiting.erase w
      woken := b.woken ++ [w.call] }).Accounted := by
  obtain ⟨hcall, htaken⟩ := ha.waits w hw
  have hwaiting := List.perm_cons_erase hw
  have hopened : b.opened.Perm ((b.waiting.erase w).map (·.call) ++ (b.woken ++ [w.call])) := by
    refine ((hwaiting.map _).append_right _).trans ?_
    rw [← List.append_assoc, List.map_cons, List.cons_append]
    exact (List.perm_append_singleton _ _).symm
  have hapart : ∀ d ∈ (b.waiting.erase w).map (·.call) ++ b.woken, w.guard.call ≠ d.number := by
    intro d hd heq
    have hperm := (((hwaiting.map Wait.call).append_right b.woken).map Call.number).nodup_iff.mp
      ha.numbers
    rw [List.map_cons, List.cons_append] at hperm
    exact (List.nodup_cons.mp hperm).1 (List.mem_map.mpr ⟨d, hd, heq.symm.trans hcall⟩)
  refine ⟨(hopened.map _).nodup_iff.mp ha.numbers, fun d hd => ha.called d (hopened.mem_iff.mpr hd),
    fun d hd => ha.distinct d (hopened.mem_iff.mpr hd), fun h hh => ?_, fun v hv => ?_,
    fun d hd => ?_⟩
  · rcases List.mem_append.mp hh with hh | hh
    · exact ha.known h hh
    · rw [List.mem_singleton.mp hh, hcall]
      exact ha.called _ (mem_opened.mpr (.inl ⟨w, hw, rfl⟩))
  · have hne := hapart v.call (List.mem_append_left _ (List.mem_map.mpr ⟨v, hv, rfl⟩))
    have hold := ha.waits v (List.mem_of_mem_erase hv)
    rwa [← takenBy_append_of_ne hne] at hold
  · rcases List.mem_append.mp hd with hd | hd
    · have hold := ha.wakes d hd
      rwa [← takenBy_append_of_ne (hapart d (List.mem_append_right _ hd))] at hold
    · obtain rfl := List.mem_singleton.mp hd
      rw [← List.singleton_append, ← List.append_assoc] at htaken
      have hnow := takenBy_append_of_eq (b := b) hcall
      exact (congrArg (List.map Guard.id · ++ w.call.rest) hnow).trans (by simpa using htaken)

theorem drop (ha : b.Accounted) : (b.drop g).Accounted := by
  rw [GuardBook.drop]
  split
  · next hout =>
    have hother : ∀ d ∈ b.opened, g.call ≠ d.number := fun d hd heq =>
      hout.2 (isOpen_iff.mpr ⟨d, hd, heq.symm⟩)
    have hless : ({ b with held := b.held.erase g }).Accounted := by
      refine ⟨ha.numbers, ha.called, ha.distinct, fun h hh => ha.known h (List.mem_of_mem_erase hh),
        fun w hw => ?_, fun d hd => ?_⟩
      · rw [takenBy_erase (hother _ (mem_opened.mpr (.inl ⟨w, hw, rfl⟩)))]
        exact ha.waits w hw
      · rw [takenBy_erase (hother d (mem_opened.mpr (.inr hd)))]
        exact ha.wakes d hd
    cases hfind : b.waiting.find? (·.guard.lock == g.lock) with
    | none => exact hless
    | some w => exact hless.wake (List.mem_of_find?_eq_some hfind)
  · exact ha

end Accounted

end LabelMail.GuardBook
