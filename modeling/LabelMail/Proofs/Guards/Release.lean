import LabelMail.Proofs.Guards.Calls

/-!
Giving guards back. A guard that is given back leaves the book. Its id has no guard from then on,
unless somebody waits for it: then the one that has waited longest has it. A call that is given up
gives back all that it has taken.
-/
namespace LabelMail.GuardBook

variable {b : GuardBook} {g : Guard} {n : Nat}

def IsHeld (b : GuardBook) (id : String) : Prop :=
  ∃ g ∈ b.held, g.id = id

/-- What giving back a guard makes of the book, where nothing else changes. -/
inductive GivesBack (b : GuardBook) (g : Guard) (b' : GuardBook) : Prop
  | freed (hnone : ∀ w ∈ b.waiting, w.guard.id ≠ g.id)
      (heq : b' = { b with held := b.held.erase g })
  | passed {w : Wait} {before after : List Wait} (hwaiting : b.waiting = before ++ w :: after)
      (hid : w.guard.id = g.id) (hlonger : ∀ v ∈ before, v.guard.id ≠ g.id)
      (heq : b' = { b with
        held := b.held.erase g ++ [w.guard]
        waiting := before ++ after
        woken := b.woken ++ [w.call] })

/-- A call that has ended early: nothing of it is left, and no other guard is touched. -/
structure GivesUp (b : GuardBook) (n : Nat) (b' : GuardBook) : Prop where
  ended : b'.isOpen n = false
  returned : b'.takenBy n = []
  spared : ∀ g ∈ b.held, g.call ≠ n → g ∈ b'.held

namespace Exclusive

/-- Whoever waits for the lock of a guard waits for its id, whatever locks the id had before. -/
theorem awaits_iff (hb : b.Exclusive) (hg : g ∈ b.held) {w : Wait} (hw : w ∈ b.waiting) :
    w.guard.lock = g.lock ↔ w.guard.id = g.id := by
  have hwaited := (hb.awaited w hw).1
  have hheld := hb.slotted g hg
  exact ⟨fun h => hb.id_unique (h ▸ hwaited) hheld, fun h => hb.lock_unique (h ▸ hwaited) hheld⟩

theorem drop_givesBack (hb : b.Exclusive) (hg : g ∈ b.held) (hended : b.isOpen g.call = false) :
    b.GivesBack g (b.drop g) := by
  rw [GuardBook.drop, if_pos ⟨hg, by simp [hended]⟩]
  cases hfind : b.waiting.find? (·.guard.lock == g.lock) with
  | none =>
    refine .freed (fun w hw hid => ?_) rfl
    exact List.find?_eq_none.mp hfind w hw (beq_iff_eq.mpr ((hb.awaits_iff hg hw).mpr hid))
  | some w =>
    obtain ⟨hfound, before, after, hwaiting, hbefore⟩ := List.find?_eq_some_iff_append.mp hfind
    have hlock : w.guard.lock = g.lock := beq_iff_eq.mp hfound
    have hw : w ∈ b.waiting := hwaiting ▸ List.mem_append_right _ List.mem_cons_self
    have hlonger : ∀ v ∈ before, v.guard.lock ≠ g.lock := by simpa using hbefore
    have hnot : w ∉ before := fun hmem => hlonger w hmem hlock
    have herase : b.waiting.erase w = before ++ after := by
      rw [hwaiting, List.erase_append_right _ hnot, List.erase_cons_head]
    refine .passed hwaiting ((hb.awaits_iff hg hw).mp hlock) (fun v hv hid => ?_) (herase ▸ rfl)
    have hv' : v ∈ b.waiting := hwaiting ▸ List.mem_append_left _ hv
    exact hlonger v hv ((hb.awaits_iff hg hv').mpr hid)

/-- Where nobody waits for it, the id of a guard that was given back has no guard. -/
theorem not_isHeld_drop (hb : b.Exclusive) (hg : g ∈ b.held) (hended : b.isOpen g.call = false)
    (hnone : ∀ w ∈ b.waiting, w.guard.id ≠ g.id) : ¬ (b.drop g).IsHeld g.id := by
  have hheld : (b.drop g).held = b.held.erase g := by
    cases hb.drop_givesBack hg hended with
    | freed _ heq => rw [heq]
    | passed hwaiting hid _ _ =>
      exact absurd hid (hnone _ (hwaiting ▸ List.mem_append_right _ List.mem_cons_self))
  rintro ⟨h, hh, hid⟩
  rw [hheld] at hh
  obtain rfl := List.inj_on_of_nodup_map hb.nodup_ids (List.mem_of_mem_erase hh) hg hid
  have hnodup : b.held.Nodup := .of_map _ hb.guarded
  exact (hnodup.mem_erase_iff.mp hh).1 rfl

end Exclusive

namespace Accounted

/-- A guard of a call that has ended goes out of the hands of that call, and of no other. -/
theorem drop_takes (ha : b.Accounted) (hended : b.isOpen n = false) (hg : g ∈ b.held)
    (hcall : g.call = n) :
    (b.drop g).isOpen n = false ∧ (b.drop g).takenBy n = (b.takenBy n).erase g ∧
      ∀ h ∈ b.held, h.call ≠ n → h ∈ (b.drop g).held := by
  have htaken : ({ b with held := b.held.erase g }).takenBy n = (b.takenBy n).erase g :=
    (List.erase_filter ..).symm
  have hstays : ∀ h ∈ b.held, h.call ≠ n → h ∈ b.held.erase g := fun h hh hne =>
    (List.mem_erase_of_ne fun heq => hne ((congrArg Guard.call heq).trans hcall)).mpr hh
  rw [GuardBook.drop, if_pos ⟨hg, by simp [hcall, hended]⟩]
  cases hfind : b.waiting.find? (·.guard.lock == g.lock) with
  | none => exact ⟨hended, htaken, hstays⟩
  | some w =>
    have hw : w ∈ b.waiting := List.mem_of_find?_eq_some hfind
    have hopen : ∀ c ∈ b.opened, c.number ≠ n := fun c hc heq =>
      Bool.false_ne_true (hended.symm.trans (isOpen_iff.mpr ⟨c, hc, heq⟩))
    have hother : w.guard.call ≠ n := by
      rw [(ha.waits w hw).1]
      exact hopen w.call (mem_opened.mpr (.inl ⟨w, hw, rfl⟩))
    refine ⟨Bool.eq_false_iff.mpr fun hnow => ?_, ?_, fun h hh hne => ?_⟩
    · obtain ⟨c, hc, hnumber⟩ := isOpen_iff.mp hnow
      refine hopen c (mem_opened.mpr ?_) hnumber
      rcases mem_opened.mp hc with ⟨v, hv, rfl⟩ | hc
      · exact .inl ⟨v, List.mem_of_mem_erase hv, rfl⟩
      · rcases List.mem_append.mp hc with hc | hc
        · exact .inr hc
        · exact .inl ⟨w, hw, (List.mem_singleton.mp hc).symm⟩
    · exact (takenBy_append_of_ne hother).trans htaken
    · exact List.mem_append_left _ (hstays h hh hne)

/-- By induction on the guards of the call, which go in the order in which they were taken. -/
theorem dropAll_givesUp {guards : List Guard} (ha : b.Accounted) (hended : b.isOpen n = false)
    (htaken : b.takenBy n = guards) : b.GivesUp n (b.dropAll guards) := by
  induction guards generalizing b with
  | nil => exact ⟨hended, htaken, fun g hg _ => hg⟩
  | cons g guards ih =>
    obtain ⟨hg, hcall⟩ := mem_takenBy.mp (htaken ▸ List.mem_cons_self : g ∈ b.takenBy n)
    obtain ⟨hended', hless, hspared⟩ := ha.drop_takes hended hg hcall
    have hrest : (b.drop g).takenBy n = guards := by rw [hless, htaken, List.erase_cons_head]
    obtain ⟨hend, hnone, hlater⟩ := ih ha.drop hended' hrest
    exact ⟨hend, hnone, fun h hh hne => hlater h (hspared h hh hne) hne⟩

theorem giveUp_givesUp (ha : b.Accounted) (hopen : b.isOpen n = true) :
    b.GivesUp n (b.giveUp n) := by
  rw [GuardBook.giveUp, if_pos hopen]
  have hparted : ({ b with
      waiting := b.waiting.filter (·.call.number != n)
      woken := b.woken.filter (·.number != n) }).Accounted :=
    ha.part List.filter_sublist List.filter_sublist
  obtain ⟨hend, hnone, hspared⟩ := hparted.dropAll_givesUp (n := n) (by simp [isOpen, opened]) rfl
  exact ⟨hend, hnone, hspared⟩

end Accounted

end LabelMail.GuardBook
