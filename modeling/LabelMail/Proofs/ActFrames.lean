import LabelMail.Proofs.Acts

/-!
What acts leave alone. Other owners' messages and labels stay as they are, except that an act may
enter a message for another; and an act that is about one message leaves all others.
-/
namespace LabelMail

section Filtering

variable {α : Type} {p q : α → Bool} {f : α → α} {l : List α}

/-- A change that does not reach what is selected does not show in the selection. -/
theorem filter_map_of_fixed (hkept : ∀ x ∈ l, p (f x) = p x)
    (hfixed : ∀ x ∈ l, p x = true → f x = x) : (l.map f).filter p = l.filter p := by
  induction l with
  | nil => rfl
  | cons a l ih =>
    have hrest := ih (fun x hx => hkept x (List.mem_cons_of_mem a hx))
      fun x hx => hfixed x (List.mem_cons_of_mem a hx)
    rw [List.map_cons, List.filter_cons, List.filter_cons, hrest, hkept a List.mem_cons_self]
    split
    · next ha => rw [hfixed a List.mem_cons_self ha]
    · rfl

theorem filter_filter_of_imp (himp : ∀ x ∈ l, p x = true → q x = true) :
    (l.filter q).filter p = l.filter p := by
  rw [List.filter_filter]
  refine List.filter_congr fun x hx => ?_
  cases hp : p x with
  | true => rw [himp x hx hp, Bool.and_true]
  | false => rw [Bool.false_and]

end Filtering

/-- The message that the act enters. -/
def Act.entered? : Act → Option Message
  | .enter m => some m
  | _ => none

/-- The act changes no other message. -/
def Act.About (id : String) : Act → Prop
  | .alter m => m.id = id
  | .discard i => i = id
  | .enterLabel _ => True
  | _ => False

namespace Holdings

variable {h : Holdings} {a : Act} {acts : List Act} {caller owner id : String}
variable {fresh : String → Prop}

theorem Fits.messages_of (hfits : h.Fits caller fresh a) (ho : h.Orderly) (hne : owner ≠ caller) :
    (h.apply a).messages.filter (·.ownerId == owner) =
      h.messages.filter (·.ownerId == owner) ++ a.entered?.toList.filter (·.ownerId == owner) := by
  have hother {m : Message} (hm : m.ownerId = caller) : (m.ownerId == owner) = false :=
    beq_eq_false_iff_ne.mpr fun heq => hne (heq.symm.trans hm)
  cases a with
  | enter m => exact List.filter_append ..
  | alter m =>
    obtain ⟨y, hy, howner, hedit⟩ := hfits
    have hid : y.id = m.id := congrArg Row.id hedit.envelope.symm
    have hcaller {x : Message} (hx : x ∈ h.messages) (hxm : x.id = m.id) : x.ownerId = caller := by
      rw [eq_of_id ho.ids hx hy (hxm.trans hid.symm), howner]
    refine (filter_map_of_fixed (fun x hx => ?_) fun x hx hsel => ?_).trans (List.append_nil _).symm
    · split
      · next hxm => rw [hother (hcaller hx hxm), hother (hedit.ownerId.trans howner)]
      · rfl
    · refine if_neg fun hxm => ?_
      rw [hother (hcaller hx hxm)] at hsel
      cases hsel
  | discard id =>
    obtain ⟨y, hy, hid, howner⟩ := hfits
    refine (filter_filter_of_imp fun x hx hsel => ?_).trans (List.append_nil _).symm
    refine bne_iff_ne.mpr fun hxid => ?_
    obtain rfl := eq_of_id ho.ids hx hy (hxid.trans hid.symm)
    rw [hother howner] at hsel
    cases hsel
  | enterLabel l => exact (List.append_nil _).symm
  | renameLabel l name =>
    refine (filter_map_of_fixed (fun x _ => ?_) fun x _ hsel => ?_).trans (List.append_nil _).symm
    · split <;> rfl
    · refine if_neg fun hcase => ?_
      rw [hother (hcase.1.trans hfits.2.1)] at hsel
      cases hsel
  | discardLabel l =>
    refine (filter_map_of_fixed (fun x _ => ?_) fun x _ hsel => ?_).trans (List.append_nil _).symm
    · split <;> rfl
    · refine if_neg fun hcase => ?_
      rw [hother (hcase.1.trans hfits.2)] at hsel
      cases hsel

theorem Fits.labels_of (hfits : h.Fits caller fresh a) (ho : h.Orderly) (hne : owner ≠ caller) :
    (h.apply a).labels.filter (·.ownerId == owner) = h.labels.filter (·.ownerId == owner) := by
  have hother {l : Label} (hl : l.ownerId = caller) : (l.ownerId == owner) = false :=
    beq_eq_false_iff_ne.mpr fun heq => hne (heq.symm.trans hl)
  cases a with
  | enter m => rfl
  | alter m => rfl
  | discard id => rfl
  | enterLabel l =>
    refine (List.filter_append ..).trans ?_
    rw [List.filter_cons, hother hfits.1]
    exact List.append_nil _
  | renameLabel l name =>
    obtain ⟨hl, howner, -⟩ := hfits
    refine filter_map_of_fixed (fun k _ => ?_) fun k hk hsel => ?_
    · split <;> rfl
    · refine if_neg fun hid => ?_
      rw [ho.eq_of_labelId hk hl hid, hother howner] at hsel
      cases hsel
  | discardLabel l =>
    obtain ⟨hl, howner⟩ := hfits
    refine filter_filter_of_imp fun k hk hsel => bne_iff_ne.mpr fun hid => ?_
    rw [ho.eq_of_labelId hk hl hid, hother howner] at hsel
    cases hsel

/-- Of another owner's messages nothing changes but what was entered for the owner. -/
theorem Legal.messages_of (hlegal : h.Legal caller fresh acts) (ho : h.Orderly)
    (hne : owner ≠ caller) :
    (h.after acts).messages.filter (·.ownerId == owner) =
      h.messages.filter (·.ownerId == owner) ++
        (acts.filterMap Act.entered?).filter (·.ownerId == owner) := by
  induction acts generalizing h with
  | nil => exact (List.append_nil _).symm
  | cons a acts ih =>
    have hrest := ih hlegal.2 (ho.apply hlegal.1)
    rw [hlegal.1.messages_of ho hne, List.append_assoc, ← List.filter_append] at hrest
    have hentered : (a :: acts).filterMap Act.entered? =
        a.entered?.toList ++ acts.filterMap Act.entered? := by
      cases ha : a.entered? with
      | none => simp [ha]
      | some m => simp [ha]
    rw [hentered]
    exact hrest

theorem Legal.labels_of (hlegal : h.Legal caller fresh acts) (ho : h.Orderly)
    (hne : owner ≠ caller) :
    (h.after acts).labels.filter (·.ownerId == owner) =
      h.labels.filter (·.ownerId == owner) := by
  induction acts generalizing h with
  | nil => rfl
  | cons a acts ih =>
    exact (ih hlegal.2 (ho.apply hlegal.1)).trans (hlegal.1.labels_of ho hne)

/-- Acts about one message leave the others. -/
theorem messages_ne (hacts : ∀ a ∈ acts, a.About id) :
    (h.after acts).messages.filter (·.id != id) = h.messages.filter (·.id != id) := by
  induction acts generalizing h with
  | nil => rfl
  | cons a acts ih =>
    refine (ih fun b hb => hacts b (List.mem_cons_of_mem a hb)).trans ?_
    have ha : a.About id := hacts a List.mem_cons_self
    cases a with
    | alter m =>
      obtain rfl : m.id = id := ha
      refine filter_map_of_fixed (fun x _ => ?_) fun x _ hsel => if_neg (bne_iff_ne.mp hsel)
      split
      · next hxm => rw [hxm]
      · rfl
    | discard i =>
      obtain rfl : i = id := ha
      exact filter_filter_of_imp fun _ _ hsel => hsel
    | enterLabel l => rfl
    | enter m => exact ha.elim
    | renameLabel l name => exact ha.elim
    | discardLabel l => exact ha.elim

end Holdings

end LabelMail
