import LabelMail.Proofs.Replica.Showing
import LabelMail.Proofs.RowOrder

/-!
Copies that are complete. When all messages of an owner are mirrored and the replica has no other
rows of the owner, it lists the mailbox as it is stored; and copying a mirrored message once more
changes nothing.
-/
namespace LabelMail.Replica

section Keyed

variable {α : Type} {key : α → String} {f : α → α} {a b : α} {l : List α}

/-- A put that would leave the entry with its key as it is changes nothing. -/
theorem putKeyed_eq_self (hnodup : (l.map key).Nodup) (hb : b ∈ l) (hkey : key b = key a)
    (hf : f b = b) : putKeyed key f a l = l := by
  induction l with
  | nil => cases hb
  | cons c l ih =>
    obtain ⟨hc, hl⟩ := List.nodup_cons.mp hnodup
    rw [putKeyed]
    rcases List.mem_cons.mp hb with rfl | hb
    · rw [if_pos hkey, hf]
    · have hne : key c ≠ key a := fun hca => hc (hca.trans hkey.symm ▸ List.mem_map_of_mem hb)
      rw [if_neg hne, ih hl hb]

end Keyed

namespace Rows

variable {R R' R'' : Rows} {h : Holdings} {m : Message} {labels ls : List Label} {l : Label}
variable {owner : String}

/-- The tables have the same messages and labels, and there are links between the same two. -/
structure Unchanged (R R' : Rows) : Prop where
  messages : R'.messages = R.messages
  labels : R'.labels = R.labels
  links : ∀ l : Link, l ∈ R'.links ↔ l ∈ R.links

theorem Unchanged.refl (R : Rows) : R.Unchanged R := ⟨rfl, rfl, fun _ => Iff.rfl⟩

theorem Unchanged.trans (hu : R.Unchanged R') (hu' : R'.Unchanged R'') : R.Unchanged R'' :=
  ⟨hu'.messages.trans hu.messages, hu'.labels.trans hu.labels,
    fun l => (hu'.links l).trans (hu.links l)⟩

theorem Unchanged.mirrors (hu : R.Unchanged R') (hmir : R.Mirrors m labels) :
    R'.Mirrors m labels where
  row := hu.messages ▸ hmir.row
  links id := (hu.links _).trans (hmir.links id)
  names l hl := by
    obtain ⟨k, hk, hkl⟩ := hmir.names l hl
    exact ⟨k, hu.labels ▸ hk, hkl⟩

theorem putLabelRow_eq_self (hlabelIds : (R.labels.map Label.id).Nodup) (hl : R.Names l) :
    putLabelRow l R.labels = R.labels := by
  obtain ⟨k, hk', hid, hname⟩ := hl
  rw [putLabelRow_eq]
  exact putKeyed_eq_self hlabelIds hk' hid (by rw [← hname])

theorem putLabelRows_eq_self (hk : R.Kept h) (hls : ∀ l ∈ ls, R.Names l) :
    R.putLabelRows ls = R := by
  induction ls with
  | nil => rfl
  | cons l ls ih =>
    have hrest : R.putLabelRows (l :: ls) =
        putLabelRows ls { R with labels := putLabelRow l R.labels } := rfl
    rw [hrest, putLabelRow_eq_self hk.labelIds (hls l List.mem_cons_self)]
    exact ih fun k hk' => hls k (List.mem_cons_of_mem l hk')

theorem putRow_eq_self (hk : R.Kept h) (hrow : Row.ofMessage m ∈ R.messages) :
    putRow (.ofMessage m) R.messages = R.messages := by
  rw [putRow_eq]
  exact putKeyed_eq_self hk.ids hrow rfl rfl

/-- Of a message that is mirrored, row and labels are put as they are. -/
theorem Mirrors.put_eq_self (hmir : R.Mirrors m labels) (hk : R.Kept h) : R.put m labels = R := by
  rw [put, putRow_eq_self hk hmir.row]
  exact putLabelRows_eq_self hk hmir.names

theorem Copied.unchanged (hc : Copied m labels R R') (hmir : R.Mirrors m labels)
    (hk : R.Kept h) : R.Unchanged R' := by
  rw [Copied, hmir.put_eq_self hk] at hc
  refine ⟨hc.messages, hc.known fun i hi => ?_, fun l => ?_⟩
  · obtain ⟨l, hl, rfl⟩ := List.mem_map.mp hi
    obtain ⟨k, hk', hkid, -⟩ := hmir.names l hl
    exact List.any_eq_true.mpr ⟨k, hk', by simpa using hkid⟩
  · rw [hc.links]
    split
    · next hid =>
      rw [List.mem_map, ← hmir.links l.labelId, ← hid]
    · exact Iff.rfl

/-- Of this owner the replica has what is stored and nothing else. -/
structure Complete (h : Holdings) (owner : String) (R : Rows) : Prop where
  mirrored : ∀ m ∈ h.messages, m.ownerId = owner → R.Mirrors m (h.labelsOf m)
  stored : ∀ row ∈ R.messages, row.ownerId = owner →
    ∃ m ∈ h.messages, m.ownerId = owner ∧ m.id = row.id

theorem Complete.mem_rows (hc : R.Complete h owner) (hk : R.Kept h) {row : Row} :
    row ∈ R.messages.filter (·.ownerId == owner) ↔ row ∈ (h.mailbox owner).map Row.ofMessage := by
  rw [List.mem_filter, List.mem_map, beq_iff_eq]
  constructor
  · rintro ⟨hrow, howner⟩
    obtain ⟨m, hm, hmowner, hid⟩ := hc.stored row hrow howner
    exact ⟨m, Holdings.mem_mailbox.mpr ⟨hm, hmowner⟩,
      List.inj_on_of_nodup_map hk.ids (hc.mirrored m hm hmowner).row hrow hid⟩
  · rintro ⟨m, hm, rfl⟩
    obtain ⟨hm, howner⟩ := Holdings.mem_mailbox.mp hm
    exact ⟨(hc.mirrored m hm howner).row, howner⟩

/-- The listing has the rows of the owner's messages, newest first. -/
theorem Complete.ownedBy (hc : R.Complete h owner) (hk : R.Kept h) (ho : h.Orderly) :
    R.ownedBy owner = (h.mailbox owner).map Row.ofMessage := by
  have hmap : (h.mailbox owner).map Row.ofMessage = sortBy Row.precedes
      ((h.messages.filter (·.ownerId == owner)).map Row.ofMessage) := map_sortBy fun _ _ => rfl
  have hids : (((h.messages.filter (·.ownerId == owner)).map Row.ofMessage).map Row.id).Nodup := by
    rw [List.map_map]
    exact ho.ids.sublist (List.filter_sublist.map _)
  have hperm : (R.messages.filter (·.ownerId == owner)).Perm
      ((h.messages.filter (·.ownerId == owner)).map Row.ofMessage) := by
    refine (List.perm_ext_iff_of_nodup (hk.ids.of_map.filter _) hids.of_map).mpr fun row => ?_
    rw [hc.mem_rows hk, hmap, mem_sortBy]
  have htrans : ∀ a b c : Row, a.precedes b → b.precedes c → a.precedes c :=
    fun _ _ _ => Row.precedes_trans
  rw [hmap, Rows.ownedBy]
  refine sortBy_eq_of_perm htrans Row.precedes_total (fun a ha b hb hab hba => ?_) hperm
  exact List.inj_on_of_nodup_map hk.ids (List.mem_filter.mp ha).1 (List.mem_filter.mp hb).1
    (Row.id_eq_of_precedes hab hba)

/-- With their tags the rows are the mailbox. -/
theorem Complete.shown (hc : R.Complete h owner) (hk : R.Kept h) (ho : h.Orderly) :
    (R.ownedBy owner).map (fun row => row.message (R.tagsOn row.id)) = h.mailbox owner := by
  rw [hc.ownedBy hk ho, List.map_map]
  refine (List.map_congr_left fun m hm => ?_).trans (List.map_id _)
  obtain ⟨hm, howner⟩ := Holdings.mem_mailbox.mp hm
  have hrow := (ho.storable m hm).row_message
  rw [← (hc.mirrored m hm howner).tagsOn hk ho hm] at hrow
  exact hrow

end Rows

/-- A sound replica that is complete lists the mailbox. -/
theorem messagesOf_of_complete {r : Replica} {h : Holdings} {owner : String}
    (hc : r.rows.Complete h owner) (hk : r.rows.Kept h) (ho : h.Orderly) (hs : r.Sound) :
    ∃ r', messagesOf owner r = .ok (h.mailbox owner) r' := by
  obtain ⟨ms, r', hr, hms, -⟩ := (leaves_messagesOf owner).succeeds hs
  exact ⟨r', by rw [hr, hms, hc.shown hk ho]⟩

end LabelMail.Replica
