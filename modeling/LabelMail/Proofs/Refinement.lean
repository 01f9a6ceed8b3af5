import LabelMail.Proofs.Mailroom.Health
import LabelMail.Proofs.Replica.Repeats

/-!
The replica refines the primary store. As long as nothing fails, both list the same messages for
every owner after every call, in the same order, and the owner's labels are the same.
-/
namespace LabelMail.Mailroom

variable {σ : Type} {room : Mailroom σ} {owner : String} {l : Label}

/-- The rows of the replica are those of the stored messages. -/
structure Even (room : Mailroom σ) : Prop extends room.Healthy where
  rows : ∀ row ∈ room.replica.rows.messages, row.id ∈ room.holdings.ids

variable {m : Message} {row : Row}

theorem Even.mirrors (he : room.Even) (hm : m ∈ room.holdings.messages) :
    room.replica.rows.Mirrors m (room.holdings.labelsOf m) := by
  refine (he.followed.tracked m hm).resolve_right fun hpending => ?_
  rw [he.backlog] at hpending
  cases hpending

theorem Even.mem_rows (he : room.Even) :
    row ∈ room.replica.rows.messages ↔ row ∈ room.holdings.messages.map Row.ofMessage := by
  rw [List.mem_map]
  constructor
  · intro hrow
    obtain ⟨m, hm, hid⟩ := Holdings.mem_ids.mp (he.rows row hrow)
    exact ⟨m, hm, List.inj_on_of_nodup_map he.followed.tended.kept.ids (he.mirrors hm).row hrow hid⟩
  · rintro ⟨m, hm, rfl⟩
    exact (he.mirrors hm).row

/-- The replica has what is stored under an id, and nothing if nothing is. -/
theorem Even.copy?_eq (he : room.Even) (id : String) :
    room.replica.rows.copy? id = room.holdings.find? id := by
  cases hfind : room.holdings.find? id with
  | none =>
    refine Replica.Rows.copy?_eq_none.mpr fun row hrow hid => ?_
    exact Holdings.find?_eq_none.mp hfind (hid ▸ he.rows row hrow)
  | some m =>
    obtain ⟨hm, rfl⟩ := Holdings.mem_of_find? hfind
    exact (he.mirrors hm).copy? he.followed.tended.kept he.followed.tended.orderly hm

theorem Even.rows_perm (he : room.Even) :
    (room.holdings.messages.map Row.ofMessage).Perm room.replica.rows.messages := by
  have hids : ((room.holdings.messages.map Row.ofMessage).map Row.id).Nodup := by
    rw [List.map_map]
    exact he.followed.tended.orderly.ids
  exact (List.perm_ext_iff_of_nodup hids.of_map he.followed.tended.kept.ids.of_map).mpr
    fun row => he.mem_rows.symm

theorem Even.complete (he : room.Even) (owner : String) :
    room.replica.rows.Complete room.holdings owner := by
  refine ⟨fun m hm _ => he.mirrors hm, fun row hrow howner => ?_⟩
  obtain ⟨m, hm, rfl⟩ := List.mem_map.mp (he.mem_rows.mp hrow)
  exact ⟨m, hm, howner, rfl⟩

/-- The owner's labels are the same in both. -/
theorem Even.labels_perm (he : room.Even) (howner : owner ≠ Replica.shared) :
    (room.replica.rows.labels.filter (·.ownerId == owner)).Perm
      (room.primary.rows.labels.filter (·.ownerId == owner)) := by
  have ht : Tended room.holdings room := he.followed.tended
  have hlabels : room.primary.rows.labels = room.holdings.labels := rfl
  have hreplica : room.replica.rows.labels.Nodup := ht.kept.labelIds.of_map
  have hstore : room.holdings.labels.Nodup := ht.orderly.labelIds.of_map
  rw [hlabels]
  refine (List.perm_ext_iff_of_nodup (hreplica.filter _) (hstore.filter _)).mpr fun l => ?_
  rw [List.mem_filter, List.mem_filter]
  refine and_congr_left fun hl => ⟨fun hrow => ?_, fun hstored =>
    (he.agrees l.id).stored l hstored rfl⟩
  refine ((he.agrees l.id).stands l hrow rfl).resolve_right ?_
  rintro ⟨t, -, rfl⟩
  exact howner (beq_iff_eq.mp hl).symm

/-- The tables of the replica are those of the primary store, apart from the links and the labels
that all owners share, and the queries on both list the same messages. -/
structure Refines (room : Mailroom σ) : Prop where
  listings : ∀ owner, ∃ ms db r, Primary.messagesOf owner room.primary = .ok ms db ∧
    Replica.messagesOf owner room.replica = .ok ms r
  rows : room.replica.rows.messages.Perm
    (room.primary.rows.messages.map Primary.MessageRow.toRow)
  labels : ∀ owner, owner ≠ Replica.shared →
    (room.replica.rows.labels.filter (·.ownerId == owner)).Perm
      (room.primary.rows.labels.filter (·.ownerId == owner))
  shared : ∀ l ∈ room.replica.rows.labels, l.ownerId = Replica.shared →
    ∃ t ∈ Tag.reserved, l = sharedLabel t
  backlog : room.backlog = Backlog.empty

theorem Even.refines (he : room.Even)
    (howned : ∀ l ∈ room.holdings.labels, l.ownerId ≠ Replica.shared) : room.Refines := by
  refine ⟨fun owner => ?_, ?_, fun owner howner => he.labels_perm howner, fun l hl hshared =>
    ((he.agrees l.id).stands l hl rfl).resolve_left fun hstored => howned l hstored hshared,
    he.backlog⟩
  · have ht : Tended room.holdings room := he.followed.tended
    obtain ⟨db, hprimary⟩ := ht.messagesOf owner
    obtain ⟨r, hreplica⟩ :=
      Replica.messagesOf_of_complete (he.complete owner) ht.kept ht.orderly he.sound
    exact ⟨_, db, r, hprimary, hreplica⟩
  · have hrows : room.primary.rows.messages.map Primary.MessageRow.toRow =
        room.holdings.messages.map Row.ofMessage := by
      rw [he.followed.tended.shows.messages, List.map_map]
      rfl
    rw [hrows]
    exact he.rows_perm.symm

theorem Blank.even (hb : room.Blank) (hp : room.primary.Sound) (hs : room.replica.Sound)
    (hsupply : Supply room.idAt) (events : List Event) : (room.after events).Even := by
  have hh : (room.after events).Healthy := (hb.healthy hp hs).after hsupply events
  refine ⟨hh, fun row hrow => ?_⟩
  by_contra hlost
  refine hb.not_stray hp hs hsupply events row.id ⟨hlost, ⟨row, hrow, rfl⟩, ?_⟩
  rw [hh.backlog]
  rfl

theorem Followed.owned_after (hf : room.Followed) (hsupply : Supply room.idAt)
    {events : List Event} (hcallers : ∀ e ∈ events, e.caller ≠ "")
    (howned : ∀ l ∈ room.holdings.labels, l.ownerId ≠ Replica.shared) :
    ∀ l ∈ (room.after events).holdings.labels, l.ownerId ≠ Replica.shared := by
  induction events generalizing room with
  | nil => exact howned
  | cons e events ih =>
    obtain ⟨acts, tasks, mid, hc⟩ := hf.call hsupply e
    refine ih (hf.step hsupply e) (hc.idAt ▸ hsupply)
      (fun e' he' => hcallers e' (List.mem_cons_of_mem e he')) fun l hl => ?_
    rw [hc.holdings] at hl
    rcases hc.wrote.legal.stemsLabel hl with ⟨k, hk, -, howner⟩ | ⟨-, howner⟩
    · exact howner ▸ howned k hk
    · exact howner ▸ hcallers e List.mem_cons_self

/-- Along every run in which nothing fails the replica refines the primary store. -/
theorem replica_refines_store (room : Mailroom σ) (hb : room.Blank) (hp : room.primary.Sound)
    (hs : room.replica.Sound) (hsupply : Supply room.idAt) (events : List Event)
    (hcallers : ∀ e ∈ events, e.caller ≠ "") : (room.after events).Refines :=
  (hb.even hp hs hsupply events).refines <| (hb.followed hp).owned_after hsupply hcallers
    fun _ hl => absurd (hb.holdings ▸ hl) List.not_mem_nil

/-- A delivery under a label that the recipient renames. -/
def renamedDelivery : List Event :=
  [⟨"alice", 0, .send ⟨some "bob", some "s", some "c"⟩ false⟩,
    ⟨"bob", 0, .changeLabel "u" ⟨some "deals", .add⟩⟩,
    ⟨"bob", 0, .renameLabel "uuu" (some "offers")⟩]

theorem replica_refines_store_renamed :
    sample.Blank ∧ sample.primary.Sound ∧ sample.replica.Sound ∧ Supply sample.idAt ∧
      (∀ e ∈ renamedDelivery, e.caller ≠ "") ∧
      (sample.after renamedDelivery).replica.rows.messages ≠ [] ∧
      ⟨"uuu", "bob", "offers"⟩ ∈ (sample.after renamedDelivery).replica.rows.labels ∧
      (sample.after renamedDelivery).Refines := by
  obtain ⟨hp, hs⟩ := sound_sample []
  have hcallers : ∀ e ∈ renamedDelivery, e.caller ≠ "" := by decide
  refine ⟨blank_sample, hp, hs, supply_sample, hcallers, ?_, ?_,
    replica_refines_store sample blank_sample hp hs supply_sample renamedDelivery hcallers⟩
  all_goals decide +kernel

end LabelMail.Mailroom
