import LabelMail.Proofs.Replica.Ownership
import LabelMail.Proofs.RowOrder

/-!
What writes for one owner make of the listings of another. Messages that were added appear in them,
and what was there stays as it was and in its order.
-/
namespace LabelMail.Replica.Rows

variable {g : Owners} {s : Scope} {R R' : Rows} {caller owner id : String}
variable {new : List Message}

/-- The owner's messages as they are listed. -/
def listing (R : Rows) (owner : String) : List Message :=
  (R.ownedBy owner).map fun row => row.message (R.tagsOn row.id)

/-- The new messages are there under ids of their own, with their tags. -/
structure Added (new : List Message) (R R' : Rows) : Prop where
  rows : ∀ m ∈ new, Row.ofMessage m ∈ R'.messages
  storable : ∀ m ∈ new, m.Storable
  tags : ∀ m ∈ new, R'.tagsOn m.id = m.tags
  fresh : ∀ m ∈ new, ∀ row ∈ R.messages, row.id ≠ m.id
  ids : (new.map Message.id).Nodup

/-- Of the owner's messages the scope has new ones only, and of labels only such as the caller's
messages may have. -/
structure Reaches (g : Owners) (s : Scope) (caller owner : String) (new : List Message) : Prop where
  other : owner ≠ caller
  owned : ∀ m ∈ new, m.ownerId = owner
  messages : ∀ id, s.messages id → g.message id = some owner → ∃ m ∈ new, m.id = id
  labels : ∀ i, s.labels i → g.Allows caller i

theorem Beyond.tagsOn_of (hb : Beyond s R R') (hp : R.Parted g) (hp' : R'.Parted g)
    (hs : Reaches g s caller owner new) (howner : g.message id = some owner)
    (hid : ¬ s.messages id) : R'.tagsOn id = R.tagsOn id := by
  refine hb.tagsOn hp hp' hid fun i hlink hi => ?_
  rcases hs.labels i hi with hreserved | hcaller
  · exact hreserved
  obtain ⟨o, hmessage, hallows⟩ := hp.links _ hlink
  obtain rfl : o = owner := Option.some.inj (hmessage.symm.trans howner)
  rcases hallows with hreserved | hlabel
  · exact hreserved
  · exact absurd (Option.some.inj (hlabel.symm.trans hcaller)) hs.other

/-- The owner's rows are the new ones and those that were there. -/
theorem Beyond.mem_rows (hb : Beyond s R R') (hp : R.Parted g) (hp' : R'.Parted g)
    (hs : Reaches g s caller owner new) (hnew : Added new R R')
    (hids : (R'.messages.map Row.id).Nodup) {row : Row} (howner : row.ownerId = owner) :
    row ∈ R'.messages ↔ row ∈ new.map Row.ofMessage ∨ row ∈ R.messages := by
  constructor
  · intro hrow
    by_cases hid : s.messages row.id
    · obtain ⟨m, hm, hmid⟩ := hs.messages row.id hid (howner ▸ hp'.messages row hrow)
      refine .inl (List.mem_map.mpr ⟨m, hm, ?_⟩)
      exact List.inj_on_of_nodup_map hids (hnew.rows m hm) hrow hmid
    · exact .inr ((hb.messages row hid).mp hrow)
  · rintro (hrow | hrow)
    · obtain ⟨m, hm, rfl⟩ := List.mem_map.mp hrow
      exact hnew.rows m hm
    · refine (hb.messages row fun hid => ?_).mpr hrow
      obtain ⟨m, hm, hmid⟩ := hs.messages row.id hid (howner ▸ hp.messages row hrow)
      exact hnew.fresh m hm row hrow hmid.symm

theorem nodup_rows_append (hnew : Added new R R') (hids : (R.messages.map Row.id).Nodup) :
    (new.map Row.ofMessage ++ R.messages.filter (·.ownerId == owner)).Nodup := by
  have hrows : (new.map Row.ofMessage).Nodup := by
    have hmap : (new.map Row.ofMessage).map Row.id = new.map Message.id := List.map_map
    exact List.Nodup.of_map Row.id (hmap ▸ hnew.ids)
  refine hrows.append (hids.of_map.filter _) fun row hrow hold => ?_
  obtain ⟨m, hm, rfl⟩ := List.mem_map.mp hrow
  exact hnew.fresh m hm _ (List.mem_filter.mp hold).1 rfl

/-- The sorted rows of the owner are those of the new messages and the old rows, sorted anew. -/
theorem Beyond.ownedBy (hb : Beyond s R R') (hp : R.Parted g) (hp' : R'.Parted g)
    (hs : Reaches g s caller owner new) (hnew : Added new R R')
    (hids : (R.messages.map Row.id).Nodup) (hids' : (R'.messages.map Row.id).Nodup) :
    R'.ownedBy owner =
      sortBy Row.precedes (new.map Row.ofMessage ++ R.messages.filter (·.ownerId == owner)) := by
  have hperm : (R'.messages.filter (·.ownerId == owner)).Perm
      (new.map Row.ofMessage ++ R.messages.filter (·.ownerId == owner)) := by
    refine (List.perm_ext_iff_of_nodup (hids'.of_map.filter _)
      (nodup_rows_append hnew hids)).mpr fun row => ?_
    rw [List.mem_filter, List.mem_append, List.mem_filter, beq_iff_eq]
    constructor
    · rintro ⟨hrow, howner⟩
      exact ((hb.mem_rows hp hp' hs hnew hids' howner).mp hrow).imp_right fun hold =>
        ⟨hold, howner⟩
    · intro hrow
      have howner : row.ownerId = owner := by
        rcases hrow with hrow | hrow
        · obtain ⟨m, hm, rfl⟩ := List.mem_map.mp hrow
          exact hs.owned m hm
        · exact hrow.2
      exact ⟨(hb.mem_rows hp hp' hs hnew hids' howner).mpr (hrow.imp_right And.left), howner⟩
  have htrans : ∀ a b c : Row, a.precedes b → b.precedes c → a.precedes c :=
    fun _ _ _ => Row.precedes_trans
  refine sortBy_eq_of_perm htrans Row.precedes_total (fun a ha b hb hab hba => ?_) hperm
  exact List.inj_on_of_nodup_map hids' (List.mem_filter.mp ha).1 (List.mem_filter.mp hb).1
    (Row.id_eq_of_precedes hab hba)

/-- Of what is listed for another owner only the new messages are added. -/
theorem Beyond.listing (hb : Beyond s R R') (hp : R.Parted g) (hp' : R'.Parted g)
    (hs : Reaches g s caller owner new) (hnew : Added new R R')
    (hids : (R.messages.map Row.id).Nodup) (hids' : (R'.messages.map Row.id).Nodup) :
    (R.listing owner).Sublist (R'.listing owner) ∧
      (R'.listing owner).Perm (new ++ R.listing owner) := by
  let old : List Row := R.messages.filter (·.ownerId == owner)
  let shown (row : Row) : Message := row.message (R'.tagsOn row.id)
  have hlisting : R.listing owner = (sortBy Row.precedes old).map shown := by
    refine List.map_congr_left fun row hrow => congrArg row.message ?_
    obtain ⟨hmem, howner⟩ := List.mem_filter.mp (mem_sortBy.mp hrow)
    have hmessage : g.message row.id = some owner :=
      beq_iff_eq.mp howner ▸ hp.messages row hmem
    refine (hb.tagsOn_of hp hp' hs hmessage fun hid => ?_).symm
    obtain ⟨m, hm, hmid⟩ := hs.messages row.id hid hmessage
    exact hnew.fresh m hm row hmem hmid.symm
  have hlisting' : R'.listing owner =
      (sortBy Row.precedes (new.map Row.ofMessage ++ old)).map shown :=
    congrArg (List.map shown) (hb.ownedBy hp hp' hs hnew hids hids')
  have hshown : (new.map Row.ofMessage).map shown = new := by
    rw [List.map_map]
    refine (List.map_congr_left fun m hm => ?_).trans (List.map_id new)
    have hrow : (Row.ofMessage m).message m.tags = m := (hnew.storable m hm).row_message
    rw [← hnew.tags m hm] at hrow
    exact hrow
  rw [hlisting, hlisting']
  refine ⟨sortBy_sublist_append.map shown, ?_⟩
  have hperm : (sortBy Row.precedes (new.map Row.ofMessage ++ old)).Perm
      (new.map Row.ofMessage ++ sortBy Row.precedes old) :=
    (sortBy_perm _).trans ((sortBy_perm old).symm.append_left _)
  have hmap := hperm.map shown
  rw [List.map_append, hshown] at hmap
  exact hmap

/-- The labels of another owner are the same. -/
theorem Beyond.labels_perm (hb : Beyond s R R') (hp : R.Parted g) (hp' : R'.Parted g)
    (hs : Reaches g s caller owner new) (hshared : owner ≠ Replica.shared)
    (hids : (R.labels.map Label.id).Nodup) (hids' : (R'.labels.map Label.id).Nodup) :
    (R'.labels.filter (·.ownerId == owner)).Perm (R.labels.filter (·.ownerId == owner)) := by
  have hbeyond {l : Label} (howner : l.ownerId = owner) (hl : g.Assigns l) : ¬ s.labels l.id := by
    intro hid
    rcases hl with ⟨t, -, rfl⟩ | ⟨o, hlabel, ho⟩
    · exact hshared howner.symm
    have hlabel : g.label l.id = some owner := by
      rw [hlabel, ← howner, ho.resolve_right fun h => hshared (howner.symm.trans h)]
    rcases hs.labels l.id hid with ⟨t, ht, htl⟩ | hcaller
    · exact Owners.ne_of_label hlabel ht htl.symm
    · exact hs.other (Option.some.inj (hlabel.symm.trans hcaller))
  refine (List.perm_ext_iff_of_nodup (hids'.of_map.filter _) (hids.of_map.filter _)).mpr fun l => ?_
  rw [List.mem_filter, List.mem_filter]
  refine and_congr_left fun howner => ?_
  have howner : l.ownerId = owner := beq_iff_eq.mp howner
  constructor
  · exact fun hl => (hb.labels l (hbeyond howner (hp'.labels l hl))).mp hl
  · exact fun hl => (hb.labels l (hbeyond howner (hp.labels l hl))).mpr hl

end LabelMail.Replica.Rows
