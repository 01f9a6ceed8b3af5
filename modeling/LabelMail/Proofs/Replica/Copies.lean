import LabelMail.Proofs.Replica.Tables

/-!
Copies of messages in the replica. A message is mirrored when its row is there and it is linked to
just the labels of its tags, which have the right names; the replica then gives the message back.
Work on one message spares the others: they stay mirrored.
-/
namespace LabelMail.Replica

namespace Rows

/-- The message as the replica has it. -/
def copy? (R : Rows) (id : String) : Option Message :=
  (R.messages.find? (·.id == id)).map fun r => r.message (R.tagsOn id)

/-- There is a label of this id and name, whoever owns it. -/
def Names (R : Rows) (l : Label) : Prop :=
  ∃ k ∈ R.labels, k.id = l.id ∧ k.name = l.name

/-- Ids are unique, and rows agree with the messages of their ids in what no operation changes. -/
structure Kept (R : Rows) (h : Holdings) : Prop where
  ids : (R.messages.map Row.id).Nodup
  labelIds : (R.labels.map Label.id).Nodup
  envelopes : ∀ r ∈ R.messages, ∀ m ∈ h.messages, r.id = m.id → r.envelope = m.envelope

structure Mirrors (R : Rows) (m : Message) (labels : List Label) : Prop where
  row : Row.ofMessage m ∈ R.messages
  links : ∀ id, ⟨m.id, id⟩ ∈ R.links ↔ ∃ l ∈ labels, l.id = id
  names : ∀ l ∈ labels, R.Names l

variable {R R' R'' : Rows} {h : Holdings} {m : Message} {labels : List Label} {l k : Label}
variable {r : Row} {id owner : String}

theorem Kept.eq_of_labelId (hk : R.Kept h) (hl : l ∈ R.labels) (hk' : k ∈ R.labels)
    (hid : l.id = k.id) : l = k :=
  List.inj_on_of_nodup_map hk.labelIds hl hk' hid

theorem Kept.find? (hk : R.Kept h) (hr : r ∈ R.messages) :
    R.messages.find? (·.id == r.id) = some r :=
  find?_of_nodup hk.ids hr

theorem isLinked_iff {labelId : String} :
    R.isLinked id labelId = true ↔ ⟨id, labelId⟩ ∈ R.links := by
  simp [isLinked]

theorem mem_ownedBy : r ∈ R.ownedBy owner ↔ r ∈ R.messages ∧ r.ownerId = owner := by
  simp [ownedBy]

theorem mem_tagsOfNames {names : List String} {t : Tag} :
    t ∈ tagsOfNames names ↔ ∃ name ∈ names, Tag.ofName name = .ok t := by
  simp [tagsOfNames, toOption_eq_some]

theorem mem_tagsOn {t : Tag} : t ∈ R.tagsOn id ↔
    ∃ l ∈ R.labels, ⟨id, l.id⟩ ∈ R.links ∧ Tag.ofName l.name = .ok t := by
  simp [Rows.tagsOn, mem_tagsOfNames, labelsOn, isLinked_iff, and_assoc]

theorem mem_linkedNames {entry : String × String} : entry ∈ R.linkedNames owner ↔
    ∃ l ∈ R.labels, ∃ r ∈ R.messages,
      r.ownerId = owner ∧ ⟨r.id, l.id⟩ ∈ R.links ∧ entry = (r.id, l.name) := by
  simp only [linkedNames, List.mem_flatMap, List.mem_filter, List.mem_map, Bool.and_eq_true,
    beq_iff_eq]
  constructor
  · rintro ⟨⟨_, _⟩, hlink, l, ⟨hl, rfl⟩, r, ⟨hr, rfl, rfl⟩, rfl⟩
    exact ⟨l, hl, r, hr, rfl, hlink, rfl⟩
  · rintro ⟨l, hl, r, hr, rfl, hlink, rfl⟩
    exact ⟨_, hlink, l, ⟨hl, rfl⟩, r, ⟨hr, rfl, rfl⟩, rfl⟩

theorem mem_addNamed {tags : String → TagSet} {name key : String} {t : Tag} :
    t ∈ addNamed tags id name key ↔ (id = key ∧ Tag.ofName name = .ok t) ∨ t ∈ tags key := by
  unfold addNamed
  cases Tag.ofName name with
  | error e => simp
  | ok u =>
    by_cases hkey : key = id
    · simp [hkey, eq_comm]
    · simp [hkey, Ne.symm hkey]

theorem mem_foldl_addNamed {entries : List (String × String)} {tags : String → TagSet}
    {key : String} {t : Tag} :
    t ∈ entries.foldl (fun tags entry => addNamed tags entry.1 entry.2) tags key ↔
      (∃ entry ∈ entries, entry.1 = key ∧ Tag.ofName entry.2 = .ok t) ∨ t ∈ tags key := by
  induction entries generalizing tags with
  | nil => simp
  | cons entry entries ih =>
    rw [List.foldl_cons, ih, mem_addNamed, List.exists_mem_cons_iff, or_left_comm, or_assoc]

/-- Of an owner's message the pass over all links collects the tags that its own labels give. -/
theorem tagsOf_eq (hr : r ∈ R.messages) : R.tagsOf r.ownerId r.id = R.tagsOn r.id := by
  ext t
  rw [tagsOf, mem_foldl_addNamed, mem_tagsOn]
  constructor
  · rintro (⟨entry, hentry, hid, hspell⟩ | hempty)
    · obtain ⟨l, hl, s, -, -, hlink, rfl⟩ := mem_linkedNames.mp hentry
      exact ⟨l, hl, hid ▸ hlink, hspell⟩
    · exact absurd hempty (TagSet.not_mem_empty t)
  · rintro ⟨l, hl, hlink, hspell⟩
    exact .inl ⟨(r.id, l.name), mem_linkedNames.mpr ⟨l, hl, r, hr, rfl, hlink, rfl⟩, rfl, hspell⟩

/-- A mirrored message has the tags that the names of its labels spell. -/
theorem Mirrors.mem_tagsOn {t : Tag} (hmir : R.Mirrors m labels) (hk : R.Kept h) :
    t ∈ R.tagsOn m.id ↔ ∃ l ∈ labels, Tag.ofName l.name = .ok t := by
  rw [Rows.mem_tagsOn]
  constructor
  · rintro ⟨l, hl, hlink, hspell⟩
    obtain ⟨j, hj, hjl⟩ := (hmir.links l.id).mp hlink
    obtain ⟨k, hk', hkj, hkname⟩ := hmir.names j hj
    obtain rfl : k = l := hk.eq_of_labelId hk' hl (hkj.trans hjl)
    exact ⟨j, hj, hkname ▸ hspell⟩
  · rintro ⟨j, hj, hspell⟩
    obtain ⟨k, hk', hkid, hkname⟩ := hmir.names j hj
    exact ⟨k, hk', (hmir.links k.id).mpr ⟨j, hj, hkid.symm⟩, hkname ▸ hspell⟩

/-- The names that the linked labels have are those of the message's tags. -/
theorem Mirrors.tagsOn (hmir : R.Mirrors m (h.labelsOf m)) (hk : R.Kept h) (ho : h.Orderly)
    (hm : m ∈ h.messages) : R.tagsOn m.id = m.tags := by
  have hspelled {t : Tag} (ht : t ∈ m.tags) : Tag.ofName (h.labelOf m.ownerId t).name = .ok t := by
    rw [(ho.labelOf_tag hm ht).2]
    exact (ho.storable m hm).proper t ht
  ext t
  rw [hmir.mem_tagsOn hk]
  constructor
  · rintro ⟨l, hl, hspell⟩
    obtain ⟨u, hu, rfl⟩ := Holdings.mem_labelsOf.mp hl
    rw [hspelled hu] at hspell
    exact Except.ok.inj hspell ▸ hu
  · exact fun ht => ⟨_, Holdings.mem_labelsOf.mpr ⟨t, ht, rfl⟩, hspelled ht⟩

theorem Mirrors.copy? (hmir : R.Mirrors m (h.labelsOf m)) (hk : R.Kept h) (ho : h.Orderly)
    (hm : m ∈ h.messages) : R.copy? m.id = some m := by
  have hfind : R.messages.find? (·.id == m.id) = some (Row.ofMessage m) := hk.find? hmir.row
  rw [Rows.copy?, hfind, Option.map_some, hmir.tagsOn hk ho hm, (ho.storable m hm).row_message]

theorem copy?_eq_none : R.copy? id = none ↔ ∀ r ∈ R.messages, r.id ≠ id := by
  simp [copy?]

/-- What was done on behalf of one message. Of the others, rows and links are the same, and labels
that should be there are not lost. -/
structure Spares (h : Holdings) (id : String) (R R' : Rows) : Prop where
  kept : R'.Kept h
  messages : ∀ r, r.id ≠ id → (r ∈ R'.messages ↔ r ∈ R.messages)
  links : ∀ l : Link, l.messageId ≠ id → (l ∈ R'.links ↔ l ∈ R.links)
  names : ∀ l, h.Stands l → R.Names l → R'.Names l
  gained : ∀ r ∈ R'.messages, r.id ∈ R.messages.map Row.id ∨ r.id ∈ h.ids

theorem Spares.refl (hk : R.Kept h) : Spares h id R R :=
  ⟨hk, fun _ _ => Iff.rfl, fun _ _ => Iff.rfl, fun _ _ hn => hn,
    fun _ hr => .inl (List.mem_map_of_mem hr)⟩

theorem Spares.trans (hs : Spares h id R R') (hs' : Spares h id R' R'') : Spares h id R R'' where
  kept := hs'.kept
  messages r hr := (hs'.messages r hr).trans (hs.messages r hr)
  links l hl := (hs'.links l hl).trans (hs.links l hl)
  names l hl hn := hs'.names l hl (hs.names l hl hn)
  gained r hr := by
    rcases hs'.gained r hr with hmem | hid
    · obtain ⟨x, hx, hxr⟩ := List.mem_map.mp hmem
      rw [← hxr]
      exact hs.gained x hx
    · exact .inr hid

theorem Spares.mirrors (hs : Spares h id R R') (ho : h.Orderly) (hm : m ∈ h.messages)
    (hne : m.id ≠ id) (hmir : R.Mirrors m (h.labelsOf m)) : R'.Mirrors m (h.labelsOf m) where
  row := (hs.messages _ hne).mpr hmir.row
  links labelId := (hs.links ⟨m.id, labelId⟩ hne).trans (hmir.links labelId)
  names l hl := hs.names l (ho.stands hm hl) (hmir.names l hl)

theorem ids_putRow (hk : R.Kept h) : ((putRow r R.messages).map Row.id).Nodup := by
  rw [putRow_eq]
  exact nodup_putKeyed (fun _ => rfl) hk.ids

theorem mem_putRow_of_ne {x : Row} (hk : R.Kept h) (hne : x.id ≠ r.id) :
    x ∈ putRow r R.messages ↔ x ∈ R.messages := by
  rw [putRow_eq]
  exact mem_putKeyed_of_ne (fun _ => rfl) hk.ids hne

theorem mem_putRow_self (hk : R.Kept h) (hm : m ∈ h.messages) :
    Row.ofMessage m ∈ putRow (.ofMessage m) R.messages := by
  rw [putRow_eq]
  refine mem_putKeyed_self hk.ids fun old hold hid => ?_
  have henvelope : old.envelope = (Row.ofMessage m).envelope := hk.envelopes old hold m hm hid
  simp only [Row.envelope, Row.ofMessage, Row.mk.injEq, true_and] at henvelope
  simp [Row.ofMessage, henvelope]

theorem spares_putRow (hk : R.Kept h) (ho : h.Orderly) (hm : m ∈ h.messages) :
    Spares h m.id R { R with messages := putRow (.ofMessage m) R.messages } := by
  have hself : Row.ofMessage m ∈ putRow (.ofMessage m) R.messages := mem_putRow_self hk hm
  have hsplit {r : Row} (hr : r ∈ putRow (.ofMessage m) R.messages) :
      r = Row.ofMessage m ∨ (r.id ≠ m.id ∧ r ∈ R.messages) := by
    by_cases hid : r.id = m.id
    · exact .inl (List.inj_on_of_nodup_map (ids_putRow hk) hr hself hid)
    · exact .inr ⟨hid, (mem_putRow_of_ne hk hid).mp hr⟩
  refine ⟨⟨ids_putRow hk, hk.labelIds, fun r hr x hx hid => ?_⟩,
    fun r hne => mem_putRow_of_ne hk hne, fun _ _ => Iff.rfl, fun _ _ hn => hn, fun r hr => ?_⟩
  · rcases hsplit hr with rfl | ⟨-, hr⟩
    · rw [Holdings.eq_of_id ho.ids hx hm hid.symm]
      rfl
    · exact hk.envelopes r hr x hx hid
  · rcases hsplit hr with rfl | ⟨-, hr⟩
    · exact .inr (Holdings.mem_ids.mpr ⟨m, hm, rfl⟩)
    · exact .inl (List.mem_map_of_mem hr)

theorem labelIds_putLabelRow (hk : R.Kept h) :
    ((putLabelRow l R.labels).map Label.id).Nodup :=
  nodup_putLabelRow hk.labelIds

theorem mem_putLabelRow_of_ne (hk : R.Kept h) (hne : k.id ≠ l.id) :
    k ∈ putLabelRow l R.labels ↔ k ∈ R.labels := by
  rw [putLabelRow_eq]
  exact mem_putKeyed_of_ne (fun _ => rfl) hk.labelIds hne

theorem names_putLabelRow (hk : R.Kept h) :
    Names { R with labels := putLabelRow l R.labels } l := by
  by_cases hnone : ∃ k ∈ R.labels, k.id = l.id
  · obtain ⟨k, hk', hid⟩ := hnone
    refine ⟨{ k with name := l.name }, (mem_putLabelRow hk.labelIds).mpr ?_, hid, rfl⟩
    exact .inr (.inl ⟨k, hk', hid, rfl⟩)
  · refine ⟨l, (mem_putLabelRow hk.labelIds).mpr ?_, rfl, rfl⟩
    exact .inr (.inr ⟨rfl, fun k hk' hid => hnone ⟨k, hk', hid⟩⟩)

theorem spares_putLabelRow (id : String) (hk : R.Kept h) (ho : h.Orderly) (hapart : h.Apart)
    (hl : h.Stands l) : Spares h id R { R with labels := putLabelRow l R.labels } := by
  refine ⟨⟨hk.ids, labelIds_putLabelRow hk, hk.envelopes⟩, fun _ _ => Iff.rfl, fun _ _ => Iff.rfl,
    fun j hj hn => ?_, fun r hr => .inl (List.mem_map_of_mem hr)⟩
  by_cases hid : j.id = l.id
  · rw [Holdings.Stands.eq_of_id ho hapart hj hl hid]
    exact names_putLabelRow hk
  · obtain ⟨k, hk', hkid, hkname⟩ := hn
    have hne : k.id ≠ l.id := fun hkl => hid (hkid.symm.trans hkl)
    exact ⟨k, (mem_putLabelRow_of_ne hk hne).mpr hk', hkid, hkname⟩

/-- The labels after several puts. -/
def putLabelRows (labels : List Label) (R : Rows) : Rows :=
  labels.foldl (fun R l => { R with labels := putLabelRow l R.labels }) R

theorem spares_putLabelRows (id : String) (hk : R.Kept h) (ho : h.Orderly) (hapart : h.Apart)
    (hlabels : ∀ l ∈ labels, h.Stands l) : Spares h id R (R.putLabelRows labels) := by
  induction labels generalizing R with
  | nil => exact .refl hk
  | cons l labels ih =>
    have hfirst : Spares h id R { R with labels := putLabelRow l R.labels } :=
      spares_putLabelRow id hk ho hapart (hlabels l List.mem_cons_self)
    exact hfirst.trans (ih hfirst.kept fun k hk' => hlabels k (List.mem_cons_of_mem l hk'))

theorem names_putLabelRows (hk : R.Kept h) (ho : h.Orderly) (hapart : h.Apart)
    (hlabels : ∀ l ∈ labels, h.Stands l) (hl : l ∈ labels) :
    (R.putLabelRows labels).Names l := by
  induction labels generalizing R with
  | nil => cases hl
  | cons k labels ih =>
    have hkept : Kept { R with labels := putLabelRow k R.labels } h :=
      (spares_putLabelRow "" hk ho hapart (hlabels k List.mem_cons_self)).kept
    have hrest : ∀ j ∈ labels, h.Stands j := fun j hj => hlabels j (List.mem_cons_of_mem k hj)
    rcases List.mem_cons.mp hl with rfl | hl
    · exact (spares_putLabelRows "" hkept ho hapart hrest).names l
        (hlabels l List.mem_cons_self) (names_putLabelRow hk)
    · exact ih hkept hrest hl

theorem messages_putLabelRows : (R.putLabelRows labels).messages = R.messages := by
  induction labels generalizing R with
  | nil => rfl
  | cons l labels ih => exact ih

theorem links_putLabelRows : (R.putLabelRows labels).links = R.links := by
  induction labels generalizing R with
  | nil => rfl
  | cons l labels ih => exact ih

/-- Labels were added at most, each under an id that was free. -/
structure Extends (ls ls' : List Label) : Prop where
  kept : ls <+: ls'
  nodup : (ls.map Label.id).Nodup → (ls'.map Label.id).Nodup

theorem Extends.refl (ls : List Label) : Extends ls ls := ⟨List.prefix_rfl, fun hn => hn⟩

theorem Extends.trans {ls ls' ls'' : List Label} (he : Extends ls ls') (he' : Extends ls' ls'') :
    Extends ls ls'' :=
  ⟨he.kept.trans he'.kept, fun hn => he'.nodup (he.nodup hn)⟩

theorem spares_of_extends (hk : R.Kept h) (hmessages : R'.messages = R.messages)
    (hlinks : ∀ l : Link, l.messageId ≠ id → (l ∈ R'.links ↔ l ∈ R.links))
    (he : Extends R.labels R'.labels) : Spares h id R R' where
  kept := ⟨hmessages ▸ hk.ids, he.nodup hk.labelIds, hmessages ▸ hk.envelopes⟩
  messages r _ := by rw [hmessages]
  links := hlinks
  names l _ hn := by
    obtain ⟨k, hk', hkl⟩ := hn
    exact ⟨k, he.kept.subset hk', hkl⟩
  gained r hr := .inl (List.mem_map_of_mem (hmessages ▸ hr))

/-- The message is linked to just these labels. No label was added unless one of them was
unknown. -/
structure Relinked (id : String) (labelIds : List String) (R R' : Rows) : Prop where
  messages : R'.messages = R.messages
  links : ∀ l : Link, l ∈ R'.links ↔
    if l.messageId = id then l.labelId ∈ labelIds else l ∈ R.links
  labels : Extends R.labels R'.labels
  known : (∀ i ∈ labelIds, hasLabel R i = true) → R'.labels = R.labels

theorem Relinked.spares {labelIds : List String} (hr : Relinked id labelIds R R')
    (hk : R.Kept h) : Spares h id R R' :=
  spares_of_extends hk hr.messages (fun l hne => by rw [hr.links, if_neg hne]) hr.labels

/-- The rows after the message and then its labels were put. -/
def put (R : Rows) (m : Message) (labels : List Label) : Rows :=
  putLabelRows labels { R with messages := putRow (.ofMessage m) R.messages }

theorem spares_put (hk : R.Kept h) (ho : h.Orderly) (hapart : h.Apart) (hm : m ∈ h.messages) :
    Spares h m.id R (R.put m (h.labelsOf m)) := by
  have hrow : Spares h m.id R { R with messages := putRow (.ofMessage m) R.messages } :=
    spares_putRow hk ho hm
  exact hrow.trans (spares_putLabelRows m.id hrow.kept ho hapart fun l hl => ho.stands hm hl)

/-- The message was put and then linked to its labels. -/
def Copied (m : Message) (labels : List Label) (R R' : Rows) : Prop :=
  Relinked m.id (labels.map Label.id) (R.put m labels) R'

theorem Copied.spares (hc : Copied m (h.labelsOf m) R R') (hk : R.Kept h) (ho : h.Orderly)
    (hapart : h.Apart) (hm : m ∈ h.messages) : Spares h m.id R R' := by
  have hput : Spares h m.id R (R.put m (h.labelsOf m)) := spares_put hk ho hapart hm
  exact hput.trans (Relinked.spares hc hput.kept)

theorem names_put (hk : R.Kept h) (ho : h.Orderly) (hapart : h.Apart) (hm : m ∈ h.messages)
    (hl : l ∈ h.labelsOf m) : (R.put m (h.labelsOf m)).Names l :=
  names_putLabelRows (spares_putRow hk ho hm).kept ho hapart (fun _ hk' => ho.stands hm hk') hl

theorem Copied.mirrors (hc : Copied m (h.labelsOf m) R R') (hk : R.Kept h) (ho : h.Orderly)
    (hapart : h.Apart) (hm : m ∈ h.messages) : R'.Mirrors m (h.labelsOf m) where
  row := by
    have hput : Row.ofMessage m ∈ (R.put m (h.labelsOf m)).messages := by
      rw [put, messages_putLabelRows]
      exact mem_putRow_self hk hm
    rw [hc.messages]
    exact hput
  links id := by
    rw [hc.links, if_pos rfl]
    exact List.mem_map
  names l hl := by
    obtain ⟨k, hk', hkl⟩ := names_put hk ho hapart hm hl
    exact ⟨k, hc.labels.kept.subset hk', hkl⟩

/-- All labels of a message that was copied were known by the time it was linked. -/
theorem Copied.labels_eq (hc : Copied m (h.labelsOf m) R R') (hk : R.Kept h) (ho : h.Orderly)
    (hapart : h.Apart) (hm : m ∈ h.messages) : R'.labels = (R.put m (h.labelsOf m)).labels := by
  refine hc.known fun i hi => ?_
  obtain ⟨l, hl, rfl⟩ := List.mem_map.mp hi
  obtain ⟨k, hk', hkid, -⟩ := names_put hk ho hapart hm hl
  exact List.any_eq_true.mpr ⟨k, hk', by simpa using hkid⟩

/-- The rows without a message and its links. -/
def without (R : Rows) (id : String) : Rows :=
  { R with
    messages := R.messages.filter (·.id != id)
    links := R.links.filter (·.messageId != id) }

theorem spares_without (hk : R.Kept h) : Spares h id R (R.without id) where
  kept := ⟨hk.ids.sublist (List.filter_sublist.map _), hk.labelIds,
    fun r hr => hk.envelopes r (List.mem_filter.mp hr).1⟩
  messages r hne := by simp [without, hne]
  links l hne := by simp [without, hne]
  names _ _ hn := hn
  gained r hr := .inl (List.mem_map_of_mem (List.mem_filter.mp hr).1)

/-- The rows without several messages and their links. -/
def withoutAll (ids : List String) (R : Rows) : Rows :=
  ids.foldl without R

theorem withoutAll_eq (ids : List String) (R : Rows) : R.withoutAll ids =
    { R with
      messages := R.messages.filter fun r => decide (r.id ∉ ids)
      links := R.links.filter fun l => decide (l.messageId ∉ ids) } := by
  induction ids generalizing R with
  | nil => simp [withoutAll]
  | cons id ids ih =>
    have hrest : R.withoutAll (id :: ids) = (R.without id).withoutAll ids := rfl
    rw [hrest, ih, without, filter_ne_filter Row.id, filter_ne_filter Link.messageId]

theorem mem_withoutAll {ids : List String} :
    r ∈ (R.withoutAll ids).messages ↔ r ∈ R.messages ∧ r.id ∉ ids := by
  simp [withoutAll_eq]

theorem labels_withoutAll {ids : List String} : (R.withoutAll ids).labels = R.labels := by
  rw [withoutAll_eq]

theorem kept_withoutAll {ids : List String} (hk : R.Kept h) : (R.withoutAll ids).Kept h := by
  induction ids generalizing R with
  | nil => exact hk
  | cons id ids ih => exact ih (spares_without hk).kept

theorem Mirrors.withoutAll {ids : List String} (hmir : R.Mirrors m (h.labelsOf m)) (hk : R.Kept h)
    (ho : h.Orderly) (hm : m ∈ h.messages) (hfree : m.id ∉ ids) :
    (R.withoutAll ids).Mirrors m (h.labelsOf m) := by
  induction ids generalizing R with
  | nil => exact hmir
  | cons id ids ih =>
    have hspares : Spares h id R (R.without id) := spares_without hk
    have hne : m.id ≠ id := List.ne_of_not_mem_cons hfree
    exact ih (hspares.mirrors ho hm hne hmir) hspares.kept (List.not_mem_of_not_mem_cons hfree)

/-- The rows without a label and the links to it. -/
def withoutLabel (R : Rows) (id : String) : Rows :=
  { R with
    labels := R.labels.filter (·.id != id)
    links := R.links.filter (·.labelId != id) }

theorem kept_withoutLabel (hk : R.Kept h) : (R.withoutLabel id).Kept h :=
  ⟨hk.ids, hk.labelIds.sublist (List.filter_sublist.map _), hk.envelopes⟩

/-- Messages that do not carry the label stay mirrored. -/
theorem Mirrors.withoutLabel (hmir : R.Mirrors m labels) (hfree : ∀ l ∈ labels, l.id ≠ id) :
    (R.withoutLabel id).Mirrors m labels where
  row := hmir.row
  links labelId := by
    rw [← hmir.links labelId]
    simp only [Rows.withoutLabel, List.mem_filter, and_iff_left_iff_imp]
    intro hlink
    obtain ⟨l, hl, rfl⟩ := (hmir.links labelId).mp hlink
    exact bne_iff_ne.mpr (hfree l hl)
  names l hl := by
    obtain ⟨k, hk', hkid, hkname⟩ := hmir.names l hl
    refine ⟨k, List.mem_filter.mpr ⟨hk', bne_iff_ne.mpr ?_⟩, hkid, hkname⟩
    rw [hkid]
    exact hfree l hl

end Rows

end LabelMail.Replica
