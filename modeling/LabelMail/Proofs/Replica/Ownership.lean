import LabelMail.Proofs.Replica.Copies
import Mathlib.Logic.Relation

/-!
To whom the rows of the replica belong. Every id that was given to a message or a label has one
owner for good, and a message is linked only to its owner's labels and to the shared ones. Each
write to the replica is a stroke within a scope of ids, and what lies beyond the scope stays as it
is.
-/
namespace LabelMail

/-- The owner of each id that a message or a label has. -/
structure Owners where
  message : String → Option String
  label : String → Option String
  unreserved : ∀ t ∈ Tag.reserved, label t.name = none

namespace Owners

/-- A message of this owner may be linked to the label. -/
def Allows (g : Owners) (owner labelId : String) : Prop :=
  (∃ t ∈ Tag.reserved, t.name = labelId) ∨ g.label labelId = some owner

/-- The label stands for a reserved tag or is an owner's, who may share it with all others. -/
def Assigns (g : Owners) (l : Label) : Prop :=
  (∃ t ∈ Tag.reserved, l = sharedLabel t) ∨
    ∃ owner, g.label l.id = some owner ∧ (l.ownerId = owner ∨ l.ownerId = Replica.shared)

/-- The link is one between what belongs together. -/
def Links (g : Owners) (l : Link) : Prop :=
  ∃ owner, g.message l.messageId = some owner ∧ g.Allows owner l.labelId

/-- The holdings are as the owners say. -/
structure Covers (g : Owners) (h : Holdings) : Prop where
  messages : ∀ m ∈ h.messages, g.message m.id = some m.ownerId
  labels : ∀ l ∈ h.labels, g.label l.id = some l.ownerId

/-- More ids have an owner, and those that had one have the same. -/
structure Extends (g g' : Owners) : Prop where
  message : ∀ {id owner : String}, g.message id = some owner → g'.message id = some owner
  label : ∀ {id owner : String}, g.label id = some owner → g'.label id = some owner

variable {g g' : Owners} {h : Holdings} {m : Message} {l : Label} {t : Tag} {owner i : String}

theorem Extends.allows (he : Extends g g') (ha : g.Allows owner i) : g'.Allows owner i :=
  ha.imp_right he.label

theorem Extends.assigns (he : Extends g g') (ha : g.Assigns l) : g'.Assigns l :=
  ha.imp_right fun ⟨owner, hlabel, howner⟩ => ⟨owner, he.label hlabel, howner⟩

theorem Extends.links {k : Link} (he : Extends g g') (hk : g.Links k) : g'.Links k := by
  obtain ⟨owner, hmessage, hallows⟩ := hk
  exact ⟨owner, he.message hmessage, he.allows hallows⟩

theorem ne_of_label (hi : g.label i = some owner) (ht : t ∈ Tag.reserved) : i ≠ t.name := by
  rintro rfl
  rw [g.unreserved t ht] at hi
  cases hi

theorem Covers.apart (hc : g.Covers h) : h.Apart := fun l hl _ ht =>
  ne_of_label (hc.labels l hl) ht

theorem Covers.assigns (hc : g.Covers h) (hl : h.Stands l) : g.Assigns l := by
  rcases hl with hl | hl
  · exact .inr ⟨l.ownerId, hc.labels l hl, .inl rfl⟩
  · exact .inl hl

/-- A message has labels of its owner only, and those of reserved tags. -/
theorem Covers.allows (hc : g.Covers h) (ho : h.Orderly) (hm : m ∈ h.messages)
    (hl : l ∈ h.labelsOf m) : g.Allows m.ownerId l.id := by
  obtain ⟨t, ht, rfl⟩ := Holdings.mem_labelsOf.mp hl
  rcases Holdings.mem_reserved_or_custom t with hres | ⟨name, rfl⟩
  · rw [Holdings.labelOf_reserved hres]
    exact .inl ⟨t, hres, rfl⟩
  · obtain ⟨k, hk, howner, rfl⟩ := ho.labelled m hm _ ht name rfl
    rw [← howner, ho.labelOf_custom hk]
    exact .inr (hc.labels k hk)

/-- A label whose id is the name of a reserved tag is the shared one. -/
theorem Assigns.eq_shared (ha : g.Assigns l) (ht : t ∈ Tag.reserved) (hid : l.id = t.name) :
    l = sharedLabel t := by
  rcases ha with ⟨u, -, rfl⟩ | ⟨owner, hlabel, -⟩
  · have hname : u.name = t.name := hid
    simp only [sharedLabel, hname]
  · exact absurd hid (ne_of_label hlabel ht)

end Owners

namespace Replica

/-- The ids of the messages and labels that some work may write. -/
structure Scope where
  messages : String → Prop
  labels : String → Prop

instance : LE Scope where
  le s s' := (∀ id, s.messages id → s'.messages id) ∧ ∀ i, s.labels i → s'.labels i

namespace Rows

variable {g g' : Owners} {h : Holdings} {s s' : Scope} {R R' R'' : Rows} {m : Message} {l : Label}
variable {id i owner : String} {t : Tag}

/-- The rows belong to the owners of their ids. No link leads to a label that is not there. -/
structure Parted (g : Owners) (R : Rows) : Prop where
  messages : ∀ r ∈ R.messages, g.message r.id = some r.ownerId
  labels : ∀ l ∈ R.labels, g.Assigns l
  links : ∀ l ∈ R.links, g.Links l
  known : ∀ l ∈ R.links, ∃ k ∈ R.labels, k.id = l.labelId

/-- One write to the replica. -/
inductive Stroke (g : Owners) (h : Holdings) (s : Scope) (R : Rows) : Rows → Prop
  | copy {m : Message} (hm : m ∈ h.messages) (hid : s.messages m.id) :
      Stroke g h s R { R with messages := putRow (.ofMessage m) R.messages }
  | drop {id : String} (hid : s.messages id) : Stroke g h s R (R.without id)
  | name {l : Label} (hl : h.Stands l) (hid : s.labels l.id) :
      Stroke g h s R { R with labels := putLabelRow l R.labels }
  | enter {l : Label} (hfree : ∀ k ∈ R.labels, k.id ≠ l.id) (hl : g.Assigns l)
      (hid : s.labels l.id) : Stroke g h s R { R with labels := R.labels ++ [l] }
  /-- The label goes with its links, which are those of its owner's messages. -/
  | retire {i owner : String} (hi : g.label i = some owner) (hid : s.labels i)
      (hall : ∀ id, g.message id = some owner → s.messages id) : Stroke g h s R (R.withoutLabel i)
  | clear {id : String} (hid : s.messages id) :
      Stroke g h s R { R with links := R.links.filter (·.messageId != id) }
  | link {l : Link} (hl : g.Links l) (hknown : ∃ k ∈ R.labels, k.id = l.labelId)
      (hid : s.messages l.messageId) :
      Stroke g h s R { R with links := if l ∈ R.links then R.links else R.links ++ [l] }

/-- A series of writes. -/
def Strokes (g : Owners) (h : Holdings) (s : Scope) : Rows → Rows → Prop :=
  Relation.ReflTransGen (Stroke g h s)

theorem Parted.extends (hp : R.Parted g) (he : g.Extends g') : R.Parted g' :=
  ⟨fun r hr => he.message (hp.messages r hr), fun l hl => he.assigns (hp.labels l hl),
    fun l hl => he.links (hp.links l hl), hp.known⟩

theorem Stroke.mono (hle : s ≤ s') (hstroke : Stroke g h s R R') : Stroke g h s' R R' := by
  obtain ⟨hm, hl⟩ := hle
  cases hstroke with
  | copy hmem hid => exact .copy hmem (hm _ hid)
  | drop hid => exact .drop (hm _ hid)
  | name hstands hid => exact .name hstands (hl _ hid)
  | enter hfree hassigns hid => exact .enter hfree hassigns (hl _ hid)
  | retire hi hid hall => exact .retire hi (hl _ hid) fun id hmine => hm id (hall id hmine)
  | clear hid => exact .clear (hm _ hid)
  | link hlinks hknown hid => exact .link hlinks hknown (hm _ hid)

theorem Strokes.mono (hle : s ≤ s') (hs : Strokes g h s R R') : Strokes g h s' R R' :=
  Relation.ReflTransGen.mono (fun _ _ hstroke => hstroke.mono hle) _ _ hs

theorem Stroke.kept (hstroke : Stroke g h s R R') (ho : h.Orderly) (hk : R.Kept h) :
    R'.Kept h := by
  cases hstroke with
  | copy hm hid => exact (spares_putRow hk ho hm).kept
  | drop hid => exact (spares_without hk).kept
  | name hl hid => exact ⟨hk.ids, labelIds_putLabelRow hk, hk.envelopes⟩
  | enter hfree hl hid => exact ⟨hk.ids, nodup_enter hk.labelIds hfree, hk.envelopes⟩
  | retire hi hid hall => exact kept_withoutLabel hk
  | clear hid => exact ⟨hk.ids, hk.labelIds, hk.envelopes⟩
  | link hl hknown hid => exact ⟨hk.ids, hk.labelIds, hk.envelopes⟩

theorem of_mem_putRow {r : Row} (hk : R.Kept h) (hr : r ∈ putRow (.ofMessage m) R.messages) :
    r = Row.ofMessage m ∨ ∃ old ∈ R.messages, old.id = r.id ∧ old.ownerId = r.ownerId := by
  rw [putRow_eq, mem_putKeyed hk.ids] at hr
  rcases hr with ⟨hr, -⟩ | ⟨old, hold, -, rfl⟩ | ⟨rfl, -⟩
  · exact .inr ⟨r, hr, rfl, rfl⟩
  · exact .inr ⟨old, hold, rfl, rfl⟩
  · exact .inl rfl

theorem of_mem_putLabelRow_name {k : Label} (hk : R.Kept h) (hmem : k ∈ putLabelRow l R.labels) :
    k = l ∨ k ∈ R.labels ∨ ∃ old ∈ R.labels, old.id = l.id ∧ k = { old with name := l.name } := by
  rcases (mem_putLabelRow hk.labelIds).mp hmem with ⟨hmem, -⟩ | ⟨old, hold, hid, rfl⟩ | ⟨rfl, -⟩
  · exact .inr (.inl hmem)
  · exact .inr (.inr ⟨old, hold, hid, rfl⟩)
  · exact .inl rfl

theorem Parted.putLabelRow (hp : R.Parted g) (hk : R.Kept h) (hc : g.Covers h)
    (hl : h.Stands l) : Parted g { R with labels := Replica.putLabelRow l R.labels } := by
  refine ⟨hp.messages, fun k hmem => ?_, hp.links,
    fun j hj => known_putLabelRow hk.labelIds (hp.known j hj)⟩
  rcases of_mem_putLabelRow_name hk hmem with rfl | hmem | ⟨old, hold, hid, rfl⟩
  · exact hc.assigns hl
  · exact hp.labels k hmem
  · rcases hp.labels old hold with ⟨t, ht, rfl⟩ | ⟨owner, hlabel, howner⟩
    · have hshared : l = sharedLabel t := (hc.assigns hl).eq_shared ht hid.symm
      exact .inl ⟨t, ht, by rw [hshared]⟩
    · exact .inr ⟨owner, hlabel, howner⟩

theorem Stroke.parted (hstroke : Stroke g h s R R') (hc : g.Covers h) (hk : R.Kept h)
    (hp : R.Parted g) : R'.Parted g := by
  cases hstroke with
  | copy hm hid =>
    refine ⟨fun r hr => ?_, hp.labels, hp.links, hp.known⟩
    rcases of_mem_putRow hk hr with rfl | ⟨old, hold, hid', howner⟩
    · exact hc.messages _ hm
    · rw [← hid', ← howner]
      exact hp.messages old hold
  | drop hid =>
    refine ⟨fun r hr => hp.messages r (List.mem_filter.mp hr).1, hp.labels,
      fun l hl => hp.links l (List.mem_filter.mp hl).1,
      fun l hl => hp.known l (List.mem_filter.mp hl).1⟩
  | name hl hid => exact hp.putLabelRow hk hc hl
  | enter hfree hl hid =>
    refine ⟨hp.messages, fun k hmem => ?_, hp.links, fun j hj => ?_⟩
    · rcases List.mem_append.mp hmem with hmem | hmem
      · exact hp.labels k hmem
      · exact List.mem_singleton.mp hmem ▸ hl
    · obtain ⟨k, hmem, hkj⟩ := hp.known j hj
      exact ⟨k, List.mem_append_left _ hmem, hkj⟩
  | retire hi hid hall =>
    refine ⟨hp.messages, fun k hmem => hp.labels k (List.mem_filter.mp hmem).1,
      fun l hl => hp.links l (List.mem_filter.mp hl).1, fun l hl => ?_⟩
    obtain ⟨hl, hne⟩ := List.mem_filter.mp hl
    obtain ⟨k, hmem, hkl⟩ := hp.known l hl
    exact ⟨k, List.mem_filter.mpr ⟨hmem, hkl ▸ hne⟩, hkl⟩
  | clear hid =>
    exact ⟨hp.messages, hp.labels, fun l hl => hp.links l (List.mem_filter.mp hl).1,
      fun l hl => hp.known l (List.mem_filter.mp hl).1⟩
  | @link l hl hknown hid =>
    have hsplit {k : Link} (hmem : k ∈ if l ∈ R.links then R.links else R.links ++ [l]) :
        k = l ∨ k ∈ R.links := by
      split at hmem
      · exact .inr hmem
      · exact (List.mem_append.mp hmem).symm.imp_left List.mem_singleton.mp
    refine ⟨hp.messages, hp.labels, fun k hmem => ?_, fun k hmem => ?_⟩
    · exact (hsplit hmem).elim (fun hkl => hkl ▸ hl) (hp.links k)
    · exact (hsplit hmem).elim (fun hkl => hkl ▸ hknown) (hp.known k)

/-- What is not in the scope is as before, and no shared label of a reserved tag is lost. -/
structure Beyond (s : Scope) (R R' : Rows) : Prop where
  messages : ∀ r : Row, ¬ s.messages r.id → (r ∈ R'.messages ↔ r ∈ R.messages)
  links : ∀ l : Link, ¬ s.messages l.messageId → (l ∈ R'.links ↔ l ∈ R.links)
  labels : ∀ l : Label, ¬ s.labels l.id → (l ∈ R'.labels ↔ l ∈ R.labels)
  shared : ∀ t ∈ Tag.reserved, sharedLabel t ∈ R.labels → sharedLabel t ∈ R'.labels

theorem Beyond.refl (s : Scope) (R : Rows) : Beyond s R R :=
  ⟨fun _ _ => Iff.rfl, fun _ _ => Iff.rfl, fun _ _ => Iff.rfl, fun _ _ hmem => hmem⟩

theorem Beyond.trans (hb : Beyond s R R') (hb' : Beyond s R' R'') : Beyond s R R'' where
  messages r hr := (hb'.messages r hr).trans (hb.messages r hr)
  links l hl := (hb'.links l hl).trans (hb.links l hl)
  labels l hl := (hb'.labels l hl).trans (hb.labels l hl)
  shared t ht hmem := hb'.shared t ht (hb.shared t ht hmem)

theorem shared_putLabelRow (hp : R.Parted g) (hk : R.Kept h) (hc : g.Covers h) (hl : h.Stands l)
    (ht : t ∈ Tag.reserved) (hmem : sharedLabel t ∈ R.labels) :
    sharedLabel t ∈ putLabelRow l R.labels := by
  by_cases hid : l.id = t.name
  · have hshared : l = sharedLabel t := (hc.assigns hl).eq_shared ht hid
    rw [hshared, putLabelRow_eq]
    refine mem_putKeyed_self hk.labelIds fun old hold hold' => ?_
    rw [(hp.labels old hold).eq_shared ht hold']
  · exact (mem_putLabelRow_of_ne hk (Ne.symm hid)).mpr hmem

theorem Stroke.beyond (hstroke : Stroke g h s R R') (hc : g.Covers h) (hk : R.Kept h)
    (hp : R.Parted g) : Beyond s R R' := by
  have hother {p : String → Prop} {a b : String} (ha : p a) (hb : ¬ p b) : b ≠ a :=
    fun hba => hb (hba ▸ ha)
  cases hstroke with
  | copy hm hid =>
    exact ⟨fun r hr => mem_putRow_of_ne hk (hother hid hr), fun _ _ => Iff.rfl,
      fun _ _ => Iff.rfl, fun _ _ hmem => hmem⟩
  | drop hid =>
    refine ⟨fun r hr => ?_, fun l hl => ?_, fun _ _ => Iff.rfl, fun _ _ hmem => hmem⟩
    · simp [without, hother hid hr]
    · simp [without, hother hid hl]
  | name hl hid =>
    exact ⟨fun _ _ => Iff.rfl, fun _ _ => Iff.rfl,
      fun k hk' => mem_putLabelRow_of_ne hk (hother hid hk'),
      fun t ht hmem => shared_putLabelRow hp hk hc hl ht hmem⟩
  | @enter l hfree hl hid =>
    refine ⟨fun _ _ => Iff.rfl, fun _ _ => Iff.rfl, fun k hk' => ?_,
      fun t ht hmem => List.mem_append_left _ hmem⟩
    have hne : k ≠ l := fun hkl => hk' (hkl ▸ hid)
    simp [hne]
  | @retire i owner hi hid hall =>
    refine ⟨fun _ _ => Iff.rfl, fun l hl => ?_, fun k hk' => ?_, fun t ht hmem => ?_⟩
    · refine ⟨fun hmem => (List.mem_filter.mp hmem).1, fun hmem => ?_⟩
      refine List.mem_filter.mpr ⟨hmem, bne_iff_ne.mpr fun hli => hl (hall _ ?_)⟩
      obtain ⟨o, hmine, ⟨t, ht, htl⟩ | hlabel⟩ := hp.links l hmem
      · exact absurd (htl.trans hli).symm (Owners.ne_of_label hi ht)
      · rw [hli, hi] at hlabel
        rw [hmine, Option.some.inj hlabel]
    · simp [withoutLabel, hother hid hk']
    · exact List.mem_filter.mpr ⟨hmem, bne_iff_ne.mpr (Owners.ne_of_label hi ht).symm⟩
  | clear hid =>
    refine ⟨fun _ _ => Iff.rfl, fun l hl => ?_, fun _ _ => Iff.rfl, fun _ _ hmem => hmem⟩
    simp [hother hid hl]
  | @link l hl hknown hid =>
    refine ⟨fun _ _ => Iff.rfl, fun k hk' => ?_, fun _ _ => Iff.rfl, fun _ _ hmem => hmem⟩
    have hne : k ≠ l := fun hkl => hk' (hkl ▸ hid)
    dsimp only
    split
    · exact Iff.rfl
    · simp [hne]

/-- What a series of writes keeps, and what it leaves alone. -/
theorem Strokes.ends (hs : Strokes g h s R R') (ho : h.Orderly) (hc : g.Covers h) (hk : R.Kept h)
    (hp : R.Parted g) : R'.Kept h ∧ R'.Parted g ∧ Beyond s R R' := by
  induction hs with
  | refl => exact ⟨hk, hp, .refl s R⟩
  | tail _ hstroke ih =>
    obtain ⟨hk', hp', hb⟩ := ih
    exact ⟨hstroke.kept ho hk', hstroke.parted hc hk' hp', hb.trans (hstroke.beyond hc hk' hp')⟩

/-- A message beyond the scope has the tags it had, if the labels it is linked to are beyond the
scope as well, those of reserved tags apart. -/
theorem Beyond.tagsOn (hb : Beyond s R R') (hp : R.Parted g) (hp' : R'.Parted g)
    (hid : ¬ s.messages id)
    (hfree : ∀ i, ⟨id, i⟩ ∈ R.links → s.labels i → ∃ t ∈ Tag.reserved, t.name = i) :
    R'.tagsOn id = R.tagsOn id := by
  have hlabels {l : Label} (hlink : ⟨id, l.id⟩ ∈ R.links) : l ∈ R'.labels ↔ l ∈ R.labels := by
    by_cases hl : s.labels l.id
    · obtain ⟨t, ht, htl⟩ := hfree l.id hlink hl
      constructor
      · intro hmem
        obtain ⟨k, hk, hkl⟩ := hp.known _ hlink
        rw [(hp'.labels l hmem).eq_shared ht htl.symm,
          ← (hp.labels k hk).eq_shared ht (hkl.trans htl.symm)]
        exact hk
      · intro hmem
        have hshared : l = sharedLabel t := (hp.labels l hmem).eq_shared ht htl.symm
        rw [hshared] at hmem ⊢
        exact hb.shared t ht hmem
    · exact hb.labels l hl
  ext t
  rw [mem_tagsOn, mem_tagsOn]
  refine exists_congr fun l => ?_
  rw [hb.links ⟨id, l.id⟩ hid]
  exact ⟨fun ⟨hmem, hlink, hname⟩ => ⟨(hlabels hlink).mp hmem, hlink, hname⟩,
    fun ⟨hmem, hlink, hname⟩ => ⟨(hlabels hlink).mpr hmem, hlink, hname⟩⟩

end Rows

end Replica

end LabelMail
