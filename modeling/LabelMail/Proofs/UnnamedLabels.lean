import LabelMail.Proofs.FaithfulCopies
import LabelMail.Proofs.Mailroom.Discipline
import LabelMail.Proofs.Replica.Charter
import LabelMail.Proofs.Replica.Frames

/-!
Copies of different owners. A custom tag for which its owner has no label is kept in the replica
under an id that is put together from the owner's id, a slash and the tag. As long as the tags of
two owners never give one id in this way, a refresh of a message of the one leaves what the replica
shows of a message of the other as it was, whatever fails on the way. If two tags do, they have one
label in the replica, and it is named after the one that was copied last. This takes an owner whose
id has a slash in it.
-/
namespace LabelMail

/-! ### Labels and their ids -/

theorem slash_mem_unnamedLabel (owner name : String) :
    '/' ∈ (Mailroom.unnamedLabel owner name).id.toList := by
  simp [Mailroom.unnamedLabel]

namespace Holdings

/-- Labels have ids of their own, with no slash in them and other than the names of reserved
tags. -/
structure PlainLabels (h : Holdings) : Prop where
  labelIds : (h.labels.map Label.id).Nodup
  plain : ∀ l ∈ h.labels, '/' ∉ l.id.toList
  apart : h.Apart

/-- Messages have ids of their own too. -/
structure Stocked (h : Holdings) : Prop extends h.PlainLabels where
  ids : h.ids.Nodup

/-- The custom tags of a message for which its owner has no label. -/
def unlabelled (h : Holdings) (m : Message) : List String :=
  m.tags.toList.filterMap fun
    | .custom name => if (h.findLabel? m.ownerId name).isNone then some name else none
    | _ => none

/-- The replica has one id for a tag of the one message and a tag of the other. -/
def Confuses (h : Holdings) (m₁ m₂ : Message) : Prop :=
  ∃ n₁ ∈ h.unlabelled m₁, ∃ n₂ ∈ h.unlabelled m₂,
    (Mailroom.unnamedLabel m₁.ownerId n₁).id = (Mailroom.unnamedLabel m₂.ownerId n₂).id

instance (h : Holdings) (m₁ m₂ : Message) : Decidable (h.Confuses m₁ m₂) :=
  inferInstanceAs (Decidable (∃ n₁ ∈ h.unlabelled m₁, ∃ n₂ ∈ h.unlabelled m₂, _))

/-- Where a label of a message comes from. -/
inductive Origin (h : Holdings) (m : Message) : Label → Prop
  | shared {t : Tag} (ht : t ∈ Tag.reserved) : Origin h m (sharedLabel t)
  | stored {l : Label} (hl : l ∈ h.labels) (howner : l.ownerId = m.ownerId) : Origin h m l
  | unnamed {name : String} (hname : name ∈ h.unlabelled m) :
      Origin h m (Mailroom.unnamedLabel m.ownerId name)

variable {h : Holdings} {m m₁ m₂ : Message} {k l : Label} {t : Tag} {name : String}

theorem mem_unlabelled :
    name ∈ h.unlabelled m ↔ .custom name ∈ m.tags ∧ h.findLabel? m.ownerId name = none := by
  simp only [unlabelled, List.mem_filterMap]
  constructor
  · rintro ⟨t, ht, hname⟩
    split at hname
    · split at hname
      · next hnone =>
        obtain rfl := Option.some.inj hname
        exact ⟨ht, Option.isNone_iff_eq_none.mp hnone⟩
      · cases hname
    · cases hname
  · rintro ⟨ht, hnone⟩
    exact ⟨.custom name, ht, by simp [hnone]⟩

theorem origin (hl : l ∈ h.labelsOf m) : h.Origin m l := by
  obtain ⟨t, ht, rfl⟩ := mem_labelsOf.mp hl
  rcases mem_reserved_or_custom t with hres | ⟨name, rfl⟩
  · rw [labelOf_reserved hres]
    exact .shared hres
  · cases hfind : h.findLabel? m.ownerId name with
    | none =>
      rw [labelOf, hfind, Option.getD_none]
      exact .unnamed (mem_unlabelled.mpr ⟨ht, hfind⟩)
    | some l =>
      have hfound := List.find?_some hfind
      rw [Bool.and_eq_true, beq_iff_eq] at hfound
      rw [labelOf, hfind, Option.getD_some]
      exact .stored (List.mem_of_find?_eq_some hfind) hfound.1

theorem not_slash_mem_reserved (ht : t ∈ Tag.reserved) : '/' ∉ t.name.toList := by
  revert t
  decide

/-- An id with a slash is that of a tag without a label. -/
theorem PlainLabels.eq_unnamedLabel (hs : h.PlainLabels) (hl : l ∈ h.labelsOf m)
    (hslash : '/' ∈ l.id.toList) :
    ∃ name ∈ h.unlabelled m, l = Mailroom.unnamedLabel m.ownerId name := by
  cases origin hl with
  | shared ht => exact absurd hslash (not_slash_mem_reserved ht)
  | stored hl howner => exact absurd hslash (hs.plain l hl)
  | unnamed hname => exact ⟨_, hname, rfl⟩

/-- The labels of a message that have the name of a reserved tag as their id have it as their
name. -/
theorem PlainLabels.name_of_id (hs : h.PlainLabels) (hl : l ∈ h.labelsOf m) (ht : t ∈ Tag.reserved)
    (hid : l.id = t.name) : l.name = t.name := by
  cases origin hl with
  | shared hu => exact hid
  | stored hl howner => exact absurd hid (hs.apart l hl t ht)
  | unnamed hname => exact absurd (hid ▸ slash_mem_unnamedLabel _ _) (not_slash_mem_reserved ht)

/-- Messages of different owners have no label in common but the shared ones. -/
theorem PlainLabels.shared_of_id (hs : h.PlainLabels) (howners : m₁.ownerId ≠ m₂.ownerId)
    (hclear : ¬ h.Confuses m₁ m₂) (hk : k ∈ h.labelsOf m₁) (hl : l ∈ h.labelsOf m₂)
    (hid : k.id = l.id) : ∃ t ∈ Tag.reserved, k = sharedLabel t := by
  by_cases hslash : '/' ∈ k.id.toList
  · obtain ⟨n₁, hn₁, rfl⟩ := hs.eq_unnamedLabel hk hslash
    obtain ⟨n₂, hn₂, rfl⟩ := hs.eq_unnamedLabel hl (hid ▸ hslash)
    exact absurd ⟨n₁, hn₁, n₂, hn₂, hid⟩ hclear
  · cases origin hk with
    | shared ht => exact ⟨_, ht, rfl⟩
    | unnamed hname => exact absurd (slash_mem_unnamedLabel _ _) hslash
    | stored hk hkowner =>
      cases origin hl with
      | shared ht => exact absurd hid (hs.apart k hk _ ht)
      | unnamed hname => exact absurd (hid ▸ slash_mem_unnamedLabel _ _) hslash
      | stored hl hlowner =>
        obtain rfl : k = l := List.inj_on_of_nodup_map hs.labelIds hk hl hid
        exact absurd (hkowner.symm.trans hlowner) howners

theorem Stocked.id_ne (hs : h.Stocked) (hm₁ : m₁ ∈ h.messages) (hm₂ : m₂ ∈ h.messages)
    (howners : m₁.ownerId ≠ m₂.ownerId) : m₁.id ≠ m₂.id := fun hid =>
  howners (congrArg Message.ownerId (eq_of_id hs.ids hm₁ hm₂ hid))

end Holdings

/-- What stands before the slash is found again if it has none itself. -/
theorem owner_eq_of_id {o₁ o₂ n₁ n₂ : String} (h₁ : '/' ∉ o₁.toList) (h₂ : '/' ∉ o₂.toList)
    (hid : o₁ ++ "/" ++ n₁ = o₂ ++ "/" ++ n₂) : o₁ = o₂ := by
  have hpart {o : String} (ho : '/' ∉ o.toList) (n : String) :
      (o ++ "/" ++ n).toList.takeWhile (· != '/') = o.toList := by
    have hfree : ∀ c ∈ o.toList, (c != '/') = true := fun c hc =>
      bne_iff_ne.mpr fun hslash => ho (hslash ▸ hc)
    simp [List.takeWhile_append_of_pos hfree]
  rw [← String.toList_inj, ← hpart h₁ n₁, hid, hpart h₂ n₂]

/-- What stands after the owner is found again if the owner is known. -/
theorem name_eq_of_id {owner n n' : String} (hid : owner ++ "/" ++ n = owner ++ "/" ++ n') :
    n = n' := by
  simpa [← String.toList_inj] using hid

namespace Replica

open Relation (ReflTransGen)

variable {h : Holdings} {R R' : Rows} {r r' : Replica} {m m₁ m₂ : Message} {id : String}

/-! ### What is shown of a message -/

/-- The two show one thing of the message. Only a replica that is not sound shows nothing. -/
def ShowAlike (id : String) (r r' : Replica) : Prop :=
  ∃ copy, Ends (find id r) (fun found _ => found = copy) (fun _ _ => ¬ r.Sound) ∧
    Ends (find id r') (fun found _ => found = copy) fun _ _ => ¬ r'.Sound

theorem showAlike_of_shown? (hshown : r'.rows.shown? id = r.rows.shown? id) :
    ShowAlike id r r' := by
  refine ⟨r.rows.shown? id, ?_, ?_⟩
  · exact Ends.mono (leaves_find id) (fun _ _ hfound => hfound.1.1) fun _ _ hfail => hfail.2.2
  · rw [← hshown]
    exact Ends.mono (leaves_find id) (fun _ _ hfound => hfound.1.1) fun _ _ hfail => hfail.2.2

theorem ShowAlike.shown?_eq (hsame : ShowAlike id r r') (hs : r.Sound) (hs' : r'.Sound) :
    r'.rows.shown? id = r.rows.shown? id := by
  obtain ⟨copy, hfind, hfind'⟩ := hsame
  obtain ⟨found, s, hr, hshown, -⟩ := (leaves_find (r := r) id).succeeds hs
  obtain ⟨found', s', hr', hshown', -⟩ := (leaves_find (r := r') id).succeeds hs'
  rw [← hshown, ← hshown', hfind.ok _ _ hr, hfind'.ok _ _ hr']

theorem showLabel_injective : Function.Injective showLabel := fun _ _ hshown =>
  congrArg ShownLabel.label hshown

theorem Rows.labels_of_shown? {copy : Copy} (hshown : R.shown? id = some copy) :
    copy.labels = (R.labelsOn id).map showLabel := by
  obtain ⟨row, -, rfl⟩ := Option.map_eq_some_iff.mp hshown
  rfl

/-- A label that counts gives its name to the row that the messages are linked to. -/
theorem Rows.Copied.names_on {labels : List Label} {l : Label} (hc : Copied m labels R R')
    (hk : R.Keyed) (hl : l ∈ lasting labels) (hlink : ⟨id, l.id⟩ ∈ R'.links) :
    ∃ k ∈ R'.labelsOn id, k.id = l.id ∧ k.name = l.name := by
  obtain ⟨k, hk', hkid, hkname⟩ := hc.names hk hl
  exact ⟨k, mem_labelsOn.mpr ⟨hk', hkid ▸ hlink⟩, hkid, hkname⟩

/-- A message that was copied is shown under other labels once a copy of another message has renamed
one of them. -/
theorem Rows.Copied.labelsOn_ne {R'' : Rows} {labels₁ labels₂ : List Label} {l₁ l₂ : Label}
    (hc₂ : Copied m₂ labels₂ R R') (hc₁ : Copied m₁ labels₁ R' R'') (hk : R.Keyed)
    (hl₂ : l₂ ∈ lasting labels₂) (hl₁ : l₁ ∈ lasting labels₁) (hne : m₁.id ≠ m₂.id)
    (hid : l₁.id = l₂.id) (hname : l₁.name ≠ l₂.name) :
    R''.labelsOn m₂.id ≠ R'.labelsOn m₂.id := by
  intro hsame
  have hk' : R'.Keyed := hc₂.keyed hk
  have hlink₂ : ⟨m₂.id, l₂.id⟩ ∈ R'.links := by
    rw [hc₂.links, if_pos rfl]
    exact List.mem_map_of_mem (lasting_sublist.subset hl₂)
  have hlink₁ : ⟨m₂.id, l₁.id⟩ ∈ R''.links := by
    rw [hc₁.links, if_neg hne.symm, hid, put, links_putLabelRows]
    exact hlink₂
  obtain ⟨k₂, hk₂, hkid₂, hkname₂⟩ := hc₂.names_on hk hl₂ hlink₂
  obtain ⟨k₁, hk₁, hkid₁, hkname₁⟩ := hc₁.names_on hk' hl₁ hlink₁
  rw [hsame] at hk₁
  have hrow : k₁ = k₂ := List.inj_on_of_nodup_map hk'.labelIds (mem_labelsOn.mp hk₁).1
    (mem_labelsOn.mp hk₂).1 (hkid₁.trans (hid.trans hkid₂.symm))
  exact hname (hkname₁.symm.trans (hrow ▸ hkname₂))

/-! ### The writes of a refresh -/

/-- A label with the id of a shared one has its name. -/
def namesakes : Charter where
  Allows l := ∀ t ∈ Tag.reserved, l.id = t.name → l.name = t.name
  shared _ _ _ _ hid := hid
  renamed _ hl hid t ht hold := hl t ht (hid.symm.trans hold)

/-- The replica has no links but to the labels of the messages, as far as these are stored. -/
structure Fed (h : Holdings) (R : Rows) : Prop where
  chartered : R.Chartered namesakes
  linked : ∀ m ∈ h.messages, ∀ i, ⟨m.id, i⟩ ∈ R.links → ∃ l ∈ h.labelsOf m, l.id = i

/-- One write of a refresh of the message with this id. -/
inductive Feeds (h : Holdings) (id : String) (R : Rows) : Rows → Prop
  | copy {m : Message} (hid : m.id = id) :
      Feeds h id R { R with messages := putRow (.ofMessage m) R.messages }
  | drop : Feeds h id R (R.without id)
  | name {m : Message} {l : Label} (hm : m ∈ h.messages) (hid : m.id = id)
      (hl : l ∈ h.labelsOf m) : Feeds h id R (R.putLabel l)
  | enter {l : Label} (hname : l.name = l.id) (hfree : ∀ k ∈ R.labels, k.id ≠ l.id) :
      Feeds h id R (R.enterLabel l)
  | clear : Feeds h id R (R.clear id)
  | link {m : Message} {l : Label} (hm : m ∈ h.messages) (hid : m.id = id)
      (hl : l ∈ h.labelsOf m) (hknown : ∃ k ∈ R.labels, k.id = l.id) :
      Feeds h id R (R.link ⟨id, l.id⟩)

theorem fed_empty (h : Holdings) : Fed h Rows.empty :=
  ⟨Rows.chartered_empty _, fun _ _ _ hlink => (List.not_mem_nil hlink).elim⟩

theorem Feeds.edit (hw : Feeds h id R R') (hs : h.Stocked) : Rows.Edit namesakes R R' := by
  cases hw with
  | copy hid => exact .copy _
  | drop => exact .drop id
  | name hm hid hl => exact .name fun t ht hlid => hs.name_of_id hl ht hlid
  | enter hname hfree => exact .enter (fun t _ hlid => hname.trans hlid) hfree
  | clear => exact .clear id
  | link hm hid hl hknown => exact .link hknown

theorem Feeds.fed (hw : Feeds h id R R') (hs : h.Stocked) (hf : Fed h R) : Fed h R' := by
  refine ⟨(hw.edit hs).chartered hf.chartered, fun x hx i hlink => ?_⟩
  cases hw with
  | drop => exact hf.linked x hx i (List.mem_filter.mp hlink).1
  | clear => exact hf.linked x hx i (List.mem_filter.mp hlink).1
  | link hm hid hl hknown =>
    rcases Rows.mem_link hlink with heq | hlink
    · obtain ⟨hxid, rfl⟩ := Link.mk.inj heq
      obtain rfl := Holdings.eq_of_id hs.ids hm hx (hid.trans hxid.symm)
      exact ⟨_, hl, rfl⟩
    · exact hf.linked x hx i hlink
  | _ => exact hf.linked x hx i hlink

/-- A message of the owner's keeps out of what is shown of the other. -/
theorem Feeds.shown? (hw : Feeds h m₁.id R R') (hs : h.Stocked) (hf : Fed h R)
    (hm₁ : m₁ ∈ h.messages) (hm₂ : m₂ ∈ h.messages) (howners : m₁.ownerId ≠ m₂.ownerId)
    (hclear : ¬ h.Confuses m₁ m₂) : R'.shown? m₂.id = R.shown? m₂.id := by
  have hne : m₁.id ≠ m₂.id := hs.id_ne hm₁ hm₂ howners
  cases hw with
  | copy hid => exact Rows.shown?_putRow fun hrow => hne (hid.symm.trans hrow)
  | drop => exact Rows.shown?_without hne
  | clear => exact Rows.shown?_clear hne
  | link hm hid hl hknown => exact Rows.shown?_link hne
  | @enter l hname hfree =>
    refine Rows.shown?_enterLabel fun hlink => ?_
    obtain ⟨k, hk, hkl⟩ := hf.chartered.known _ hlink
    exact hfree k hk hkl
  | @name m l hm hid hl =>
    by_cases hlink : ⟨m₂.id, l.id⟩ ∈ R.links
    · -- The label is a shared one then, and it has its name already.
      obtain rfl := Holdings.eq_of_id hs.ids hm hm₁ hid
      obtain ⟨k, hk, hkl⟩ := hf.linked m₂ hm₂ l.id hlink
      obtain ⟨t, ht, rfl⟩ := hs.shared_of_id howners hclear hl hk hkl.symm
      obtain ⟨row, hrow, hrowid⟩ := hf.chartered.known _ hlink
      have hname : R.Names (sharedLabel t) :=
        ⟨row, hrow, hrowid, hf.chartered.allowed row hrow t ht hrowid⟩
      have hself : R.putLabel (sharedLabel t) = R := by
        rw [Rows.putLabel, Rows.putLabelRow_eq_self hf.chartered.labelIds hname]
      rw [hself]
    · exact Rows.shown?_putLabel hlink

theorem Fed.series (hf : Fed h R) (hs : h.Stocked) (hw : ReflTransGen (Feeds h id) R R') :
    Fed h R' := by
  induction hw with
  | refl => exact hf
  | tail _ hwrite ih => exact hwrite.fed hs ih

theorem Fed.shown?_series (hf : Fed h R) (hs : h.Stocked) (hm₁ : m₁ ∈ h.messages)
    (hm₂ : m₂ ∈ h.messages) (howners : m₁.ownerId ≠ m₂.ownerId) (hclear : ¬ h.Confuses m₁ m₂)
    (hw : ReflTransGen (Feeds h m₁.id) R R') : R'.shown? m₂.id = R.shown? m₂.id := by
  induction hw with
  | refl => rfl
  | tail hwrites hwrite ih =>
    exact (hwrite.shown? hs (hf.series hs hwrites) hm₁ hm₂ howners hclear).trans ih

/-- A refresh makes these writes and no others. -/
def feeding (h : Holdings) (id : String) : Discipline :=
  ⟨Feeds h id, fun _ => True⟩

theorem refreshes_feeding (h : Holdings) (id : String) : (feeding h id).Refreshes h id where
  copies m hm hid :=
    { message := fun _ => .copy hid
      names := fun _ hl _ => .name hm hid hl
      links :=
        { enter := fun _ i _ hfree =>
            .enter ((placeholder_name _ i).trans (placeholder_id _ i).symm)
              (by rwa [placeholder_id])
          clear := fun _ => hid ▸ .clear
          link := fun _ i hi hknown => by
            obtain ⟨l, hl, rfl⟩ := List.mem_map.mp hi
            rw [hid]
            exact .link hm hid hl hknown
          entry := fun _ _ _ _ => trivial } }
  removes _ := .drop

end Replica

namespace Mailroom

open Replica (Rows Feeds Fed ShowAlike)

variable {σ : Type} {room room' : Mailroom σ} {h : Holdings} {m m₁ m₂ : Message} {id : String}
variable {name : String}

/-! ### A refresh whose tags are told apart -/

theorem run_feeds (room : Mailroom σ) (id : String) :
    Relation.ReflTransGen (Feeds room.holdings id) room.replica.rows
      (room.run (.refresh id)).replica.rows :=
  (abiding_refresh (Replica.refreshes_feeding room.holdings id)).state.rows

theorem Trails.holdings (ht : room.Trails room') : room'.holdings = room.holdings :=
  congrArg Primary.Rows.holdings ht.primary.rows

theorem fed_done (hs : room.holdings.Stocked) (hf : Fed room.holdings room.replica.rows)
    (ids : List String) :
    Fed room.holdings (room.done (ids.map .refresh)).replica.rows := by
  induction ids generalizing room with
  | nil => exact hf
  | cons id ids ih =>
    have hsame : (room.run (.refresh id)).holdings = room.holdings := (trails_run room _).holdings
    have hrun := ih (hsame ▸ hs) (hsame ▸ hf.series hs (run_feeds room id))
    rwa [hsame] at hrun

/-! ### A refresh that takes over a label -/

/-- A message whose row is the only one with its id is copied, unless a database fails. -/
theorem run_copied (hids : (room.primary.rows.messages.map (·.id)).Nodup)
    (hm : m ∈ room.holdings.messages) (hk : room.replica.rows.Keyed) (hp : room.primary.Sound)
    (hr : room.replica.Sound) :
    Rows.Copied m (room.holdings.labelsOf m) room.replica.rows
      (room.run (.refresh m.id)).replica.rows := by
  obtain ⟨row, hrow, hmessage⟩ := Primary.Rows.mem_holdings.mp hm
  have hread : room.primary.rows.read? m.id = .ok (some m) := by
    refine Primary.Rows.read?_eq_some.mpr ⟨row, ?_, hmessage⟩
    rw [Primary.MessageRow.message_id hmessage]
    exact find?_of_nodup hids hrow
  refine of_state (P := fun room' => Rows.Copied m _ _ room'.replica.rows)
    ((refresh_ok hk m.id).mono (fun _ _ hdone => ?_) fun _ _ hfail => ?_)
  · obtain ⟨found, hfound, -, hcopies⟩ := hdone
    exact hcopies m (Except.ok.inj (hfound.symm.trans hread))
  · obtain ⟨e, he⟩ := hfail hp hr
    cases he.symm.trans hread

/-- No other label of the message has the id of a tag without a label. -/
theorem unnamedLabel_lasting (hs : h.PlainLabels) (hname : name ∈ h.unlabelled m) :
    unnamedLabel m.ownerId name ∈ Rows.lasting (h.labelsOf m) := by
  obtain ⟨hcarried, hnone⟩ := Holdings.mem_unlabelled.mp hname
  have hlabel : unnamedLabel m.ownerId name ∈ h.labelsOf m :=
    Holdings.mem_labelsOf.mpr ⟨_, hcarried, by rw [Holdings.labelOf, hnone, Option.getD_none]⟩
  obtain ⟨k, hk, hid⟩ := List.mem_map.mp (Rows.mem_ids_lasting.mpr (List.mem_map_of_mem hlabel))
  obtain ⟨n, -, rfl⟩ := hs.eq_unnamedLabel (Rows.lasting_sublist.subset hk)
    (hid ▸ slash_mem_unnamedLabel m.ownerId name)
  rwa [name_eq_of_id hid] at hk

/-- A copy of one message renames the label that it has in common with the other. -/
theorem not_showAlike_of_confuses (hids : (room.primary.rows.messages.map (·.id)).Nodup)
    (hs : room.holdings.Stocked) (hempty : room.replica.rows = Rows.empty)
    (hm₁ : m₁ ∈ room.holdings.messages) (hm₂ : m₂ ∈ room.holdings.messages)
    (howners : m₁.ownerId ≠ m₂.ownerId) (hconfused : room.holdings.Confuses m₁ m₂)
    (hp : room.primary.Sound) (hr : room.replica.Sound) :
    ¬ ShowAlike m₂.id (room.run (.refresh m₂.id)).replica
      ((room.run (.refresh m₂.id)).run (.refresh m₁.id)).replica := by
  intro hsame
  let mid : Mailroom σ := room.run (.refresh m₂.id)
  obtain ⟨n₁, hn₁, n₂, hn₂, hid⟩ := hconfused
  have hnames : n₁ ≠ n₂ := by
    rintro rfl
    exact howners (by simpa [unnamedLabel, ← String.toList_inj] using hid)
  have hne : m₁.id ≠ m₂.id := hs.id_ne hm₁ hm₂ howners
  have hk : room.replica.rows.Keyed := hempty ▸ ⟨.nil, .nil⟩
  have hc₂ := run_copied hids hm₂ hk hp hr
  have htrails : room.Trails mid := trails_run room _
  have hc₁ : Rows.Copied m₁ (room.holdings.labelsOf m₁) mid.replica.rows
      (mid.run (.refresh m₁.id)).replica.rows := by
    have hheld : mid.holdings = room.holdings := htrails.holdings
    have hids' : (mid.primary.rows.messages.map (·.id)).Nodup := htrails.primary.rows ▸ hids
    rw [← hheld] at hm₁ ⊢
    exact run_copied hids' hm₁ (hc₂.keyed hk) (hp.later htrails.primary.toLater)
      (hr.later htrails.replica)
  have hshown := hsame.shown?_eq (hr.later htrails.replica)
    (hr.later (htrails.replica.trans (trails_run mid _).replica))
  have hcopy := hc₂.copy? hk (by simp [hempty, Rows.empty])
  rw [← Rows.message_shown?] at hcopy
  obtain ⟨copy, hcopy, -⟩ := Option.map_eq_some_iff.mp hcopy
  have hlabels := Rows.labels_of_shown? (hshown.trans hcopy)
  rw [Rows.labels_of_shown? hcopy] at hlabels
  exact hc₂.labelsOn_ne hc₁ hk (unnamedLabel_lasting hs.toPlainLabels hn₂)
    (unnamedLabel_lasting hs.toPlainLabels hn₁) hne hid hnames
    (Replica.showLabel_injective.list_map hlabels).symm

/-! ### What is shown of the messages of other owners -/

/-- However the replica came to its copies, a refresh of one owner's message leaves what it shows of
another owner's message, with the labels, as it was, unless the two carry tags without a label whose
owner, slash and tag put together are one text. If they do, and no database fails, the refresh of
the one takes the label over from the other. Owners whose ids have no slash in them are safe. -/
theorem refresh_leaves_others (room : Mailroom σ) (hempty : room.replica.rows = Rows.empty)
    (hids : (room.primary.rows.messages.map (·.id)).Nodup) (hlabels : room.holdings.PlainLabels)
    (m₁ m₂ : Message) (hm₁ : m₁ ∈ room.holdings.messages) (hm₂ : m₂ ∈ room.holdings.messages)
    (howners : m₁.ownerId ≠ m₂.ownerId) :
    (¬ room.holdings.Confuses m₁ m₂ → ∀ ids : List String,
      ShowAlike m₂.id (room.done (ids.map .refresh)).replica
        ((room.done (ids.map .refresh)).run (.refresh m₁.id)).replica) ∧
    (room.holdings.Confuses m₁ m₂ → room.primary.Sound → room.replica.Sound →
      ¬ ShowAlike m₂.id (room.run (.refresh m₂.id)).replica
        ((room.run (.refresh m₂.id)).run (.refresh m₁.id)).replica) ∧
    ('/' ∉ m₁.ownerId.toList → '/' ∉ m₂.ownerId.toList → ¬ room.holdings.Confuses m₁ m₂) := by
  have hs : room.holdings.Stocked := ⟨hlabels, Primary.Rows.nodup_holdings hids⟩
  refine ⟨fun hclear ids => ?_, fun hconfused hp hr => ?_, fun h₁ h₂ hconfused => ?_⟩
  · have hfed : Fed room.holdings (room.done (ids.map .refresh)).replica.rows :=
      fed_done hs (hempty ▸ Replica.fed_empty _) ids
    have hwrites := run_feeds (room.done (ids.map .refresh)) m₁.id
    rw [(trails_done room _).holdings] at hwrites
    exact Replica.showAlike_of_shown? (hfed.shown?_series hs hm₁ hm₂ howners hclear hwrites)
  · exact not_showAlike_of_confuses hids hs hempty hm₁ hm₂ howners hconfused hp hr
  · obtain ⟨n₁, -, n₂, -, hid⟩ := hconfused
    exact howners (owner_eq_of_id h₁ h₂ hid)

def tagged (id owner name : String) : Message :=
  { labelled id [.custom name] with ownerId := owner }

/-- A message of an owner and one of another, whose id goes on from the first one's after a slash.
The first has a label, but none for the tag of the message. -/
def nested (name : String) : Mailroom Unit :=
  { sample with
    primary := { sample.primary with rows := { sample.primary.rows with
      messages := [tagged "m1" "a" "b/c", tagged "m2" "a/b" name].map .ofMessage
      labels := [⟨"l1", "a", "deals"⟩] } } }

theorem refresh_leaves_others_nested :
    let before := (nested "d").done [.refresh "m1", .refresh "m2"]
    (nested "d").replica.rows = Rows.empty ∧
      ((nested "d").primary.rows.messages.map (·.id)).Nodup ∧ (nested "d").holdings.PlainLabels ∧
      tagged "m1" "a" "b/c" ∈ (nested "d").holdings.messages ∧
      tagged "m2" "a/b" "d" ∈ (nested "d").holdings.messages ∧
      ¬ (nested "d").holdings.Confuses (tagged "m2" "a/b" "d") (tagged "m1" "a" "b/c") ∧
      ShowAlike "m1" before.replica (before.run (.refresh "m2")).replica := by
  have hids : ((nested "d").primary.rows.messages.map (·.id)).Nodup := by decide +kernel
  have hlabels : (nested "d").holdings.PlainLabels :=
    ⟨by decide +kernel, by decide +kernel, by unfold Holdings.Apart; decide +kernel⟩
  have hm₁ : tagged "m1" "a" "b/c" ∈ (nested "d").holdings.messages := by decide +kernel
  have hm₂ : tagged "m2" "a/b" "d" ∈ (nested "d").holdings.messages := by decide +kernel
  have hclear : ¬ (nested "d").holdings.Confuses (tagged "m2" "a/b" "d")
      (tagged "m1" "a" "b/c") := by decide +kernel
  have hothers := refresh_leaves_others (nested "d") rfl hids hlabels _ _ hm₂ hm₁ (by decide)
  exact ⟨rfl, hids, hlabels, hm₁, hm₂, hclear, hothers.1 hclear ["m1", "m2"]⟩

/-- The names of the labels with which the replica shows a message. -/
def shownNames (room : Mailroom σ) (id : String) : Option (List String) :=
  ((Replica.find id).run' room.replica).join.map fun copy => copy.labels.map (·.label.name)

/-- The other owner's message takes the label over. -/
theorem refresh_renames_others :
    let before := (nested "c").done [.refresh "m1"]
    (nested "c").replica.rows = Rows.empty ∧
      ((nested "c").primary.rows.messages.map (·.id)).Nodup ∧
      ((nested "c").holdings.labels.map Label.id).Nodup ∧
      (∀ l ∈ (nested "c").holdings.labels, '/' ∉ l.id.toList) ∧
      (∀ l ∈ (nested "c").holdings.labels, ∀ t ∈ Tag.reserved, l.id ≠ t.name) ∧
      tagged "m1" "a" "b/c" ∈ (nested "c").holdings.messages ∧
      tagged "m2" "a/b" "c" ∈ (nested "c").holdings.messages ∧
      before.shownNames "m1" = some ["b/c"] ∧
      (before.run (.refresh "m2")).shownNames "m1" = some ["c"] := by
  decide +kernel

end Mailroom

end LabelMail
