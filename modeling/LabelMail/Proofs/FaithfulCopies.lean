import LabelMail.Proofs.Mailroom.Turns
import LabelMail.Proofs.Replica.Naming
import LabelMail.Proofs.Replica.Showing
import LabelMail.Proofs.StoredTags
import Mathlib.Data.List.Perm.Subperm

/-!
Faithful copies. Whatever the primary store holds, a message that was copied is shown by the replica
with the fields and flags that it has, and with the tags that the names of its labels spell. These
are its own tags if the labels tell them apart and spell them. An owner's label is looked up without
regard to letter case and may spell its name in another way, and it may have the id of the label of
another tag; then the message is shown with other tags or with fewer.
-/
namespace LabelMail

theorem Message.Storable.message_row {m : Message} (h : m.Storable) (tags : TagSet) :
    (Row.ofMessage m).message tags = m.withTags tags := by
  simp only [Row.ofMessage, Row.message, Message.withTags, h.exact]

namespace Holdings

open Replica (Rows)

/-- The tags with which the replica shows a message: those that the names of its labels spell, and
of labels with one id that of the last. -/
def shownTags (h : Holdings) (m : Message) : TagSet :=
  Replica.tagsOfNames ((Rows.lasting (h.labelsOf m)).map Label.name)

/-- The labels of a message tell its tags apart and spell them. -/
structure Distinguishes (h : Holdings) (m : Message) : Prop where
  apart : ∀ t ∈ m.tags, ∀ u ∈ m.tags,
    (h.labelOf m.ownerId t).id = (h.labelOf m.ownerId u).id → t = u
  spelled : ∀ t ∈ m.tags, Tag.ofName (h.labelOf m.ownerId t).name = .ok t

instance (h : Holdings) (m : Message) : Decidable (h.Distinguishes m) :=
  decidable_of_iff ((∀ t ∈ m.tags.toList, ∀ u ∈ m.tags.toList,
      (h.labelOf m.ownerId t).id = (h.labelOf m.ownerId u).id → t = u) ∧
    ∀ t ∈ m.tags.toList, Tag.ofName (h.labelOf m.ownerId t).name = .ok t)
    ⟨fun hd => ⟨hd.1, hd.2⟩, fun hd => ⟨hd.apart, hd.spelled⟩⟩

variable {h : Holdings} {m : Message} {t : Tag}

theorem mem_shownTags : t ∈ h.shownTags m ↔
    ∃ l ∈ Rows.lasting (h.labelsOf m), Tag.ofName l.name = .ok t := by
  rw [shownTags, Rows.mem_tagsOfNames]
  simp only [List.mem_map, exists_exists_and_eq_and]

theorem Distinguishes.shownTags_eq (hd : h.Distinguishes m) : h.shownTags m = m.tags := by
  have hids : ((h.labelsOf m).map Label.id).Nodup := by
    rw [labelsOf, List.map_map]
    refine m.tags.nodup_byName.map_on fun t ht u hu hid => ?_
    exact hd.apart t (TagSet.mem_byName.mp ht) u (TagSet.mem_byName.mp hu) hid
  ext t
  rw [mem_shownTags, Rows.lasting_eq_self hids]
  constructor
  · rintro ⟨l, hl, hspell⟩
    obtain ⟨u, hu, rfl⟩ := mem_labelsOf.mp hl
    rw [hd.spelled u hu] at hspell
    exact Except.ok.inj hspell ▸ hu
  · exact fun ht => ⟨_, mem_labelsOf.mpr ⟨t, ht, rfl⟩, hd.spelled t ht⟩

/-- Labels with one id would leave fewer tags than the message has. -/
theorem lasting_labelsOf (hshown : h.shownTags m = m.tags) :
    Rows.lasting (h.labelsOf m) = h.labelsOf m := by
  have hspelled : m.tags.byName ⊆
      (Rows.lasting (h.labelsOf m)).filterMap fun l => (Tag.ofName l.name).toOption := by
    intro t ht
    rw [TagSet.mem_byName, ← hshown] at ht
    obtain ⟨l, hl, hspell⟩ := mem_shownTags.mp ht
    exact List.mem_filterMap.mpr ⟨l, hl, by rw [hspell]; rfl⟩
  refine Rows.lasting_sublist.eq_of_length_le ?_
  calc (h.labelsOf m).length
      = m.tags.byName.length := List.length_map _
    _ ≤ _ := (List.subperm_of_subset m.tags.nodup_byName hspelled).length_le
    _ ≤ _ := List.length_filterMap_le _ _

theorem distinguishes_of_shownTags (hproper : m.tags.Proper)
    (hnamed : ∀ l ∈ h.labels, (Tag.custom l.name).Proper)
    (hdistinct : ∀ k ∈ h.labels, ∀ l ∈ h.labels, k.ownerId = l.ownerId →
      Text.sameName k.name l.name = true → k = l)
    (hshown : h.shownTags m = m.tags) : h.Distinguishes m := by
  have hlasting : Rows.lasting (h.labelsOf m) = h.labelsOf m := lasting_labelsOf hshown
  have hapart : ∀ t ∈ m.tags, ∀ u ∈ m.tags,
      (h.labelOf m.ownerId t).id = (h.labelOf m.ownerId u).id → t = u := by
    have hids : (m.tags.byName.map fun t => (h.labelOf m.ownerId t).id).Nodup := by
      have hnodup : ((Rows.lasting (h.labelsOf m)).map Label.id).Nodup := Rows.nodup_lasting
      rwa [hlasting, labelsOf, List.map_map] at hnodup
    intro t ht u hu hid
    exact List.inj_on_of_nodup_map hids (TagSet.mem_byName.mpr ht) (TagSet.mem_byName.mpr hu) hid
  refine ⟨hapart, fun t ht => ?_⟩
  rcases mem_reserved_or_custom t with hres | ⟨name, rfl⟩
  · rw [labelOf_reserved hres]
    exact Tag.proper_of_mem_reserved hres
  · cases hfind : h.findLabel? m.ownerId name with
    | none =>
      have hname : (h.labelOf m.ownerId (.custom name)).name = name := by
        rw [labelOf, hfind]
        rfl
      have hspell : Tag.ofName name = .ok (.custom name) := hproper (.custom name) ht
      exact (congrArg Tag.ofName hname).trans hspell
    | some l =>
      have hlabel : h.labelOf m.ownerId (.custom name) = l := by
        rw [labelOf, hfind]
        rfl
      have hl : l ∈ h.labels := List.mem_of_find?_eq_some hfind
      have howner : l.ownerId = m.ownerId := by
        have hfound := List.find?_some hfind
        rw [Bool.and_eq_true, beq_iff_eq] at hfound
        exact hfound.1
      -- the tag that the label spells is one of the message's, and the label is its label too
      have hmem : .custom l.name ∈ m.tags := by
        rw [← hshown, mem_shownTags, hlasting]
        exact ⟨l, mem_labelsOf.mpr ⟨_, ht, hlabel⟩, hnamed l hl⟩
      have hself : h.labelOf m.ownerId (.custom l.name) = l :=
        howner ▸ labelOf_custom_of_distinct hl fun k hk => hdistinct k hk l hl
      have heq : Tag.custom name = .custom l.name := hapart _ ht _ hmem (by rw [hlabel, hself])
      rw [hlabel, heq]
      exact hnamed l hl

end Holdings

namespace Mailroom

open Replica (Rows)

variable {σ : Type} {room mid room' : Mailroom σ} {h : Holdings} {m : Message} {id : String}

/-! ### Copying from whatever the primary store holds -/

/-- A copy of a message fails only if one of the databases is not sound. -/
theorem copyMessage_ok (hlabels : room.primary.rows.labels = h.labels)
    (hk : room.replica.rows.Keyed) :
    Ends (copyMessage m room)
      (fun _ room' => Rows.Copied m (h.labelsOf m) room.replica.rows room'.replica.rows)
      (fun _ _ => room.primary.Sound → ¬ room.replica.Sound) := by
  refine (labelsOfTags_ends hlabels m).bind (fun labels mid hmid => ?_)
    fun _ _ hfail hs => absurd hs hfail.1
  obtain ⟨rfl, db, -, rfl⟩ := hmid
  have hput : Replica.Leaves room.replica
      (do Replica.putMessage m; Replica.putLabels (h.labelsOf m))
      (fun _ R => R = room.replica.rows.put m (h.labelsOf m)) (fun _ => True) := by
    refine ((Replica.leaves_putMessage m).mono (fun _ _ h => h) fun _ _ => trivial).bind
      fun _ r hr => ?_
    refine (Replica.leaves_putLabels _).mono (fun _ R hR => ?_) fun _ _ => trivial
    rw [hR, hr]
    rfl
  refine (attempt_ends (onReplica_ends { room with primary := db } hput)).bind
    (fun res mid hres => ?_) fun _ _ he => he.elim
  rcases hres with ⟨_, rfl, r, rfl, hrows, hl⟩ | ⟨e, rfl, -, -, -, -, hs⟩
  · have hkept : r.rows.Kept ⟨[], []⟩ := hrows ▸ (hk.put m (h.labelsOf m)).kept
    have hlinks := replaceLinks_ends { room with primary := db, replica := r } hkept m.id m.ownerId
      ((h.labelsOf m).map Label.id)
    refine .discard (hlinks.mono (fun _ room' hdone => ?_) fun _ _ hfail _ hs => ?_)
    · rw [Rows.Copied, ← hrows]
      exact hdone.1.rows
    · exact hfail.1.unsound (hs.later hl)
  · exact .of_error fun _ => hs

/-- A refresh that copied has copied the message that the primary store has. It fails only if the
message cannot be read or one of the databases is not sound. -/
theorem refresh_ok (hk : room.replica.rows.Keyed) (id : String) :
    Ends (refresh id room)
      (fun done room' => ∃ found, room.primary.rows.read? id = .ok found ∧
        (done = .copied → ∃ m, found = some m) ∧
        ∀ m, found = some m →
          Rows.Copied m (room.holdings.labelsOf m) room.replica.rows room'.replica.rows)
      (fun _ _ => room.primary.Sound → room.replica.Sound →
        ∃ e, room.primary.rows.read? id = .error e) := by
  refine (onPrimary_ends room (Primary.findMessage_read room.primary id)).bind
    (fun found mid hfound => ?_) fun e _ hfail hp _ => ?_
  · obtain ⟨db, ⟨hread, hi⟩, rfl⟩ := hfound
    cases found with
    | none =>
      have hdelete := onReplica_ends { room with primary := db } (Replica.leaves_deleteMessage id)
      refine Ends.bind (Ends.discard (T := fun _ _ => True) (hdelete.mono (fun _ _ _ => trivial)
        fun _ _ hfail => hfail)) (fun _ _ _ => .of_ok ⟨none, hread, ?_, ?_⟩) ?_
      · exact fun hcopied => by cases hcopied
      · exact fun m hm => by cases hm
      · rintro _ _ ⟨r, -, -, -, hunsound⟩ - hr
        exact absurd hr hunsound
    | some m =>
      have hlabels : db.rows.labels = room.holdings.labels := by rw [hi.rows]; rfl
      have hcopy : Ends (copyMessage m { room with primary := db })
          (fun _ room' => Rows.Copied m (room.holdings.labelsOf m) room.replica.rows
            room'.replica.rows) _ := copyMessage_ok hlabels hk
      refine hcopy.bind (fun _ room' hdone => .of_ok ⟨some m, hread, fun _ => ⟨m, rfl⟩, ?_⟩)
        fun _ _ hfail hp hr => absurd hr (hfail (hp.later hi.toLater))
      exact fun x hx => Option.some.inj hx ▸ hdone
  · obtain ⟨db, hunread, rfl⟩ := hfail
    exact ⟨e, hunread.2 hp⟩

/-- If a refresh says that it copied the message, the replica shows the message as the primary store
has it, with the tags that its labels spell. These are its own if its labels tell its tags apart and
spell them; where all labels have the names of custom tags, and no two of one owner's the same name
but for letter case, only then. What the replica had of the message has to agree with it in owner,
sender and recipient, which are never copied anew. -/
theorem refresh_faithful (room room' : Mailroom σ) (id : String) (hk : room.replica.rows.Keyed)
    (henvelope : ∀ row ∈ room.primary.rows.messages, ∀ r ∈ room.replica.rows.messages,
      row.id = id → r.id = id → r.envelope = row.envelope)
    (hdone : refresh id room = .ok .copied room') :
    ∃ row m, room.primary.rows.messages.find? (·.id == id) = some row ∧ row.message = .ok m ∧
      room'.primary.rows = room.primary.rows ∧
      Ends (Replica.find id room'.replica)
        (fun found _ => ∃ copy, found = some copy ∧
          copy.message = m.withTags (room.holdings.shownTags m) ∧
          (room.holdings.Distinguishes m → copy.message = m) ∧
          ((∀ l ∈ room.holdings.labels, (Tag.custom l.name).Proper) →
            (∀ k ∈ room.holdings.labels, ∀ l ∈ room.holdings.labels, k.ownerId = l.ownerId →
              Text.sameName k.name l.name = true → k = l) →
            copy.message = m → room.holdings.Distinguishes m))
        (fun _ _ => ¬ room'.replica.Sound) := by
  obtain ⟨found, hread, hfound, hcopies⟩ := (refresh_ok hk id).ok _ _ hdone
  obtain ⟨m, rfl⟩ := hfound rfl
  have hcopied := hcopies m rfl
  obtain ⟨row, hrow, hm⟩ := Primary.Rows.read?_eq_some.mp hread
  have htrails : room.Trails room' := by
    have hquiet := (quiet_refresh id).trails room
    rwa [hdone] at hquiet
  refine ⟨row, m, hrow, hm, htrails.primary.rows, ?_⟩
  obtain ⟨hstorable, hgives⟩ := Primary.MessageRow.storable_message hm
  have hid : row.id = id := by simpa using List.find?_some hrow
  have hmid : m.id = id := by
    rw [hgives]
    exact hid
  have hagrees : ∀ r ∈ room.replica.rows.messages, r.id = m.id → r.envelope = m.envelope := by
    intro r hr hrm
    rw [henvelope row (List.mem_of_find?_eq_some hrow) r hr hid (hrm.trans hmid), hgives]
    rfl
  have hcopy := hcopied.copy? hk hagrees
  rw [hmid, hstorable.message_row] at hcopy
  refine Ends.mono (Replica.leaves_find id) (fun found r hfound => ?_) fun _ _ hfail => hfail.2.2
  rw [← Rows.message_shown?] at hcopy
  obtain ⟨copy, hshown, hmessage⟩ := Option.map_eq_some_iff.mp hcopy
  refine ⟨copy, hfound.1.1.trans hshown, hmessage, fun hd => ?_, fun hnamed hdistinct hsame => ?_⟩
  · rw [hmessage]
    exact congrArg m.withTags hd.shownTags_eq
  · refine Holdings.distinguishes_of_shownTags hstorable.proper hnamed hdistinct ?_
    exact congrArg Message.tags (hmessage.symm.trans hsame)

/-- What the replica shows of a message that was just copied. -/
def shownCopy (room : Mailroom σ) (id : String) : Option Message :=
  match refresh id room with
  | .ok .copied room' =>
    match Replica.find id room'.replica with
    | .ok found _ => found.map Replica.Copy.message
    | .error _ _ => none
  | _ => none

/-- A message of the mailbox of one who has three labels. -/
def labelled (id : String) (tags : List Tag) : Message where
  id := id
  senderId := "alice"
  senderName := "Alice"
  recipientId := "bob"
  recipientName := "Bob"
  recipientEmail := "bob@mail"
  subject := "s"
  content := "c"
  timestamp := ⟨1700000000, 0⟩
  ownerId := "bob"
  read := true
  starred := false
  tags := .ofList tags

/-- The sample with three labels of one owner, one of which has the id of a shared label, and with
messages that carry reserved tags, one with a label, one without, one that its label spells in
another way, and one whose label has the other's id. The replica has an older copy of the first. -/
def filled : Mailroom Unit :=
  { sample with
    primary := { sample.primary with rows := { sample.primary.rows with
      messages := [labelled "plain" [.inbox, .read, .custom "deals", .custom "news"],
        labelled "loud" [.custom "WORK"],
        labelled "taken" [.inbox, .custom "lists"]].map .ofMessage
      labels := [⟨"l1", "bob", "deals"⟩, ⟨"l2", "bob", "Work"⟩, ⟨"inbox", "bob", "lists"⟩] } }
    replica := { sample.replica with database := { sample.replica.database with rows :=
      ⟨[{ Row.ofMessage (labelled "plain" []) with subject := "old", read := false }],
        [⟨"l1", "bob", "offers"⟩, ⟨"spam", "", "spam"⟩], [⟨"plain", "spam"⟩]⟩ } } }

theorem refresh_faithful_filled :
    ∃ room' r copy, refresh "plain" filled = .ok .copied room' ∧
      Replica.find "plain" room'.replica = .ok (some copy) r ∧
      copy.message = labelled "plain" [.inbox, .read, .custom "deals", .custom "news"] := by
  have hshown : (filled.shownCopy "plain").isSome := by decide +kernel
  rw [shownCopy] at hshown
  split at hshown
  · next room' hr =>
    obtain ⟨row, m, hrow, hm, -, hfind⟩ :=
      refresh_faithful filled room' "plain" ⟨by decide, by decide⟩ (by decide +kernel) hr
    have hstored : (filled.primary.rows.messages.find? (·.id == "plain")).map (·.message) =
        some (.ok (labelled "plain" [.inbox, .read, .custom "deals", .custom "news"])) := by
      decide +kernel
    rw [hrow, Option.map_some, hm] at hstored
    obtain rfl := Except.ok.inj (Option.some.inj hstored)
    have hsound : room'.replica.Sound := by
      have htrails := (quiet_refresh "plain").trails filled
      rw [hr] at htrails
      exact Database.Sound.later (fun _ _ _ => rfl) htrails.replica
    cases hf : Replica.find "plain" room'.replica with
    | ok found r =>
      obtain ⟨copy, rfl, -, hsame, -⟩ := hfind.ok found r hf
      exact ⟨room', r, copy, hr, hf, hsame (by decide +kernel)⟩
    | error e r => exact absurd hsound (hfind.error e r hf)
  · cases hshown

/-- Two messages that are not shown as they are: one whose label spells its tag in another way, and
one of whose labels has the id of the other. -/
theorem refresh_unfaithful :
    (∀ k ∈ filled.holdings.labels, ∀ l ∈ filled.holdings.labels, k.ownerId = l.ownerId →
        Text.sameName k.name l.name = true → k = l) ∧
      (∀ r ∈ filled.replica.rows.messages, r.id = "plain") ∧
      labelled "loud" [.custom "WORK"] ∈ filled.holdings.messages ∧
      filled.shownCopy "loud" = some (labelled "loud" [.custom "Work"]) ∧
      labelled "loud" [.custom "Work"] ≠ labelled "loud" [.custom "WORK"] ∧
      labelled "taken" [.inbox, .custom "lists"] ∈ filled.holdings.messages ∧
      filled.shownCopy "taken" = some (labelled "taken" [.custom "lists"]) ∧
      labelled "taken" [.custom "lists"] ≠ labelled "taken" [.inbox, .custom "lists"] := by
  decide +kernel

end Mailroom

end LabelMail
