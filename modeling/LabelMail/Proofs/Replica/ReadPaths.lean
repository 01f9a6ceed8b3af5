import LabelMail.Proofs.Replica.Listings
import LabelMail.Proofs.Replica.Showing

/-!
Two ways to read a message off the replica. By its id it comes with the labels that it is linked to,
and its tags are the ones that their names spell; in its owner's mailbox it comes with tags that
were collected for the whole mailbox at once. Both give the same message, whatever the tables hold:
names that spell no tag or one that another name spells too, and links that lead nowhere.
-/
namespace LabelMail.Replica

variable {α β : Type} {r : Replica} {q : Query α} {f : α → Query β} {R : Rows} {a : α} {b : β}
variable {id owner : String}

/-- From these rows the query reads the value, unless a statement is refused, and it changes
nothing. -/
def Reads (R : Rows) (q : Query α) (a : α) : Prop :=
  ∀ r, r.rows = R → Leaves r q (fun b R' => b = a ∧ R' = R) (· = R)

namespace Reads

theorem select (R : Rows) (g : Rows → α) : Reads R (Replica.select g) (g R) := by
  rintro r rfl
  exact Leaves.select g

theorem pure (R : Rows) (a : α) : Reads R (Pure.pure a) a := fun _ hr =>
  .pure ⟨rfl, hr⟩

theorem bind (hq : Reads R q a) (hf : Reads R (f a) b) : Reads R (q >>= f) b := fun r hr =>
  (hq r hr).bind fun _ r' h => h.1 ▸ hf r' h.2

theorem map (hq : Reads R q a) (g : α → β) : Reads R (q >>= fun a => Pure.pure (g a)) (g a) :=
  hq.bind (pure R (g a))

/-- Where no statement is refused, the value is what is read. -/
theorem succeeds (hq : Reads R q a) (hr : r.rows = R) (hs : r.Sound) :
    ∃ r', q r = .ok a r' ∧ r'.rows = R := by
  obtain ⟨b, r', hrun, rfl, hrows⟩ := (hq r hr).succeeds hs
  exact ⟨r', hrun, hrows⟩

end Reads

theorem reads_find (R : Rows) (id : String) : Reads R (find id) (R.shown? id) := by
  rintro r rfl
  exact leaves_find id

theorem reads_messagesOf (R : Rows) (owner : String) :
    Reads R (messagesOf owner) (R.listing owner) := by
  rintro r rfl
  exact leaves_messagesOf owner

theorem any_linksTo (R : Rows) (labelId id : String) :
    (sortBy (fun a b : Link => decide (a.messageId ≤ b.messageId))
      (R.links.filter (·.labelId == labelId))).any (·.messageId == id) =
        decide (⟨id, labelId⟩ ∈ R.links) := by
  rw [Bool.eq_iff_iff, List.any_eq_true, decide_eq_true_iff]
  constructor
  · rintro ⟨⟨m, l⟩, hlink, hid⟩
    obtain ⟨hlink, hlabel⟩ := List.mem_filter.mp (mem_sortBy.mp hlink)
    simp only [beq_iff_eq] at hid hlabel
    exact hid ▸ hlabel ▸ hlink
  · exact fun hlink => ⟨_, mem_sortBy.mpr (List.mem_filter.mpr ⟨hlink, by simp⟩), by simp⟩

/-- By label there come those of the owner's messages that are linked to it, in their order. -/
theorem reads_messagesLinkedTo (R : Rows) (owner labelId : String) :
    Reads R (messagesLinkedTo owner labelId)
      ((R.listing owner).filter fun m => ⟨m.id, labelId⟩ ∈ R.links) := by
  refine (Reads.select R _).bind ?_
  simp only [any_linksTo]
  exact (reads_messagesOf R owner).map _

/-- With one row to an id, each message of a mailbox is shown by its id too. -/
theorem Rows.shown?_of_mem_listing {m : Message} (hids : (R.messages.map Row.id).Nodup)
    (hm : m ∈ R.listing owner) :
    R.shown? m.id = some ⟨m, (R.labelsOn m.id).map showLabel⟩ ∧ m.tags = R.tagsOn m.id := by
  obtain ⟨row, hrow, rfl⟩ := List.mem_map.mp hm
  have hfind : R.messages.find? (·.id == row.id) = some row :=
    find?_of_nodup hids (mem_ownedBy.mp hrow).1
  refine ⟨?_, rfl⟩
  change (R.messages.find? (·.id == row.id)).map _ = _
  rw [hfind]
  rfl

theorem Rows.mem_labelsOn_shown {l : ShownLabel} :
    l ∈ (R.labelsOn id).map showLabel ↔
      ∃ k ∈ R.labels, ⟨id, k.id⟩ ∈ R.links ∧ showLabel k = l := by
  simp [labelsOn, isLinked_iff, and_assoc]

/-- Both ways to read agree on every table with one message row to an id. A message of a mailbox is
the one that its id gives, whose labels are just those linked to it and whose tags are just those
that the labels' names spell; and what is read by label are the messages of the mailbox with a link
to it. -/
theorem read_paths_agree (R : Rows) (hids : (R.messages.map Row.id).Nodup) (owner : String) :
    Reads R (messagesOf owner) (R.listing owner) ∧
      (∀ m ∈ R.listing owner, ∃ labels : List ShownLabel, Reads R (find m.id) (some ⟨m, labels⟩) ∧
        (∀ l, l ∈ labels ↔ ∃ k ∈ R.labels, ⟨m.id, k.id⟩ ∈ R.links ∧ showLabel k = l) ∧
        ∀ t, t ∈ m.tags ↔ ∃ l ∈ labels, Tag.ofName l.label.name = .ok t) ∧
      ∀ labelId, Reads R (messagesLinkedTo owner labelId)
        ((R.listing owner).filter fun m => ⟨m.id, labelId⟩ ∈ R.links) := by
  refine ⟨reads_messagesOf R owner, fun m hm => ?_, reads_messagesLinkedTo R owner⟩
  obtain ⟨hshown, htags⟩ := Rows.shown?_of_mem_listing hids hm
  have hfind : Reads R (find m.id) (some ⟨m, (R.labelsOn m.id).map showLabel⟩) :=
    hshown ▸ reads_find R m.id
  refine ⟨_, hfind, fun l => Rows.mem_labelsOn_shown, fun t => ?_⟩
  rw [htags, Rows.mem_tagsOn]
  constructor
  · rintro ⟨k, hk, hlink, hspell⟩
    exact ⟨_, Rows.mem_labelsOn_shown.mpr ⟨k, hk, hlink, rfl⟩, hspell⟩
  · rintro ⟨l, hl, hspell⟩
    obtain ⟨k, hk, hlink, rfl⟩ := Rows.mem_labelsOn_shown.mp hl
    exact ⟨k, hk, hlink, hspell⟩

/-- Bob's first message has three spellings of the inbox, a blank name and one that only alice's
label has; links lead to a label and from a message that are not there. -/
def tangled : Rows where
  messages := [("m", "bob"), ("n", "bob"), ("o", "alice")].map fun (id, owner) =>
    ⟨id, owner, "alice", "Alice", "bob", "Bob", "bob@example.com", "s", "c", 0, false, false⟩
  labels := [⟨"1", "", "inbox"⟩, ⟨"2", "bob", " PRIMARY"⟩, ⟨"3", "bob", "Inbox"⟩, ⟨"4", "bob", " "⟩,
    ⟨"5", "alice", "work"⟩]
  links := [("m", "1"), ("m", "2"), ("m", "3"), ("m", "4"), ("m", "5"), ("m", "6"), ("o", "5"),
    ("p", "5")].map fun (messageId, labelId) => ⟨messageId, labelId⟩

/-- The replica that holds these rows, in which nothing is refused. -/
def holding (R : Rows) : Replica := ⟨⟨R, Database.sound, 0⟩, 0⟩

theorem read_paths_agree_tangled :
    (tangled.messages.map Row.id).Nodup ∧
    (tangled.listing "bob").map (fun m => (m.id, m.tags.toList)) =
      [("n", []), ("m", [.inbox, .custom "work"])] ∧
    (∃ r', messagesOf "bob" (holding tangled) = .ok (tangled.listing "bob") r') ∧
    (∀ m ∈ tangled.listing "bob", ∃ labels r',
      find m.id (holding tangled) = .ok (some ⟨m, labels⟩) r') ∧
    ((tangled.listing "bob").filter fun m => ⟨m.id, "5"⟩ ∈ tangled.links).map Message.id = ["m"] ∧
    ∃ r', messagesLinkedTo "bob" "5" (holding tangled) =
      .ok ((tangled.listing "bob").filter fun m => ⟨m.id, "5"⟩ ∈ tangled.links) r' := by
  have hids : (tangled.messages.map Row.id).Nodup := by decide
  have hsound : (holding tangled).Sound := fun _ _ _ => rfl
  obtain ⟨hlisting, hfind, hlinked⟩ := read_paths_agree tangled hids "bob"
  obtain ⟨r₁, hlisted, -⟩ := hlisting.succeeds rfl hsound
  obtain ⟨r₂, hread, -⟩ := (hlinked "5").succeeds rfl hsound
  refine ⟨hids, by decide +kernel, ⟨r₁, hlisted⟩, fun m hm => ?_, by decide +kernel, ⟨r₂, hread⟩⟩
  obtain ⟨labels, hreads, -⟩ := hfind m hm
  obtain ⟨r₃, hfound, -⟩ := hreads.succeeds rfl hsound
  exact ⟨labels, r₃, hfound⟩

end LabelMail.Replica
