import LabelMail.Proofs.Mailroom.Discipline
import LabelMail.Proofs.Replica.Ownership

/-!
The tasks as strokes. Every task keeps to a scope, which a refresh of a message takes from the
message alone, and this is so whether the databases fail or not. What a task enters in the backlog
belongs to one owner.
-/
namespace LabelMail

namespace Owners

variable {g : Owners} {h : Holdings} {m : Message} {owner i : String}

/-- The labels on record are those that the message of that owner may have. -/
structure Records (g : Owners) (a : Arrear) : Prop where
  message : g.message a.messageId = some a.ownerId
  labels : ∀ i ∈ a.labelIds, g.Allows a.ownerId i

/-- What stands in for a label is its owner's, or shared if its id spells a reserved tag. -/
theorem assigns_placeholder (hi : g.Allows owner i) :
    g.Assigns (Replica.placeholder owner i) := by
  rcases hi with ⟨t, ht, rfl⟩ | hlabel
  · exact .inl ⟨t, ht, Replica.placeholder_reserved ht⟩
  · refine .inr ⟨owner, by rw [Replica.placeholder_id]; exact hlabel, ?_⟩
    by_cases hspells : Tag.SpellsReserved i
    · exact .inr (by rw [Replica.placeholder_of_spells hspells])
    · exact .inl (by rw [Replica.placeholder_of_not_spells hspells])

end Owners

namespace Mailroom

open Replica (Rows Scope)
open Replica.Rows (Stroke Strokes)

variable {σ : Type}

/-- What was done to the replica is strokes within the scope. New entries of the backlog are on
record as their owners' messages. -/
structure Within (g : Owners) (h : Holdings) (s : Scope) (room room' : Mailroom σ) : Prop where
  rows : Strokes g h s room.replica.rows room'.replica.rows
  backlog : ∀ a ∈ room'.backlog.arrears, a ∈ room.backlog.arrears ∨ g.Records a
  later : room.replica.Later room'.replica

variable {g : Owners} {h : Holdings} {s s' : Scope} {room room' : Mailroom σ} {m : Message}
variable {id owner : String} {labelIds : List String} {t : Task} {a : Arrear}

theorem Within.mono (hle : s ≤ s') (hw : Within g h s room room') : Within g h s' room room' :=
  ⟨hw.rows.mono hle, hw.backlog, hw.later⟩

/-- The strokes within a scope, and the records that agree with the owners. -/
def stroking (g : Owners) (h : Holdings) (s : Scope) : Discipline :=
  ⟨Stroke g h s, g.Records⟩

theorem relinks_stroking (hid : s.messages id) (howner : g.message id = some owner)
    (hlabels : ∀ i ∈ labelIds, s.labels i ∧ g.Allows owner i) :
    (stroking g h s).Relinks id owner labelIds := by
  refine ⟨⟨fun R i hi hfree => ?_, fun R => .clear hid, fun R i hi hknown => ?_⟩,
    fun a hmine hown hids => ⟨?_, fun i hi => ?_⟩⟩
  · obtain ⟨hscope, hallows⟩ := hlabels i hi
    rw [← Replica.placeholder_id owner i] at hfree hscope
    exact .enter hfree (Owners.assigns_placeholder hallows) hscope
  · exact .link ⟨owner, howner, (hlabels i hi).2⟩ hknown hid
  · rw [hmine, hown, howner]
  · rw [hown]
    exact (hlabels i (hids hi)).2

/-- A refresh of a message writes its row, its links and its labels. -/
def refreshScope (h : Holdings) (id : String) : Scope where
  messages := (· = id)
  labels i := ∃ m ∈ h.messages, m.id = id ∧ ∃ l ∈ h.labelsOf m, l.id = i

theorem copies_stroking (ho : h.Orderly) (hc : g.Covers h) (hm : m ∈ h.messages)
    (hid : s.messages m.id) (hlabels : ∀ l ∈ h.labelsOf m, s.labels l.id) :
    (stroking g h s).Copies m (h.labelsOf m) where
  message _ := .copy hm hid
  names l hl _ := .name (ho.stands hm hl) (hlabels l hl)
  links := by
    refine relinks_stroking hid (hc.messages m hm) fun i hi => ?_
    obtain ⟨l, hl, rfl⟩ := List.mem_map.mp hi
    exact ⟨hlabels l hl, hc.allows ho hm hl⟩

theorem refreshes_stroking (ho : h.Orderly) (hc : g.Covers h) (hle : refreshScope h id ≤ s) :
    (stroking g h s).Refreshes h id where
  copies m hm hid := by
    refine copies_stroking ho hc hm (hid ▸ hle.1 id rfl) fun l hl => hle.2 l.id ?_
    exact ⟨m, hm, hid, l, hl, rfl⟩
  removes _ := .drop (hle.1 id rfl)

/-- A retry may also write the labels on record. -/
def retryScope (h : Holdings) (a : Arrear) : Scope where
  messages := (· = a.messageId)
  labels i := i ∈ a.labelIds ∨ (refreshScope h a.messageId).labels i

/-- What a task may write. A label is deleted with its links, which are its owner's. -/
def Task.scope (g : Owners) (h : Holdings) : Task → Scope
  | .refresh id => refreshScope h id
  | .retry a => retryScope h a
  | .putLabel l => ⟨fun _ => False, (· = l.id)⟩
  | .deleteLabel i =>
    ⟨fun id => ∃ owner, g.label i = some owner ∧ g.message id = some owner, (· = i)⟩
  | .sweep ids => ⟨(· ∈ ids), fun _ => False⟩
  | .list _ => ⟨fun _ => False, fun _ => False⟩

/-- What the task is about belongs to someone. -/
def Task.Owned (g : Owners) (h : Holdings) : Task → Prop
  | .retry a => g.Records a
  | .putLabel l => l ∈ h.labels
  | .deleteLabel i => ∃ owner, g.label i = some owner
  | _ => True

theorem Task.Owned.heeds (ht : t.Owned g h) (ho : h.Orderly) (hc : g.Covers h) :
    t.Heeds (stroking g h (t.scope g h)) h := by
  cases t with
  | refresh id => exact refreshes_stroking ho hc ⟨fun _ hid => hid, fun _ hi => hi⟩
  | retry a =>
    refine ⟨refreshes_stroking ho hc ⟨fun _ hid => hid, fun _ => .inr⟩, ?_⟩
    exact relinks_stroking rfl ht.message fun i hi => ⟨.inl hi, ht.labels i hi⟩
  | putLabel l => exact fun _ => .name (.inl ht) rfl
  | deleteLabel i =>
    obtain ⟨owner, hi⟩ := ht
    exact fun _ => .retire hi rfl fun _ hid => ⟨owner, hi, hid⟩
  | sweep ids => exact fun _ hid _ => .drop hid
  | list owner => trivial

theorem run_within (hs : room.primary.rows.Shows h) (ho : h.Orderly) (hc : g.Covers h)
    (ht : t.Owned g h) : Within g h (t.scope g h) room (room.run t) := by
  have habides : Abides (stroking g h (t.scope g h)) room (room.run t) :=
    run_abides (holdings_eq hs ho ▸ ht.heeds ho hc)
  exact ⟨habides.rows, habides.backlog, habides.later⟩

end Mailroom

end LabelMail
