import LabelMail.Primary.Labels
import LabelMail.Proofs.TagText
import Mathlib.Data.List.Nodup

/-!
What the primary store holds, as messages and labels rather than rows. A message is storable when
its row gives it back, and the rows of the store show its holdings.
-/
namespace LabelMail

open Calendar (Instant)

/-- An instant that was read from a count of milliseconds has that count's milliseconds. -/
theorem Calendar.Instant.ofMillis_toMillis_ofMillis (millis : Int) :
    Instant.ofMillis (Instant.ofMillis millis).toMillis = Instant.ofMillis millis := by
  by_cases h : Instant.isCovered (millis / 1000) = true
  · rw [Instant.toMillis_ofMillis h]
  · have hepoch : Instant.ofMillis millis = Instant.epoch := by simp [Instant.ofMillis, h]
    rw [hepoch]
    decide

/-- Where no two entries have one key, an entry is found by its key. -/
theorem find?_of_nodup {α : Type} {key : α → String} {l : List α} {a : α}
    (hnodup : (l.map key).Nodup) (ha : a ∈ l) : l.find? (key · == key a) = some a := by
  cases hfind : l.find? (key · == key a) with
  | none => exact absurd (beq_self_eq_true (key a)) (List.find?_eq_none.mp hfind a ha)
  | some x =>
    have hkey : key x = key a := by simpa using List.find?_some hfind
    exact congrArg some
      (List.inj_on_of_nodup_map hnodup (List.mem_of_find?_eq_some hfind) ha hkey)

/-- Entries are dropped by one key after the other, or by all keys at once. -/
theorem filter_ne_filter {α : Type} (key : α → String) (k : String) (ks : List String)
    (l : List α) : (l.filter (key · != k)).filter (fun a => decide (key a ∉ ks)) =
      l.filter fun a => decide (key a ∉ k :: ks) := by
  rw [List.filter_filter]
  refine List.filter_congr fun a _ => ?_
  rw [Bool.eq_iff_iff]
  simp [and_comm]

theorem toOption_eq_some {ε α : Type} {v : Except ε α} {a : α} :
    v.toOption = some a ↔ v = .ok a := by
  cases v <;> simp [Except.toOption]

/-- The row without what an operation may change. -/
def Row.envelope (r : Row) : Row :=
  { r with subject := "", content := "", millis := 0, read := false, starred := false }

namespace Message

/-- What no operation changes in a message. -/
def envelope (m : Message) : Row := (Row.ofMessage m).envelope

structure Storable (m : Message) : Prop where
  proper : ∀ t ∈ m.tags, t.Proper
  exact : Instant.ofMillis m.timestamp.toMillis = m.timestamp

theorem Storable.row_message {m : Message} (h : m.Storable) :
    (Row.ofMessage m).message m.tags = m := by
  simp only [Row.ofMessage, Row.message, h.exact]

theorem Storable.stored_message {m : Message} (h : m.Storable) :
    (Primary.MessageRow.ofMessage m).message = .ok m := by
  have hdecode : TagSet.decode m.tags.encode = .ok m.tags := TagSet.decode_encode h.proper
  simp only [Primary.MessageRow.message, Primary.MessageRow.ofMessage, hdecode]
  exact congrArg Except.ok h.row_message

end Message

structure Holdings where
  messages : List Message
  labels : List Label

namespace Holdings

def ids (h : Holdings) : List String := h.messages.map Message.id

def find? (h : Holdings) (id : String) : Option Message :=
  h.messages.find? (·.id == id)

def findLabel? (h : Holdings) (owner name : String) : Option Label :=
  h.labels.find? fun l => l.ownerId == owner && Text.sameName l.name name

/-- The name of the owner's label of this name, or the name itself. -/
def spelled (h : Holdings) (owner name : String) : String :=
  ((h.findLabel? owner name).map Label.name).getD name

/-- The tag as the owner spells it. -/
def spelledTag (h : Holdings) (owner : String) : Tag → Tag
  | .custom name => .custom (h.spelled owner name)
  | t => t

/-- The owner's messages, newest first. -/
def mailbox (h : Holdings) (owner : String) : List Message :=
  sortBy (fun a b => (Row.ofMessage a).precedes (Row.ofMessage b))
    (h.messages.filter (·.ownerId == owner))

/-- The message takes the place of the one with its id. -/
def put (h : Holdings) (m : Message) : Holdings :=
  { h with messages := h.messages.map fun x => if x.id = m.id then m else x }

/-- The owner's messages that carry the tag get `f` of their other tags. -/
def retag (h : Holdings) (owner : String) (t : Tag) (f : TagSet → TagSet) : List Message :=
  h.messages.map fun m =>
    if m.ownerId = owner ∧ t ∈ m.tags then m.withTags (f (m.tags.erase t)) else m

@[simp] theorem mem_mailbox {h : Holdings} {owner : String} {m : Message} :
    m ∈ h.mailbox owner ↔ m ∈ h.messages ∧ m.ownerId = owner := by
  simp [mailbox]

theorem nodup_mailbox {h : Holdings} (hnodup : h.ids.Nodup) (owner : String) :
    ((h.mailbox owner).map Message.id).Nodup :=
  ((sortBy_perm _).map Message.id).nodup_iff.mpr (hnodup.sublist (List.filter_sublist.map _))

theorem mem_of_find? {h : Holdings} {id : String} {m : Message} (hm : h.find? id = some m) :
    m ∈ h.messages ∧ m.id = id :=
  ⟨List.mem_of_find?_eq_some hm, by simpa using List.find?_some hm⟩

theorem find?_eq_none {h : Holdings} {id : String} : h.find? id = none ↔ id ∉ h.ids := by
  simp [find?, ids]

theorem mem_ids {h : Holdings} {id : String} : id ∈ h.ids ↔ ∃ m ∈ h.messages, m.id = id :=
  List.mem_map

theorem eq_of_id {h : Holdings} (hnodup : h.ids.Nodup) {m m' : Message} (hm : m ∈ h.messages)
    (hm' : m' ∈ h.messages) (hid : m.id = m'.id) : m = m' :=
  List.inj_on_of_nodup_map hnodup hm hm' hid

theorem find?_of_mem {h : Holdings} (hnodup : h.ids.Nodup) {m : Message} (hm : m ∈ h.messages) :
    h.find? m.id = some m :=
  find?_of_nodup hnodup hm

theorem mem_put {h : Holdings} {m x : Message} (hid : m.id ∈ h.ids) :
    x ∈ (h.put m).messages ↔ x = m ∨ (x ∈ h.messages ∧ x.id ≠ m.id) := by
  obtain ⟨m₀, hm₀, hid₀⟩ := mem_ids.mp hid
  simp only [put, List.mem_map]
  constructor
  · rintro ⟨y, hy, rfl⟩
    by_cases hyid : y.id = m.id
    · simp [hyid]
    · simp [hyid, hy]
  · rintro (rfl | ⟨hx, hxid⟩)
    · exact ⟨m₀, hm₀, by simp [hid₀]⟩
    · exact ⟨x, hx, by simp [hxid]⟩

@[simp] theorem ids_put {h : Holdings} {m : Message} : (h.put m).ids = h.ids := by
  simp only [ids, put, List.map_map]
  refine List.map_congr_left fun x _ => ?_
  by_cases hid : x.id = m.id <;> simp [hid]

theorem put_put {h : Holdings} {m m' : Message} (hid : m.id = m'.id) :
    (h.put m).put m' = h.put m' := by
  simp only [put, List.map_map]
  refine congrArg (Holdings.mk · h.labels) (List.map_congr_left fun x _ => ?_)
  by_cases hx : x.id = m.id
  · simp [hx, hid]
  · simp [hx]

theorem put_eq_self {h : Holdings} (hnodup : h.ids.Nodup) {m : Message} (hm : m ∈ h.messages) :
    h.put m = h := by
  have hmessages : h.messages.map (fun x => if x.id = m.id then m else x) = h.messages := by
    refine (List.map_congr_left fun x hx => ?_).trans h.messages.map_id
    split
    · next hid => exact eq_of_id hnodup hm hx hid.symm
    · rfl
  rw [put, hmessages]

end Holdings

namespace Primary

/-- The rows are those of the holdings. -/
structure Rows.Shows (rows : Rows) (h : Holdings) : Prop where
  messages : rows.messages = h.messages.map MessageRow.ofMessage
  labels : rows.labels = h.labels

end Primary

end LabelMail
