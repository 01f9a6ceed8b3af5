import LabelMail.Proofs.Primary.Writing
import Mathlib.Data.List.Perm.Subperm

/-!
Messages marked as read or unread, several at once. What a mark changes is looked up before anything
is stored, so that a message whose id is listed several times is marked as often, but it changes
only once.
-/
namespace LabelMail

namespace Message

variable {m : Message} {b : Bool}

theorem setRead_ne_self (h : (m.setRead b).2 = true) : (m.setRead b).1 ≠ m := by
  intro heq
  have hread : b = m.read := congrArg Message.read heq
  have htags : setTag b .read m.tags = m.tags := congrArg Message.tags heq
  have hmem : decide (Tag.read ∈ m.tags) = b := by
    rw [← htags]
    cases b <;> simp [setTag]
  simp [setRead, ← hread, hmem] at h

end Message

namespace Holdings

variable {h h' : Holdings} {owner id : String} {ids : List String} {read : Bool} {m x : Message}
variable {ms : List Message}

/-- What becomes of the owner's message of that id when it is marked, if that changes it. -/
def marked (h : Holdings) (owner : String) (read : Bool) (id : String) : Option Message :=
  ((h.find? id).filter fun m => m.ownerId == owner && (m.setRead read).2).map fun m =>
    (m.setRead read).1

/-- The messages that are not as they were in `h`. -/
def changed (h h' : Holdings) : List Message :=
  h'.messages.filter fun m => decide (m ∉ h.messages)

/-- What a batch that marks the owner's messages among `ids` makes of the holdings and returns. -/
structure Batch (h h' : Holdings) (owner : String) (ids : List String) (read : Bool)
    (ms : List Message) : Prop where
  messages : h'.messages = h.messages.map fun m =>
    if m.ownerId = owner ∧ m.id ∈ ids
    then { m with read := read, tags := Message.setTag read .read m.tags } else m
  labels : h'.labels = h.labels
  stored : ∀ m ∈ ms, m ∈ changed h h'
  /-- What changed is returned as often as it is listed. -/
  returned : ms.map Message.id =
    ids.filter fun id => decide (id ∈ (changed h h').map Message.id)

theorem marked_eq_some (hnodup : h.ids.Nodup) : h.marked owner read id = some m ↔
    ∃ x ∈ h.messages, x.id = id ∧ x.ownerId = owner ∧ (x.setRead read).2 = true ∧
      (x.setRead read).1 = m := by
  simp only [marked, Option.map_eq_some_iff, Option.filter_eq_some_iff, Bool.and_eq_true,
    beq_iff_eq]
  constructor
  · rintro ⟨x, ⟨hx, howner, hset⟩, rfl⟩
    obtain ⟨hmem, hid⟩ := mem_of_find? hx
    exact ⟨x, hmem, hid, howner, hset, rfl⟩
  · rintro ⟨x, hx, rfl, howner, hset, rfl⟩
    exact ⟨x, ⟨find?_of_mem hnodup hx, howner, hset⟩, rfl⟩

theorem marked_of_find? (hx : h.find? id = some x) : h.marked owner read id =
    if x.ownerId = owner ∧ (x.setRead read).2 = true then some (x.setRead read).1 else none := by
  unfold marked
  rw [hx]
  split <;> simp_all

theorem marked_eq_none (hid : ∀ x, h.find? id = some x → x.ownerId ≠ owner) :
    h.marked owner read id = none := by
  cases hx : h.find? id with
  | none => rw [marked, hx]; rfl
  | some x => rw [marked_of_find? hx, if_neg fun hown => hid x hx hown.1]

theorem marked_id (hnodup : h.ids.Nodup) (hm : h.marked owner read id = some m) : m.id = id := by
  obtain ⟨x, -, hid, -, -, rfl⟩ := (marked_eq_some hnodup).mp hm
  exact hid

/-- The messages of a batch, put in their places. -/
theorem puts_marked (hnodup : h.ids.Nodup) :
    (Primary.puts h (ids.filterMap (h.marked owner read))).messages = h.messages.map fun m =>
      if m.ownerId = owner ∧ m.id ∈ ids then (m.setRead read).1 else m := by
  have hmem {m : Message} : m ∈ ids.filterMap (h.marked owner read) ↔
      ∃ x ∈ h.messages, x.id ∈ ids ∧ x.ownerId = owner ∧ (x.setRead read).2 = true ∧
        (x.setRead read).1 = m := by
    simp only [List.mem_filterMap, marked_eq_some hnodup]
    constructor
    · rintro ⟨id, hid, x, hx, rfl, hset⟩
      exact ⟨x, hx, hid, hset⟩
    · rintro ⟨x, hx, hid, hset⟩
      exact ⟨x.id, hid, x, hx, rfl, hset⟩
  rw [Primary.messages_puts]
  · refine List.map_congr_left fun x hx => ?_
    cases hfind : (ids.filterMap (h.marked owner read)).find? (·.id == x.id) with
    | some m =>
      have hid : m.id = x.id := by simpa using List.find?_some hfind
      obtain ⟨y, hy, hlisted, howner, -, rfl⟩ := hmem.mp (List.mem_of_find?_eq_some hfind)
      obtain rfl := eq_of_id hnodup hy hx hid
      rw [if_pos ⟨howner, hlisted⟩, Option.getD_some]
    | none =>
      -- a listed message that is not stored is one that the mark does not change
      split
      · next hcase =>
        refine (Message.setRead_eq_self (Bool.eq_false_iff.mpr fun hset => ?_)).symm
        refine List.find?_eq_none.mp hfind _ (hmem.mpr ⟨x, hx, hcase.2, hcase.1, hset, rfl⟩) ?_
        exact beq_self_eq_true _
      · rfl
  · intro m hm m' hm' hid
    obtain ⟨x, hx, -, -, -, rfl⟩ := hmem.mp hm
    obtain ⟨y, hy, -, -, -, rfl⟩ := hmem.mp hm'
    rw [eq_of_id hnodup hx hy hid]

theorem mem_changed_of_marks (hnodup : h.ids.Nodup)
    (hh' : h'.messages = h.messages.map fun m =>
      if m.ownerId = owner ∧ m.id ∈ ids then (m.setRead read).1 else m) :
    m ∈ changed h h' ↔ m.id ∈ ids ∧ h.marked owner read m.id = some m := by
  rw [changed, List.mem_filter, decide_eq_true_iff, hh', List.mem_map, marked_eq_some hnodup]
  constructor
  · rintro ⟨⟨x, hx, rfl⟩, hnew⟩
    by_cases hcase : x.ownerId = owner ∧ x.id ∈ ids
    · rw [if_pos hcase]
      refine ⟨hcase.2, x, hx, rfl, hcase.1, ?_, rfl⟩
      by_contra hset
      refine hnew ?_
      rw [if_pos hcase, Message.setRead_eq_self (Bool.eq_false_iff.mpr hset)]
      exact hx
    · rw [if_neg hcase] at hnew
      exact absurd hx hnew
  · rintro ⟨hlisted, x, hx, hid, howner, hset, hm⟩
    refine ⟨⟨x, hx, by rw [if_pos ⟨howner, hid ▸ hlisted⟩, hm]⟩, fun hold => ?_⟩
    have hsame : m = x := eq_of_id hnodup hold hx hid.symm
    exact Message.setRead_ne_self hset (hm.trans hsame)

/-- The ids of what a function finds under some of the ids, if it finds it under its own id. -/
theorem map_id_filterMap {f : String → Option Message} (hf : ∀ id m, f id = some m → m.id = id)
    (ids : List String) :
    (ids.filterMap f).map Message.id = ids.filter fun id => (f id).isSome := by
  induction ids with
  | nil => rfl
  | cons id ids ih =>
    cases hfound : f id with
    | none =>
      rw [List.filterMap_cons_none hfound, List.filter_cons_of_neg (by simp [hfound]), ih]
    | some m =>
      rw [List.filterMap_cons_some hfound, List.filter_cons_of_pos (by simp [hfound]),
        List.map_cons, ih, hf id m hfound]

theorem batch_of_puts (hnodup : h.ids.Nodup) (ids : List String) :
    Batch h (Primary.puts h (ids.filterMap (h.marked owner read))) owner ids read
      (ids.filterMap (h.marked owner read)) := by
  have hmessages : (Primary.puts h (ids.filterMap (h.marked owner read))).messages =
      h.messages.map fun m =>
        if m.ownerId = owner ∧ m.id ∈ ids then (m.setRead read).1 else m := puts_marked hnodup
  have hchanged {m : Message} := mem_changed_of_marks (m := m) hnodup hmessages
  refine ⟨hmessages, Primary.labels_puts, fun m hm => ?_, ?_⟩
  · obtain ⟨id, hid, hm⟩ := List.mem_filterMap.mp hm
    obtain rfl := marked_id hnodup hm
    exact hchanged.mpr ⟨hid, hm⟩
  · rw [map_id_filterMap fun _ _ => marked_id hnodup]
    refine List.filter_congr fun id hid => ?_
    rw [Bool.eq_iff_iff, Option.isSome_iff_exists, decide_eq_true_iff, List.mem_map]
    constructor
    · rintro ⟨m, hm⟩
      obtain rfl := marked_id hnodup hm
      exact ⟨m, hchanged.mpr ⟨hid, hm⟩, rfl⟩
    · rintro ⟨m, hm, rfl⟩
      exact ⟨m, (hchanged.mp hm).2⟩

theorem Batch.ids_eq (hb : Batch h h' owner ids read ms) : h'.ids = h.ids := by
  rw [Holdings.ids, hb.messages, List.map_map]
  refine List.map_congr_left fun m _ => ?_
  by_cases hm : m.ownerId = owner ∧ m.id ∈ ids <;> simp [hm]

/-- The length of what is returned is the number of changes just if nothing is returned twice. -/
theorem Batch.length_eq_iff (hnodup : h.ids.Nodup) (hb : Batch h h' owner ids read ms) :
    ms.length = (changed h h').length ↔ (ms.map Message.id).Nodup := by
  have hchanged : ((changed h h').map Message.id).Nodup := by
    refine List.Nodup.sublist (List.filter_sublist.map Message.id) ?_
    change h'.ids.Nodup
    rwa [hb.ids_eq]
  -- only listed messages change
  have hlisted : (changed h h').map Message.id ⊆ ms.map Message.id := by
    rw [hb.returned]
    intro id hid
    obtain ⟨m, hm, rfl⟩ := List.mem_map.mp hid
    refine List.mem_filter.mpr ⟨?_, decide_eq_true hid⟩
    obtain ⟨hmem, hnew⟩ := List.mem_filter.mp hm
    rw [hb.messages, List.mem_map] at hmem
    obtain ⟨x, hx, rfl⟩ := hmem
    split at hnew
    · next hcase =>
      rw [if_pos hcase]
      exact hcase.2
    · exact absurd hx (of_decide_eq_true hnew)
  have hreturned : ms.map Message.id ⊆ (changed h h').map Message.id := fun id hid => by
    rw [hb.returned] at hid
    exact of_decide_eq_true (List.mem_filter.mp hid).2
  have hsub : ((changed h h').map Message.id).Subperm (ms.map Message.id) :=
    List.subperm_of_subset hchanged hlisted
  have hlength : (ms.map Message.id).length = ms.length := List.length_map _
  rw [← hlength, ← List.length_map Message.id]
  constructor
  · exact fun hlen => (hsub.perm_of_length_le hlen.le).nodup hchanged
  · exact fun hms => ((List.subperm_of_subset hms hreturned).length_le).antisymm hsub.length_le

end Holdings

end LabelMail
