import LabelMail.Proofs.ListingByName
import LabelMail.Proofs.TagFlips

/-!
The inbox beside the archive and the trash. A move into one of the two takes the inbox away, and a
move back returns to it only a message that nothing else places. The tags may stand side by side
all the same, since each of them can be added as a label. A move then takes one of the two away and
leaves what stood beside it, so that after it the inbox stands beside one of the two just if it
stood beside both.
-/
namespace LabelMail

namespace TagSet

open Tag (inbox archive trash)

variable {s : TagSet} {t : Tag}

/-- The inbox stands beside the archive or the trash. -/
def Straddles (s : TagSet) : Prop :=
  inbox ∈ s ∧ (archive ∈ s ∨ trash ∈ s)

theorem not_straddles_insert (hs : s.Unplaced) : ¬ (s.insert inbox).Straddles := by
  rintro ⟨-, h | h⟩
  · cases hs archive (by simpa using h)
  · cases hs trash (by simpa using h)

/-- Where the message was not, it comes without the inbox. -/
theorem not_straddles_move_of_not_mem (ht : t ∉ s) (hne : t ≠ inbox) : ¬ (s.move t).Straddles := by
  rintro ⟨h, -⟩
  rw [move, if_neg ht] at h
  simp [hne.symm] at h

theorem straddles_move_of_mem (ht : t ∈ s) :
    (s.move t).Straddles ↔ (s.erase t).Straddles := by
  rw [move, if_pos ht]
  by_cases hs : (s.erase t).Unplaced
  · rw [restoreInbox_of_unplaced hs]
    refine iff_of_false (not_straddles_insert hs) ?_
    rintro ⟨-, h | h⟩
    · cases hs archive h
    · cases hs trash h
  · rw [restoreInbox_of_placed hs]

theorem straddles_move_iff (ht : t = archive ∨ t = trash) :
    (s.move t).Straddles ↔ inbox ∈ s ∧ archive ∈ s ∧ trash ∈ s := by
  have hne : t ≠ inbox := by rcases ht with rfl | rfl <;> decide
  by_cases hmem : t ∈ s
  · rw [straddles_move_of_mem hmem, Straddles]
    rcases ht with rfl | rfl <;> simp [hmem]
  · refine iff_of_false (not_straddles_move_of_not_mem hmem hne) ?_
    rintro ⟨-, harchive, htrash⟩
    rcases ht with rfl | rfl
    · exact hmem harchive
    · exact hmem htrash

end TagSet

namespace Mailroom

variable {σ : Type} {room : Mailroom σ} {h : Holdings} {caller id : String} {t : Tag}
variable {op : Operation}

/-- The operations that move a message, with the tag of the place that they move it to or from. -/
inductive Operation.Moves (id : String) : Operation → Tag → Prop
  | archive : Moves id (.flipArchive id) .archive
  | trash : Moves id (.flipTrash id) .trash

/-- A query that stores and returns what it makes of a message of the caller. -/
theorem changed_own_ends {f : Message → Primary.Query Message} {R : Message → Message → Prop}
    (hs : room.primary.rows.Shows h) (ho : h.Orderly)
    (hf : ∀ m db, Ends (f m db) (fun m' _ => R m m') (fun _ _ => True)) :
    Ends (onPrimary (Primary.ownMessage id caller >>= f) room)
      (fun m' _ => ∃ m, h.find? id = some m ∧ m.ownerId = caller ∧ R m m') (fun _ _ => True) := by
  have hquery : Ends ((Primary.ownMessage id caller >>= f) room.primary)
      (fun m' _ => ∃ m, h.find? id = some m ∧ m.ownerId = caller ∧ R m m') (fun _ _ => True) := by
    refine (Primary.ownMessage_ends hs ho).bind (fun m db hm => ?_) fun _ _ _ => trivial
    exact (hf m db).mono (fun m' _ hm' => ⟨m, hm.1, hm.2.1, hm'⟩) fun _ _ _ => trivial
  refine (onPrimary_ends room hquery).mono ?_ fun _ _ _ => trivial
  rintro m' _ ⟨_, hm', -⟩
  exact hm'

theorem saved_ends (m : Message) (db : Primary.Store) :
    Ends ((do Primary.saveTags m; return m : Primary.Query Message) db) (fun m' _ => m' = m)
      (fun _ _ => True) := by
  have hsave : Ends (Primary.saveTags m db) (fun _ _ => True) (fun _ _ => True) :=
    ⟨fun _ _ _ => trivial, fun _ _ _ => trivial⟩
  exact hsave.bind (fun _ _ _ => .of_ok rfl) fun _ _ _ => trivial

theorem refreshed_ends {a : Action σ Message} {Q : Message → Prop}
    (ha : Ends (a room) (fun m _ => Q m) (fun _ _ => True)) (id : String) :
    Ends (thenRefresh id a room) (fun m _ => Q m) (fun _ _ => True) := by
  refine Ends.bind ha (fun m mid hm => ?_) fun _ _ _ => trivial
  exact (refreshQuietly_ends id).bind (fun _ _ _ => .of_ok hm) fun _ _ _ => trivial

/-- What a move returns if it succeeds. -/
theorem Operation.Moves.ends (hop : op.Moves id t) (hs : room.primary.rows.Shows h)
    (ho : h.Orderly) :
    Ends (perform caller op room)
      (fun o _ => ∃ m', o = .message m' ∧ ∃ m, h.find? id = some m ∧ m.ownerId = caller ∧
        m' = m.withTags (m.tags.move t))
      (fun _ _ => True) := by
  cases hop with
  | archive =>
    refine Ends.map ((refreshed_ends (changed_own_ends hs ho fun m db => ?_) id).mono
      (fun m' _ hm' => ⟨m', rfl, hm'⟩) fun _ _ he => he)
    refine .after_ofExcept (fun r hr => ?_) fun _ => trivial
    obtain ⟨tags, b⟩ := r
    rw [← TagSet.eq_move_of_flipArchive hr]
    exact saved_ends _ db
  | trash =>
    refine Ends.map ((refreshed_ends (changed_own_ends hs ho fun m db => ?_) id).mono
      (fun m' _ hm' => ⟨m', rfl, hm'⟩) fun _ _ he => he)
    rw [← TagSet.flipTrash_eq_move]
    exact saved_ends _ db

/-- After a move that succeeded, the inbox stands beside the archive or the trash just if the
message had all three of the tags before. -/
theorem moved_straddles_iff (room : Mailroom σ) (hv : room.Vacant) (events : List Event)
    {caller id : String} {now : Int} {op : Operation} {t : Tag} {m' : Message}
    (hop : op.Moves id t)
    (hout : (room.after events).outcome ⟨caller, now, op⟩ = some (.message m')) :
    m' ∈ ((room.after events).step ⟨caller, now, op⟩).holdings.messages ∧
    ∃ m ∈ (room.after events).holdings.messages, m.id = id ∧ m.ownerId = caller ∧
      m' = m.withTags m'.tags ∧
      (m'.tags.Straddles ↔ .inbox ∈ m.tags ∧ .archive ∈ m.tags ∧ .trash ∈ m.tags) := by
  have ho : (room.after events).Orderly := hv.orderly.after events
  have hs : ((room.after events).atTime now).primary.rows.Shows (room.after events).holdings :=
    ho.shows
  have hsteps := step_of_ends (e := ⟨caller, now, op⟩) (hop.ends hs ho.holdings)
  obtain ⟨_, hmessage, m, hfound, howner, rfl⟩ := hsteps.1 _ hout
  obtain rfl := Outcome.message.inj hmessage
  obtain ⟨hmem, hid⟩ := Holdings.mem_of_find? hfound
  refine ⟨ho.tells_step hout (List.mem_singleton.mpr rfl), m, hmem, hid, howner, rfl, ?_⟩
  refine TagSet.straddles_move_iff ?_
  cases hop with
  | archive => exact .inl rfl
  | trash => exact .inr rfl

/-- Bob adds the labels to a message in his inbox. -/
def deliveredUnder (labels : List String) : List Event :=
  delivered ++ labels.map fun text => ⟨"bob", 0, .changeLabel "u" ⟨some text, .add⟩⟩

/-- A message in the inbox that was added to both the archive and the trash: taken out of either, it
is still in the inbox and in the other. -/
theorem inbox_beside_other_place :
    sample.Vacant ∧
    (∃ m', (sample.after (deliveredUnder ["archive", "trash"])).outcome ⟨"bob", 0, .flipTrash "u"⟩ =
      some (.message m') ∧ .inbox ∈ m'.tags ∧ .archive ∈ m'.tags) ∧
    ∃ m', (sample.after (deliveredUnder ["archive", "trash"])).outcome
      ⟨"bob", 0, .flipArchive "u"⟩ = some (.message m') ∧ .inbox ∈ m'.tags ∧ .trash ∈ m'.tags := by
  refine ⟨⟨rfl, rfl⟩, ⟨deliveryWith .archive false, ?_⟩, ⟨deliveryWith .trash false, ?_⟩⟩
  all_goals decide +kernel

/-- One that was added to the archive alone leaves the inbox when it is moved to the trash. -/
theorem moved_straddles_iff_archived :
    sample.Vacant ∧ Operation.Moves "u" (.flipTrash "u") .trash ∧
    ∃ m', (sample.after (deliveredUnder ["archive"])).outcome ⟨"bob", 0, .flipTrash "u"⟩ =
      some (.message m') ∧ .archive ∈ m'.tags ∧ .trash ∈ m'.tags ∧ ¬ m'.tags.Straddles := by
  have hv : sample.Vacant := ⟨rfl, rfl⟩
  have hop : Operation.Moves "u" (.flipTrash "u") .trash := .trash
  let m' := (deliveryWith .archive false).withTags (.ofList [.archive, .trash])
  have hout : (sample.after (deliveredUnder ["archive"])).outcome ⟨"bob", 0, .flipTrash "u"⟩ =
      some (.message m') := by decide +kernel
  obtain ⟨-, m, hm, hid, -, -, hiff⟩ := moved_straddles_iff sample hv _ hop hout
  have htrash : ∀ m ∈ (sample.after (deliveredUnder ["archive"])).holdings.messages,
      m.id = "u" → .trash ∉ m.tags := by decide +kernel
  refine ⟨hv, hop, m', hout, by decide, by decide, fun h => ?_⟩
  exact htrash m hm hid (hiff.mp h).2.2

end Mailroom

end LabelMail
