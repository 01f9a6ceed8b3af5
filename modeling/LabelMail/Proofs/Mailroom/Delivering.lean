import LabelMail.Proofs.Mailroom.Sending
import LabelMail.Proofs.Mailroom.Serving
import LabelMail.Proofs.Replica.Listings

/-!
What a delivery does to the replica. It writes the two copies and shared labels; if nothing fails,
the recipient's copy is then there under a new id with its tags.
-/
namespace LabelMail.Mailroom

open Replica (Scope)
open Replica.Rows (Reaches Added)

variable {σ : Type} {room mid : Mailroom σ} {g g₀ : Owners} {h : Holdings} {e : Event}
variable {owner caller i : String} {d : Delivery} {m : Message} {c : Request.Compose}
variable {withdrawn : Bool}

def deliveryActs (d : Delivery) : List Act :=
  [.enter d.senderCopy, .enter d.recipientCopy]

def deliveryTasks (d : Delivery) : List Task :=
  [.refresh d.senderCopy.id, .refresh d.recipientCopy.id]

def deliveryScope (d : Delivery) : Scope where
  messages id := id = d.senderCopy.id ∨ id = d.recipientCopy.id
  labels i := ∃ t ∈ Tag.reserved, t.name = i

/-- What of a delivery the recipient gets. -/
def received (d : Delivery) (owner : String) : List Message :=
  if d.recipientCopy.recipientId = owner then [d.recipientCopy] else []

theorem mem_received :
    m ∈ received d owner ↔ m = d.recipientCopy ∧ d.recipientCopy.recipientId = owner := by
  unfold received
  split
  · next hrecipient => simp [hrecipient]
  · next hother => simp [hother]

/-- A call that delivers, as its acts and tasks. -/
structure Delivering (g : Owners) (room : Mailroom σ) (e : Event) (d : Delivery)
    (mid : Mailroom σ) : Prop where
  pair : Pair e.caller (room.atTime e.now) d
  wrote : Wrote e.caller room.holdings (deliveryActs d) (room.atTime e.now) mid
  begun : Governed g (room.holdings.after (deliveryActs d)) mid
  step : room.step e = mid.done (deliveryTasks d)

theorem Governed.delivering (hg : Governed g room.holdings room) (hsupply : Supply room.idAt)
    (hop : e.operation = .send c withdrawn) (hd : room.outcome e = some (.delivery d)) :
    ∃ g' mid, Delivering g' room e d mid := by
  have hbegun : Governed g (room.atTime e.now).holdings (room.atTime e.now) := hg.atTime e.now
  have hends : Ends (perform e.caller e.operation (room.atTime e.now))
      (fun o room' => ∀ d, o = .delivery d → Pair e.caller (room.atTime e.now) d ∧
        Delivers e.caller room.holdings (room.atTime e.now) d room') fun _ _ => True := by
    rw [hop]
    refine Ends.map (((send_ends _ _ c withdrawn).both
      (send_delivers hbegun.shows c withdrawn)).mono ?_ fun _ _ _ => trivial)
    rintro d _ ⟨⟨-, hpair, -⟩, hdelivers⟩ _ ⟨⟩
    exact ⟨hpair, hdelivers⟩
  obtain ⟨hpair, mid, hw, hstep⟩ := (step_of_ends hends).1 _ hd d rfl
  obtain ⟨g', -, hg'⟩ := hbegun.written hsupply hw
  exact ⟨g', mid, hpair, hw, hg', hstep⟩

theorem Pair.sender_owner (hpair : Pair caller room d) : d.senderCopy.ownerId = caller :=
  congrArg Message.ownerId hpair.alike

theorem mem_senderCopy : d.senderCopy ∈ (h.after (deliveryActs d)).messages :=
  List.mem_append_left _ (List.mem_append_right _ List.mem_cons_self)

theorem mem_recipientCopy : d.recipientCopy ∈ (h.after (deliveryActs d)).messages :=
  List.mem_append_right _ List.mem_cons_self

/-- The labels of a new message are shared ones. -/
theorem reserved_of_refreshScope (hnew : m.New caller) (ho : h.Orderly) (hm : m ∈ h.messages)
    (hi : (refreshScope h m.id).labels i) : ∃ t ∈ Tag.reserved, t.name = i := by
  obtain ⟨x, hx, hid, l, hl, rfl⟩ := hi
  obtain rfl := Holdings.eq_of_id ho.ids hx hm hid
  obtain ⟨t, ht, rfl⟩ := Holdings.mem_labelsOf.mp hl
  have hres : t ∈ Tag.reserved := hnew.mem_reserved ht
  rw [Holdings.labelOf_reserved hres]
  exact ⟨t, hres, rfl⟩

theorem Delivering.served (hd : Delivering g room e d mid) :
    Served g (room.holdings.after (deliveryActs d)) (deliveryScope d) mid (room.step e) := by
  obtain ⟨⟨-, -, hsender⟩, ⟨-, -, hrecipient⟩, -⟩ := hd.wrote.legal
  have ho : (room.holdings.after (deliveryActs d)).Orderly := hd.begun.orderly
  rw [hd.step]
  refine hd.begun.done (List.forall_mem_cons.mpr ⟨?_, List.forall_mem_singleton.mpr ?_⟩)
  · exact ⟨trivial, fun _ hid => .inl hid, fun _ => reserved_of_refreshScope hsender ho mem_senderCopy⟩
  · exact ⟨trivial, fun _ hid => .inr hid,
      fun _ => reserved_of_refreshScope hrecipient ho mem_recipientCopy⟩

theorem Delivering.reaches (hd : Delivering g room e d mid) (hne : owner ≠ e.caller) :
    Reaches g (deliveryScope d) e.caller owner (received d owner) where
  other := hne
  owned m hm := by
    obtain ⟨rfl, hrecipient⟩ := mem_received.mp hm
    exact hd.pair.owner.trans hrecipient
  messages id hid howner := by
    rcases hid with rfl | rfl
    · have hsender := hd.begun.covers.messages _ mem_senderCopy
      rw [hd.pair.sender_owner] at hsender
      exact absurd (Option.some.inj (howner.symm.trans hsender)) hne
    · have hrecipient := hd.begun.covers.messages _ mem_recipientCopy
      rw [hd.pair.owner] at hrecipient
      exact ⟨_, mem_received.mpr ⟨rfl, Option.some.inj (hrecipient.symm.trans howner)⟩, rfl⟩
  labels _ hi := .inl hi

/-- The recipient's copy has an id that nothing has had before. -/
theorem Delivering.fresh (hd : Delivering g room e d mid) (hsupply : Supply room.idAt) {id : String}
    (hid : room.Drawn id) : id ≠ d.recipientCopy.id := by
  obtain ⟨-, ⟨hfresh, -, -⟩, -⟩ := hd.wrote.legal
  exact hfresh.ne hsupply hid

/-- Of what is entered another owner than the sender has what the recipient gets. -/
theorem Delivering.entered (hd : Delivering g room e d mid) (hne : owner ≠ e.caller) :
    ((deliveryActs d).filterMap Act.entered?).filter (·.ownerId == owner) = received d owner := by
  have hsender : (d.senderCopy.ownerId == owner) = false :=
    beq_eq_false_iff_ne.mpr fun heq => hne (heq.symm.trans hd.pair.sender_owner)
  have hentered : (deliveryActs d).filterMap Act.entered? = [d.senderCopy, d.recipientCopy] := rfl
  rw [hentered, List.filter_cons, hsender, List.filter_singleton, hd.pair.owner, received]
  simp

theorem Delivering.added (hd : Delivering g room e d mid) (hg : Governed g₀ room.holdings room)
    (hsupply : Supply room.idAt) (hp : room.primary.Sound) (hs : room.replica.Sound)
    (owner : String) :
    Added (received d owner) room.replica.rows (room.step e).replica.rows := by
  have ht : Tended (room.holdings.after (deliveryActs d)) mid :=
    ⟨hd.wrote.shows, hd.begun.orderly, hd.begun.covers.apart, hd.wrote.sound hp, hd.begun.kept⟩
  have hfits : ∀ t ∈ deliveryTasks d, t.Fits (room.holdings.after (deliveryActs d)) :=
    List.forall_mem_cons.mpr ⟨trivial, List.forall_mem_singleton.mpr trivial⟩
  have hheld : mid.backlog.holds d.recipientCopy.id = false := by
    rw [hd.wrote.backlog]
    refine List.any_eq_false.mpr fun a ha hid => ?_
    exact hd.fresh hsupply (hg.drawn (hg.records a ha).message) (beq_iff_eq.mp hid)
  have hmirrors := ht.mirrors_done hfits (hd.wrote.replica ▸ hs) hheld mem_recipientCopy
    (List.mem_cons_of_mem _ List.mem_cons_self)
  rw [← hd.step] at hmirrors
  have hg' : Governed g (room.holdings.after (deliveryActs d)) (room.step e) :=
    hd.served.governed
  refine ⟨fun m hm => ?_, fun m hm => ?_, fun m hm => ?_, fun m hm row hrow => ?_, ?_⟩
  · rw [(mem_received.mp hm).1]
    exact hmirrors.row
  · rw [(mem_received.mp hm).1]
    exact hg'.orderly.storable _ mem_recipientCopy
  · rw [(mem_received.mp hm).1]
    exact hmirrors.tagsOn hg'.kept hg'.orderly mem_recipientCopy
  · rw [(mem_received.mp hm).1]
    exact hd.fresh hsupply (hg.drawn (hg.parted.messages row hrow))
  · unfold received
    split
    · exact List.nodup_singleton _
    · exact .nil

end LabelMail.Mailroom
