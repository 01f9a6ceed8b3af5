import LabelMail.Proofs.Mailroom.Delivering
import LabelMail.Proofs.Replica.Showing

/-!
What a call leaves alone. The messages and labels of other owners are the same in the primary store
and in what the replica lists, except that a delivery arrives at its recipient; and a call that
names one message changes no other.
-/
namespace LabelMail.Mailroom

open Replica (Rows Scope)
open Replica.Rows (Reaches Added)

variable {σ : Type} {room mid : Mailroom σ} {g g₀ : Owners} {s : Scope} {e : Event}
variable {owner id : String} {acts : List Act} {new : List Message} {d : Delivery} {m : Message}

/-- What a call delivers to an owner. -/
def arrivals (room : Mailroom σ) (e : Event) (owner : String) : List Message :=
  match e.operation, room.outcome e with
  | .send _ _, some (.delivery d) => received d owner
  | _, _ => []

/-- The owner has what there was before, and the new messages, which have ids of their own. The
replica lists what there was in the same order. -/
structure Isolated (owner : String) (new : List Message) (room room' : Mailroom σ) : Prop where
  messages : room'.primary.rows.messages.filter (·.ownerId == owner) =
    room.primary.rows.messages.filter (·.ownerId == owner) ++ new.map .ofMessage
  labels : room'.primary.rows.labels.filter (·.ownerId == owner) =
    room.primary.rows.labels.filter (·.ownerId == owner)
  fresh : ∀ m ∈ new, ∀ row ∈ room.primary.rows.messages, row.id ≠ m.id
  listings : ∃ ms r ms' r', Replica.messagesOf owner room.replica = .ok ms r ∧
    Replica.messagesOf owner room'.replica = .ok ms' r' ∧ ms.Sublist ms' ∧ ms'.Perm (new ++ ms)
  labelListings : owner ≠ Replica.shared → ∃ ls r ls' r',
    Replica.labelsOf owner room.replica = .ok ls r ∧
    Replica.labelsOf owner room'.replica = .ok ls' r' ∧
    (ls'.filter (·.label.ownerId == owner)).Perm (ls.filter (·.label.ownerId == owner))
  shared : ∀ t ∈ Tag.reserved, sharedLabel t ∈ room.replica.rows.labels →
    sharedLabel t ∈ room'.replica.rows.labels

theorem rows_filter_owner {h : Holdings} (hs : room.primary.rows.Shows h) :
    room.primary.rows.messages.filter (·.ownerId == owner) =
      (h.messages.filter (·.ownerId == owner)).map .ofMessage := by
  rw [hs.messages, List.filter_map]
  rfl

/-- What is written within a scope that reaches an owner's messages in the new ones only. -/
theorem Served.isolated (hserved : Served g (room.holdings.after acts) s mid (room.step e))
    (hg₀ : Governed g₀ room.holdings room) (hg : Governed g (room.holdings.after acts) mid)
    (hw : Wrote e.caller room.holdings acts (room.atTime e.now) mid) (hs : room.replica.Sound)
    (hreach : Reaches g s e.caller owner new)
    (hadded : Added new room.replica.rows (room.step e).replica.rows)
    (hentered : (acts.filterMap Act.entered?).filter (·.ownerId == owner) = new)
    (hfresh : ∀ m ∈ new, m.id ∉ room.holdings.ids) :
    Isolated owner new room (room.step e) := by
  have hreplica : mid.replica = room.replica := hw.replica
  have hp : room.replica.rows.Parted g := hreplica ▸ hg.parted
  have hb : Rows.Beyond s room.replica.rows (room.step e).replica.rows :=
    hreplica ▸ hserved.beyond
  have hg' : Governed g (room.holdings.after acts) (room.step e) := hserved.governed
  have hs' : (room.step e).replica.Sound := hs.later (hreplica ▸ hserved.later)
  refine ⟨?_, ?_, fun m hm row hrow hid => ?_, ?_, fun hshared => ?_, hb.shared⟩
  · rw [rows_filter_owner hg'.shows, rows_filter_owner hg₀.shows,
      hw.legal.messages_of hg₀.orderly hreach.other, hentered, List.map_append]
  · rw [hg'.shows.labels, hg₀.shows.labels]
    exact hw.legal.labels_of hg₀.orderly hreach.other
  · rw [hg₀.shows.messages] at hrow
    obtain ⟨x, hx, rfl⟩ := List.mem_map.mp hrow
    exact hfresh m hm (Holdings.mem_ids.mpr ⟨x, hx, hid⟩)
  · obtain ⟨_, r, hlist, rfl, -⟩ := (Replica.leaves_messagesOf owner).succeeds hs
    obtain ⟨_, r', hlist', rfl, -⟩ := (Replica.leaves_messagesOf owner).succeeds hs'
    obtain ⟨hsublist, hperm⟩ := hb.listing hp hg'.parted hreach hadded hg₀.kept.ids hg'.kept.ids
    exact ⟨_, r, _, r', hlist, hlist', hsublist, hperm⟩
  · obtain ⟨ls, r, hlist, hls, -⟩ := (Replica.leaves_labelsOf owner).succeeds hs
    obtain ⟨ls', r', hlist', hls', -⟩ := (Replica.leaves_labelsOf owner).succeeds hs'
    have hperm := hb.labels_perm hp hg'.parted hreach hshared hg₀.kept.labelIds hg'.kept.labelIds
    exact ⟨ls, r, ls', r', hlist, hlist', hls'.trans ((hperm.map _).trans hls.symm)⟩

theorem Serving.isolated (hserving : Serving g room e acts mid)
    (hg₀ : Governed g₀ room.holdings room) (hs : room.replica.Sound) (hne : owner ≠ e.caller) :
    Isolated owner [] room (room.step e) := by
  have hnone {P : Message → Prop} : ∀ m ∈ ([] : List Message), P m := List.forall_mem_nil P
  have hreach : Reaches g (g.scope e.caller) e.caller owner [] := by
    refine ⟨hne, hnone, fun id hid howner => ?_, fun _ hi => hi⟩
    exact absurd (Option.some.inj (howner.symm.trans hid)) hne
  have hadded : Added [] room.replica.rows (room.step e).replica.rows :=
    ⟨hnone, hnone, hnone, hnone, .nil⟩
  refine hserving.served.isolated hg₀ hserving.begun hserving.wrote hs hreach hadded ?_ hnone
  refine List.filter_eq_nil_iff.mpr fun m hm hsel => hne ?_
  rw [← hserving.entered m hm, beq_iff_eq.mp hsel]

theorem Delivering.isolated (hd : Delivering g room e d mid)
    (hg₀ : Governed g₀ room.holdings room) (hsupply : Supply room.idAt) (hp : room.primary.Sound)
    (hs : room.replica.Sound) (hne : owner ≠ e.caller) :
    Isolated owner (received d owner) room (room.step e) := by
  refine hd.served.isolated hg₀ hd.begun hd.wrote hs (hd.reaches hne)
    (hd.added hg₀ hsupply hp hs owner) (hd.entered hne) fun m hm hmem => ?_
  obtain ⟨x, hx, hid⟩ := Holdings.mem_ids.mp hmem
  refine hd.fresh hsupply (hg₀.drawn (hg₀.covers.messages x hx)) ?_
  rw [hid, (mem_received.mp hm).1]

/-- To all others a call does no more than to deliver. -/
theorem Governed.isolated (hg : Governed g room.holdings room) (hsupply : Supply room.idAt)
    (hp : room.primary.Sound) (hs : room.replica.Sound) (hretry : e.operation ≠ .retryPending)
    (hne : owner ≠ e.caller) : Isolated owner (room.arrivals e owner) room (room.step e) := by
  unfold arrivals
  split
  · next c withdrawn d hop hd =>
    obtain ⟨g', mid, hdelivering⟩ := hg.delivering hsupply hop hd
    exact hdelivering.isolated hg hsupply hp hs hne
  · next hother =>
    obtain ⟨g', acts, mid, hserving⟩ := hg.serving hsupply hretry hother
    exact hserving.isolated hg hs hne

/-- Besides the one message all are as they were, in the store and in the replica. -/
structure Spared (id : String) (room room' : Mailroom σ) : Prop where
  messages : room'.primary.rows.messages.filter (·.id != id) =
    room.primary.rows.messages.filter (·.id != id)
  rows : ∀ row : Row, row.id ≠ id →
    (row ∈ room'.replica.rows.messages ↔ row ∈ room.replica.rows.messages)
  links : ∀ l : Link, l.messageId ≠ id →
    (l ∈ room'.replica.rows.links ↔ l ∈ room.replica.rows.links)

theorem rows_filter_ne {h : Holdings} (hs : room.primary.rows.Shows h) :
    room.primary.rows.messages.filter (·.id != id) =
      (h.messages.filter (·.id != id)).map .ofMessage := by
  rw [hs.messages, List.filter_map]
  rfl

theorem Governed.spared (hg : Governed g room.holdings room) (hsupply : Supply room.idAt)
    (hop : e.operation.subject? = some id) :
    Spared id room (room.step e) ∧
      (room.step e).holdings.messages.filter (·.id != id) =
        room.holdings.messages.filter (·.id != id) := by
  obtain ⟨g', acts, tasks, mid, hr⟩ := hg.call hsupply e
  obtain ⟨hacts, htasks⟩ : (∀ a ∈ acts, a.About id) ∧ ∀ t ∈ tasks, t = .refresh id :=
    hr.due.elim (fun howed => howed.single hop) fun hlapsed => hlapsed.single hop
  have hserved : Served g' (room.holdings.after acts)
      (refreshScope (room.holdings.after acts) id) mid (room.step e) := by
    rw [hr.step]
    refine hr.governed.done fun t ht => ?_
    rw [htasks t ht]
    exact ⟨trivial, fun _ hid => hid, fun _ hi => hi⟩
  have hreplica : mid.replica = room.replica := hr.wrote.replica
  have hb := hserved.beyond
  rw [hreplica] at hb
  refine ⟨⟨?_, hb.messages, hb.links⟩, ?_⟩
  · rw [rows_filter_ne hserved.governed.shows, rows_filter_ne hg.shows, Holdings.messages_ne hacts]
  · rw [hr.holdings, Holdings.messages_ne hacts]

/-- The replica shows the message as it is. -/
def Shown (m : Message) (room : Mailroom σ) : Prop :=
  ∃ copy r, Replica.find m.id room.replica = .ok (some copy) r ∧ copy.message = m

theorem Followed.shown (hf : room.Followed) (hs : room.replica.Sound)
    (hm : m ∈ room.holdings.messages) (hheld : room.backlog.holds m.id = false) : Shown m room := by
  refine Replica.find_of_copy? hs ((hf.copy? hm).resolve_right fun h => ?_)
  rw [hheld] at h
  cases h

/-- A message that the replica shows is still shown after a call that names another. -/
theorem Followed.still_shown (hf : room.Followed) (hg : Governed g room.holdings room)
    (hsupply : Supply room.idAt) (hs : room.replica.Sound) (hop : e.operation.subject? = some id)
    (hm : m ∈ room.holdings.messages) (hne : m.id ≠ id)
    (hheld : room.backlog.holds m.id = false) : Shown m room ∧ Shown m (room.step e) := by
  have hm' : m ∈ (room.step e).holdings.messages := by
    have hfilter : m ∈ room.holdings.messages.filter (·.id != id) :=
      List.mem_filter.mpr ⟨hm, bne_iff_ne.mpr hne⟩
    rw [← (hg.spared hsupply hop).2] at hfilter
    exact (List.mem_filter.mp hfilter).1
  obtain ⟨acts, tasks, mid, hc⟩ := hf.call hsupply e
  exact ⟨hf.shown hs hm hheld, (hf.step hsupply e).shown (hs.later hc.later) hm'
    (hf.not_holds_step hsupply hs hheld e)⟩

/-- No call but a retry changes what other owners have, except that a delivery adds a message to its
recipient's; and a call that names one message changes no other. -/
theorem owners_isolated (room : Mailroom σ) (hb : room.Blank) (hsupply : Supply room.idAt)
    (events : List Event) (e : Event) (hretry : e.operation ≠ .retryPending)
    (hp : (room.after events).primary.Sound) (hs : (room.after events).replica.Sound) :
    (∀ owner, owner ≠ e.caller →
      Isolated owner ((room.after events).arrivals e owner) (room.after events)
        ((room.after events).step e)) ∧
    ∀ id, e.operation.subject? = some id →
      Spared id (room.after events) ((room.after events).step e) ∧
      (room.primary.Sound → ∀ m ∈ (room.after events).holdings.messages, m.id ≠ id →
        (room.replica.Sound ∨ (room.after events).backlog.holds m.id = false) →
        Shown m (room.after events) ∧ Shown m ((room.after events).step e)) := by
  obtain ⟨g₀, hg₀⟩ := hb.governed
  obtain ⟨⟨g, hg⟩, hsupply'⟩ := hg₀.after hsupply events
  refine ⟨fun owner hne => hg.isolated hsupply' hp hs hretry hne, fun id hop => ?_⟩
  refine ⟨(hg.spared hsupply' hop).1, fun hsound m hm hne hheld => ?_⟩
  have hbegun : room.Followed := hb.followed hsound
  obtain ⟨hf, -⟩ := hbegun.after hsupply events
  refine hf.still_shown hg hsupply' hs hop hm hne (hheld.elim (fun hs₀ => ?_) fun hfree => hfree)
  exact hbegun.not_holds_after hsupply hs₀ (hb.backlog ▸ rfl) events

/-- A delivery that the recipient labels. -/
def labelledDelivery : List Event :=
  [⟨"alice", 0, .send ⟨some "bob", some "s", some "c"⟩ false⟩,
    ⟨"bob", 0, .changeLabel "u" ⟨some "deals", .add⟩⟩]

def anotherDelivery : Event :=
  ⟨"alice", 0, .send ⟨some "bob", some "s", some "c"⟩ false⟩

/-- After the labelled delivery Alice writes to Bob once more, or else stars her own copy. -/
theorem owners_isolated_labelled :
    sample.Blank ∧ Supply sample.idAt ∧ (sample.after labelledDelivery).primary.Sound ∧
      (sample.after labelledDelivery).replica.Sound ∧
      ((sample.after labelledDelivery).arrivals anotherDelivery "bob").length = 1 ∧
      Isolated "bob" ((sample.after labelledDelivery).arrivals anotherDelivery "bob")
        (sample.after labelledDelivery) ((sample.after labelledDelivery).step anotherDelivery) ∧
      (∃ m ∈ (sample.after labelledDelivery).holdings.messages, m.id = "u") ∧
      ∀ m ∈ (sample.after labelledDelivery).holdings.messages, m.id = "u" →
        Shown m (sample.after labelledDelivery) ∧
        Shown m ((sample.after labelledDelivery).step ⟨"alice", 0, .flipStar "uu"⟩) := by
  obtain ⟨hp, hs⟩ := sound_sample []
  obtain ⟨hp', hs'⟩ := sound_sample labelledDelivery
  have hsent := owners_isolated sample blank_sample supply_sample labelledDelivery anotherDelivery
    (by decide) hp' hs'
  have hstarred := owners_isolated sample blank_sample supply_sample labelledDelivery
    ⟨"alice", 0, .flipStar "uu"⟩ (by decide) hp' hs'
  refine ⟨blank_sample, supply_sample, hp', hs', by decide +kernel, hsent.1 "bob" (by decide),
    by decide +kernel, fun m hm hid => (hstarred.2 "uu" rfl).2 hp m hm ?_ (.inl hs)⟩
  rw [hid]
  decide

end LabelMail.Mailroom
