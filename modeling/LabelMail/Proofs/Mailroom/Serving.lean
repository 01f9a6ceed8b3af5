import LabelMail.Proofs.ActFrames
import LabelMail.Proofs.Mailroom.Ownership

/-!
Whom a call serves. Apart from deliveries and retries, what a call does to the replica concerns the
caller's messages and the labels that these may have, and a call that names one message concerns
that message alone.
-/
namespace LabelMail

namespace Owners

variable {g g' : Owners} {h : Holdings} {owner id : String}

/-- One owner's messages and the labels that they may have. -/
def scope (g : Owners) (owner : String) : Replica.Scope :=
  ⟨fun id => g.message id = some owner, g.Allows owner⟩

theorem Covers.message_of_owns (hc : g.Covers h) (hown : Mailroom.Owns h owner id) :
    g.message id = some owner := by
  obtain ⟨m, hm, rfl, rfl⟩ := hown
  exact hc.messages m hm

end Owners

namespace Mailroom

open Replica (Scope)

variable {σ : Type} {g g' : Owners} {h : Holdings} {room mid room' : Mailroom σ}
variable {caller id owner i : String} {acts : List Act} {tasks : List Task} {t : Task} {e : Event}
variable {op : Operation} {arrears : List Arrear} {ms : List Message} {m : Message} {l : Label}
variable {fresh : String → Prop} {sound : Prop}

/-- The task is about what one owner has. -/
def Task.Serves (g : Owners) (h : Holdings) (owner : String) : Task → Prop
  | .refresh id => g.message id = some owner
  | .retry _ => False
  | .putLabel l => l ∈ h.labels ∧ l.ownerId = owner
  | .deleteLabel i => g.label i = some owner
  | .sweep ids => ∀ id ∈ ids, g.message id = some owner
  | .list _ => True

theorem Task.Serves.owned (ht : t.Serves g h owner) : t.Owned g h := by
  cases t with
  | retry a => exact ht.elim
  | putLabel l => exact ht.1
  | deleteLabel i => exact ⟨owner, ht⟩
  | refresh id => trivial
  | sweep ids => trivial
  | list owner => trivial

theorem Task.Serves.scope_le (ht : t.Serves g h owner) (ho : h.Orderly) (hc : g.Covers h) :
    t.scope g h ≤ g.scope owner := by
  cases t with
  | refresh id =>
    refine ⟨fun i hi => hi ▸ ht, fun i hi => ?_⟩
    obtain ⟨m, hm, rfl, l, hl, rfl⟩ := hi
    have howner : m.ownerId = owner := Option.some.inj ((hc.messages m hm).symm.trans ht)
    exact howner ▸ hc.allows ho hm hl
  | retry a => exact ht.elim
  | putLabel l =>
    obtain ⟨hl, rfl⟩ := ht
    exact ⟨fun _ hi => hi.elim, fun i hi => .inr (hi ▸ hc.labels l hl)⟩
  | deleteLabel i =>
    refine ⟨fun id hid => ?_, fun j hj => .inr (hj ▸ ht)⟩
    obtain ⟨o, hlabel, hmessage⟩ := hid
    exact hmessage.trans (hlabel.symm.trans ht)
  | sweep ids => exact ⟨fun id hid => ht id hid, fun _ hi => hi.elim⟩
  | list owner => exact ⟨fun _ hi => hi.elim, fun _ hi => hi.elim⟩

theorem serves_refreshes (hms : ∀ m ∈ ms, g.message m.id = some owner) :
    ∀ t ∈ ms.map fun m => Task.refresh m.id, t.Serves g h owner := by
  intro t ht
  obtain ⟨m, hm, rfl⟩ := List.mem_map.mp ht
  exact hms m hm

theorem owns_of_legal_alters (hlegal : h.Legal caller fresh (ms.map .alter)) (hm : m ∈ ms) :
    Owns h caller m.id := by
  induction ms generalizing h with
  | nil => cases hm
  | cons x ms ih =>
    obtain ⟨⟨y, hy, howner, hedit⟩, hrest⟩ := hlegal
    have hid : y.id = x.id := congrArg Row.id hedit.envelope.symm
    rcases List.mem_cons.mp hm with rfl | hm
    · exact ⟨y, hy, hid, howner⟩
    · obtain ⟨z, hz, hzid, hzowner⟩ := ih hrest hm
      have hmem : x.id ∈ h.ids := Holdings.mem_ids.mpr ⟨y, hy, hid⟩
      rcases (Holdings.mem_put hmem).mp hz with rfl | ⟨hz, -⟩
      · exact ⟨y, hy, hid.trans hzid, howner⟩
      · exact ⟨z, hz, hzid, hzowner⟩

theorem messages_after_enter : (h.after (ms.map .enter)).messages = h.messages ++ ms := by
  induction ms generalizing h with
  | nil => exact (List.append_nil _).symm
  | cons m ms ih =>
    have hrest : h.after ((m :: ms).map .enter) = (h.apply (.enter m)).after (ms.map .enter) := rfl
    rw [hrest, ih]
    exact List.append_assoc ..

theorem owns_of_mem_affected {f : TagSet → TagSet} (hm : m ∈ Primary.affected h l f) :
    Owns h l.ownerId m.id := by
  obtain ⟨x, hx, rfl⟩ := List.mem_map.mp hm
  obtain ⟨hmem, howner⟩ := Holdings.mem_mailbox.mp (List.mem_filter.mp hx).1
  exact ⟨x, hmem, rfl, howner⟩

/-- Only a delivery, a listing of the replica and a retry may reach beyond what the caller has. -/
theorem Owed.serves (howed : Owed caller h arrears op acts tasks)
    (hlegal : h.Legal caller fresh acts) (hc : g.Covers h) (he : g.Extends g')
    (hc' : g'.Covers (h.after acts)) (hsend : ∀ c withdrawn, op ≠ .send c withdrawn)
    (hsync : op ≠ .synchronize) (hretry : op ≠ .retryPending) :
    ∀ t ∈ tasks, t.Serves g' (h.after acts) caller := by
  have hmine {id : String} (hown : Owns h caller id) : g'.message id = some caller :=
    he.message (hc.message_of_owns hown)
  cases howed with
  | refreshed op ids hown =>
    intro t ht
    obtain ⟨id, hid, rfl⟩ := List.mem_map.mp ht
    exact hmine (hown id hid).1
  | entered op ms hnone hown =>
    refine serves_refreshes fun m hm => ?_
    have howner : m.ownerId = caller := (hown m hm).resolve_right fun ⟨c, withdrawn, hop⟩ =>
      hsend c withdrawn hop
    rw [← howner]
    exact hc'.messages m (messages_after_enter ▸ List.mem_append_right _ hm)
  | altered op ms hone => exact serves_refreshes fun m hm => hmine (owns_of_legal_alters hlegal hm)
  | labelled op l m howner hm hcarried hone =>
    obtain ⟨x, hx, hxowner, hedit⟩ := hlegal.2.1
    have hid : x.id = m.id := congrArg Row.id hedit.envelope.symm
    exact List.forall_mem_singleton.mpr (hmine ⟨x, hx, hid, hxowner⟩)
  | removed id => exact List.forall_mem_singleton.mpr (hmine hlegal.1)
  | swept =>
    refine List.forall_mem_singleton.mpr fun id hid => hmine ?_
    obtain ⟨m, hm, hmid, howner, -⟩ := mem_trash.mp hid
    exact ⟨m, hm, hmid, howner⟩
  | enteredLabel op l hnone =>
    exact List.forall_mem_singleton.mpr ⟨List.mem_append_right _ List.mem_cons_self, hlegal.1.1⟩
  | renamedLabel l name text =>
    obtain ⟨hl, howner, -⟩ := hlegal.1
    refine List.forall_mem_cons.mpr ⟨⟨?_, howner⟩, serves_refreshes fun m hm => hmine ?_⟩
    · exact Holdings.mem_labels_renameLabel.mpr ⟨l, hl, if_pos rfl⟩
    · exact howner ▸ owns_of_mem_affected hm
  | discardedLabel l =>
    obtain ⟨hl, howner⟩ := hlegal.1
    refine List.forall_mem_cons.mpr ⟨?_, serves_refreshes fun m hm => hmine ?_⟩
    · exact he.label (howner ▸ hc.labels l hl)
    · exact howner ▸ owns_of_mem_affected hm
  | synchronized stale => exact absurd rfl hsync
  | retried => exact absurd rfl hretry

theorem Lapsed.serves {h' : Holdings} (hlapsed : Lapsed caller h sound op acts tasks)
    (hsync : op ≠ .synchronize) : ∀ t ∈ tasks, t.Serves g h' owner := by
  cases hlapsed with
  | refused op => exact List.forall_mem_nil _
  | stopped op l hsound => exact List.forall_mem_nil _
  | unlisted => exact absurd rfl hsync

theorem Owed.entered_owner (howed : Owed caller h arrears op acts tasks)
    (hsend : ∀ c withdrawn, op ≠ .send c withdrawn) :
    ∀ m ∈ acts.filterMap Act.entered?, m.ownerId = caller := by
  intro m hm
  obtain ⟨a, ha, hentered⟩ := List.mem_filterMap.mp hm
  cases a with
  | enter x =>
    obtain rfl : x = m := Option.some.inj hentered
    cases howed with
    | entered op ms hnone hown =>
      obtain ⟨y, hy, hyx⟩ := List.mem_map.mp ha
      cases hyx
      exact (hown x hy).resolve_right fun ⟨c, withdrawn, hop⟩ => hsend c withdrawn hop
    | _ => simp at ha
  | _ => cases hentered

theorem Lapsed.entered_eq_nil (hlapsed : Lapsed caller h sound op acts tasks) :
    acts.filterMap Act.entered? = [] := by
  cases hlapsed <;> rfl

/-- The call wrote nothing but what concerns the caller. -/
structure Serving (g : Owners) (room : Mailroom σ) (e : Event) (acts : List Act)
    (mid : Mailroom σ) : Prop where
  wrote : Wrote e.caller room.holdings acts (room.atTime e.now) mid
  entered : ∀ m ∈ acts.filterMap Act.entered?, m.ownerId = e.caller
  begun : Governed g (room.holdings.after acts) mid
  served : Served g (room.holdings.after acts) (g.scope e.caller) mid (room.step e)

theorem Governed.rests (hg : Governed g h room) (hrest : Rests h room mid) : Governed g h mid where
  shows := hrest.shows
  orderly := hg.orderly
  covers := hg.covers
  kept := hrest.replica ▸ hg.kept
  parted := hrest.replica ▸ hg.parted
  records := hrest.backlog ▸ hg.records
  drawn hid := (hg.drawn hid).ahead hrest.toAhead
  labelDrawn hid := (hg.labelDrawn hid).ahead hrest.toAhead

theorem Governed.serves (hg : Governed g h room)
    (htasks : ∀ t ∈ tasks, t.Serves g h owner) : Served g h (g.scope owner) room (room.done tasks) :=
  hg.done fun t ht => ⟨(htasks t ht).owned, (htasks t ht).scope_le hg.orderly hg.covers⟩

theorem serves_mailboxTasks (hc : g.Covers h) : ∀ t ∈ mailboxTasks h owner, t.Serves g h owner :=
  serves_refreshes fun _ hm => hc.message_of_owns
    ⟨_, (Holdings.mem_mailbox.mp hm).1, rfl, (Holdings.mem_mailbox.mp hm).2⟩

/-- What the replica lists for an owner is the owner's. -/
theorem Governed.message_of_idsOf (hg : Governed g h room) {held : List String}
    (hlist : onReplica (Replica.idsOf owner) room = .ok held room') (hid : id ∈ held) :
    g.message id = some owner := by
  have hends := onReplica_ends room ((Replica.Leaves.select (r := room.replica) fun rows =>
    sortBy (fun a b => decide (a ≤ b)) ((rows.messages.filter (·.ownerId == owner)).map (·.id))))
  obtain ⟨r, -, ⟨rfl, -⟩, -⟩ := hends.ok held room' hlist
  obtain ⟨row, hrow, rfl⟩ := List.mem_map.mp (mem_sortBy.mp hid)
  obtain ⟨hmem, howner⟩ := List.mem_filter.mp hrow
  rw [← beq_iff_eq.mp howner]
  exact hg.parted.messages row hmem

theorem synchronize_serves (hg : Governed g h room) :
    Ends (synchronize caller room)
      (fun _ room' => ∃ mid, Rests h room mid ∧ Served g h (g.scope caller) mid room')
      (fun _ room' => ∃ mid, Rests h room mid ∧ Served g h (g.scope caller) mid room') := by
  have hmailbox : ∀ t ∈ mailboxTasks h caller, t.Serves g h caller := serves_mailboxTasks hg.covers
  refine (synchronize_ends hg.shows hg.orderly).mono ?_ ?_
  · rintro _ _ ⟨mid, held, listed, hrest, hlist, rfl⟩
    have hmid : Governed g h mid := hg.rests hrest
    refine ⟨mid, hrest, hmid.serves fun t ht => ?_⟩
    rcases List.mem_append.mp ht with ht | ht
    · exact hmailbox t ht
    · rcases List.mem_cons.mp ht with rfl | ht
      · trivial
      · obtain ⟨id, hid, rfl⟩ := List.mem_map.mp ht
        have hlisted : Governed g h (mid.done (mailboxTasks h caller)) :=
          (hmid.serves hmailbox).governed
        exact hlisted.message_of_idsOf hlist (List.mem_filter.mp hid).1
  · rintro _ _ ⟨mid, hrest, rfl | rfl⟩
    · exact ⟨_, hrest, hg.rests hrest, .refl _ _, .refl _⟩
    · refine ⟨mid, hrest, (hg.rests hrest).serves fun t ht => ?_⟩
      rcases List.mem_append.mp ht with ht | ht
      · exact hmailbox t ht
      · exact List.mem_singleton.mp ht ▸ trivial

theorem Rests.serving (hg : Governed g room.holdings room)
    (hrest : Rests room.holdings (room.atTime e.now) mid)
    (hserved : Served g room.holdings (g.scope e.caller) mid (room.step e)) :
    Serving g room e [] mid :=
  ⟨hrest.wrote, List.forall_mem_nil _, (hg.atTime e.now).rests hrest, hserved⟩

/-- All calls but retries and those that deliver serve the caller. -/
theorem Governed.serving (hg : Governed g room.holdings room) (hsupply : Supply room.idAt)
    (hretry : e.operation ≠ .retryPending)
    (hsend : ∀ c withdrawn d, e.operation = .send c withdrawn →
      room.outcome e ≠ some (.delivery d)) :
    ∃ g' acts mid, Serving g' room e acts mid := by
  have hbegun : Governed g room.holdings (room.atTime e.now) := hg.atTime e.now
  by_cases hsync : e.operation = .synchronize
  · have hstate : ∃ mid, Rests room.holdings (room.atTime e.now) mid ∧
        Served g room.holdings (g.scope e.caller) mid (room.step e) := by
      unfold Mailroom.step
      rw [hsync]
      exact of_state (Ends.map (synchronize_serves hbegun))
    obtain ⟨mid, hrest, hserved⟩ := hstate
    exact ⟨g, [], mid, hrest.serving hg hserved⟩
  by_cases hsent : ∃ c withdrawn, e.operation = .send c withdrawn
  · obtain ⟨c, withdrawn, hop⟩ := hsent
    have hends : Ends (perform e.caller e.operation (room.atTime e.now))
        (fun o _ => ∃ d, o = .delivery d)
        (fun _ room' => Rests room.holdings (room.atTime e.now) room') := by
      rw [hop]
      exact Ends.map ((send_delivers hbegun.shows c withdrawn).mono (fun d _ _ => ⟨d, rfl⟩)
        fun _ _ hrest => hrest)
    have hfailed : room.outcome e = none := by
      cases ho : room.outcome e with
      | none => rfl
      | some o =>
        obtain ⟨d, rfl⟩ := (step_of_ends hends).1 o ho
        exact absurd ho (hsend c withdrawn d hop)
    obtain ⟨-, hrest⟩ := (step_of_ends hends).2 hfailed
    exact ⟨g, [], room.step e, hrest.serving hg
      ⟨hbegun.rests hrest, .refl _ _, .refl _⟩⟩
  have hnotSent : ∀ c withdrawn, e.operation ≠ .send c withdrawn := fun c withdrawn hop =>
    hsent ⟨c, withdrawn, hop⟩
  obtain ⟨g', acts, tasks, mid, hr⟩ := hg.call hsupply e
  refine ⟨g', acts, mid, hr.wrote, ?_, hr.governed, ?_⟩
  · rcases hr.due with howed | hlapsed
    · exact howed.entered_owner hnotSent
    · exact hlapsed.entered_eq_nil ▸ List.forall_mem_nil _
  · rw [hr.step]
    refine hr.governed.serves (hr.due.elim (fun howed => ?_) fun hlapsed => hlapsed.serves hsync)
    exact howed.serves hr.wrote.legal hg.covers hr.extend hr.governed.covers hnotSent hsync hretry

/-- A call that names a message has acts about that message and refreshes no other. -/
theorem Owed.single (howed : Owed caller h arrears op acts tasks) (hop : op.subject? = some id) :
    (∀ a ∈ acts, a.About id) ∧ ∀ t ∈ tasks, t = .refresh id := by
  have hrefreshes {ids : List String} (hids : ∀ i ∈ ids, i = id) :
      ∀ t ∈ ids.map Task.refresh, t = .refresh id := by
    intro t ht
    obtain ⟨i, hi, rfl⟩ := List.mem_map.mp ht
    rw [hids i hi]
  cases howed with
  | refreshed op ids hown =>
    exact ⟨List.forall_mem_nil _, hrefreshes fun i hi => (hown i hi).2 id hop⟩
  | altered op ms hone =>
    refine ⟨fun a ha => ?_, fun t ht => ?_⟩
    · obtain ⟨m, hm, rfl⟩ := List.mem_map.mp ha
      exact hone m hm id hop
    · obtain ⟨m, hm, rfl⟩ := List.mem_map.mp ht
      rw [hone m hm id hop]
  | labelled op l m howner hm hcarried hone =>
    have hid : m.id = id := hone id hop
    exact ⟨List.forall_mem_cons.mpr ⟨trivial, List.forall_mem_singleton.mpr hid⟩,
      List.forall_mem_singleton.mpr (by rw [hid])⟩
  | removed i =>
    obtain rfl : i = id := Option.some.inj hop
    exact ⟨List.forall_mem_singleton.mpr rfl, List.forall_mem_singleton.mpr rfl⟩
  | entered op ms hnone hown => rw [hnone] at hop; cases hop
  | enteredLabel op l hnone => rw [hnone] at hop; cases hop
  | swept => cases hop
  | renamedLabel l name text => cases hop
  | discardedLabel l => cases hop
  | synchronized stale => cases hop
  | retried => cases hop

theorem Lapsed.single (hlapsed : Lapsed caller h sound op acts tasks)
    (hop : op.subject? = some id) : (∀ a ∈ acts, a.About id) ∧ ∀ t ∈ tasks, t = .refresh id := by
  cases hlapsed with
  | refused op => exact ⟨List.forall_mem_nil _, List.forall_mem_nil _⟩
  | stopped op l hsound => exact ⟨List.forall_mem_singleton.mpr trivial, List.forall_mem_nil _⟩
  | unlisted => cases hop

end Mailroom

end LabelMail
