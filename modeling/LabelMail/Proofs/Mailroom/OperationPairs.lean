import LabelMail.Proofs.Mailroom.TaskPairs
import LabelMail.Web.Exchange

/-!
The operations of one caller in two mailrooms that agree on what the caller has. They return the
same, and the mailrooms agree afterwards. The first halves write the same for the caller, and what
is left to do for the replicas is the same in both.
-/
namespace LabelMail.Mailroom

open Request (Compose LabelChange)

variable {σ α β : Type} {g : Owners} {h h' : Holdings} {room room' mid mid' : Mailroom σ}
variable {caller owner id : String} {acts acts' : List Act} {tasks : List Task} {t : Task}
variable {op : Operation} {arrears : List Arrear} {fresh : String → Prop} {g' : Owners}

/-- Whoever owns what, the task is for this owner once the acts are done. -/
def Task.IsFor (h : Holdings) (acts : List Act) (owner : String) (t : Task) : Prop :=
  ∀ g g' : Owners, g.Covers h → g.Extends g' → g'.Covers (h.after acts) →
    t.Serves g' (h.after acts) owner

/-- All that the operation leaves to be done is for its caller. -/
def Operation.ForCaller : Operation → Prop
  | .send _ _ | .synchronize | .retryPending => False
  | _ => True

theorem Owed.isFor (howed : Owed caller h arrears op acts tasks)
    (hlegal : h.Legal caller fresh acts) (hop : op.ForCaller) : ∀ t ∈ tasks, t.IsFor h acts caller := by
  intro t ht g g' hc he hc'
  refine howed.serves hlegal hc he hc' ?_ ?_ ?_ t ht
  · rintro c withdrawn rfl
    exact hop
  · rintro rfl
    exact hop
  · rintro rfl
    exact hop

theorem Task.IsFor.of_entered {ms : List Message} {m : Message} (hm : m ∈ ms) :
    (Task.refresh m.id).IsFor h (ms.map .enter) m.ownerId := fun _ _ _ _ hc' =>
  hc'.messages m (messages_after_enter ▸ List.mem_append_right _ hm)

theorem Governed.synchronized (hg : Governed g h room) (hs : room.Sound) (owner : String) :
    Ends (synchronize owner room)
      (fun report s => (∃ mid stale, Synced h owner room report mid stale s) ∧ room.Trails s)
      (fun _ _ => False) :=
  ((synchronize_succeeds (hg.tended hs.primary) hs.replica owner).both
    (quiet_synchronize owner room)).mono (fun _ _ h => h) fun _ _ he => he.1

theorem SameFor.staleIds (hsame : SameFor owner room room') (hg : Governed g h room)
    (hg' : Governed g' h' room') :
    staleIds h owner room.replica.rows = staleIds h' owner room'.replica.rows := by
  have hmailbox : h.mailbox owner = h'.mailbox owner :=
    (hsame.holdings hg hg').mailbox hg.orderly hg'.orderly
  rw [Mailroom.staleIds, Mailroom.staleIds, hsame.replica.idsOf hg.kept hg'.kept, hmailbox]

/-- Everything is governed, no id is drawn twice, and no database refuses anything from here on. -/
structure Ready (room : Mailroom σ) : Prop where
  governed : ∃ g, Governed g room.holdings room
  sound : room.Sound
  supply : Supply room.idAt

/-- An id that is still to be drawn is not that of a label in the replica. -/
theorem Governed.label_ne (hg : Governed g h room) (hsupply : Supply room.idAt) {k : Label}
    (hk : k ∈ room.replica.rows.labels) {n : Nat} (hn : room.drawn ≤ n) : k.id ≠ room.idAt n := by
  intro hid
  rcases hg.parted.labels k hk with ⟨t, ht, rfl⟩ | ⟨o, hlabel, -⟩
  · exact hsupply.unreserved n t ht hid.symm
  · obtain ⟨i, hi, hki⟩ := hg.labelDrawn hlabel
    exact absurd (hsupply.injective (hki.trans hid)) (Nat.ne_of_lt (Nat.lt_of_lt_of_le hi hn))

theorem Governed.unused (hg : Governed g h room) (hsupply : Supply room.idAt) :
    Unused h room := by
  have hnew {i : String} {n : Nat} (hi : room.Drawn i) (hn : room.drawn ≤ n) : i ≠ room.idAt n := by
    obtain ⟨k, hk, rfl⟩ := hi
    exact fun heq => Nat.ne_of_lt (Nat.lt_of_lt_of_le hk hn) (hsupply.injective heq)
  refine ⟨fun n hn hmem => ?_, fun n hn l hl => ?_⟩
  · obtain ⟨m, hm, hid⟩ := Holdings.mem_ids.mp hmem
    exact hnew (hg.drawn (hg.covers.messages m hm)) hn hid
  · exact hnew (hg.labelDrawn (hg.covers.labels l hl)) hn

theorem Sound.ahead (hs : room.Sound) (ha : room.Ahead mid) : mid.Sound :=
  ⟨ha.sound hs.primary, ha.replica ▸ hs.replica⟩

namespace Ready

theorem orderly (hr : room.Ready) : room.Orderly := by
  obtain ⟨g, hg⟩ := hr.governed
  exact ⟨hg.shows, hg.orderly⟩

theorem rests (hr : room.Ready) (hrest : Rests room.holdings room mid) : mid.Ready := by
  obtain ⟨g, hg⟩ := hr.governed
  have hholdings : mid.holdings = room.holdings := holdings_eq hrest.shows hg.orderly
  refine ⟨⟨g, ?_⟩, hr.sound.ahead hrest.toAhead, hrest.idAt ▸ hr.supply⟩
  rw [hholdings]
  exact hg.rests hrest

theorem atTime (hr : room.Ready) (now : Int) : (room.atTime now).Ready := by
  obtain ⟨g, hg⟩ := hr.governed
  exact ⟨⟨g, hg.atTime now⟩, ⟨hr.sound.primary, hr.sound.replica⟩, hr.supply⟩

theorem step (hr : room.Ready) (e : Event) : (room.step e).Ready := by
  obtain ⟨g, hg⟩ := hr.governed
  obtain ⟨g', acts, tasks, mid, hruled⟩ := hg.call hr.supply e
  have hserved : Served g' (room.holdings.after acts) everything mid (mid.done tasks) :=
    hruled.governed.done fun t ht => ⟨hruled.owned t ht, fun _ _ => trivial, fun _ _ => trivial⟩
  have hmid : mid.Sound := (hr.atTime e.now).sound.ahead hruled.wrote.toAhead
  refine ⟨hg.step hr.supply e, ?_, hruled.idAt ▸ hr.supply⟩
  rw [hruled.step]
  exact ⟨hmid.primary.later (trails_done mid tasks).primary.toLater,
    hmid.replica.later hserved.later⟩

end Ready

/-- The mailrooms agree on what the caller has, who is asking something of both at one time. -/
structure Matched (caller : String) (room room' : Mailroom σ) : Prop where
  same : SameFor caller room room'
  ready : room.Ready
  ready' : room'.Ready
  now : room'.now = room.now
  named : caller ≠ Replica.shared

namespace Matched

theorem unwritten (hm : Matched caller room room') :
    Unwritten caller room.holdings room'.holdings room room' := by
  obtain ⟨g, hg⟩ := hm.ready.governed
  obtain ⟨g', hg'⟩ := hm.ready'.governed
  exact ⟨⟨⟨hm.ready.sound.primary, hm.ready'.sound.primary, hm.same.primary, hg.shows, hg'.shows⟩,
      hm.same.keeping, hm.same.outside, hm.same.rules, hm.now, hm.same.idAt, hm.same.drawn⟩,
    hg.orderly, hg'.orderly, hg.unused hm.ready.supply, hg'.unused hm.ready'.supply,
    hm.ready.supply⟩

/-- After the acts of both calls the mailrooms agree on what the caller has, new labels included. -/
theorem written (hm : Matched caller room room')
    (hw : Wrote caller room.holdings acts room mid)
    (hw' : Wrote caller room'.holdings acts' room' mid') (hlevel : Written caller mid mid') :
    SameFor caller mid mid' where
  primary := hlevel.primary.rows
  replica := by
    obtain ⟨g, hg⟩ := hm.ready.governed
    obtain ⟨g', hg'⟩ := hm.ready'.governed
    rw [hw.replica, hw'.replica]
    refine hm.same.replica.relabel fun k hk hfiled => hfiled.imp_right ?_
    rintro ⟨l, hl, howner, hid⟩
    rw [hw.shows.labels] at hl
    rcases hw.legal.stemsLabel hl with ⟨j, hj, hjl, hjowner⟩ | ⟨⟨n, hn, -, hfresh⟩, -⟩
    · exact ⟨j, hj, hjowner.trans howner, hjl.trans hid⟩
    · -- No replica has a row for a label that is new.
      have hid : k.id = room.idAt n := hid.symm.trans hfresh.symm
      rcases hk with hk | hk
      · exact absurd hid (hg.label_ne hm.ready.supply hk hn)
      · rw [← hm.same.idAt] at hid
        refine absurd hid (hg'.label_ne hm.ready'.supply hk ?_)
        rw [hm.same.drawn]
        exact hn
  backlog := by rw [hw.backlog, hw'.backlog, hm.same.backlog]
  keeping := hlevel.keeping
  outside := hlevel.outside
  rules := hlevel.rules
  idAt := hlevel.idAt
  drawn := hlevel.drawn

theorem rests (hm : Matched caller room room') (hrest : Rests room.holdings room mid)
    (hrest' : Rests room'.holdings room' mid') (hlevel : Written caller mid mid') :
    Matched caller mid mid' :=
  ⟨hm.written hrest.wrote hrest'.wrote hlevel, hm.ready.rests hrest, hm.ready'.rests hrest',
    hlevel.now, hm.named⟩

/-- The tasks for what was written, which are for the same owners in both mailrooms. -/
theorem finish (hm : Matched caller room room') (hw : Wrote caller room.holdings acts room mid)
    (hw' : Wrote caller room'.holdings acts' room' mid') (hlevel : Written caller mid mid')
    (htasks : ∀ t ∈ tasks, ∃ o, t.IsFor room.holdings acts o ∧ t.IsFor room'.holdings acts' o) :
    SameFor caller (mid.done tasks) (mid'.done tasks) := by
  obtain ⟨g, hg⟩ := hm.ready.governed
  obtain ⟨g', hg'⟩ := hm.ready'.governed
  obtain ⟨g₁, hextends, hg₁⟩ := hg.written hm.ready.supply hw
  obtain ⟨g₁', hextends', hg₁'⟩ := hg'.written hm.ready'.supply hw'
  refine (hm.written hw hw' hlevel).done hg₁ hg₁' (hm.ready.sound.ahead hw.toAhead)
    (hm.ready'.sound.ahead hw'.toAhead) hm.named fun t ht => ?_
  obtain ⟨o, hfor, hfor'⟩ := htasks t ht
  exact ⟨o, hfor g g₁ hg.covers hextends hg₁.covers,
    hfor' g' g₁' hg'.covers hextends' hg₁'.covers⟩

/-- An action that writes nothing. -/
theorem looking {a : Action σ α} (hm : Matched caller room room')
    (ha : Same (Unwritten caller room.holdings room'.holdings) a a room room')
    (hrests : ∀ r : Mailroom σ, r.Orderly → Ends (a r) (fun _ s => Rests r.holdings r s)
      (fun _ s => Rests r.holdings r s)) : Same (SameFor caller) a a room room' := by
  refine (Alike.both ha (hrests room hm.ready.orderly) (hrests room' hm.ready'.orderly)).mono
    (fun x s y t h => ?_) fun s t h => ?_
  · obtain ⟨⟨hxy, hu⟩, hrest, hrest'⟩ := h
    exact ⟨hxy, hm.written hrest.wrote hrest'.wrote hu.weaken⟩
  · obtain ⟨hu, e, hrest, hrest'⟩ := h
    exact hm.written hrest.wrote hrest'.wrote hu.weaken

/-- An operation in its two halves. What the second half returns may differ as far as `V` allows. -/
theorem then_alike {a : Action σ α} {f : α → Action σ β} {tasks : α → List Task} {P : α → β → Prop}
    {V : β → β → Prop} (hm : Matched caller room room') (op : Operation) (hop : op.ForCaller)
    (ha : Same (Written caller) a a room room')
    (hbegins : ∀ r : Mailroom σ, r.Orderly → Begins caller r.holdings op tasks a r)
    (hf : ∀ x, Finishes (tasks x) (P x) (f x)) (hV : ∀ x b b', P x b → P x b' → V b b') :
    Alike (fun b s b' t => V b b' ∧ SameFor caller s t) (SameFor caller) ((a >>= f) room)
      ((a >>= f) room') := by
  refine Alike.bind
    (Alike.both ha (hbegins room hm.ready.orderly) (hbegins room' hm.ready'.orderly))
    (fun x mid y mid' hx => ?_) fun mid mid' he => ?_
  · obtain ⟨⟨rfl, hlevel⟩, ⟨acts, hw, howed⟩, acts', hw', howed'⟩ := hx
    refine .of_ends (hf x mid) (hf x mid') fun b s b' t hs ht => ?_
    obtain ⟨hb, rfl⟩ := hs
    obtain ⟨hb', rfl⟩ := ht
    exact ⟨hV x b b' hb hb', hm.finish hw hw' hlevel fun t ht =>
      ⟨caller, howed.isFor hw.legal hop t ht, howed'.isFor hw'.legal hop t ht⟩⟩
  · obtain ⟨hlevel, -, ⟨acts, hw, hlapsed⟩, acts', hw', hlapsed'⟩ := he
    obtain rfl := hlapsed.no_acts hm.ready.sound.primary
    obtain rfl := hlapsed'.no_acts hm.ready'.sound.primary
    exact hm.written hw hw' hlevel

theorem then_same {a : Action σ α} {f : α → Action σ β} {p : α → β} {tasks : α → List Task}
    (hm : Matched caller room room') (op : Operation) (hop : op.ForCaller)
    (ha : Same (Written caller) a a room room')
    (hbegins : ∀ r : Mailroom σ, r.Orderly → Begins caller r.holdings op tasks a r)
    (hf : ∀ x, Finishes (tasks x) (· = p x) (f x)) :
    Same (SameFor caller) (a >>= f) (a >>= f) room room' :=
  hm.then_alike op hop ha hbegins hf fun _ _ _ hb hb' => hb.trans hb'.symm

theorem ofExcept {v : Except Failure α} {f : α → Action σ β} (hm : Matched caller room room')
    (hf : ∀ x, Same (SameFor caller) (f x) (f x) room room') :
    Same (SameFor caller) (MonadExcept.ofExcept v >>= f) (MonadExcept.ofExcept v >>= f)
      room room' := by
  cases v with
  | ok x => exact hf x
  | error e => exact .error hm.same

/-- An edit of one message and its refresh. -/
theorem edit_same {a : Action σ Message} (hm : Matched caller room room') (op : Operation)
    (hop : op.ForCaller) (hone : op.Concerns id) (ha : Same (Written caller) a a room room')
    (hends : ∀ r : Mailroom σ, r.Orderly → Ends (a r)
      (fun m s => EditOf r.holdings caller id r.holdings.labels m ∧
        Wrote caller r.holdings [.alter m] r s)
      (fun _ s => Rests r.holdings r s)) :
    Same (SameFor caller) (thenRefresh id a) (thenRefresh id a) room room' :=
  hm.then_same op hop ha (fun r ho => edit_begins hone (hends r ho)) (finishes_refresh id)

theorem changeLabel_same (hm : Matched caller room room') (id : String) (c : LabelChange) :
    Same (SameFor caller) (changeLabel caller id c) (changeLabel caller id c) room room' := by
  have hone : (Operation.changeLabel id c).Concerns id := .of_some rfl
  refine hm.ofExcept fun text => ?_
  cases c.action with
  | add =>
    exact hm.then_same (.changeLabel id c) trivial (addTag_same hm.unwritten id text)
      (fun _ ho => addTag_begins ho.shows ho.holdings hone text) (finishes_update id)
  | remove =>
    exact hm.then_same (.changeLabel id c) trivial (removeTag_same hm.unwritten id text)
      (fun _ ho => removeTag_begins ho.shows ho.holdings hone text) (finishes_update id)

theorem markUnread_same (hm : Matched caller room room') (ids : List String) :
    Same (SameFor caller) (markUnread caller ids) (markUnread caller ids) room room' := by
  unfold markUnread
  split
  · exact .throw _ hm.same
  · exact hm.then_same (.markUnread ids) trivial (setReadMany_same hm.unwritten ids false)
      (fun _ ho => edits_begin rfl (setReadMany_ends ho.shows ho.holdings ids false))
      fun ms => finishes_refreshAll ms ms.length

theorem createLabel_same (hm : Matched caller room room') (name : Option String) :
    Same (SameFor caller) (createLabel caller name) (createLabel caller name) room room' := by
  refine hm.ofExcept fun text => hm.then_same (.createLabel name) trivial ?_
    (fun _ ho => enterLabel_begins ho.shows rfl text) finishes_putLabel
  exact (enterLabel_same hm.unwritten text).mono (fun _ _ _ _ hl => hl) fun _ _ => Unwritten.weaken

theorem renameLabel_same (hm : Matched caller room room') (id : String) (name : Option String) :
    Same (SameFor caller) (renameLabel caller id name) (renameLabel caller id name) room room' :=
  hm.ofExcept fun text => hm.then_same (.renameLabel id name) trivial
    (renameTag_same hm.unwritten id text)
    (fun _ ho => renameTag_begins ho.shows ho.holdings name text)
    fun r => finishes_renaming r.1 r.2

theorem deleteLabel_same (hm : Matched caller room room') (id : String) :
    Same (SameFor caller) (deleteLabel caller id) (deleteLabel caller id) room room' :=
  hm.then_same (.deleteLabel id) trivial (deleteTag_same hm.unwritten id)
    (fun _ ho => deleteTag_begins ho.shows ho.holdings) fun r => finishes_deletion r.1 r.2

/-- How many of the messages the replicas had may differ. -/
theorem clearTrash_alike (hm : Matched caller room room') :
    Alike (fun s mid s' mid' => s.count = s'.count ∧ SameFor caller mid mid') (SameFor caller)
      (clearTrash caller room) (clearTrash caller room') :=
  hm.then_alike .clearTrash trivial (sweepTrash_same hm.unwritten)
    (fun _ ho => sweepTrash_begins ho.shows ho.holdings) finishes_sweep
    fun _ _ _ hs hs' => hs.trans hs'.symm

theorem call_same (hm : Matched caller room room') (verb : Blacklist.Verb) (url : String) :
    Same (SameFor caller) (call verb url) (call verb url) room room' :=
  hm.looking (Mailroom.call_same ask_unwritten verb url hm.unwritten)
    fun _ ho => call_ends ho.shows verb url

/-- Messages are entered and refreshed. A copy that is for another user is refreshed for that user
in both mailrooms. -/
theorem entered {a : Action σ α} (hm : Matched caller room room') (ms : α → List Message)
    (ha : Same (Written caller) a a room room')
    (hends : ∀ r : Mailroom σ, r.Orderly → Ends (a r)
      (fun x s => Enters caller r.holdings (ms x) r s) (fun _ s => Rests r.holdings r s)) :
    Same (SameFor caller) a a room room' := by
  refine (Alike.both ha (hends room hm.ready.orderly) (hends room' hm.ready'.orderly)).mono
    (fun x s y t h => ?_) fun s t h => ?_
  · obtain ⟨⟨rfl, hend⟩, ⟨mid, hw, rfl⟩, mid', hw', rfl⟩ := h
    have hlevel : Written caller mid mid' := hend.before (trails_done mid _) (trails_done mid' _)
      (hw.sound hm.ready.sound.primary) (hw'.sound hm.ready'.sound.primary)
    refine ⟨rfl, hm.finish hw hw' hlevel fun t ht => ?_⟩
    obtain ⟨m, hmem, rfl⟩ := List.mem_map.mp ht
    exact ⟨m.ownerId, .of_entered hmem, .of_entered hmem⟩
  · obtain ⟨hend, e, hrest, hrest'⟩ := h
    exact hm.written hrest.wrote hrest'.wrote hend

theorem send_same (hm : Matched caller room room') (c : Compose) (withdrawn : Bool) :
    Same (SameFor caller) (send caller c withdrawn) (send caller c withdrawn) room room' :=
  hm.entered (fun d => [d.senderCopy, d.recipientCopy])
    (Mailroom.send_same hm.unwritten c withdrawn) fun _ ho => send_delivers ho.shows c withdrawn

theorem saveDraft_same (hm : Matched caller room room') (c : Compose) :
    Same (SameFor caller) (saveDraft caller c) (saveDraft caller c) room room' :=
  hm.entered (fun m => [m]) (Mailroom.saveDraft_same hm.unwritten c) fun _ ho =>
    (saveDraft_ends ho.shows c).mono (fun _ _ he => he.2) fun _ _ he => he

/-- Both replicas list the same as stale. -/
theorem synchronize_same (hm : Matched caller room room') :
    Same (SameFor caller) (synchronize caller) (synchronize caller) room room' := by
  obtain ⟨g, hg⟩ := hm.ready.governed
  obtain ⟨g', hg'⟩ := hm.ready'.governed
  refine .of_ends (hg.synchronized hm.ready.sound caller) (hg'.synchronized hm.ready'.sound caller)
    fun report s report' t hs ht => ?_
  obtain ⟨⟨mid, stale, hsync⟩, hquiet⟩ := hs
  obtain ⟨⟨mid', stale', hsync'⟩, hquiet'⟩ := ht
  have hlevel : Written caller mid mid' := by
    have hend : Written caller s t := hm.unwritten.weaken.trails hquiet hquiet'
    rw [hsync.done, hsync'.done] at hend
    exact hend.before (trails_done mid _) (trails_done mid' _)
      (hsync.begun.sound hm.ready.sound.primary) (hsync'.begun.sound hm.ready'.sound.primary)
  have hmid : Matched caller mid mid' := hm.rests hsync.begun hsync'.begun hlevel
  have hgmid : Governed g room.holdings mid := hg.rests hsync.begun
  have hgmid' : Governed g' room'.holdings mid' := hg'.rests hsync'.begun
  have hmailbox : room.holdings.mailbox caller = room'.holdings.mailbox caller :=
    (hm.same.holdings hg hg').mailbox hg.orderly hg'.orderly
  have htasks : mailboxTasks room'.holdings caller = mailboxTasks room.holdings caller := by
    rw [mailboxTasks, mailboxTasks, hmailbox]
  have hstale : stale = stale' := by
    have hserves : ∀ t ∈ mailboxTasks room.holdings caller, t.Serves g room.holdings caller :=
      serves_mailboxTasks hgmid.covers
    have hserves' : ∀ t ∈ mailboxTasks room.holdings caller, t.Serves g' room'.holdings caller :=
      htasks ▸ serves_mailboxTasks hgmid'.covers
    rw [hsync.found, hsync'.found, htasks]
    exact (hmid.same.done hgmid hgmid' hmid.ready.sound hmid.ready'.sound hm.named fun t ht =>
      ⟨caller, hserves t ht, hserves' t ht⟩).staleIds (hgmid.serves hserves).governed
      (hgmid'.serves hserves').governed
  have hsyncTasks :
      syncTasks room'.holdings caller stale' = syncTasks room.holdings caller stale := by
    rw [syncTasks, syncTasks, htasks, hstale]
  refine ⟨?_, ?_⟩
  · rw [hsync.report_eq hgmid, hsync'.report_eq hgmid', hmailbox, ← hsync.length_stale hgmid,
      ← hsync'.length_stale hgmid', hstale]
  · have hserves' := hsync'.serves hgmid'
    rw [hsync.done, hsync'.done]
    rw [hsyncTasks] at hserves' ⊢
    exact hmid.same.done hgmid hgmid' hmid.ready.sound hmid.ready'.sound hm.named fun t ht =>
      ⟨caller, hsync.serves hgmid t ht, hserves' t ht⟩

theorem pending_same (hm : Matched caller room room') :
    Same (SameFor caller) (pending caller) (pending caller) room room' :=
  .ok ⟨hm.same.backlog.symm, hm.same⟩

/-- The response says no more of an outcome than is the same in both mailrooms. -/
theorem perform_same (hm : Matched caller room room') (op : Operation) (hop : op ≠ .retryPending) :
    Alike (fun o s o' t => Web.Response.ofOutcome op o = Web.Response.ofOutcome op o' ∧
        SameFor caller s t)
      (SameFor caller) (perform caller op room) (perform caller op room') := by
  have htold {α : Type} {p : α → Outcome} {a : Action σ α}
      (ha : Same (SameFor caller) a a room room') :
      Alike (fun o s o' t => Web.Response.ofOutcome op o = Web.Response.ofOutcome op o' ∧
        SameFor caller s t) (SameFor caller) ((p <$> a) room) ((p <$> a) room') :=
    Alike.mono (ha.map p) (fun _ _ _ _ h => ⟨congrArg _ h.1, h.2⟩) fun _ _ h => h
  have hu : Unwritten caller room.holdings room'.holdings room room' := hm.unwritten
  cases op with
  | send c withdrawn => exact htold (hm.send_same c withdrawn)
  | saveDraft c => exact htold (hm.saveDraft_same c)
  | editDraft id e =>
    exact htold (hm.edit_same (.editDraft id e) trivial (.of_some rfl) (changeDraft_same hu id e)
      fun _ ho => changeDraft_ends ho.shows ho.holdings e)
  | find id =>
    exact htold (hm.looking (find_same hu id) fun _ ho =>
      (ownMessage_rests ho.shows ho.holdings).mono (fun _ _ hr => hr.2.2) fun _ _ he => he)
  | list folder =>
    exact htold (hm.looking (list_same hu folder) fun _ ho => list_ends ho.shows folder)
  | listSpam =>
    exact htold (hm.looking (messagesIn_looked hu .spam) fun _ ho =>
      looking_ends ho.shows (Primary.looks_messagesIn caller .spam))
  | delete id =>
    exact htold (hm.then_alike (.delete id) trivial (delete_same hu id)
      (fun _ ho => delete_begins ho.shows ho.holdings) (fun _ => finishes_refreshQuietly id)
      fun _ _ _ _ _ => rfl)
  | changeLabel id c => exact htold (hm.changeLabel_same id c)
  | flipSpam id =>
    exact htold (hm.then_same (.flipSpam id) trivial (flipSpam_same hu id)
      (fun _ ho => flipSpam_begins ho.shows ho.holdings) (finishes_refresh id))
  | flipStar id =>
    exact htold (hm.edit_same (.flipStar id) trivial (.of_some rfl) (flipStar_same hu id)
      fun _ ho => flipStar_ends ho.shows ho.holdings)
  | flipArchive id =>
    exact htold (hm.edit_same (.flipArchive id) trivial (.of_some rfl) (flipArchive_same hu id)
      fun _ ho => flipArchive_ends ho.shows ho.holdings)
  | flipTrash id =>
    exact htold (hm.edit_same (.flipTrash id) trivial (.of_some rfl) (flipTrash_same hu id)
      fun _ ho => flipTrash_ends ho.shows ho.holdings)
  | markRead id read =>
    exact htold (hm.edit_same (.markRead id read) trivial (.of_some rfl) (setRead_same hu id read)
      fun _ ho => setRead_ends ho.shows ho.holdings read)
  | markAllRead =>
    exact htold (hm.then_same .markAllRead trivial (setAllRead_same hu)
      (fun _ ho => edits_begin rfl (setAllRead_ends ho.shows ho.holdings))
      fun ms => finishes_refreshAll ms ms.length)
  | markUnread ids => exact htold (hm.markUnread_same ids)
  | clearTrash =>
    have hsweep (s : Sweep) :
        Web.Response.ofOutcome .clearTrash (.sweep s) = Web.Response.ofSweep s := rfl
    refine Alike.map (hm.clearTrash_alike.mono (fun s _ s' _ h => ⟨?_, h.2⟩) fun _ _ h => h)
    rw [hsweep, hsweep, Web.Response.ofSweep, Web.Response.ofSweep, h.1]
  | search query =>
    exact htold (hm.looking (search_same hu query) fun _ ho => search_ends ho.shows query)
  | searchIn folder query =>
    exact htold (hm.looking (searchIn_same hu folder query) fun _ ho =>
      searchIn_ends ho.shows folder query)
  | labels =>
    exact htold (hm.looking (labels_same hu) fun _ ho =>
      looking_ends ho.shows (Primary.looks_select _))
  | findLabel id =>
    exact htold (hm.looking (findLabel_same hu id) fun _ ho =>
      looking_ends ho.shows (Primary.looks_ownLabel id caller))
  | createLabel name => exact htold (hm.createLabel_same name)
  | renameLabel id name => exact htold (hm.renameLabel_same id name)
  | deleteLabel id => exact htold (hm.deleteLabel_same id)
  | blacklist url => exact htold (hm.ofExcept fun url => hm.call_same .add url)
  | unblacklist url => exact htold (hm.call_same .remove url)
  | isBlacklisted url => exact htold (hm.call_same .lookup url)
  | synchronize => exact htold hm.synchronize_same
  | pending => exact htold hm.pending_same
  | retryPending => exact absurd rfl hop

end Matched

end LabelMail.Mailroom
