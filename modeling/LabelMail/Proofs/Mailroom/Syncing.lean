import LabelMail.Proofs.Mailroom.Serving
import LabelMail.Proofs.Replica.Repeats

/-!
A synchronization in which nothing fails. Every refresh then succeeds and says whether the store has
the message; the owner's messages are mirrored one by one, and what only the replica has is removed.
-/
namespace LabelMail.Mailroom

open Replica (Rows)

variable {σ : Type} {room mid room' : Mailroom σ} {h : Holdings} {g : Owners} {r r' : Replica}
variable {b b' : Backlog} {m : Message} {id owner : String} {ids : List String} {R : Rows}
variable {tasks : List Task} {t : Task}

/-- What a refresh of this id reports. -/
def refreshed (h : Holdings) (id : String) : Refreshed :=
  if id ∈ h.ids then .copied else .removed

theorem refresh_succeeds (ht : Tended h room) (hs : room.replica.Sound) (id : String) :
    Ends (refresh id room) (fun r _ => r = refreshed h id) (fun _ _ => False) := by
  refine (find_ends ht id).bind (fun found mid hfound => ?_) fun _ _ he => he
  obtain ⟨rfl, db, hi, rfl⟩ := hfound
  cases hfind : h.find? id with
  | some m =>
    obtain ⟨hm, rfl⟩ := Holdings.mem_of_find? hfind
    have hcopied : refreshed h m.id = .copied := if_pos (Holdings.mem_ids.mpr ⟨m, hm, rfl⟩)
    refine (copyMessage_ends (ht.idle hi) hm).bind (fun _ _ _ => .of_ok hcopied.symm) ?_
    exact fun _ _ hfail => hfail.1.unsound hs
  | none =>
    have hremoved : refreshed h id = .removed := if_neg (Holdings.find?_eq_none.mp hfind)
    have hdelete := onReplica_ends { room with primary := db } (Replica.leaves_deleteMessage id)
    refine Ends.bind (Q := fun _ _ => True) (F := fun _ _ => False)
      (.discard (hdelete.mono (fun _ _ _ => trivial) ?_)) (fun _ _ _ => .of_ok hremoved.symm)
      fun _ _ he => he
    rintro _ _ ⟨r, -, -, -, hunsound⟩
    exact hunsound hs

/-- Refreshes one after the other, which all succeed. -/
theorem refreshes_succeed (ht : Tended h room) (hs : room.replica.Sound) (ids : List String) :
    Ends (ids.mapM (fun id => attempt (refresh id)) room)
      (fun rs room' => rs = ids.map (fun id => .ok (refreshed h id)) ∧
        room' = room.done (ids.map .refresh))
      (fun _ _ => False) := by
  have hresults : Ends (ids.mapM (fun id => attempt (refresh id)) room)
      (fun rs room' => rs = ids.map (fun id => .ok (refreshed h id)) ∧
        (Tended h room' ∧ room'.replica.Sound)) (fun _ _ => False) := by
    refine Ends.mapM (fun id _ mid hmid => ?_) ⟨ht, hs⟩
    have hrun : Ends (refresh id mid)
        (fun r mid' => r = refreshed h id ∧ Tended h mid' ∧ mid'.replica.Sound)
        (fun _ _ => False) := by
      refine ⟨fun r mid' hr => ⟨(refresh_succeeds hmid.1 hmid.2 id).ok r mid' hr, ?_⟩,
        (refresh_succeeds hmid.1 hmid.2 id).error⟩
      have hstate : mid' = mid.run (.refresh id) := by rw [run, hr]; rfl
      rw [hstate]
      exact ⟨hmid.1.run trivial, hmid.2.later (run_turns hmid.1 (.refresh id)).2⟩
    refine (attempt_ends hrun).mono (fun r mid' hr => ?_) fun _ _ he => he
    rcases hr with ⟨x, rfl, rfl, hmid'⟩ | ⟨e, -, he⟩
    · exact ⟨rfl, hmid'⟩
    · exact he.elim
  exact (hresults.both (mapM_attempt_ends (t := .refresh) (fun _ _ => rfl) ids)).mono
    (fun _ _ hr => ⟨hr.1.1, hr.2⟩) fun _ _ he => he.1

/-- What the replica lists for an owner although it is not in the mailbox. -/
def staleIds (h : Holdings) (owner : String) (R : Rows) : List String :=
  (sortBy (fun a b => decide (a ≤ b)) ((R.messages.filter (·.ownerId == owner)).map (·.id))).filter
    fun id => !((h.mailbox owner).map Message.id).contains id

theorem mem_staleIds : id ∈ staleIds h owner R ↔
    (∃ row ∈ R.messages, row.ownerId = owner ∧ row.id = id) ∧
      ∀ m ∈ h.messages, m.ownerId = owner → m.id ≠ id := by
  simp only [staleIds, List.mem_filter, mem_sortBy, List.mem_map, beq_iff_eq, Bool.not_eq_true',
    List.contains_eq_mem, decide_eq_false_iff_not, Holdings.mem_mailbox, not_exists, not_and,
    and_assoc]

/-- The work of a synchronization. -/
def syncTasks (h : Holdings) (owner : String) (stale : List String) : List Task :=
  mailboxTasks h owner ++ .list owner :: stale.map .refresh

/-- A synchronization that succeeds, with what was stale when the mailbox had been refreshed. -/
structure Synced (h : Holdings) (owner : String) (room : Mailroom σ) (report : Report)
    (mid : Mailroom σ) (stale : List String) (room' : Mailroom σ) : Prop where
  begun : Rests h room mid
  found : stale = staleIds h owner (mid.done (mailboxTasks h owner)).replica.rows
  done : room' = mid.done (syncTasks h owner stale)
  told : report = .ofResults
    (((h.mailbox owner).map Message.id ++ stale).map fun id => .ok (refreshed h id))

theorem Governed.tended (hg : Governed g h room) (hp : room.primary.Sound) : Tended h room :=
  ⟨hg.shows, hg.orderly, hg.covers.apart, hp, hg.kept⟩

theorem Tended.rests (ht : Tended h room) (hrest : Rests h room mid) : Tended h mid :=
  ⟨hrest.shows, ht.orderly, ht.apart, hrest.sound ht.sound, hrest.replica ▸ ht.kept⟩

theorem Tended.sound_done (ht : Tended h room) (hs : room.replica.Sound)
    (hfits : ∀ t ∈ tasks, t.Fits h) : (room.done tasks).replica.Sound :=
  hs.later (ht.later_done hfits)

theorem fits_refreshes (ids : List String) : ∀ t ∈ ids.map Task.refresh, t.Fits h := by
  intro t ht
  obtain ⟨id, -, rfl⟩ := List.mem_map.mp ht
  trivial

theorem mailboxTasks_eq : mailboxTasks h owner = ((h.mailbox owner).map Message.id).map .refresh :=
  List.map_map.symm

theorem fits_syncTasks (stale : List String) : ∀ t ∈ syncTasks h owner stale, t.Fits h := by
  intro t ht
  rcases List.mem_append.mp ht with ht | ht
  · exact fits_refreshes _ t (mailboxTasks_eq ▸ ht)
  · rcases List.mem_cons.mp ht with rfl | ht
    · trivial
    · exact fits_refreshes stale t ht

theorem synchronize_succeeds (ht : Tended h room) (hs : room.replica.Sound) (owner : String) :
    Ends (synchronize owner room)
      (fun report room' => ∃ mid stale, Synced h owner room report mid stale room')
      (fun _ _ => False) := by
  have hmailbox : Ends (onPrimary (Primary.messagesOf owner) room)
      (fun ms mid => ms = h.mailbox owner ∧ Rests h room mid) (fun _ _ => False) := by
    refine (reading_ends (P := (· = h.mailbox owner)) (E := fun _ => False) ht.shows
      ((Primary.messagesOf_ends ht.shows ht.orderly).mono (fun _ _ hr => hr)
        fun _ _ he => absurd ht.sound he.2)).mono (fun _ _ hr => hr) fun _ _ he => he.1
  refine hmailbox.bind (fun ms mid hms => ?_) fun _ _ he => he
  obtain ⟨rfl, hrest⟩ := hms
  have htmid : Tended h mid := ht.rests hrest
  have hsmid : mid.replica.Sound := hrest.replica ▸ hs
  refine (refreshes_succeed htmid hsmid _).bind (fun kept room₁ h₁ => ?_) fun _ _ he => he
  obtain ⟨rfl, rfl⟩ := h₁
  rw [← mailboxTasks_eq]
  have hfits : ∀ t ∈ mailboxTasks h owner, t.Fits h := mailboxTasks_eq (h := h) ▸ fits_refreshes _
  have htlist : Tended h (mid.done (mailboxTasks h owner)) := htmid.done hfits
  have hslist : (mid.done (mailboxTasks h owner)).replica.Sound := htmid.sound_done hsmid hfits
  have hlist : Ends (onReplica (Replica.idsOf owner) (mid.done (mailboxTasks h owner)))
      (fun held listed => (held.filter fun id => !((h.mailbox owner).map Message.id).contains id) =
          staleIds h owner (mid.done (mailboxTasks h owner)).replica.rows ∧
        listed = (mid.done (mailboxTasks h owner)).run (.list owner))
      (fun _ _ => False) := by
    have hends := onReplica_ends (mid.done (mailboxTasks h owner))
      (Replica.Leaves.select (r := (mid.done (mailboxTasks h owner)).replica) fun rows =>
        sortBy (fun a b => decide (a ≤ b)) ((rows.messages.filter (·.ownerId == owner)).map (·.id)))
    refine ⟨fun held listed hr => ?_, fun e listed hr => ?_⟩
    · obtain ⟨r, -, ⟨rfl, -⟩, -⟩ := hends.ok held listed hr
      refine ⟨rfl, ?_⟩
      rw [run, hr]
      rfl
    · obtain ⟨r, -, -, -, hunsound⟩ := hends.error e listed hr
      exact hunsound hslist
  refine hlist.bind (fun held listed h₂ => ?_) fun _ _ he => he
  obtain ⟨hstale, rfl⟩ := h₂
  rw [hstale]
  refine (refreshes_succeed (htlist.run (t := .list owner) trivial)
    (hslist.later (run_turns htlist (.list owner)).2) _).bind (fun dropped room₃ h₃ => ?_)
    fun _ _ he => he
  obtain ⟨rfl, rfl⟩ := h₃
  refine .of_ok ⟨mid, _, hrest, rfl, ?_, ?_⟩
  · rw [syncTasks, done_append, done_cons]
  · rw [List.map_append]

/-- In a sound replica a refresh does what it is for. -/
theorem Turn.refresh_cases (hturn : Turn h r b (.refresh id) r' b') (hs : r.Sound) :
    (∃ m, h.find? id = some m ∧ Settled id (Rows.Copied m (h.labelsOf m) r.rows) b r' b') ∨
      (id ∉ h.ids ∧ Settled id (· = r.rows.without id) b r' b') := by
  cases hturn with
  | copied hfind hdone => exact .inl ⟨_, hfind, hdone⟩
  | uncopied hfind hdone => exact absurd hs hdone.unsound
  | removed hid hdone => exact .inr ⟨hid, hdone⟩
  | refused hrefresh hrows hunsound => exact absurd hs hunsound

theorem Turn.mirrors_refresh (hturn : Turn h r b (.refresh id) r' b') (hs : r.Sound)
    (ho : h.Orderly) (hapart : h.Apart) (hk : r.rows.Kept h) (hm : m ∈ h.messages)
    (hmir : r.rows.Mirrors m (h.labelsOf m) ∨ m.id = id) :
    r'.rows.Mirrors m (h.labelsOf m) := by
  rcases hturn.refresh_cases hs with ⟨x, hfind, hdone⟩ | ⟨hid, hdone⟩
  · obtain ⟨hx, rfl⟩ := Holdings.mem_of_find? hfind
    by_cases hne : m.id = x.id
    · obtain rfl := Holdings.eq_of_id ho.ids hm hx hne
      exact hdone.rows.mirrors hk ho hapart hm
    · exact (hdone.rows.spares hk ho hapart hx).mirrors ho hm hne (hmir.resolve_right hne)
  · have hne : m.id ≠ id := fun hmid => hid (Holdings.mem_ids.mpr ⟨m, hm, hmid⟩)
    rw [hdone.rows]
    exact (Rows.spares_without hk).mirrors ho hm hne (hmir.resolve_right hne)

theorem Turn.absent_refresh (hturn : Turn h r b (.refresh id) r' b') (hs : r.Sound)
    (hid : id ∉ h.ids) : ∀ row ∈ r'.rows.messages, row.id ≠ id := by
  rcases hturn.refresh_cases hs with ⟨x, hfind, -⟩ | ⟨-, hdone⟩
  · exact absurd (Holdings.mem_ids.mpr ⟨x, Holdings.mem_of_find? hfind⟩) hid
  · intro row hrow
    rw [hdone.rows] at hrow
    exact bne_iff_ne.mp (List.mem_filter.mp hrow).2

/-- The task is one of those that a synchronization consists of. -/
def Task.Syncs : Task → Prop
  | .refresh _ => True
  | .list _ => True
  | _ => False

theorem Turn.rows_list (hturn : Turn h r b (.list owner) r' b') : r'.rows = r.rows := by
  cases hturn with
  | listed hrows => exact hrows
  | refused hrefresh hrows hunsound => exact hrows

theorem Task.Syncs.fits (ht : t.Syncs) : t.Fits h := by
  cases t with
  | refresh id => trivial
  | list owner => trivial
  | retry a => exact ht.elim
  | putLabel l => exact ht.elim
  | deleteLabel i => exact ht.elim
  | sweep ids => exact ht.elim

/-- After refreshes in a sound replica, what was mirrored or refreshed is mirrored. -/
theorem Tended.mirrors_synced (ht : Tended h room) (hs : room.replica.Sound)
    (htasks : ∀ t ∈ tasks, t.Syncs) (hm : m ∈ h.messages)
    (hmir : room.replica.rows.Mirrors m (h.labelsOf m) ∨ .refresh m.id ∈ tasks) :
    (room.done tasks).replica.rows.Mirrors m (h.labelsOf m) := by
  let P (rest : List Task) (mid : Mailroom σ) : Prop :=
    (∀ t ∈ rest, t.Syncs) ∧ mid.replica.Sound ∧
      (mid.replica.rows.Mirrors m (h.labelsOf m) ∨ .refresh m.id ∈ rest)
  have hdone : P [] (room.done tasks) := by
    refine ht.done_induction (fun t ht => (htasks t ht).fits)
      (fun mid t rest hmid _ hturns hP => ?_) ⟨htasks, hs, hmir⟩
    obtain ⟨htasks, hs, hmir⟩ := hP
    refine ⟨fun t ht => htasks t (List.mem_cons_of_mem _ ht), hs.later hturns.2, ?_⟩
    cases t with
    | refresh id =>
      by_cases hrest : Task.refresh m.id ∈ rest
      · exact .inr hrest
      · refine .inl (hturns.1.mirrors_refresh hs hmid.orderly hmid.apart hmid.kept hm ?_)
        refine hmir.imp_right fun hmem => ?_
        exact Task.refresh.inj ((List.mem_cons.mp hmem).resolve_right hrest)
    | list owner =>
      rw [hturns.1.rows_list]
      exact hmir.imp_right fun hmem => (List.mem_cons.mp hmem).resolve_left (by simp)
    | _ => exact (htasks _ List.mem_cons_self).elim
  exact hdone.2.2.resolve_right List.not_mem_nil

/-- What the store lacks and is refreshed has no row any more. -/
theorem Tended.absent_synced (ht : Tended h room) (hs : room.replica.Sound)
    (htasks : ∀ t ∈ tasks, t.Syncs) (hid : id ∉ h.ids) (hrefresh : .refresh id ∈ tasks) :
    ∀ row ∈ (room.done tasks).replica.rows.messages, row.id ≠ id := by
  let P (rest : List Task) (mid : Mailroom σ) : Prop :=
    mid.replica.Sound ∧ ((∀ row ∈ mid.replica.rows.messages, row.id ≠ id) ∨ .refresh id ∈ rest)
  have hdone : P [] (room.done tasks) := by
    refine ht.done_induction (fun t ht => (htasks t ht).fits)
      (fun mid t rest hmid _ hturns hP => ?_) ⟨hs, .inr hrefresh⟩
    obtain ⟨hs, hgone⟩ := hP
    refine ⟨hs.later hturns.2, ?_⟩
    rcases hgone with hnone | hmem
    · exact .inl (hturns.1.absent hmid.orderly hmid.apart hmid.kept hid hnone)
    · rcases List.mem_cons.mp hmem with rfl | hmem
      · exact .inl (hturns.1.absent_refresh hs hid)
      · exact .inr hmem
  exact hdone.2.resolve_right List.not_mem_nil

/-- Refreshes of messages that are mirrored change nothing. -/
theorem Tended.unchanged_synced (ht : Tended h room) (hs : room.replica.Sound)
    (htasks : ∀ t ∈ tasks, (∃ m ∈ h.messages, t = .refresh m.id ∧
      room.replica.rows.Mirrors m (h.labelsOf m)) ∨ ∃ owner, t = .list owner) :
    room.replica.rows.Unchanged (room.done tasks).replica.rows := by
  have hsyncs : ∀ t ∈ tasks, t.Syncs := by
    intro t ht
    rcases htasks t ht with ⟨m, -, rfl, -⟩ | ⟨owner, rfl⟩
    · trivial
    · trivial
  let P (rest : List Task) (mid : Mailroom σ) : Prop :=
    rest ⊆ tasks ∧ mid.replica.Sound ∧ room.replica.rows.Unchanged mid.replica.rows
  have hdone : P [] (room.done tasks) := by
    refine ht.done_induction (fun t ht => (hsyncs t ht).fits)
      (fun mid t rest hmid _ hturns hP => ?_) ⟨List.Subset.refl _, hs, .refl _⟩
    obtain ⟨hsub, hs, hsame⟩ := hP
    refine ⟨fun u hu => hsub (List.mem_cons_of_mem t hu), hs.later hturns.2, ?_⟩
    rcases htasks t (hsub List.mem_cons_self) with ⟨m, hm, rfl, hmir⟩ | ⟨owner, rfl⟩
    · rcases hturns.1.refresh_cases hs with ⟨x, hfind, hdone⟩ | ⟨hid, -⟩
      · obtain ⟨hx, hid⟩ := Holdings.mem_of_find? hfind
        obtain rfl := Holdings.eq_of_id hmid.orderly.ids hx hm hid
        exact hsame.trans (hdone.rows.unchanged (hsame.mirrors hmir) hmid.kept)
      · exact absurd (Holdings.mem_ids.mpr ⟨m, hm, rfl⟩) hid
    · rw [hturns.1.rows_list]
      exact hsame
  exact hdone.2.2

theorem syncs_syncTasks (stale : List String) : ∀ t ∈ syncTasks h owner stale, t.Syncs := by
  intro t ht
  rcases List.mem_append.mp ht with ht | ht
  · obtain ⟨m, -, rfl⟩ := List.mem_map.mp ht
    trivial
  · rcases List.mem_cons.mp ht with rfl | ht
    · trivial
    · obtain ⟨id, -, rfl⟩ := List.mem_map.mp ht
      trivial

/-- Refreshes of stored messages leave the rows of all others alone. -/
theorem Governed.refreshed (hg : Governed g h room) (hids : ∀ id ∈ ids, id ∈ h.ids) :
    Served g h ⟨(· ∈ h.ids), fun _ => True⟩ room (room.done (ids.map .refresh)) := by
  refine hg.done fun t ht => ?_
  obtain ⟨id, hid, rfl⟩ := List.mem_map.mp ht
  exact ⟨trivial, fun i hi => hi ▸ hids id hid, fun _ _ => trivial⟩

theorem Governed.ownerId_eq (hg : Governed g h room) (hm : m ∈ h.messages)
    (howner : g.message m.id = some owner) : m.ownerId = owner :=
  Option.some.inj ((hg.covers.messages m hm).symm.trans howner)

/-- No stale id is stored, for another owner or at all. -/
theorem Governed.not_mem_ids (hg : Governed g h room)
    (hid : id ∈ staleIds h owner room.replica.rows) : id ∉ h.ids := by
  obtain ⟨⟨row, hrow, howner, rfl⟩, hnone⟩ := mem_staleIds.mp hid
  intro hmem
  obtain ⟨m, hm, hmid⟩ := Holdings.mem_ids.mp hmem
  refine hnone m hm (hg.ownerId_eq hm ?_) hmid
  rw [hmid, hg.parted.messages row hrow, howner]

theorem ids_mailbox : ∀ id ∈ (h.mailbox owner).map Message.id, id ∈ h.ids := by
  intro id hid
  obtain ⟨m, hm, rfl⟩ := List.mem_map.mp hid
  exact Holdings.mem_ids.mpr ⟨m, (Holdings.mem_mailbox.mp hm).1, rfl⟩

/-- The owner's rows for which the store has no message. -/
def lostRows (h : Holdings) (owner : String) (R : Rows) : List Row :=
  R.messages.filter fun row => row.ownerId == owner && !h.ids.contains row.id

theorem mem_lostRows {row : Row} :
    row ∈ lostRows h owner R ↔ row ∈ R.messages ∧ row.ownerId = owner ∧ row.id ∉ h.ids := by
  simp [lostRows]

theorem nodup_staleIds (hk : R.Kept h) : (staleIds h owner R).Nodup := by
  refine List.Nodup.filter _ ((sortBy_perm _).nodup_iff.mpr ?_)
  exact hk.ids.sublist (List.filter_sublist.map _)

variable {report : Report} {stale : List String}

/-- What is stale after the mailbox was refreshed are the rows that were lost before. -/
theorem Synced.length_stale (hsync : Synced h owner room report mid stale room')
    (hg : Governed g h mid) : stale.length = (lostRows h owner room.replica.rows).length := by
  have hserved : Served g h ⟨(· ∈ h.ids), fun _ => True⟩ mid (mid.done (mailboxTasks h owner)) :=
    mailboxTasks_eq (h := h) ▸ hg.refreshed ids_mailbox
  have hg' : Governed g h (mid.done (mailboxTasks h owner)) := hserved.governed
  have hnodup : ((lostRows h owner room.replica.rows).map Row.id).Nodup := by
    rw [← hsync.begun.replica]
    exact hg.kept.ids.sublist (List.filter_sublist.map _)
  have hperm : stale.Perm ((lostRows h owner room.replica.rows).map Row.id) := by
    rw [hsync.found]
    refine (List.perm_ext_iff_of_nodup (nodup_staleIds hg'.kept) hnodup).mpr fun id => ?_
    rw [← hsync.begun.replica, List.mem_map]
    constructor
    · intro hid
      have hlost : id ∉ h.ids := hg'.not_mem_ids hid
      obtain ⟨⟨row, hrow, howner, rfl⟩, -⟩ := mem_staleIds.mp hid
      exact ⟨row, mem_lostRows.mpr ⟨(hserved.beyond.messages row hlost).mp hrow, howner, hlost⟩, rfl⟩
    · rintro ⟨row, hrow, rfl⟩
      obtain ⟨hrow, howner, hlost⟩ := mem_lostRows.mp hrow
      refine mem_staleIds.mpr ⟨⟨row, (hserved.beyond.messages row hlost).mpr hrow, howner, rfl⟩, ?_⟩
      exact fun m hm _ hid => hlost (Holdings.mem_ids.mpr ⟨m, hm, hid⟩)
  rw [hperm.length_eq, List.length_map]

theorem Synced.report_eq (hsync : Synced h owner room report mid stale room')
    (hg : Governed g h mid) :
    report = ⟨(h.mailbox owner).length, (lostRows h owner room.replica.rows).length, 0⟩ := by
  have hg' : Governed g h (mid.done (mailboxTasks h owner)) :=
    mailboxTasks_eq (h := h) ▸ (hg.refreshed ids_mailbox).governed
  have hkept : ((h.mailbox owner).map Message.id).map (fun id => Except.ok (refreshed h id)) =
      List.replicate (h.mailbox owner).length (.ok Refreshed.copied : Except Failure Refreshed) := by
    refine List.eq_replicate_iff.mpr ⟨by simp, fun r hr => ?_⟩
    obtain ⟨id, hid, rfl⟩ := List.mem_map.mp hr
    rw [refreshed, if_pos (ids_mailbox id hid)]
  have hdropped : stale.map (fun id => Except.ok (refreshed h id)) =
      List.replicate stale.length (.ok Refreshed.removed : Except Failure Refreshed) := by
    refine List.eq_replicate_iff.mpr ⟨by simp, fun r hr => ?_⟩
    obtain ⟨id, hid, rfl⟩ := List.mem_map.mp hr
    rw [refreshed, if_neg (hg'.not_mem_ids (hsync.found ▸ hid))]
  rw [hsync.told, List.map_append, hkept, hdropped, ← hsync.length_stale hg]
  simp [Report.ofResults, List.countP_replicate]

theorem Synced.serves (hsync : Synced h owner room report mid stale room')
    (hg : Governed g h mid) : ∀ t ∈ syncTasks h owner stale, t.Serves g h owner := by
  have hmailbox : ∀ t ∈ mailboxTasks h owner, t.Serves g h owner := serves_mailboxTasks hg.covers
  intro t ht
  rcases List.mem_append.mp ht with ht | ht
  · exact hmailbox t ht
  · rcases List.mem_cons.mp ht with rfl | ht
    · trivial
    · obtain ⟨id, hid, rfl⟩ := List.mem_map.mp ht
      rw [hsync.found] at hid
      obtain ⟨⟨row, hrow, rfl, rfl⟩, -⟩ := mem_staleIds.mp hid
      exact (hg.serves hmailbox).governed.parted.messages row hrow

theorem Synced.governed (hsync : Synced h owner room report mid stale room')
    (hg : Governed g h mid) : Governed g h room' := by
  rw [hsync.done]
  refine (hg.done (s := everything) fun t ht => ⟨?_, fun _ _ => trivial, fun _ _ => trivial⟩).governed
  cases t with
  | refresh id => trivial
  | list owner => trivial
  | _ => exact (syncs_syncTasks stale _ ht).elim

theorem Synced.complete (hsync : Synced h owner room report mid stale room')
    (hg : Governed g h mid) (ht : Tended h mid) (hs : mid.replica.Sound) :
    room'.replica.rows.Complete h owner := by
  have htasks : ∀ t ∈ syncTasks h owner stale, t.Syncs := syncs_syncTasks stale
  rw [hsync.done]
  refine ⟨fun m hm howner => ht.mirrors_synced hs htasks hm (.inr ?_), fun row hrow howner => ?_⟩
  · exact List.mem_append_left _
      (List.mem_map_of_mem (f := fun m => Task.refresh m.id) (Holdings.mem_mailbox.mpr ⟨hm, howner⟩))
  have hlisted : Governed g h (mid.done (mailboxTasks h owner)) :=
    mailboxTasks_eq (h := h) ▸ (hg.refreshed ids_mailbox).governed
  have htlisted : Tended h (mid.done (mailboxTasks h owner)) :=
    ht.done fun t ht => fits_syncTasks stale t (List.mem_append_left _ ht)
  have hend : Governed g h (mid.done (syncTasks h owner stale)) := hsync.done ▸ hsync.governed hg
  have hmessage : g.message row.id = some owner := howner ▸ hend.parted.messages row hrow
  by_contra hnone
  have hlost : row.id ∉ h.ids := fun hmem => by
    obtain ⟨m, hm, hid⟩ := Holdings.mem_ids.mp hmem
    exact hnone ⟨m, hm, hlisted.ownerId_eq hm (hid ▸ hmessage), hid⟩
  -- The row was there when the replica was listed, so its id is stale and has been dropped since.
  have hstale : row.id ∈ stale := by
    have hgained := hrow
    rw [syncTasks, done_append] at hgained
    obtain ⟨x, hx, hxid⟩ := List.mem_map.mp <|
      (htlisted.gained_done (fun t ht => fits_syncTasks stale t (List.mem_append_right _ ht))
        hgained).resolve_right hlost
    rw [hsync.found, mem_staleIds]
    refine ⟨⟨x, hx, ?_, hxid⟩, fun m hm howner hid => hnone ⟨m, hm, howner, hid⟩⟩
    exact Option.some.inj ((hlisted.parted.messages x hx).symm.trans (hxid ▸ hmessage))
  refine ht.absent_synced hs htasks hlost ?_ row hrow rfl
  exact List.mem_append_right _ (List.mem_cons_of_mem _ (List.mem_map_of_mem hstale))

/-- Of a complete mailbox a synchronization finds nothing stale and changes nothing. -/
theorem Synced.unchanged (hsync : Synced h owner room report mid stale room')
    (hg : Governed g h mid) (ht : Tended h mid) (hs : mid.replica.Sound)
    (hcomplete : room.replica.rows.Complete h owner) :
    lostRows h owner room.replica.rows = [] ∧
      room.replica.rows.Unchanged room'.replica.rows := by
  have hlost : lostRows h owner room.replica.rows = [] := by
    refine List.eq_nil_iff_forall_not_mem.mpr fun row hrow => ?_
    obtain ⟨hrow, howner, hid⟩ := mem_lostRows.mp hrow
    obtain ⟨m, hm, -, hmid⟩ := hcomplete.stored row hrow howner
    exact hid (Holdings.mem_ids.mpr ⟨m, hm, hmid⟩)
  have hstale : stale = [] := by
    rw [← List.length_eq_zero_iff, hsync.length_stale hg, hlost]
    rfl
  refine ⟨hlost, ?_⟩
  rw [hsync.done, hstale, ← hsync.begun.replica]
  rw [← hsync.begun.replica] at hcomplete
  refine ht.unchanged_synced hs fun t ht => ?_
  rcases List.mem_append.mp ht with ht | ht
  · obtain ⟨m, hm, rfl⟩ := List.mem_map.mp ht
    obtain ⟨hm, howner⟩ := Holdings.mem_mailbox.mp hm
    exact .inl ⟨m, hm, rfl, hcomplete.mirrored m hm howner⟩
  · exact .inr ⟨owner, List.mem_singleton.mp ht⟩

end LabelMail.Mailroom
