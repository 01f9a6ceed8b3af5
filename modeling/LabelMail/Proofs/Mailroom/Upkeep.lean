import LabelMail.Proofs.Mailroom.Turns

/-!
What tasks keep up. A stored message is tracked when the replica mirrors it or the backlog has an
entry for it. Tasks that fit the holdings keep tracked messages tracked, whichever of them fail, and
after a refresh the message is tracked in any case.
-/
namespace LabelMail.Mailroom

open Replica (Rows)

variable {σ : Type}

/-- The replica is up to date on the message, or the backlog has an entry for it. -/
def Tracks (h : Holdings) (r : Replica) (b : Backlog) (m : Message) : Prop :=
  r.rows.Mirrors m (h.labelsOf m) ∨ b.holds m.id = true

/-- The task is one that may be left to do for these holdings. -/
def Task.Fits (h : Holdings) : Task → Prop
  | .putLabel l => l ∈ h.labels
  | .deleteLabel id => ∀ l, h.Stands l → l.id ≠ id
  | .sweep ids => ∀ id ∈ ids, id ∉ h.ids
  | _ => True

variable {h : Holdings} {r r' : Replica} {b b' : Backlog} {t : Task} {m : Message} {id : String}
variable {Q : Rows → Prop}

/-- Neither a settled nor a deferred task for another message loses track of this one. -/
theorem Settled.tracks (hdone : Settled id Q b r' b') (hs : Rows.Spares h id r.rows r'.rows)
    (ho : h.Orderly) (hm : m ∈ h.messages) (hne : m.id ≠ id) (htracks : Tracks h r b m) :
    Tracks h r' b' m := by
  rcases htracks with hmir | hpending
  · exact .inl (hs.mirrors ho hm hne hmir)
  · refine .inr ?_
    rw [hdone.backlog, Backlog.holds_resolve, hpending]
    simpa using hne

theorem Deferred.holds (hdone : Deferred id Q r b r' b') (i : String) :
    b'.holds i = (id == i || b.holds i) := by
  obtain ⟨now, owner, labelIds, e, hrecord⟩ := hdone.backlog
  rw [hrecord, Backlog.holds_record]

theorem Deferred.tracks (hdone : Deferred id (Rows.Spares h id r.rows) r b r' b') (ho : h.Orderly)
    (hm : m ∈ h.messages) (htracks : Tracks h r b m) : Tracks h r' b' m := by
  by_cases hid : m.id = id
  · exact .inr (by simp [hdone.holds, hid])
  · rcases htracks with hmir | hpending
    · exact .inl (hdone.rows.mirrors ho hm hid hmir)
    · exact .inr (by simp [hdone.holds, hpending])

theorem Turn.kept (hturn : Turn h r b t r' b') (ho : h.Orderly) (hapart : h.Apart)
    (hfits : t.Fits h) (hk : r.rows.Kept h) : r'.rows.Kept h := by
  induction hturn with
  | copied hfind hdone =>
    obtain ⟨hm, rfl⟩ := Holdings.mem_of_find? hfind
    exact (hdone.rows.spares hk ho hapart hm).kept
  | uncopied hfind hdone => exact hdone.rows.kept
  | removed hid hdone => exact hdone.rows ▸ (Rows.spares_without hk).kept
  | retried hid hturn ih => exact ih trivial
  | replayed hid hdone => exact (hdone.rows.spares hk).kept
  | unreplayed hid hdone => exact hdone.rows.kept
  | labelPut hrows =>
    exact hrows ▸ (Rows.spares_putLabelRow "" hk ho hapart (.inl hfits)).kept
  | labelDeleted hrows => exact hrows ▸ Rows.kept_withoutLabel hk
  | swept hrows => exact hrows ▸ Rows.kept_withoutAll hk
  | unswept hrows hunsound => exact hrows ▸ hk
  | listed hrows => exact hrows ▸ hk
  | refused hrefresh hrows hunsound => exact hrows ▸ hk

/-- After a refresh a stored message is tracked, whether or not the refresh went well. -/
theorem Turn.tracks_refreshed (hturn : Turn h r b (.refresh m.id) r' b') (ho : h.Orderly)
    (hapart : h.Apart) (hk : r.rows.Kept h) (hm : m ∈ h.messages) : Tracks h r' b' m := by
  have hid : m.id ∈ h.ids := Holdings.mem_ids.mpr ⟨m, hm, rfl⟩
  cases hturn with
  | copied hfind hdone =>
    obtain ⟨hm', hid'⟩ := Holdings.mem_of_find? hfind
    obtain rfl := Holdings.eq_of_id ho.ids hm' hm hid'
    exact .inl (hdone.rows.mirrors hk ho hapart hm)
  | uncopied hfind hdone => exact .inr (by simp [hdone.holds])
  | removed hnone hdone => exact absurd hid hnone
  | refused hrefresh hrows hunsound => exact absurd hid (hrefresh m.id rfl)

theorem Turn.tracks (hturn : Turn h r b t r' b') (ho : h.Orderly) (hapart : h.Apart)
    (hfits : t.Fits h) (hk : r.rows.Kept h) (hm : m ∈ h.messages) (htracks : Tracks h r b m) :
    Tracks h r' b' m := by
  have hid : m.id ∈ h.ids := Holdings.mem_ids.mpr ⟨m, hm, rfl⟩
  induction hturn with
  | @copied id x r' b' hfind hdone =>
    obtain ⟨hx, rfl⟩ := Holdings.mem_of_find? hfind
    by_cases hne : m.id = x.id
    · obtain rfl := Holdings.eq_of_id ho.ids hm hx hne
      exact .inl (hdone.rows.mirrors hk ho hapart hm)
    · exact hdone.tracks (hdone.rows.spares hk ho hapart hx) ho hm hne htracks
  | uncopied hfind hdone => exact hdone.tracks ho hm htracks
  | removed hnone hdone =>
    refine hdone.tracks (hdone.rows ▸ Rows.spares_without hk) ho hm ?_ htracks
    exact fun hi => hnone (hi ▸ hid)
  | retried hstored hturn ih => exact ih trivial
  | replayed hnone hdone =>
    exact hdone.tracks (hdone.rows.spares hk) ho hm (fun hi => hnone (hi ▸ hid)) htracks
  | unreplayed hnone hdone => exact hdone.tracks ho hm htracks
  | @labelPut l r' hrows =>
    refine htracks.imp_left fun hmir => ?_
    have hput : Rows.Spares h l.id r.rows r'.rows :=
      hrows ▸ Rows.spares_putLabelRow l.id hk ho hapart (.inl hfits)
    exact ⟨hrows ▸ hmir.row, fun i => by rw [hrows]; exact hmir.links i,
      fun k hk' => hput.names k (ho.stands hm hk') (hmir.names k hk')⟩
  | labelDeleted hrows =>
    refine htracks.imp_left fun hmir => hrows ▸ hmir.withoutLabel fun l hl => ?_
    exact hfits l (ho.stands hm hl)
  | @swept ids r' hrows =>
    have hfree : m.id ∉ ids := fun hi => hfits m.id hi hid
    rcases htracks with hmir | hpending
    · exact .inl (hrows ▸ hmir.withoutAll hk ho hm hfree)
    · exact .inr (by simpa [hpending] using hfree)
  | @unswept ids r' hrows hunsound =>
    have hfree : m.id ∉ ids := fun hi => hfits m.id hi hid
    rcases htracks with hmir | hpending
    · exact .inl (hrows ▸ hmir)
    · exact .inr (by simpa [hpending] using hfree)
  | listed hrows => exact htracks.imp_left fun hmir => hrows ▸ hmir
  | refused hrefresh hrows hunsound => exact htracks.imp_left fun hmir => hrows ▸ hmir

/-- The replica has no row for the message, or the backlog has an entry for it. -/
def Gone (r : Replica) (b : Backlog) (id : String) : Prop :=
  (∀ row ∈ r.rows.messages, row.id ≠ id) ∨ b.holds id = true

/-- A task gains no row but that of a stored message. -/
theorem Turn.gained (hturn : Turn h r b t r' b') (ho : h.Orderly) (hapart : h.Apart)
    (hk : r.rows.Kept h) {row : Row} (hrow : row ∈ r'.rows.messages) :
    row.id ∈ r.rows.messages.map Row.id ∨ row.id ∈ h.ids := by
  have hsame {R : Rows} (hmessages : R.messages = r.rows.messages) (hrow : row ∈ R.messages) :
      row.id ∈ r.rows.messages.map Row.id ∨ row.id ∈ h.ids :=
    .inl (List.mem_map_of_mem (hmessages ▸ hrow))
  induction hturn with
  | copied hfind hdone =>
    obtain ⟨hm, rfl⟩ := Holdings.mem_of_find? hfind
    exact (hdone.rows.spares hk ho hapart hm).gained row hrow
  | uncopied hfind hdone => exact hdone.rows.gained row hrow
  | removed hid hdone =>
    rw [hdone.rows] at hrow
    exact .inl (List.mem_map_of_mem (List.mem_filter.mp hrow).1)
  | retried hid hturn ih => exact ih hrow
  | replayed hid hdone => exact hsame hdone.rows.messages hrow
  | unreplayed hid hdone => exact hdone.rows.gained row hrow
  | labelPut hrows => exact hsame (by rw [hrows]) hrow
  | labelDeleted hrows => exact hsame (by rw [hrows]; rfl) hrow
  | swept hrows =>
    rw [hrows] at hrow
    exact .inl (List.mem_map_of_mem (Rows.mem_withoutAll.mp hrow).1)
  | unswept hrows hunsound => exact hsame (by rw [hrows]) hrow
  | listed hrows => exact hsame (by rw [hrows]) hrow
  | refused hrefresh hrows hunsound => exact hsame (by rw [hrows]) hrow

theorem Turn.absent (hturn : Turn h r b t r' b') (ho : h.Orderly) (hapart : h.Apart)
    (hk : r.rows.Kept h) (hid : id ∉ h.ids) (hnone : ∀ row ∈ r.rows.messages, row.id ≠ id) :
    ∀ row ∈ r'.rows.messages, row.id ≠ id := by
  intro row hrow hi
  rcases hturn.gained ho hapart hk hrow with hmem | hmem
  · obtain ⟨x, hx, hxid⟩ := List.mem_map.mp hmem
    exact hnone x hx (hxid.trans hi)
  · exact hid (hi ▸ hmem)

theorem Settled.gone {i : String} (hdone : Settled i Q b r' b') (hne : id ≠ i)
    (hpending : b.holds id = true) : Gone r' b' id := by
  refine .inr ?_
  rw [hdone.backlog, Backlog.holds_resolve, hpending]
  simpa using hne

/-- What the store lacks is not left in the replica unnoticed, unless its entry in the backlog is
replayed or struck out by a sweep. -/
theorem Turn.gone (hturn : Turn h r b t r' b') (ho : h.Orderly) (hapart : h.Apart)
    (hk : r.rows.Kept h) (hid : id ∉ h.ids)
    (hreplay : ∀ a, t = .retry a → a.messageId = id → ∀ row ∈ r.rows.messages, row.id ≠ id)
    (hsweep : ∀ ids, t = .sweep ids → id ∉ ids) (hgone : Gone r b id) : Gone r' b' id := by
  rcases hgone with hnone | hpending
  · exact .inl (hturn.absent ho hapart hk hid hnone)
  · induction hturn with
    | copied hfind hdone =>
      obtain ⟨hm, rfl⟩ := Holdings.mem_of_find? hfind
      exact hdone.gone (fun hi => hid (Holdings.mem_ids.mpr ⟨_, hm, hi.symm⟩)) hpending
    | uncopied hfind hdone => exact .inr (by simp [hdone.holds, hpending])
    | @removed i r' b' hnone hdone =>
      by_cases hne : id = i
      · refine .inl fun row hrow hi => ?_
        rw [hdone.rows] at hrow
        simp [Rows.without, hi, hne] at hrow
      · exact hdone.gone hne hpending
    | retried hstored hturn ih => exact ih (fun _ ha => by cases ha) (fun _ hi => by cases hi)
    | @replayed a r' b' hnone hdone =>
      by_cases hne : a.messageId = id
      · refine .inl fun row hrow => hreplay a rfl hne row ?_
        rw [← hdone.rows.messages]
        exact hrow
      · exact hdone.gone (Ne.symm hne) hpending
    | unreplayed hnone hdone => exact .inr (by simp [hdone.holds, hpending])
    | labelPut hrows => exact .inr hpending
    | labelDeleted hrows => exact .inr hpending
    | @swept ids _ hrows => exact .inr (by simpa [hpending] using hsweep ids rfl)
    | @unswept ids _ hrows hunsound => exact .inr (by simpa [hpending] using hsweep ids rfl)
    | listed hrows => exact .inr hpending
    | refused hrefresh hrows hunsound => exact .inr hpending

theorem Turn.ascending (hturn : Turn h r b t r' b') (hb : Backlog.Ascending b.arrears) :
    Backlog.Ascending b'.arrears := by
  have hrecorded {i : String} {Q : Rows → Prop} {b' : Backlog} (hdone : Deferred i Q r b r' b') :
      Backlog.Ascending b'.arrears := by
    obtain ⟨now, owner, labelIds, e, rfl⟩ := hdone.backlog
    exact Backlog.ascending_record hb
  induction hturn with
  | copied hfind hdone => exact hdone.backlog ▸ Backlog.ascending_resolve hb
  | uncopied hfind hdone => exact hrecorded hdone
  | removed hid hdone => exact hdone.backlog ▸ Backlog.ascending_resolve hb
  | retried hid hturn ih => exact ih hrecorded
  | replayed hid hdone => exact hdone.backlog ▸ Backlog.ascending_resolve hb
  | unreplayed hid hdone => exact hrecorded hdone
  | labelPut hrows => exact hb
  | labelDeleted hrows => exact hb
  | swept hrows => exact Backlog.ascending_resolveAll hb
  | unswept hrows hunsound => exact Backlog.ascending_resolveAll hb
  | listed hrows => exact hb
  | refused hrefresh hrows hunsound => exact hb

/-- As long as nothing fails, no message is entered in the backlog. -/
theorem Turn.not_holds (hturn : Turn h r b t r' b') (hs : r.Sound) (hb : b.holds id = false) :
    b'.holds id = false := by
  have hsettled {i : String} {Q : Rows → Prop} {b' : Backlog} (hdone : Settled i Q b r' b') :
      b'.holds id = false := by
    rw [hdone.backlog, Backlog.holds_resolve, hb, Bool.false_and]
  induction hturn with
  | copied hfind hdone => exact hsettled hdone
  | uncopied hfind hdone => exact absurd hs hdone.unsound
  | removed hid hdone => exact hsettled hdone
  | retried hid hturn ih => exact ih hsettled
  | replayed hid hdone => exact hsettled hdone
  | unreplayed hid hdone => exact absurd hs hdone.unsound
  | labelPut hrows => exact hb
  | labelDeleted hrows => exact hb
  | swept hrows => rw [Backlog.holds_resolveAll, hb, Bool.false_and]
  | unswept hrows hunsound => exact absurd hs hunsound
  | listed hrows => exact hb
  | refused hrefresh hrows hunsound => exact absurd hs hunsound

variable {room : Mailroom σ} {tasks : List Task}

theorem Tended.run (ht : Tended h room) (hfits : t.Fits h) : Tended h (room.run t) := by
  have hidle : room.primary.Idle (room.run t).primary := (trails_run room t).primary
  exact ⟨ht.shows.idle hidle, ht.orderly, ht.apart, ht.sound.later hidle.toLater,
    (run_turns ht t).1.kept ht.orderly ht.apart hfits ht.kept⟩

/-- What every task keeps, with the tasks that are still to come, holds when all are done. -/
theorem Tended.done_induction {P : List Task → Mailroom σ → Prop} (ht : Tended h room)
    (hfits : ∀ t ∈ tasks, t.Fits h)
    (hstep : ∀ mid t rest, Tended h mid → t.Fits h → Turns h mid t (mid.run t) →
      P (t :: rest) mid → P rest (mid.run t))
    (hP : P tasks room) : P [] (room.done tasks) := by
  induction tasks generalizing room with
  | nil => exact hP
  | cons t tasks ih =>
    have hfirst : t.Fits h := hfits t List.mem_cons_self
    exact ih (ht.run hfirst) (fun u hu => hfits u (List.mem_cons_of_mem t hu))
      (hstep room t tasks ht hfirst (run_turns ht t) hP)

theorem Tended.done (ht : Tended h room) (hfits : ∀ t ∈ tasks, t.Fits h) :
    Tended h (room.done tasks) :=
  ht.done_induction (P := fun _ mid => Tended h mid) hfits
    (fun _ _ _ hmid hfirst _ _ => hmid.run hfirst) ht

theorem Tended.later_done (ht : Tended h room) (hfits : ∀ t ∈ tasks, t.Fits h) :
    room.replica.Later (room.done tasks).replica :=
  ht.done_induction (P := fun _ mid => room.replica.Later mid.replica) hfits
    (fun _ _ _ _ _ hturns hlater => hlater.trans hturns.2) (.refl _)

theorem Tended.ascending_done (ht : Tended h room) (hfits : ∀ t ∈ tasks, t.Fits h)
    (hb : Backlog.Ascending room.backlog.arrears) :
    Backlog.Ascending (room.done tasks).backlog.arrears :=
  ht.done_induction (P := fun _ mid => Backlog.Ascending mid.backlog.arrears) hfits
    (fun _ _ _ _ _ hturns hmid => hturns.1.ascending hmid) hb

/-- After the tasks a message is tracked that was so before or has a refresh among them. -/
theorem Tended.tracks_done (ht : Tended h room) (hfits : ∀ t ∈ tasks, t.Fits h)
    (hm : m ∈ h.messages)
    (htracks : Tracks h room.replica room.backlog m ∨ .refresh m.id ∈ tasks) :
    Tracks h (room.done tasks).replica (room.done tasks).backlog m := by
  let P (rest : List Task) (mid : Mailroom σ) : Prop :=
    Tracks h mid.replica mid.backlog m ∨ .refresh m.id ∈ rest
  have hdone : P [] (room.done tasks) := by
    refine ht.done_induction hfits (fun mid t rest hmid hfirst hturns hP => ?_) htracks
    rcases hP with htracks | hmem
    · exact .inl (hturns.1.tracks hmid.orderly hmid.apart hfirst hmid.kept hm htracks)
    · rcases List.mem_cons.mp hmem with rfl | hmem
      · exact .inl (hturns.1.tracks_refreshed hmid.orderly hmid.apart hmid.kept hm)
      · exact .inr hmem
  exact hdone.resolve_right List.not_mem_nil

theorem Tended.not_holds_done (ht : Tended h room) (hfits : ∀ t ∈ tasks, t.Fits h)
    (hs : room.replica.Sound) (hb : room.backlog.holds id = false) :
    (room.done tasks).backlog.holds id = false := by
  let P (_ : List Task) (mid : Mailroom σ) : Prop :=
    mid.replica.Sound ∧ mid.backlog.holds id = false
  have hdone : P [] (room.done tasks) := by
    refine ht.done_induction hfits (fun mid t rest _ _ hturns hP => ?_) ⟨hs, hb⟩
    exact ⟨hP.1.later hturns.2, hturns.1.not_holds hP.1 hP.2⟩
  exact hdone.2

/-- If nothing fails, what is refreshed is mirrored afterwards. -/
theorem Tended.mirrors_done (ht : Tended h room) (hfits : ∀ t ∈ tasks, t.Fits h)
    (hs : room.replica.Sound) (hb : room.backlog.holds m.id = false) (hm : m ∈ h.messages)
    (hrefresh : .refresh m.id ∈ tasks) :
    (room.done tasks).replica.rows.Mirrors m (h.labelsOf m) := by
  refine (ht.tracks_done hfits hm (.inr hrefresh)).resolve_right fun hheld => ?_
  rw [ht.not_holds_done hfits hs hb] at hheld
  cases hheld

theorem Tended.gained_done (ht : Tended h room) (hfits : ∀ t ∈ tasks, t.Fits h) {row : Row}
    (hrow : row ∈ (room.done tasks).replica.rows.messages) :
    row.id ∈ room.replica.rows.messages.map Row.id ∨ row.id ∈ h.ids := by
  let P (_ : List Task) (mid : Mailroom σ) : Prop :=
    ∀ row ∈ mid.replica.rows.messages,
      row.id ∈ room.replica.rows.messages.map Row.id ∨ row.id ∈ h.ids
  have hdone : P [] (room.done tasks) := by
    refine ht.done_induction hfits (fun mid t rest hmid _ hturns hP row hrow => ?_)
      fun row hrow => .inl (List.mem_map_of_mem hrow)
    rcases hturns.1.gained hmid.orderly hmid.apart hmid.kept hrow with hmem | hid
    · obtain ⟨x, hx, hxid⟩ := List.mem_map.mp hmem
      exact hxid ▸ hP x hx
    · exact .inr hid
  exact hdone row hrow

theorem Tended.gone_done (ht : Tended h room) (hfits : ∀ t ∈ tasks, t.Fits h) (hid : id ∉ h.ids)
    (hreplay : ∀ a, .retry a ∈ tasks → a.messageId = id →
      ∀ row ∈ room.replica.rows.messages, row.id ≠ id)
    (hsweep : ∀ ids, .sweep ids ∈ tasks → id ∉ ids)
    (hgone : Gone room.replica room.backlog id) :
    Gone (room.done tasks).replica (room.done tasks).backlog id := by
  let P (rest : List Task) (mid : Mailroom σ) : Prop :=
    (∀ a, .retry a ∈ rest → a.messageId = id → ∀ row ∈ mid.replica.rows.messages, row.id ≠ id) ∧
      (∀ ids, .sweep ids ∈ rest → id ∉ ids) ∧ Gone mid.replica mid.backlog id
  have hdone : P [] (room.done tasks) := by
    refine ht.done_induction hfits (fun mid t rest hmid _ hturns hP => ?_)
      ⟨hreplay, hsweep, hgone⟩
    obtain ⟨hreplay, hsweep, hgone⟩ := hP
    refine ⟨fun a ha hi => ?_, fun ids hids => hsweep ids (List.mem_cons_of_mem t hids), ?_⟩
    · exact hturns.1.absent hmid.orderly hmid.apart hmid.kept hid
        (hreplay a (List.mem_cons_of_mem t ha) hi)
    · exact hturns.1.gone hmid.orderly hmid.apart hmid.kept hid
        (fun a ha => hreplay a (ha ▸ List.mem_cons_self))
        (fun ids hids => hsweep ids (hids ▸ List.mem_cons_self)) hgone
  exact hdone.2.2

end LabelMail.Mailroom
