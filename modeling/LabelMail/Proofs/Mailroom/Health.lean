import LabelMail.Proofs.Divergence
import LabelMail.Proofs.Replica.LabelTable

/-!
Runs in which nothing fails. The backlog stays empty, no message is left in the replica that the
store lacks, and the label table agrees with the primary store after every call.
-/
namespace LabelMail.Mailroom

open Replica (Rows)

variable {σ : Type}

/-- The task brings about agreement on the labels with this id. -/
def Task.Brings (h : Holdings) (i : String) : Task → Prop
  | .putLabel l => l.id = i
  | .deleteLabel id => id = i
  | .refresh id => ∃ m ∈ h.messages, m.id = id ∧ ∃ l ∈ h.labelsOf m, l.id = i
  | _ => False

section Turns

variable {h : Holdings} {r r' : Replica} {b b' : Backlog} {t : Task} {i : String}

/-- What a task makes of the label table when nothing fails. -/
theorem Turn.agrees (hturn : Turn h r b t r' b') (hs : r.Sound) (ho : h.Orderly) (hapart : h.Apart)
    (hfits : t.Fits h) (hretry : ∀ a, t ≠ .retry a) (hk : r.rows.Kept h) (ha : r.rows.Assigned h) :
    r'.rows.Assigned h ∧ ∀ i, (r.rows.Agrees h i ∨ t.Brings h i) → r'.rows.Agrees h i := by
  have hsame {R : Rows} (hlabels : R.labels = r.rows.labels) (hbrings : ∀ i, ¬ t.Brings h i) :
      R.Assigned h ∧ ∀ i, (r.rows.Agrees h i ∨ t.Brings h i) → R.Agrees h i := by
    refine ⟨ha.of_subset (hlabels ▸ List.Subset.refl _), fun i hi => ?_⟩
    have hagrees : r.rows.Agrees h i := hi.resolve_right (hbrings i)
    exact ⟨hlabels ▸ hagrees.stands, hlabels ▸ hagrees.stored⟩
  cases hturn with
  | @copied id m r' b' hfind hdone =>
    obtain ⟨hm, rfl⟩ := Holdings.mem_of_find? hfind
    have hrow : Rows.Spares h m.id r.rows
        { r.rows with messages := Replica.putRow (.ofMessage m) r.rows.messages } :=
      Rows.spares_putRow hk ho hm
    obtain ⟨hassigned, hagrees⟩ := Rows.putLabelRows_agrees hrow.kept (ha.of_subset
      (List.Subset.refl _)) ho hapart fun l hl => ho.stands hm hl
    have hlabels := hdone.rows.labels_eq hk ho hapart hm
    refine ⟨hassigned.of_subset (hlabels ▸ List.Subset.refl _), fun i hi => ?_⟩
    have hput := hagrees i (hi.imp (fun h => ⟨h.stands, h.stored⟩) fun hbrings => by
      obtain ⟨x, hx, hxm, hxl⟩ := hbrings
      exact Holdings.eq_of_id ho.ids hx hm hxm ▸ hxl)
    exact ⟨hlabels ▸ hput.stands, hlabels ▸ hput.stored⟩
  | uncopied hfind hdone => exact absurd hs hdone.unsound
  | removed hid hdone =>
    refine hsame (by rw [hdone.rows]; rfl) fun i hbrings => ?_
    obtain ⟨m, hm, rfl, -⟩ := hbrings
    exact hid (Holdings.mem_ids.mpr ⟨m, hm, rfl⟩)
  | retried hid hturn => exact absurd rfl (hretry _)
  | replayed hid hdone => exact absurd rfl (hretry _)
  | unreplayed hid hdone => exact absurd rfl (hretry _)
  | labelPut hrows =>
    rw [hrows]
    exact ⟨ha.putLabelRow hk ho hapart (.inl hfits),
      fun i hi => .putLabelRow hk ha ho hapart (.inl hfits) hi⟩
  | labelDeleted hrows =>
    rw [hrows]
    exact ⟨ha.of_subset (List.filter_subset_self _), fun i hi => .withoutLabel hfits hi⟩
  | swept hrows => exact hsame (by rw [hrows, Rows.labels_withoutAll]) fun i hbrings => hbrings
  | unswept hrows hunsound => exact absurd hs hunsound
  | listed hrows => exact hsame (by rw [hrows]) fun i hbrings => hbrings
  | refused hrefresh hrows hunsound => exact absurd hs hunsound

end Turns

variable {room mid : Mailroom σ} {h : Holdings} {tasks : List Task} {acts : List Act} {i : String}
variable {e : Event}

theorem Tended.agrees_done (ht : Tended h room) (hfits : ∀ t ∈ tasks, t.Fits h)
    (hs : room.replica.Sound) (hretry : ∀ a, .retry a ∉ tasks) (ha : room.replica.rows.Assigned h)
    (hbegun : ∀ i, room.replica.rows.Agrees h i ∨ ∃ t ∈ tasks, t.Brings h i) :
    (room.done tasks).replica.rows.Assigned h ∧
      ∀ i, (room.done tasks).replica.rows.Agrees h i := by
  let P (rest : List Task) (mid : Mailroom σ) : Prop :=
    mid.replica.Sound ∧ (∀ a, .retry a ∉ rest) ∧ mid.replica.rows.Assigned h ∧
      ∀ i, mid.replica.rows.Agrees h i ∨ ∃ t ∈ rest, t.Brings h i
  have hdone : P [] (room.done tasks) := by
    refine ht.done_induction hfits (fun mid t rest hmid hfirst hturns hP => ?_)
      ⟨hs, hretry, ha, hbegun⟩
    obtain ⟨hs, hretry, ha, hbegun⟩ := hP
    obtain ⟨hassigned, hagrees⟩ := hturns.1.agrees hs hmid.orderly hmid.apart hfirst
      (fun a hta => hretry a (hta ▸ List.mem_cons_self)) hmid.kept ha
    refine ⟨hs.later hturns.2, fun a hmem => hretry a (List.mem_cons_of_mem t hmem), hassigned,
      fun i => ?_⟩
    rcases hbegun i with hi | ⟨u, hu, hbrings⟩
    · exact .inl (hagrees i (.inl hi))
    · rcases List.mem_cons.mp hu with rfl | hu
      · exact .inl (hagrees i (.inr hbrings))
      · exact .inr ⟨u, hu, hbrings⟩
  exact ⟨hdone.2.2.1, fun i => (hdone.2.2.2 i).resolve_right fun ⟨t, ht, _⟩ => List.not_mem_nil ht⟩

section Duties

variable {caller : String} {arrears : List Arrear} {op : Operation} {fresh : String → Prop}

/-- An act that is about a label comes with a task that brings the label to the replica. -/
theorem Owed.brings (howed : Owed caller h arrears op acts tasks)
    (hlegal : h.Legal caller fresh acts) (ho : h.Orderly) {a : Act} (ha : a ∈ acts)
    (hlabel : a.labelId? = some i) : ∃ t ∈ tasks, t.Brings (h.after acts) i := by
  cases howed with
  | labelled op l m howner hm hcarried hone =>
    rcases List.mem_cons.mp ha with rfl | ha
    · refine ⟨.refresh m.id, List.mem_singleton_self _, m, ?_, rfl, l, ?_, Option.some.inj hlabel⟩
      · obtain ⟨x, hx, -, hedit⟩ := hlegal.2.1
        have hid : m.id ∈ (h.apply (.enterLabel l)).ids :=
          Holdings.mem_ids.mpr ⟨x, hx, congrArg Row.id hedit.envelope.symm⟩
        exact (Holdings.mem_put hid).mpr (.inl rfl)
      · have ho' : (h.after [.enterLabel l, .alter m]).Orderly := ho.after hlegal
        have hl : l ∈ (h.after [.enterLabel l, .alter m]).labels :=
          List.mem_append_right _ List.mem_cons_self
        refine Holdings.mem_labelsOf.mpr ⟨_, hcarried, ?_⟩
        rw [hm, ← howner]
        exact ho'.labelOf_custom hl
    · rw [List.mem_singleton.mp ha] at hlabel
      cases hlabel
  | enteredLabel op l hnone =>
    rw [List.mem_singleton.mp ha] at hlabel
    exact ⟨.putLabel l, List.mem_cons_self, Option.some.inj hlabel⟩
  | renamedLabel l name text =>
    rw [List.mem_singleton.mp ha] at hlabel
    exact ⟨.putLabel { l with name := name }, List.mem_cons_self, Option.some.inj hlabel⟩
  | discardedLabel l =>
    rw [List.mem_singleton.mp ha] at hlabel
    exact ⟨.deleteLabel l.id, List.mem_cons_self, Option.some.inj hlabel⟩
  | entered op ms hnone hown =>
    obtain ⟨m, -, rfl⟩ := List.mem_map.mp ha
    cases hlabel
  | altered op ms hone =>
    obtain ⟨m, -, rfl⟩ := List.mem_map.mp ha
    cases hlabel
  | removed id =>
    rw [List.mem_singleton.mp ha] at hlabel
    cases hlabel
  | swept =>
    obtain ⟨id, -, rfl⟩ := List.mem_map.mp ha
    cases hlabel
  | refreshed op ids hown => cases ha
  | synchronized stale => cases ha
  | retried => cases ha

end Duties

/-- Nothing has failed so far: the backlog is empty and the label table agrees with the store. -/
structure Healthy (room : Mailroom σ) : Prop where
  followed : room.Followed
  sound : room.replica.Sound
  backlog : room.backlog = Backlog.empty
  assigned : room.replica.rows.Assigned room.holdings
  agrees : ∀ i, room.replica.rows.Agrees room.holdings i

theorem Blank.healthy (hb : room.Blank) (hp : room.primary.Sound) (hs : room.replica.Sound) :
    room.Healthy := by
  have hcopied : ∀ l, l ∉ room.replica.rows.labels := by
    rw [hb.rows]
    exact fun l hl => List.not_mem_nil hl
  have hstored : ∀ l, l ∉ room.holdings.labels := by
    rw [hb.holdings]
    exact fun l hl => List.not_mem_nil hl
  exact ⟨hb.followed hp, hs, hb.backlog, fun l hl => absurd hl (hcopied l), fun i =>
    ⟨fun l hl => absurd hl (hcopied l), fun l hl => absurd hl (hstored l)⟩⟩

/-- In the middle of a call the rows still have the owners they should have, though labels may be
missing or have old names. -/
theorem Healthy.assigned_mid (hh : room.Healthy) (hsupply : Supply room.idAt)
    (hc : room.Call e acts tasks mid) : mid.replica.rows.Assigned (room.holdings.after acts) := by
  rw [hc.wrote.replica]
  intro k hk l hl hid
  rcases (hh.agrees k.id).stands k hk rfl with hstored | hshared
  · rcases hl with hl | ⟨t, ht, rfl⟩
    · rcases hc.wrote.legal.stemsLabel hl with ⟨j, hj, hjl, howner⟩ | ⟨hfresh, -⟩
      · rw [hh.followed.tended.orderly.eq_of_labelId hstored hj (hid.trans hjl.symm), howner]
      · exact absurd hid (hfresh.ne hsupply ((hh.followed.atTime e.now).labelIds k hstored))
    · exact absurd hid (hh.followed.tended.apart k hstored t ht)
  · rw [Holdings.Stands.eq_of_id hc.tended.orderly hc.tended.apart (.inr hshared) hl hid]

theorem Healthy.step (hh : room.Healthy) (hsupply : Supply room.idAt) (e : Event) :
    (room.step e).Healthy := by
  obtain ⟨acts, tasks, mid, hc⟩ := hh.followed.call hsupply e
  have hs : mid.replica.Sound := hc.wrote.replica ▸ hh.sound
  have hretry : ∀ a, .retry a ∉ tasks := by
    intro a ha
    rcases hc.due with howed | hlapsed
    · have harrear := ((howed.mem_tasks ha).1 a rfl).2
      rw [hh.backlog] at harrear
      exact List.not_mem_nil harrear
    · exact (hlapsed.mem_tasks ha).1 a rfl
  have hbegun (i : String) : mid.replica.rows.Agrees (room.holdings.after acts) i ∨
      ∃ t ∈ tasks, t.Brings (room.holdings.after acts) i := by
    by_cases habout : ∃ a ∈ acts, a.labelId? = some i
    · obtain ⟨a, ha, hlabel⟩ := habout
      rcases hc.due with howed | hlapsed
      · exact .inr (howed.brings hc.wrote.legal hh.followed.tended.orderly ha hlabel)
      · rw [hlapsed.no_acts hh.followed.tended.sound] at ha
        cases ha
    · have hlabels {l : Label} (hl : l.id = i) :
          l ∈ (room.holdings.after acts).labels ↔ l ∈ room.holdings.labels :=
        Holdings.mem_labels_after fun a ha hlabel => habout ⟨a, ha, hl ▸ hlabel⟩
      have hi : room.replica.rows.Agrees room.holdings i := hh.agrees i
      rw [hc.wrote.replica]
      exact .inl ⟨fun l hl hid => (hi.stands l hl hid).imp_left (hlabels hid).mpr,
        fun l hl hid => hi.stored l ((hlabels hid).mp hl) hid⟩
  obtain ⟨hassigned, hagrees⟩ := hc.tended.agrees_done hc.fits hs hretry
    (hh.assigned_mid hsupply hc) hbegun
  refine ⟨hh.followed.step hsupply e, hh.sound.later hc.later, ?_, ?_, ?_⟩
  · rw [hc.step]
    refine Backlog.eq_empty_of_holds fun i => hc.tended.not_holds_done hc.fits hs ?_
    rw [hc.wrote.backlog]
    exact hh.backlog ▸ rfl
  · rw [hc.holdings, hc.step]
    exact hassigned
  · rw [hc.holdings, hc.step]
    exact hagrees

theorem Healthy.after (hh : room.Healthy) (hsupply : Supply room.idAt) (events : List Event) :
    (room.after events).Healthy := by
  induction events generalizing room with
  | nil => exact hh
  | cons e events ih =>
    obtain ⟨acts, tasks, mid, hc⟩ := hh.followed.call hsupply e
    exact ih (hh.step hsupply e) (hc.idAt ▸ hsupply)

/-- Nothing is left in the replica that the store lacks. -/
theorem Blank.not_stray (hb : room.Blank) (hp : room.primary.Sound) (hs : room.replica.Sound)
    (hsupply : Supply room.idAt) (events : List Event) (id : String) :
    ¬ (room.after events).Stray id := by
  intro hstray
  obtain ⟨before, e, rest, rfl, hstrands, -⟩ := hb.stray hp hsupply hstray
  have hbefore : (room.after before).Healthy := (hb.healthy hp hs).after hsupply before
  cases hstrands with
  | deleted hop hid hunsound => exact hunsound hbefore.sound
  | swept hop hid hunsound => exact hunsound hbefore.sound
  | replayed hop hid hpending =>
    rw [hbefore.backlog] at hpending
    cases hpending

end LabelMail.Mailroom
