import LabelMail.Proofs.Mailroom.Following

/-!
Where the replica may differ from the primary store. A stored message of which the replica has no
true copy is in the backlog. A message that the store lacks can be left in the replica unrecorded
only if the replica failed on its removal, or if its entry in the backlog was replayed.
-/
namespace LabelMail.Mailroom

open Replica (Rows)

variable {σ : Type} {room mid : Mailroom σ} {e : Event} {events : List Event} {id : String}
variable {acts : List Act} {tasks : List Task}

/-- What makes a call leave a message in the replica that the store lacks or is about to lose. -/
inductive Strands (id : String) (room : Mailroom σ) (e : Event) : Prop
  | deleted (hop : e.operation = .delete id) (hid : id ∈ room.holdings.ids)
      (hunsound : ¬ room.replica.Sound)
  | swept (hop : e.operation = .clearTrash) (hid : id ∈ trash room.holdings e.caller)
      (hunsound : ¬ room.replica.Sound)
  | replayed (hop : e.operation = .retryPending) (hid : id ∉ room.holdings.ids)
      (hpending : room.backlog.holds id = true)

/-- The replica has the message, but neither the store nor the backlog does. -/
structure Stray (room : Mailroom σ) (id : String) : Prop where
  lost : id ∉ room.holdings.ids
  row : ∃ row ∈ room.replica.rows.messages, row.id = id
  unrecorded : room.backlog.holds id = false

theorem Stray.not_gone (hs : room.Stray id) : ¬ Gone room.replica room.backlog id := by
  rintro (hnone | hpending)
  · obtain ⟨row, hrow, hid⟩ := hs.row
    exact hnone row hrow hid
  · rw [hs.unrecorded] at hpending
    cases hpending

theorem stray_of_not_gone (hid : id ∉ room.holdings.ids)
    (hgone : ¬ Gone room.replica room.backlog id) : room.Stray id := by
  obtain ⟨hrow, hpending⟩ := not_or.mp hgone
  push Not at hrow
  exact ⟨hid, hrow, Bool.eq_false_iff.mpr hpending⟩

theorem Turn.not_sound_of_row {h : Holdings} {r r' : Replica} {b b' : Backlog}
    (hturn : Turn h r b (.refresh id) r' b') (hid : id ∉ h.ids)
    (hrow : ∃ row ∈ r'.rows.messages, row.id = id) : ¬ r.Sound := by
  cases hturn with
  | copied hfind hdone => exact absurd (Holdings.mem_ids.mpr ⟨_, Holdings.mem_of_find? hfind⟩) hid
  | uncopied hfind hdone => exact hdone.unsound
  | removed hnone hdone =>
    obtain ⟨row, hmem, hrowid⟩ := hrow
    rw [hdone.rows] at hmem
    simp [Rows.without, hrowid] at hmem
  | refused hrefresh hrows hunsound => exact hunsound

theorem Turn.not_sound_of_swept {h : Holdings} {r r' : Replica} {b b' : Backlog}
    {ids : List String} (hturn : Turn h r b (.sweep ids) r' b') (hid : id ∈ ids)
    (hrow : ∃ row ∈ r'.rows.messages, row.id = id) : ¬ r.Sound := by
  cases hturn with
  | swept hrows =>
    obtain ⟨row, hmem, hrowid⟩ := hrow
    rw [hrows] at hmem
    exact absurd (hrowid ▸ hid) (Rows.mem_withoutAll.mp hmem).2
  | unswept hrows hunsound => exact hunsound
  | refused hrefresh hrows hunsound => exact hunsound

/-- A call that loses a stored message without a trace in the backlog removed it, and the replica
failed to follow. -/
theorem Call.strands_of_mem (hc : room.Call e acts tasks mid) (hid : id ∈ room.holdings.ids)
    (hs : (room.step e).Stray id) : Strands id room e := by
  have hlost : id ∉ (room.holdings.after acts).ids := hc.holdings ▸ hs.lost
  have hacts : .discard id ∈ acts := by
    by_contra hnot
    exact hlost (Holdings.mem_ids_after hid hnot)
  have hsame : room.replica.Sound → mid.replica.Sound := fun hsound =>
    hc.wrote.replica ▸ hsound
  have hrow := hs.row
  rw [hc.step] at hrow
  rcases hc.due with howed | hlapsed
  · rcases howed.discarded hacts with ⟨hop, rfl⟩ | ⟨hop, htrash, rfl⟩
    · have hturn := (run_turns hc.tended (.refresh id)).1
      exact .deleted hop hid fun hsound => hturn.not_sound_of_row hlost hrow (hsame hsound)
    · have hturn := (run_turns hc.tended (.sweep (trash room.holdings e.caller))).1
      exact .swept hop htrash fun hsound => hturn.not_sound_of_swept htrash hrow (hsame hsound)
  · exact absurd hacts hlapsed.not_discarded

/-- A message that the store lacks already becomes a stray by a replay only. -/
theorem Call.strands_of_gone (hc : room.Call e acts tasks mid) (hid : id ∉ room.holdings.ids)
    (hgone : Gone room.replica room.backlog id) (hs : (room.step e).Stray id) :
    Strands id room e := by
  have hlost : id ∉ (room.holdings.after acts).ids := hc.holdings ▸ hs.lost
  by_contra hnot
  refine hs.not_gone ?_
  rw [hc.step]
  refine hc.tended.gone_done hc.fits hlost (fun a ha hi row hrow hrowid => hnot ?_)
    (fun ids hids hmem => ?_) (by rw [hc.wrote.replica, hc.wrote.backlog]; exact hgone)
  · rcases hc.due with howed | hlapsed
    · obtain ⟨hop, harrear⟩ := (howed.mem_tasks ha).1 a rfl
      exact .replayed hop hid (List.any_eq_true.mpr ⟨a, harrear, by simpa using hi⟩)
    · exact absurd rfl ((hlapsed.mem_tasks ha).1 a)
  · rcases hc.due with howed | hlapsed
    · rw [(howed.mem_tasks hids).2 ids rfl, mem_trash] at hmem
      obtain ⟨m, hm, hmid, -⟩ := hmem
      exact hid (Holdings.mem_ids.mpr ⟨m, hm, hmid⟩)
    · exact absurd rfl ((hlapsed.mem_tasks hids).2 ids)

/-- Every stray was left by an earlier call. -/
theorem Blank.stray (hb : room.Blank) (hsound : room.primary.Sound) (hsupply : Supply room.idAt)
    (hs : (room.after events).Stray id) :
    ∃ before e rest, events = before ++ e :: rest ∧ Strands id (room.after before) e ∧
      (room.after (before ++ [e])).Stray id := by
  induction events using List.reverseRec with
  | nil =>
    obtain ⟨row, hrow, -⟩ := hs.row
    rw [after, List.foldl_nil, hb.rows] at hrow
    exact (List.not_mem_nil hrow).elim
  | append_singleton events e ih =>
    obtain ⟨hf, hsupply', -⟩ := (hb.followed hsound).after hsupply events
    obtain ⟨acts, tasks, mid, hc⟩ := hf.call hsupply' e
    have hstep : ((room.after events).step e).Stray id := by
      rw [after_concat] at hs
      exact hs
    by_cases hstray : (room.after events).Stray id
    · obtain ⟨before, e₀, rest, rfl, hstrands⟩ := ih hstray
      exact ⟨before, e₀, rest ++ [e], by simp, hstrands⟩
    · refine ⟨events, e, [], rfl, ?_, hs⟩
      by_cases hid : id ∈ (room.after events).holdings.ids
      · exact hc.strands_of_mem hid hstep
      · refine hc.strands_of_gone hid ?_ hstep
        by_contra hgone
        exact hstray (stray_of_not_gone hid hgone)

/-- The sample mailroom with a replica that refuses to make a write. -/
def refusing (w : Replica.Write) : Mailroom Unit :=
  { sample with
    replica := ⟨⟨Rows.empty, fun _ ws => if w ∈ ws then some .broken else none, 0⟩, 0⟩ }

theorem blank_refusing (w : Replica.Write) : (refusing w).Blank := ⟨⟨rfl, rfl⟩, rfl, rfl⟩

/-- After any run, a message of which store and replica do not have the same copy is in the backlog,
or the store lacks it and an earlier call left it in the replica. -/
theorem pending_of_divergence (room : Mailroom σ) (hb : room.Blank) (hsound : room.primary.Sound)
    (hsupply : Supply room.idAt) (events : List Event) (id : String)
    (hdiffer : (room.after events).replica.rows.copy? id ≠ (room.after events).holdings.find? id) :
    (room.after events).backlog.holds id = true ∨
      (id ∉ (room.after events).holdings.ids ∧
        ∃ before e rest, events = before ++ e :: rest ∧ Strands id (room.after before) e ∧
          (room.after (before ++ [e])).Stray id) := by
  obtain ⟨hf, -⟩ := (hb.followed hsound).after hsupply events
  cases hfind : (room.after events).holdings.find? id with
  | some m =>
    obtain ⟨hm, rfl⟩ := Holdings.mem_of_find? hfind
    rcases hf.copy? hm with hcopy | hpending
    · exact absurd (hcopy.trans hfind.symm) hdiffer
    · exact .inl hpending
  | none =>
    have hid : id ∉ (room.after events).holdings.ids := Holdings.find?_eq_none.mp hfind
    by_cases hgone : Gone (room.after events).replica (room.after events).backlog id
    · rcases hgone with hnone | hpending
      · exact absurd ((Rows.copy?_eq_none.mpr hnone).trans hfind.symm) hdiffer
      · exact .inl hpending
    · exact .inr ⟨hid, hb.stray hsound hsupply (stray_of_not_gone hid hgone)⟩

/-- A delivery that the recipient stars, in a replica that does not link the tag. -/
theorem pending_of_divergence_starred :
    let room := refusing (.insertLink "starred")
    let events : List Event := [⟨"alice", 0, .send ⟨some "bob", some "s", some "c"⟩ false⟩,
      ⟨"bob", 0, .flipStar "u"⟩]
    room.Blank ∧ room.primary.Sound ∧ Supply room.idAt ∧
      (room.after events).replica.rows.copy? "u" ≠ (room.after events).holdings.find? "u" ∧
      ((room.after events).backlog.holds "u" = true ∨
        ("u" ∉ (room.after events).holdings.ids ∧
          ∃ before e rest, events = before ++ e :: rest ∧ Strands "u" (room.after before) e ∧
            (room.after (before ++ [e])).Stray "u")) := by
  intro room events
  have hdiffer : (room.after events).replica.rows.copy? "u" ≠
      (room.after events).holdings.find? "u" := by decide +kernel
  have hsound : room.primary.Sound := fun _ _ _ => rfl
  exact ⟨blank_refusing _, hsound, supply_sample, hdiffer,
    pending_of_divergence room (blank_refusing _) hsound supply_sample events "u" hdiffer⟩

/-- A delivery that the recipient puts into the trash, and a sweep of it. -/
def sweptDelivery : List Event :=
  [⟨"alice", 0, .send ⟨some "bob", some "s", some "c"⟩ false⟩,
    ⟨"bob", 0, .flipTrash "u"⟩,
    ⟨"bob", 0, .clearTrash⟩]

/-- A sweep that the replica does not follow leaves its copy there, and nothing in the backlog. -/
theorem unrecorded_after_sweep :
    (refusing (.deleteMessage "u")).Blank ∧ (refusing (.deleteMessage "u")).primary.Sound ∧
      ((refusing (.deleteMessage "u")).after sweptDelivery).replica.rows.copy? "u" ≠
        ((refusing (.deleteMessage "u")).after sweptDelivery).holdings.find? "u" ∧
      ((refusing (.deleteMessage "u")).after sweptDelivery).backlog.holds "u" = false := by
  refine ⟨blank_refusing _, fun _ _ _ => rfl, ?_, ?_⟩
  · decide +kernel
  · decide +kernel

end LabelMail.Mailroom
