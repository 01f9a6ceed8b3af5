import LabelMail.Proofs.Mailroom.Runs

/-!
What the operations that mark several messages count. They return the number of messages that their
batch returns, in which a message stands as often as its id is listed. This is the number of rows
that change just if no message that changes is listed twice. All messages of a mailbox are listed
once each, so that marking all of them always counts right.
-/
namespace LabelMail

/-- How many rows for messages are not as they were. -/
def Primary.Rows.changes (rows rows' : Rows) : Nat :=
  rows'.messages.countP fun r => decide (r ∉ rows.messages)

namespace Mailroom

open Holdings (Batch changed)

variable {σ : Type} {room mid : Mailroom σ} {h h' : Holdings} {e : Event} {f : Failure}
variable {ids : List String} {ms : List Message} {a : Action σ (List Message)}

/-- Rows change where messages do. -/
theorem changes_eq {rows rows' : Primary.Rows} (hs : rows.Shows h) (ho : h.Orderly)
    (hs' : rows'.Shows h') (ho' : h'.Orderly) : rows.changes rows' = (changed h h').length := by
  rw [Primary.Rows.changes, hs'.messages, List.countP_map, changed, List.countP_eq_length_filter]
  refine congrArg List.length (List.filter_congr fun m hm => ?_)
  rw [Function.comp_apply, decide_eq_decide, not_iff_not, hs.messages, List.mem_map]
  constructor
  · rintro ⟨x, hx, hrow⟩
    have hread := congrArg Primary.MessageRow.message hrow
    rw [(ho.storable x hx).stored_message, (ho'.storable m hm).stored_message] at hread
    exact Except.ok.inj hread ▸ hx
  · exact fun hm => ⟨m, hm, rfl⟩

/-- A call answers with the number of these messages and leaves the rows of `mid`. -/
structure Counted (room : Mailroom σ) (e : Event) (ms : List Message) (mid : Mailroom σ) :
    Prop where
  outcome : room.outcome e = some (.count ms.length)
  rows : (room.step e).primary.rows = mid.primary.rows

theorem counted_of_ok
    (hop : perform e.caller e.operation = (.count <$> thenRefreshAll a : Action σ Outcome))
    (ha : a (room.atTime e.now) = .ok ms mid) : Counted room e ms mid := by
  have hdone : Ends (perform e.caller e.operation (room.atTime e.now))
      (fun o room' => o = .count ms.length ∧ mid.primary.Idle room'.primary)
      (fun _ _ => False) := by
    rw [hop]
    refine Ends.map (Ends.bind (Q := fun r mid' => r = ms ∧ mid' = mid) (F := fun _ _ => False)
      ?_ (fun r mid' hr => ?_) fun _ _ he => he)
    · rw [ha]
      exact .of_ok ⟨rfl, rfl⟩
    · obtain ⟨rfl, rfl⟩ := hr
      refine (finishes_refreshAll r r.length mid').mono (fun n _ hn => ?_) fun _ _ he => he
      obtain ⟨rfl, rfl⟩ := hn
      exact ⟨rfl, (trails_done mid' _).primary⟩
  obtain ⟨hok, hnone⟩ := step_of_ends hdone
  cases ho : room.outcome e with
  | none => exact absurd (hnone ho) fun ⟨_, he⟩ => he
  | some o =>
    obtain ⟨rfl, hidle⟩ := hok o ho
    exact ⟨ho, hidle.rows⟩

theorem refused_of_error
    (hop : perform e.caller e.operation = (.count <$> thenRefreshAll a : Action σ Outcome))
    (ha : a (room.atTime e.now) = .error f mid) : room.outcome e = none ∧ room.step e = mid := by
  have hrefused : Ends (perform e.caller e.operation (room.atTime e.now)) (fun _ _ => False)
      (fun _ room' => room' = mid) := by
    rw [hop]
    refine Ends.map (Ends.bind (Q := fun _ _ => False) (F := fun _ mid' => mid' = mid)
      ?_ (fun _ _ hr => hr.elim) fun _ _ he => he)
    rw [ha]
    exact .of_error rfl
  obtain ⟨hok, hnone⟩ := step_of_ends hrefused
  cases ho : room.outcome e with
  | none =>
    obtain ⟨_, hmid⟩ := hnone ho
    exact ⟨rfl, hmid⟩
  | some o => exact (hok o ho).elim

theorem perform_markUnread (caller : String) (hids : ids ≠ []) :
    perform caller (.markUnread ids) =
      (.count <$> thenRefreshAll (setReadMany caller ids false) : Action σ Outcome) := by
  have hempty : ¬ ids.isEmpty = true := fun h => hids (List.isEmpty_iff.mp h)
  rw [perform, markUnread, if_neg hempty]

/-- In every state that a run leaves, whatever failed on the way, a batch returns the messages whose
flag or tag it changes, each as often as its id is listed, and nothing else changes. The number that
the operation answers with is the number of rows that change just if no message is returned twice,
which holds whenever all messages of the caller are marked as read. -/
theorem unread_counts (room : Mailroom σ) (hv : room.Vacant) (events : List Event)
    (caller : String) (now : Int) (ids : List String) :
    let before := room.after events
    Ends (setReadMany caller ids false (before.atTime now))
      (fun ms mid => Batch before.holdings mid.holdings caller ids false ms ∧
        (ms.length = before.primary.rows.changes mid.primary.rows ↔ (ms.map Message.id).Nodup) ∧
        (ids ≠ [] → Counted before ⟨caller, now, .markUnread ids⟩ ms mid))
      (fun _ mid => ¬ before.primary.Sound ∧ mid.holdings = before.holdings ∧
        (ids ≠ [] → before.outcome ⟨caller, now, .markUnread ids⟩ = none ∧
          before.step ⟨caller, now, .markUnread ids⟩ = mid)) ∧
    Ends (setAllRead caller (before.atTime now))
      (fun ms mid => Batch before.holdings mid.holdings caller
          ((before.holdings.mailbox caller).map Message.id) true ms ∧
        (ms.map Message.id).Nodup ∧
        ms.length = before.primary.rows.changes mid.primary.rows ∧
        Counted before ⟨caller, now, .markAllRead⟩ ms mid)
      (fun _ mid => ¬ before.primary.Sound ∧ mid.holdings = before.holdings ∧
        before.outcome ⟨caller, now, .markAllRead⟩ = none ∧
        before.step ⟨caller, now, .markAllRead⟩ = mid) := by
  intro before
  have ho : before.Orderly := hv.orderly.after events
  have hnodup : before.holdings.ids.Nodup := ho.holdings.ids
  have hbatch {ids : List String} {read : Bool} {ms : List Message} {mid : Mailroom σ}
      (hms : ms = ids.filterMap (before.holdings.marked caller read))
      (hw : Wrote caller before.holdings (ms.map .alter) (before.atTime now) mid) :
      Batch before.holdings mid.holdings caller ids read ms ∧
        (ms.length = before.primary.rows.changes mid.primary.rows ↔
          (ms.map Message.id).Nodup) := by
    have ho' : (before.holdings.after (ms.map .alter)).Orderly := ho.holdings.after hw.legal
    have hmid : mid.holdings = Primary.puts before.holdings ms := by
      rw [← after_alter]
      exact holdings_eq hw.shows ho'
    have hb : Batch before.holdings mid.holdings caller ids read ms := by
      rw [hmid, hms]
      exact Holdings.batch_of_puts hnodup ids
    refine ⟨hb, ?_⟩
    rw [changes_eq ho.shows ho.holdings hw.shows ho', ← holdings_eq hw.shows ho']
    exact hb.length_eq_iff hnodup
  have hrest {mid : Mailroom σ} (hmid : Rests before.holdings (before.atTime now) mid) :
      mid.holdings = before.holdings := holdings_eq hmid.shows ho.holdings
  have hs : (before.atTime now).primary.rows.Shows before.holdings := ho.shows
  have hmany : Ends (setReadMany caller ids false (before.atTime now)) _ _ :=
    setReadMany_marks hs ho.holdings ids false
  have hall : Ends (setAllRead caller (before.atTime now)) _ _ := setAllRead_marks hs ho.holdings
  refine ⟨⟨fun ms mid hr => ?_, fun f mid hr => ?_⟩, ⟨fun ms mid hr => ?_, fun f mid hr => ?_⟩⟩
  · obtain ⟨hms, hw⟩ := hmany.ok ms mid hr
    obtain ⟨hb, hlength⟩ := hbatch hms hw
    exact ⟨hb, hlength, fun hids => counted_of_ok (perform_markUnread caller hids) hr⟩
  · obtain ⟨hmid, hunsound⟩ := hmany.error f mid hr
    exact ⟨hunsound, hrest hmid, fun hids => refused_of_error (perform_markUnread caller hids) hr⟩
  · obtain ⟨hms, hw⟩ := hall.ok ms mid hr
    obtain ⟨hb, hlength⟩ := hbatch hms hw
    have honce : (ms.map Message.id).Nodup := by
      rw [hb.returned]
      exact (Holdings.nodup_mailbox hnodup caller).filter _
    exact ⟨hb, honce, hlength.mpr honce, counted_of_ok rfl hr⟩
  · obtain ⟨hmid, hunsound⟩ := hall.error f mid hr
    exact ⟨hunsound, hrest hmid, refused_of_error rfl hr⟩

/-- Bob has read what alice sent him. -/
def readDelivery : List Event :=
  [⟨"alice", 0, .send ⟨some "bob", some "s", some "c"⟩ false⟩, ⟨"bob", 0, .markRead "u" true⟩]

/-- Besides the message that changes, an unknown id and that of alice's copy are listed. -/
theorem unread_counts_listed_once :
    sample.Vacant ∧
    (sample.after readDelivery).outcome ⟨"bob", 0, .markUnread ["x", "u", "uu"]⟩ =
      some (.count 1) ∧
    (sample.after readDelivery).primary.rows.changes
      ((sample.after readDelivery).step ⟨"bob", 0, .markUnread ["x", "u", "uu"]⟩).primary.rows =
      1 := by
  have hv : sample.Vacant := ⟨rfl, rfl⟩
  have hout : (sample.after readDelivery).outcome ⟨"bob", 0, .markUnread ["x", "u", "uu"]⟩ =
      some (.count 1) := by decide +kernel
  refine ⟨hv, hout, ?_⟩
  obtain ⟨hok, herror⟩ :=
    (unread_counts sample hv readDelivery "bob" 0 ["x", "u", "uu"]).1
  cases hr : setReadMany "bob" ["x", "u", "uu"] false ((sample.after readDelivery).atTime 0) with
  | error f mid =>
    have hnone := ((herror f mid hr).2.2 (by decide)).1
    rw [hout] at hnone
    cases hnone
  | ok ms mid =>
    obtain ⟨-, hlength, hcounted⟩ := hok ms mid hr
    obtain ⟨hcount, hrows⟩ := hcounted (by decide)
    have hone : ms.length = 1 := Outcome.count.inj (Option.some.inj (hcount.symm.trans hout))
    obtain ⟨m, rfl⟩ := List.length_eq_one_iff.mp hone
    rw [hrows, ← hlength.mpr (List.nodup_singleton m.id), hone]

/-- A message that is listed twice counts twice. -/
theorem unread_counted_twice :
    (sample.after readDelivery).outcome ⟨"bob", 0, .markUnread ["u", "u"]⟩ = some (.count 2) ∧
    (sample.after readDelivery).primary.rows.changes
      ((sample.after readDelivery).step ⟨"bob", 0, .markUnread ["u", "u"]⟩).primary.rows = 1 := by
  decide +kernel

end Mailroom

end LabelMail
