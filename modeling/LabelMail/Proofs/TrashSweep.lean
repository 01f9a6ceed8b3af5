import LabelMail.Proofs.LabelRenaming
import LabelMail.Proofs.Mailroom.TaskPairs

/-!
Emptying the trash. What lies in it is listed, deleted in the primary store after a second look at
every message, and then deleted in the replica, with its links. The three lists of ids are the same
as long as nothing fails, so that both counts that come back are the number of messages that lay in
the trash, and a second call finds none. The backlog has no entry for any of them afterwards,
whatever failed before.
-/
namespace LabelMail

/-- The message lies in the trash of this owner. -/
def Message.inTrashOf (owner : String) (m : Message) : Bool :=
  m.ownerId == owner && decide (.trash ∈ m.tags)

namespace Mailroom

open Primary (MessageRow)
open Replica (Rows)

variable {σ : Type} {room mid room' : Mailroom σ} {h : Holdings} {m : Message}
variable {caller owner id : String} {ids : List String} {now : Int}

theorem mem_trash_iff (ho : h.Orderly) (hm : m ∈ h.messages) :
    m.id ∈ trash h owner ↔ m.inTrashOf owner = true := by
  rw [mem_trash, Message.inTrashOf, Bool.and_eq_true, beq_iff_eq, decide_eq_true_iff]
  constructor
  · rintro ⟨x, hx, hid, howner, htrash⟩
    obtain rfl := Holdings.eq_of_id ho.ids hx hm hid
    exact ⟨howner, htrash⟩
  · exact fun hin => ⟨m, hm, rfl, hin⟩

theorem length_trash (h : Holdings) (owner : String) :
    (trash h owner).length = h.messages.countP (Message.inTrashOf owner) := by
  have hmailbox : (h.mailbox owner).Perm (h.messages.filter (·.ownerId == owner)) :=
    sortBy_perm _
  rw [trash, List.length_map, ← List.countP_eq_length_filter, hmailbox.countP_eq,
    List.countP_filter]
  refine List.countP_congr fun m _ => ?_
  rw [Message.inTrashOf, Bool.and_comm]

/-- The holdings without what lay in the owner's trash. -/
theorem after_discard_trash (ho : h.Orderly) (owner : String) :
    h.after ((trash h owner).map .discard) =
      { h with messages := h.messages.filter fun m => !m.inTrashOf owner } := by
  rw [after_discard]
  congr 1
  refine List.filter_congr fun m hm => ?_
  rw [Bool.eq_iff_iff]
  simp [mem_trash_iff ho hm]

/-- The replica's half of the sweep, in a sound replica. -/
theorem sweep_removes (hnodup : ids.Nodup) (room : Mailroom σ) :
    Ends ((do
        let removed := match ← attempt (onReplica (Replica.deleteMessages ids)) with
          | .ok n => n
          | .error _ => 0
        ids.forM resolve
        return ⟨ids.length, removed⟩ : Action σ Sweep) room)
      (fun s room' => room.replica.Sound →
        s.removed = ids.countP (fun id => room.replica.rows.messages.any (·.id == id)) ∧
          room'.replica.rows = room.replica.rows.withoutAll ids)
      (fun _ _ => False) := by
  refine (attempt_ends (onReplica_ends room (Replica.counts_deleteMessages ids))).bind
    (fun res mid hres => ?_) fun _ _ he => he
  refine (resolveAll_ends ids).bind (fun _ room' hroom' => .of_ok ?_) fun _ _ he => he
  rw [state_resolveAll] at hroom'
  subst hroom'
  rcases hres with ⟨n, rfl, r, rfl, ⟨hn, hrows⟩, -⟩ | ⟨e, rfl, r, rfl, -, -, hunsound⟩
  · exact fun _ => ⟨hn hnodup, hrows⟩
  · exact fun hs => absurd hs hunsound

/-- What a sweep makes of both stores. -/
theorem clearTrash_ends (hs : room.primary.rows.Shows h) (ho : h.Orderly) :
    Ends (clearTrash caller room)
      (fun s room' => s.count = (trash h caller).length ∧
        (∃ mid, Wrote caller h ((trash h caller).map .discard) room mid ∧
          room' = mid.done [.sweep (trash h caller)]) ∧
        (room.replica.Sound →
          s.removed = (trash h caller).countP
            (fun id => room.replica.rows.messages.any (·.id == id)) ∧
          room'.replica.rows = room.replica.rows.withoutAll (trash h caller)))
      (fun _ _ => ¬ room.primary.Sound) := by
  refine (sweepTrash_ends hs ho).bind (fun ids mid hids => ?_) fun _ _ he => he.2
  obtain ⟨rfl, hw⟩ := hids
  refine ((finishes_sweep _ mid).both (sweep_removes (nodup_trash ho) mid)).mono
    (fun s room' hdone => ?_) fun _ _ he => he.1.elim
  obtain ⟨⟨hcount, rfl⟩, hremoved⟩ := hdone
  rw [hw.replica] at hremoved
  exact ⟨hcount, ⟨mid, hw, rfl⟩, hremoved⟩

/-- The primary store has lost what lay in the owner's trash, and nothing else in it is different;
the backlog has lost the entries for that, and no others. -/
structure Emptied (owner : String) (room room' : Mailroom σ) : Prop where
  holdings : room'.holdings =
    { room.holdings with messages := room.holdings.messages.filter fun m => !m.inTrashOf owner }
  store : room'.primary.rows = { room.primary.rows with
    messages := (room.holdings.messages.filter fun m => !m.inTrashOf owner).map
      MessageRow.ofMessage }
  backlog : room'.backlog.arrears =
    room.backlog.arrears.filter fun a => decide (a.messageId ∉ trash room.holdings owner)

/-- The replica has lost the rows of these messages with their links, and nothing else. -/
def Forgot (ids : List String) (R R' : Rows) : Prop :=
  R' = { R with
    messages := R.messages.filter fun row => decide (row.id ∉ ids)
    links := R.links.filter fun l => decide (l.messageId ∉ ids) }

theorem backlog_run_sweep (room : Mailroom σ) (ids : List String) :
    (room.run (.sweep ids)).backlog.arrears =
      room.backlog.arrears.filter fun a => decide (a.messageId ∉ ids) := by
  have hreplica : (state (onReplica (Replica.deleteMessages ids) room)).backlog = room.backlog := by
    refine of_state (P := fun mid => mid.backlog = room.backlog)
      ((onReplica_ends room (Replica.leaves_deleteMessages ids)).mono ?_ ?_)
    · rintro _ _ ⟨r, rfl, -⟩
      rfl
    · rintro _ _ ⟨r, rfl, -⟩
      rfl
  rw [run, state_resolveAll, hreplica, Backlog.arrears_resolveAll]
  refine List.filter_congr fun a _ => ?_
  simp

theorem Wrote.emptied (ho : room.Orderly)
    (hw : Wrote owner room.holdings ((trash room.holdings owner).map .discard) (room.atTime now)
      mid)
    (hspared : SparedTables (room.atTime now) (mid.done [.sweep (trash room.holdings owner)])) :
    Emptied owner room (mid.done [.sweep (trash room.holdings owner)]) := by
  have hshows := hw.done_shows [.sweep (trash room.holdings owner)]
  rw [after_discard_trash ho.holdings] at hshows
  refine ⟨?_, ?_, ?_⟩
  · rw [hw.done_holdings ho.holdings, after_discard_trash ho.holdings]
  · calc (mid.done [.sweep (trash room.holdings owner)]).primary.rows
        = ⟨_, _, _, _⟩ := rfl
      _ = _ := by
        rw [hshows.messages, hshows.labels, hspared.primary.users, hspared.primary.blacklist]
        rfl
  · rw [done_cons, done, List.foldl_nil, backlog_run_sweep, hw.backlog]
    rfl

theorem Orderly.sweep_ends (ho : room.Orderly) (owner : String) (now : Int) :
    Ends (perform owner .clearTrash (room.atTime now))
      (fun o room' => ∃ removed,
        o = .sweep ⟨room.holdings.messages.countP (Message.inTrashOf owner), removed⟩ ∧
        Emptied owner room room' ∧
        (room.replica.Sound →
          removed = (trash room.holdings owner).countP
            (fun id => room.replica.rows.messages.any (·.id == id)) ∧
          Forgot (trash room.holdings owner) room.replica.rows room'.replica.rows))
      (fun _ _ => ¬ room.primary.Sound) := by
  have hs : (room.atTime now).primary.rows.Shows room.holdings := ho.shows
  refine Ends.map (((clearTrash_ends hs ho.holdings).both
    (sparing_clearTrash owner (room.atTime now))).mono ?_ fun _ _ he => he.1)
  rintro ⟨count, removed⟩ _ ⟨⟨rfl, ⟨mid, hw, rfl⟩, hremoved⟩, hspared⟩
  refine ⟨removed, by rw [length_trash], hw.emptied ho hspared, fun hsound => ?_⟩
  obtain ⟨hcount, hrows⟩ := hremoved hsound
  exact ⟨hcount, hrows.trans (Rows.withoutAll_eq _ _)⟩

/-- As long as nothing fails, the replica has all that lies in the trash. -/
theorem Even.countP_trash (he : room.Even) (owner : String) :
    (trash room.holdings owner).countP
        (fun id => room.replica.rows.messages.any (·.id == id)) =
      room.holdings.messages.countP (Message.inTrashOf owner) := by
  rw [← length_trash, List.countP_eq_length]
  intro id hid
  obtain ⟨m, hm, rfl, -⟩ := mem_trash.mp hid
  exact List.any_eq_true.mpr ⟨_, (he.mirrors hm).row, beq_self_eq_true _⟩

theorem Even.sweep (he : room.Even) (owner : String) (now : Int) :
    let n := room.holdings.messages.countP (Message.inTrashOf owner)
    room.outcome ⟨owner, now, .clearTrash⟩ = some (.sweep ⟨n, n⟩) ∧
      Emptied owner room (room.step ⟨owner, now, .clearTrash⟩) ∧
      Forgot (trash room.holdings owner) room.replica.rows
        (room.step ⟨owner, now, .clearTrash⟩).replica.rows := by
  intro n
  obtain ⟨hdone, hrefused⟩ := step_of_ends (e := ⟨owner, now, .clearTrash⟩)
    (he.followed.orderly.sweep_ends owner now)
  cases houtcome : room.outcome ⟨owner, now, .clearTrash⟩ with
  | none =>
    obtain ⟨-, hunsound⟩ := hrefused houtcome
    exact absurd he.followed.tended.sound hunsound
  | some o =>
    obtain ⟨removed, rfl, hemptied, hreplica⟩ := hdone o houtcome
    obtain ⟨rfl, hforgot⟩ := hreplica he.sound
    rw [he.countP_trash]
    exact ⟨rfl, hemptied, hforgot⟩

theorem Emptied.countP_eq_zero (h : Emptied owner room room') :
    room'.holdings.messages.countP (Message.inTrashOf owner) = 0 := by
  rw [h.holdings, List.countP_eq_zero]
  intro m hm
  simpa using (List.mem_filter.mp hm).2

/-- In every state that a run leaves, a sweep that goes through takes from the primary store just
what lies in the owner's trash, and from the backlog just the entries for that. If nothing fails it
goes through and takes the same messages from the replica, with their links; both counts are their
number, and a second sweep finds nothing. -/
theorem trash_sweep_exact (room : Mailroom σ) (hb : room.Blank) (hsupply : Supply room.idAt)
    (events : List Event) (owner : String) (now now' : Int) :
    let before := room.after events
    let call : Event := ⟨owner, now, .clearTrash⟩
    let n := before.holdings.messages.countP (Message.inTrashOf owner)
    (∀ o, before.outcome call = some o → Emptied owner before (before.step call) ∧
      ∃ removed, o = .sweep ⟨n, removed⟩) ∧
    (room.primary.Sound → room.replica.Sound →
      before.outcome call = some (.sweep ⟨n, n⟩) ∧
      Emptied owner before (before.step call) ∧
      Forgot (trash before.holdings owner) before.replica.rows (before.step call).replica.rows ∧
      (before.step call).outcome ⟨owner, now', .clearTrash⟩ = some (.sweep ⟨0, 0⟩)) := by
  intro before call n
  have ho : before.Orderly := hb.orderly.after events
  refine ⟨fun o houtcome => ?_, fun hp hs => ?_⟩
  · obtain ⟨removed, rfl, hemptied, -⟩ :=
      (step_of_ends (e := call) (ho.sweep_ends owner now)).1 o houtcome
    exact ⟨hemptied, removed, rfl⟩
  · have he : before.Even := hb.even hp hs hsupply events
    have he' : (before.step call).Even :=
      after_concat ▸ hb.even hp hs hsupply (events ++ [call])
    obtain ⟨houtcome, hemptied, hforgot⟩ := he.sweep owner now
    -- the second sweep is a sweep in a state of the run with one call more
    have hagain := (he'.sweep owner now').1
    rw [hemptied.countP_eq_zero] at hagain
    exact ⟨houtcome, hemptied, hforgot, hagain⟩

/-- Of two deliveries Bob throws away the first, which has a label of his, and Alice throws away her
copy of the second. -/
def discardedDeliveries : List Event :=
  [⟨"alice", 0, .send ⟨some "bob", some "s", some "c"⟩ false⟩,
    ⟨"alice", 0, .send ⟨some "bob", some "s", some "d"⟩ false⟩,
    ⟨"bob", 0, .changeLabel "u" ⟨some "deals", .add⟩⟩,
    ⟨"bob", 0, .flipTrash "u"⟩,
    ⟨"alice", 0, .flipTrash "uuuu"⟩]

/-- Bob's sweep takes his copy of the first from both stores and leaves what Alice has in the
trash. -/
theorem trash_sweep_exact_discarded :
    let before := sample.after discardedDeliveries
    let swept := before.step ⟨"bob", 0, .clearTrash⟩
    sample.Blank ∧ Supply sample.idAt ∧ sample.primary.Sound ∧ sample.replica.Sound ∧
      trash before.holdings "bob" = ["u"] ∧
      (∃ l ∈ before.replica.rows.links, l.messageId = "u") ∧
      before.outcome ⟨"bob", 0, .clearTrash⟩ = some (.sweep ⟨1, 1⟩) ∧
      Emptied "bob" before swept ∧ Forgot ["u"] before.replica.rows swept.replica.rows ∧
      (∃ m ∈ swept.holdings.messages, m.inTrashOf "alice" = true) ∧
      swept.outcome ⟨"bob", 0, .clearTrash⟩ = some (.sweep ⟨0, 0⟩) := by
  intro before swept
  obtain ⟨hp, hs⟩ := sound_sample []
  have htrash : trash before.holdings "bob" = ["u"] := by decide +kernel
  have hlinked : ∃ l ∈ before.replica.rows.links, l.messageId = "u" := by decide +kernel
  have hn : before.holdings.messages.countP (Message.inTrashOf "bob") = 1 := by
    rw [← length_trash, htrash]
    rfl
  obtain ⟨houtcome, hemptied, hforgot, hagain⟩ := (trash_sweep_exact sample blank_sample
    supply_sample discardedDeliveries "bob" 0 0).2 hp hs
  rw [hn] at houtcome
  rw [htrash] at hforgot
  have halice : ∃ m ∈ swept.holdings.messages, m.inTrashOf "alice" = true := by decide +kernel
  exact ⟨blank_sample, supply_sample, hp, hs, htrash, hlinked, houtcome, hemptied, hforgot, halice,
    hagain⟩

end Mailroom

end LabelMail
