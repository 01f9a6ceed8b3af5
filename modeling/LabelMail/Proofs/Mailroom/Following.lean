import LabelMail.Proofs.Mailroom.Duties

/-!
How the replica follows the primary store along a run. As long as the primary store is sound, every
stored message is tracked after every call, whatever fails in the replica.
-/
namespace LabelMail.Mailroom

open Holdings (Touched)
open Replica (Rows)

variable {σ : Type}

/-- No id is drawn twice, and none is the name of a reserved tag. -/
structure Supply (idAt : Nat → String) : Prop where
  injective : Function.Injective idAt
  unreserved : ∀ n, ∀ t ∈ Tag.reserved, idAt n ≠ t.name

def Drawn (room : Mailroom σ) (id : String) : Prop :=
  ∃ n, n < room.drawn ∧ room.idAt n = id

/-- All ids in use were drawn, and each stored message is tracked. -/
structure Followed (room : Mailroom σ) : Prop where
  tended : Tended room.holdings room
  ids : ∀ id ∈ room.holdings.ids, room.Drawn id
  labelIds : ∀ l ∈ room.holdings.labels, room.Drawn l.id
  rowIds : ∀ row ∈ room.replica.rows.messages, room.Drawn row.id
  ascending : Backlog.Ascending room.backlog.arrears
  tracked : ∀ m ∈ room.holdings.messages, Tracks room.holdings room.replica room.backlog m

/-- Nothing is stored yet, copied, or in the backlog. -/
structure Blank (room : Mailroom σ) : Prop extends room.Vacant where
  rows : room.replica.rows = Rows.empty
  backlog : room.backlog = Backlog.empty

variable {room mid : Mailroom σ} {caller id : String} {acts : List Act}
variable {tasks : List Task} {e : Event}

theorem Vacant.holdings (hv : room.Vacant) : room.holdings = ⟨[], []⟩ := by
  rw [Mailroom.holdings, Primary.Rows.holdings, hv.messages, hv.labels]
  rfl

theorem Blank.followed (hb : room.Blank) (hsound : room.primary.Sound) : room.Followed := by
  have hempty : room.holdings = ⟨[], []⟩ := hb.holdings
  have ho : room.Orderly := hb.orderly
  refine ⟨⟨ho.shows, ho.holdings, ?_, hsound, ⟨?_, ?_, ?_⟩⟩, ?_, ?_, ?_, ?_, ?_⟩
  · rw [hempty]
    exact fun l hl => (List.not_mem_nil hl).elim
  · exact hb.rows ▸ .nil
  · exact hb.rows ▸ .nil
  · rw [hempty]
    exact fun _ _ m hm => (List.not_mem_nil hm).elim
  · rw [hempty]
    exact fun id hid => (List.not_mem_nil hid).elim
  · rw [hempty]
    exact fun l hl => (List.not_mem_nil hl).elim
  · rw [hb.rows]
    exact fun row hrow => (List.not_mem_nil hrow).elim
  · rw [hb.backlog]
    exact .nil
  · rw [hempty]
    exact fun m hm => (List.not_mem_nil hm).elim

theorem Followed.atTime (hf : room.Followed) (now : Int) : (room.atTime now).Followed :=
  ⟨⟨hf.tended.shows, hf.tended.orderly, hf.tended.apart, hf.tended.sound, hf.tended.kept⟩, hf.ids,
    hf.labelIds, hf.rowIds, hf.ascending, hf.tracked⟩

theorem Followed.orderly (hf : room.Followed) : room.Orderly :=
  ⟨hf.tended.shows, hf.tended.orderly⟩

theorem Drawn.ahead (hid : room.Drawn id) (ha : room.Ahead mid) : mid.Drawn id := by
  obtain ⟨n, hn, rfl⟩ := hid
  exact ⟨n, Nat.lt_of_lt_of_le hn ha.drawn, by rw [ha.idAt]⟩

theorem DrawnSince.drawn (hid : DrawnSince room mid id) (ha : room.Ahead mid) : mid.Drawn id := by
  obtain ⟨n, -, hn, rfl⟩ := hid
  exact ⟨n, hn, by rw [ha.idAt]⟩

/-- An id that was drawn since is different from those drawn before. -/
theorem DrawnSince.ne (hid : DrawnSince room mid id) (hsupply : Supply room.idAt) {i : String}
    (hi : room.Drawn i) : i ≠ id := by
  obtain ⟨n, hlow, -, rfl⟩ := hid
  obtain ⟨k, hk, rfl⟩ := hi
  exact fun heq => Nat.not_le_of_lt hk (hsupply.injective heq ▸ hlow)

/-- The state in which the tasks of a call begin. Ids in use were drawn, and what no act has touched
is tracked. -/
theorem Followed.written (hf : room.Followed) (hsupply : Supply room.idAt)
    (hw : Wrote caller room.holdings acts room mid) :
    Tended (room.holdings.after acts) mid ∧
    (∀ id ∈ (room.holdings.after acts).ids, mid.Drawn id) ∧
    (∀ l ∈ (room.holdings.after acts).labels, mid.Drawn l.id) ∧
    ∀ m ∈ (room.holdings.after acts).messages, ¬ Touched m.id room.holdings acts →
      Tracks (room.holdings.after acts) mid.replica mid.backlog m := by
  have ho : (room.holdings.after acts).Orderly := hf.tended.orderly.after hw.legal
  have hlabelIds : ∀ l ∈ (room.holdings.after acts).labels, mid.Drawn l.id := by
    intro l hl
    rcases hw.legal.stemsLabel hl with ⟨k, hk, hid, -⟩ | ⟨hfresh, -⟩
    · exact hid ▸ (hf.labelIds k hk).ahead hw.toAhead
    · exact hfresh.drawn hw.toAhead
  have hids : ∀ m ∈ (room.holdings.after acts).messages, mid.Drawn m.id := by
    intro m hm
    rcases hw.legal.stems hm with ⟨x, hx, hid, -⟩ | hfresh
    · exact hid ▸ (hf.ids x.id (List.mem_map_of_mem hx)).ahead hw.toAhead
    · exact hfresh.drawn hw.toAhead
  refine ⟨⟨hw.shows, ho, fun l hl t ht => ?_, hw.sound hf.tended.sound, ?_⟩, fun id hid => ?_,
    hlabelIds, fun m hm hnot => ?_⟩
  · obtain ⟨n, -, hn⟩ := hlabelIds l hl
    rw [← hn, hw.idAt]
    exact hsupply.unreserved n t ht
  · rw [hw.replica]
    refine ⟨hf.tended.kept.ids, hf.tended.kept.labelIds, fun row hrow m hm hid => ?_⟩
    rcases hw.legal.stems hm with ⟨x, hx, hxid, henvelope⟩ | hfresh
    · rw [← henvelope]
      exact hf.tended.kept.envelopes row hrow x hx (hid.trans hxid.symm)
    · exact absurd hid (hfresh.ne hsupply (hf.rowIds row hrow))
  · obtain ⟨m, hm, rfl⟩ := Holdings.mem_ids.mp hid
    exact hids m hm
  · obtain ⟨hm₀, hlabels⟩ := hf.tended.orderly.untouched_after hw.legal hm hnot
    rw [Tracks, hlabels, hw.replica, hw.backlog]
    exact hf.tracked m hm₀

/-- A call as its acts and tasks, with what is known when the tasks begin. -/
structure Call (room : Mailroom σ) (e : Event) (acts : List Act) (tasks : List Task)
    (mid : Mailroom σ) : Prop where
  wrote : Wrote e.caller room.holdings acts (room.atTime e.now) mid
  due : Owed e.caller room.holdings room.backlog.arrears e.operation acts tasks ∨
    Lapsed e.caller room.holdings room.primary.Sound e.operation acts tasks
  step : room.step e = mid.done tasks
  tended : Tended (room.holdings.after acts) mid
  ids : ∀ id ∈ (room.holdings.after acts).ids, mid.Drawn id
  labelIds : ∀ l ∈ (room.holdings.after acts).labels, mid.Drawn l.id
  tracked : ∀ m ∈ (room.holdings.after acts).messages,
    Tracks (room.holdings.after acts) mid.replica mid.backlog m ∨ .refresh m.id ∈ tasks
  fits : ∀ t ∈ tasks, t.Fits (room.holdings.after acts)

theorem Followed.call (hf : room.Followed) (hsupply : Supply room.idAt) (e : Event) :
    ∃ acts tasks mid, room.Call e acts tasks mid := by
  obtain ⟨acts, tasks, mid, hw, hdue, hstep⟩ := step_halves hf.orderly e
  obtain ⟨htended, hids, hlabelIds, htracked⟩ := (hf.atTime e.now).written hsupply hw
  refine ⟨acts, tasks, mid, hw, hdue, hstep, htended, hids, hlabelIds, fun m hm => ?_, ?_⟩
  · by_cases htouched : Touched m.id room.holdings acts
    · exact .inr (hdue.elim (fun howed => howed.covers htouched) fun hl => hl.covers htouched)
    · exact .inl (htracked m hm htouched)
  · exact hdue.elim (fun howed => howed.fits hw.legal hf.tended.apart) fun hl => hl.fits

theorem Call.holdings (hc : room.Call e acts tasks mid) :
    (room.step e).holdings = room.holdings.after acts := by
  rw [hc.step]
  exact holdings_eq (hc.tended.shows.idle (trails_done mid tasks).primary) hc.tended.orderly

theorem Call.idAt (hc : room.Call e acts tasks mid) : (room.step e).idAt = room.idAt := by
  rw [hc.step, (trails_done mid tasks).idAt, hc.wrote.idAt]
  rfl

theorem Call.drawn (hc : room.Call e acts tasks mid) (hid : mid.Drawn id) :
    (room.step e).Drawn id := by
  have htrails : mid.Trails (mid.done tasks) := trails_done mid tasks
  obtain ⟨n, hn, rfl⟩ := hid
  rw [hc.step]
  exact ⟨n, by rw [htrails.drawn]; exact hn, by rw [htrails.idAt]⟩

theorem Followed.step (hf : room.Followed) (hsupply : Supply room.idAt) (e : Event) :
    (room.step e).Followed := by
  obtain ⟨acts, tasks, mid, hc⟩ := hf.call hsupply e
  refine ⟨?_, fun id hid => ?_, fun l hl => ?_, fun row hrow => ?_, ?_, fun m hm => ?_⟩
  · rw [hc.holdings, hc.step]
    exact hc.tended.done hc.fits
  · rw [hc.holdings] at hid
    exact hc.drawn (hc.ids id hid)
  · rw [hc.holdings] at hl
    exact hc.drawn (hc.labelIds l hl)
  · rw [hc.step] at hrow
    refine hc.drawn ?_
    rcases hc.tended.gained_done hc.fits hrow with hmem | hid
    · obtain ⟨x, hx, hxid⟩ := List.mem_map.mp hmem
      rw [hc.wrote.replica] at hx
      exact hxid ▸ ((hf.atTime e.now).rowIds x hx).ahead hc.wrote.toAhead
    · exact hc.ids row.id hid
  · rw [hc.step]
    refine hc.tended.ascending_done hc.fits ?_
    rw [hc.wrote.backlog]
    exact hf.ascending
  · rw [hc.holdings] at hm ⊢
    rw [hc.step]
    exact hc.tended.tracks_done hc.fits hm (hc.tracked m hm)

theorem Call.later (hc : room.Call e acts tasks mid) :
    room.replica.Later (room.step e).replica := by
  have hlater : mid.replica.Later (mid.done tasks).replica := hc.tended.later_done hc.fits
  rw [hc.wrote.replica] at hlater
  rw [hc.step]
  exact hlater

theorem Followed.after (hf : room.Followed) (hsupply : Supply room.idAt) (events : List Event) :
    (room.after events).Followed ∧ Supply (room.after events).idAt ∧
      room.replica.Later (room.after events).replica := by
  induction events generalizing room with
  | nil => exact ⟨hf, hsupply, .refl _⟩
  | cons e events ih =>
    obtain ⟨acts, tasks, mid, hc⟩ := hf.call hsupply e
    obtain ⟨hf', hsupply', hlater⟩ := ih (hf.step hsupply e) (hc.idAt ▸ hsupply)
    exact ⟨hf', hsupply', hc.later.trans hlater⟩

/-- As long as nothing fails in the replica, no message is entered in the backlog. -/
theorem Followed.not_holds_step (hf : room.Followed) (hsupply : Supply room.idAt)
    (hs : room.replica.Sound) (hb : room.backlog.holds id = false) (e : Event) :
    (room.step e).backlog.holds id = false := by
  obtain ⟨acts, tasks, mid, hc⟩ := hf.call hsupply e
  rw [hc.step]
  refine hc.tended.not_holds_done hc.fits (hc.wrote.replica ▸ hs) ?_
  rw [hc.wrote.backlog]
  exact hb

theorem Followed.not_holds_after (hf : room.Followed) (hsupply : Supply room.idAt)
    (hs : room.replica.Sound) (hb : room.backlog.holds id = false) (events : List Event) :
    (room.after events).backlog.holds id = false := by
  induction events generalizing room with
  | nil => exact hb
  | cons e events ih =>
    obtain ⟨acts, tasks, mid, hc⟩ := hf.call hsupply e
    exact ih (hf.step hsupply e) (hc.idAt ▸ hsupply) (hs.later hc.later)
      (hf.not_holds_step hsupply hs hb e)

/-- Of a stored message the replica has the same, or the backlog has an entry. -/
theorem Followed.copy? (hf : room.Followed) {m : Message} (hm : m ∈ room.holdings.messages) :
    room.replica.rows.copy? m.id = some m ∨ room.backlog.holds m.id = true :=
  (hf.tracked m hm).imp_left fun hmir => hmir.copy? hf.tended.kept hf.tended.orderly hm

theorem supply_sample : Supply sample.idAt where
  injective n k heq := by
    have hlength := congrArg (fun s : String => s.toList.length) heq
    simpa [sample] using hlength
  unreserved n t ht heq := by
    have hhead : (sample.idAt n).toList.head? = some 'u' := by
      simp [sample, List.replicate_succ]
    have hother : ∀ t ∈ Tag.reserved, t.name.toList.head? ≠ some 'u' := by decide
    exact hother t ht (heq ▸ hhead)

theorem blank_sample : sample.Blank := ⟨⟨rfl, rfl⟩, rfl, rfl⟩

theorem sound_sample (events : List Event) :
    (sample.after events).primary.Sound ∧ (sample.after events).replica.Sound := by
  obtain ⟨hf, -, hlater⟩ := (blank_sample.followed fun _ _ _ => rfl).after supply_sample events
  have hs : sample.replica.Sound := fun _ _ _ => rfl
  exact ⟨hf.tended.sound, hs.later hlater⟩

end LabelMail.Mailroom
