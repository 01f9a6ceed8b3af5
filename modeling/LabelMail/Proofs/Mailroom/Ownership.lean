import LabelMail.Proofs.Mailroom.Following
import LabelMail.Proofs.Mailroom.Strokes

/-!
Ownership along runs. Whatever fails, there are owners for all ids in use such that store, replica
and backlog are as they say; a call gives owners to new ids and takes none away.
-/
namespace LabelMail

namespace Owners

variable {g g' : Owners} {h : Holdings} {id owner : String}

theorem Extends.records {a : Arrear} (he : g.Extends g') (ha : g.Records a) : g'.Records a :=
  ⟨he.message ha.message, fun i hi => he.allows (ha.labels i hi)⟩

/-- The owners when ids that have none get theirs from the holdings. -/
def enroll (g : Owners) (h : Holdings) (hapart : h.Apart) : Owners where
  message id := (g.message id).or ((h.find? id).map Message.ownerId)
  label id := (g.label id).or ((h.labels.find? (·.id == id)).map Label.ownerId)
  unreserved t ht := by
    have hnone : h.labels.find? (·.id == t.name) = none :=
      List.find?_eq_none.mpr fun l hl => by simpa using hapart l hl t ht
    rw [g.unreserved t ht, hnone]
    rfl

theorem extends_enroll (hapart : h.Apart) : g.Extends (g.enroll h hapart) where
  message hid := by simp [enroll, hid]
  label hid := by simp [enroll, hid]

theorem covers_enroll (ho : h.Orderly) (hapart : h.Apart)
    (hmessages : ∀ m ∈ h.messages, g.message m.id = none ∨ g.message m.id = some m.ownerId)
    (hlabels : ∀ l ∈ h.labels, g.label l.id = none ∨ g.label l.id = some l.ownerId) :
    (g.enroll h hapart).Covers h := by
  refine ⟨fun m hm => ?_, fun l hl => ?_⟩
  · rcases hmessages m hm with hnone | hsome
    · cases hfind : h.find? m.id with
      | none => exact absurd (Holdings.mem_ids.mpr ⟨m, hm, rfl⟩) (Holdings.find?_eq_none.mp hfind)
      | some x =>
        obtain ⟨hx, hid⟩ := Holdings.mem_of_find? hfind
        obtain rfl := Holdings.eq_of_id ho.ids hx hm hid
        simp [enroll, hnone, hfind]
    · simp [enroll, hsome]
  · rcases hlabels l hl with hnone | hsome
    · cases hfind : h.labels.find? (·.id == l.id) with
      | none => exact absurd (List.find?_eq_none.mp hfind l hl) (by simp)
      | some k =>
        have hid : k.id = l.id := by simpa using List.find?_some hfind
        obtain rfl := ho.eq_of_labelId (List.mem_of_find?_eq_some hfind) hl hid
        simp [enroll, hnone, hfind]
    · simp [enroll, hsome]

theorem message_enroll {hapart : h.Apart} (hid : (g.enroll h hapart).message id = some owner) :
    g.message id = some owner ∨ id ∈ h.ids := by
  cases hg : g.message id with
  | some o =>
    simp only [enroll, hg] at hid
    exact .inl hid
  | none =>
    cases hfind : h.find? id with
    | none => simp [enroll, hg, hfind] at hid
    | some m => exact .inr (Holdings.mem_ids.mpr ⟨m, Holdings.mem_of_find? hfind⟩)

theorem label_enroll {hapart : h.Apart} (hid : (g.enroll h hapart).label id = some owner) :
    g.label id = some owner ∨ ∃ l ∈ h.labels, l.id = id := by
  cases hg : g.label id with
  | some o =>
    simp only [enroll, hg] at hid
    exact .inl hid
  | none =>
    cases hfind : h.labels.find? (·.id == id) with
    | none => simp [enroll, hg, hfind] at hid
    | some l =>
      exact .inr ⟨l, List.mem_of_find?_eq_some hfind, by simpa using List.find?_some hfind⟩

end Owners

namespace Mailroom

open Replica (Rows Scope)

variable {σ : Type} {g g' : Owners} {h : Holdings} {s : Scope} {room mid : Mailroom σ}
variable {caller id owner i : String} {acts : List Act} {tasks : List Task} {t : Task} {e : Event}
variable {op : Operation} {arrears : List Arrear}

/-- The primary store shows the holdings, all is as the owners say, and what has an owner was
drawn. -/
structure Governed (g : Owners) (h : Holdings) (room : Mailroom σ) : Prop where
  shows : room.primary.rows.Shows h
  orderly : h.Orderly
  covers : g.Covers h
  kept : room.replica.rows.Kept h
  parted : room.replica.rows.Parted g
  records : ∀ a ∈ room.backlog.arrears, g.Records a
  drawn : ∀ {id owner}, g.message id = some owner → room.Drawn id
  labelDrawn : ∀ {id owner}, g.label id = some owner → room.Drawn id

/-- What was done to the replica kept within the scope, and all is still as the owners say. -/
structure Served (g : Owners) (h : Holdings) (s : Scope) (room room' : Mailroom σ) : Prop where
  governed : Governed g h room'
  beyond : Rows.Beyond s room.replica.rows room'.replica.rows
  later : room.replica.Later room'.replica

theorem Served.trans {room' : Mailroom σ} (hs : Served g h s room mid)
    (hs' : Served g h s mid room') : Served g h s room room' :=
  ⟨hs'.governed, hs.beyond.trans hs'.beyond, hs.later.trans hs'.later⟩

theorem Governed.run (hg : Governed g h room) (ht : t.Owned g h) (hle : t.scope g h ≤ s) :
    Served g h s room (room.run t) := by
  have hwithin : Within g h s room (room.run t) :=
    (run_within hg.shows hg.orderly hg.covers ht).mono hle
  have htrails : room.Trails (room.run t) := trails_run room t
  obtain ⟨hk, hp, hb⟩ := hwithin.rows.ends hg.orderly hg.covers hg.kept hg.parted
  have hdrawn {id : String} (hid : room.Drawn id) : (room.run t).Drawn id := by
    obtain ⟨n, hn, rfl⟩ := hid
    exact ⟨n, by rw [htrails.drawn]; exact hn, by rw [htrails.idAt]⟩
  refine ⟨⟨hg.shows.idle htrails.primary, hg.orderly, hg.covers, hk, hp, fun a ha => ?_,
    fun hid => hdrawn (hg.drawn hid), fun hid => hdrawn (hg.labelDrawn hid)⟩, hb, hwithin.later⟩
  exact (hwithin.backlog a ha).elim (hg.records a) fun ha => ha

theorem Governed.done (hg : Governed g h room)
    (htasks : ∀ t ∈ tasks, t.Owned g h ∧ t.scope g h ≤ s) :
    Served g h s room (room.done tasks) := by
  induction tasks generalizing room with
  | nil => exact ⟨hg, .refl s _, .refl _⟩
  | cons t tasks ih =>
    obtain ⟨ht, hle⟩ := htasks t List.mem_cons_self
    have hfirst : Served g h s room (room.run t) := hg.run ht hle
    exact hfirst.trans (ih hfirst.governed fun u hu => htasks u (List.mem_cons_of_mem t hu))

theorem Governed.atTime (hg : Governed g h room) (now : Int) : Governed g h (room.atTime now) :=
  ⟨hg.shows, hg.orderly, hg.covers, hg.kept, hg.parted, hg.records, hg.drawn, hg.labelDrawn⟩

/-- A new id has no owner yet. -/
theorem Governed.message_eq_none (hg : Governed g h room) (hsupply : Supply room.idAt)
    (hid : DrawnSince room mid id) : g.message id = none := by
  cases howner : g.message id with
  | none => rfl
  | some o => exact absurd rfl (hid.ne hsupply (hg.drawn howner))

theorem Governed.label_eq_none (hg : Governed g h room) (hsupply : Supply room.idAt)
    (hid : DrawnSince room mid id) : g.label id = none := by
  cases howner : g.label id with
  | none => rfl
  | some o => exact absurd rfl (hid.ne hsupply (hg.labelDrawn howner))

/-- After the acts of a call the new ids have owners as well. -/
theorem Governed.written (hg : Governed g room.holdings room) (hsupply : Supply room.idAt)
    (hw : Wrote caller room.holdings acts room mid) :
    ∃ g', g.Extends g' ∧ Governed g' (room.holdings.after acts) mid := by
  have ho : (room.holdings.after acts).Orderly := hg.orderly.after hw.legal
  have hmessages : ∀ m ∈ (room.holdings.after acts).messages,
      DrawnSince room mid m.id ∨ g.message m.id = some m.ownerId := by
    intro m hm
    rcases hw.legal.stems hm with ⟨x, hx, hid, henvelope⟩ | hfresh
    · have howner : x.ownerId = m.ownerId := congrArg Row.ownerId henvelope
      exact .inr (by rw [← hid, ← howner]; exact hg.covers.messages x hx)
    · exact .inl hfresh
  have hlabels : ∀ l ∈ (room.holdings.after acts).labels,
      DrawnSince room mid l.id ∨ g.label l.id = some l.ownerId := by
    intro l hl
    rcases hw.legal.stemsLabel hl with ⟨k, hk, hid, howner⟩ | ⟨hfresh, -⟩
    · exact .inr (by rw [← hid, ← howner]; exact hg.covers.labels k hk)
    · exact .inl hfresh
  have hapart : (room.holdings.after acts).Apart := by
    intro l hl t ht
    rcases hlabels l hl with ⟨n, -, -, hn⟩ | howner
    · exact hn ▸ hsupply.unreserved n t ht
    · exact Owners.ne_of_label howner ht
  have hextends : g.Extends (g.enroll _ hapart) := Owners.extends_enroll hapart
  refine ⟨g.enroll _ hapart, hextends, hw.shows, ho, Owners.covers_enroll ho hapart
    (fun m hm => (hmessages m hm).imp_left (hg.message_eq_none hsupply))
    (fun l hl => (hlabels l hl).imp_left (hg.label_eq_none hsupply)), ?_, ?_, fun a ha => ?_,
    fun hid => ?_, fun hid => ?_⟩
  · rw [hw.replica]
    refine ⟨hg.kept.ids, hg.kept.labelIds, fun row hrow m hm hid => ?_⟩
    rcases hw.legal.stems hm with ⟨x, hx, hxid, henvelope⟩ | hfresh
    · rw [← henvelope]
      exact hg.kept.envelopes row hrow x hx (hid.trans hxid.symm)
    · exact absurd hid (hfresh.ne hsupply (hg.drawn (hg.parted.messages row hrow)))
  · rw [hw.replica]
    exact hg.parted.extends hextends
  · rw [hw.backlog] at ha
    exact hextends.records (hg.records a ha)
  · rcases Owners.message_enroll hid with hid | hid
    · exact (hg.drawn hid).ahead hw.toAhead
    · obtain ⟨m, hm, rfl⟩ := Holdings.mem_ids.mp hid
      exact (hmessages m hm).elim (fun hfresh => hfresh.drawn hw.toAhead)
        fun howner => (hg.drawn howner).ahead hw.toAhead
  · rcases Owners.label_enroll hid with hid | ⟨l, hl, rfl⟩
    · exact (hg.labelDrawn hid).ahead hw.toAhead
    · exact (hlabels l hl).elim (fun hfresh => hfresh.drawn hw.toAhead)
        fun howner => (hg.labelDrawn howner).ahead hw.toAhead

theorem Owed.mem_labels_of_deleteLabel {fresh : String → Prop}
    (howed : Owed caller h arrears op acts tasks) (hlegal : h.Legal caller fresh acts)
    (ht : .deleteLabel i ∈ tasks) : ∃ l ∈ h.labels, l.id = i ∧ l.ownerId = caller := by
  cases howed with
  | discardedLabel l =>
    obtain ⟨hl, howner⟩ := hlegal.1
    simp only [List.mem_cons, Task.deleteLabel.injEq, List.mem_map, reduceCtorEq, and_false,
      exists_false, or_false] at ht
    exact ⟨l, hl, ht.symm, howner⟩
  | _ => simp at ht

theorem Lapsed.not_deleteLabel {sound : Prop} (hlapsed : Lapsed caller h sound op acts tasks) :
    .deleteLabel i ∉ tasks := by
  cases hlapsed <;> simp

/-- A call as its acts and tasks, with the owners at the time when the tasks begin. -/
structure Ruled (g : Owners) (room : Mailroom σ) (e : Event) (g' : Owners) (acts : List Act)
    (tasks : List Task) (mid : Mailroom σ) : Prop where
  extend : g.Extends g'
  wrote : Wrote e.caller room.holdings acts (room.atTime e.now) mid
  due : Owed e.caller room.holdings room.backlog.arrears e.operation acts tasks ∨
    Lapsed e.caller room.holdings room.primary.Sound e.operation acts tasks
  step : room.step e = mid.done tasks
  governed : Governed g' (room.holdings.after acts) mid
  owned : ∀ t ∈ tasks, t.Owned g' (room.holdings.after acts)

theorem Governed.call (hg : Governed g room.holdings room) (hsupply : Supply room.idAt)
    (e : Event) : ∃ g' acts tasks mid, Ruled g room e g' acts tasks mid := by
  have ho : room.Orderly := ⟨hg.shows, hg.orderly⟩
  obtain ⟨acts, tasks, mid, hw, hdue, hstep⟩ := step_halves ho e
  have hbegun : Governed g (room.atTime e.now).holdings (room.atTime e.now) := hg.atTime e.now
  obtain ⟨g', hextends, hmid⟩ := hbegun.written hsupply hw
  refine ⟨g', acts, tasks, mid, hextends, hw, hdue, hstep, hmid, fun t ht => ?_⟩
  have hfits : t.Fits (room.holdings.after acts) :=
    hdue.elim (fun howed => howed.fits hw.legal hg.covers.apart t ht) fun hl => hl.fits t ht
  cases t with
  | refresh id => trivial
  | sweep ids => trivial
  | list owner => trivial
  | putLabel l => exact hfits
  | retry a =>
    rcases hdue with howed | hlapsed
    · exact hextends.records (hg.records a ((howed.mem_tasks ht).1 a rfl).2)
    · exact absurd rfl ((hlapsed.mem_tasks ht).1 a)
  | deleteLabel i =>
    rcases hdue with howed | hlapsed
    · obtain ⟨l, hl, rfl, -⟩ := howed.mem_labels_of_deleteLabel hw.legal ht
      exact ⟨l.ownerId, hextends.label (hg.covers.labels l hl)⟩
    · exact absurd ht hlapsed.not_deleteLabel

theorem Ruled.holdings (hr : Ruled g room e g' acts tasks mid) :
    (room.step e).holdings = room.holdings.after acts := by
  rw [hr.step]
  exact holdings_eq (hr.governed.shows.idle (trails_done mid tasks).primary) hr.governed.orderly

theorem Ruled.idAt (hr : Ruled g room e g' acts tasks mid) : (room.step e).idAt = room.idAt := by
  rw [hr.step, (trails_done mid tasks).idAt, hr.wrote.idAt]
  rfl

/-- Of all messages and labels. -/
def everything : Scope := ⟨fun _ => True, fun _ => True⟩

theorem Governed.step (hg : Governed g room.holdings room) (hsupply : Supply room.idAt)
    (e : Event) : ∃ g', Governed g' (room.step e).holdings (room.step e) := by
  obtain ⟨g', acts, tasks, mid, hr⟩ := hg.call hsupply e
  refine ⟨g', ?_⟩
  rw [hr.holdings, hr.step]
  exact (hr.governed.done (s := everything) fun t ht =>
    ⟨hr.owned t ht, fun _ _ => trivial, fun _ _ => trivial⟩).governed

theorem Governed.after (hg : Governed g room.holdings room) (hsupply : Supply room.idAt)
    (events : List Event) :
    (∃ g', Governed g' (room.after events).holdings (room.after events)) ∧
      Supply (room.after events).idAt := by
  induction events generalizing room g with
  | nil => exact ⟨⟨g, hg⟩, hsupply⟩
  | cons e events ih =>
    obtain ⟨g', acts, tasks, mid, hr⟩ := hg.call hsupply e
    obtain ⟨g'', hg''⟩ := hg.step hsupply e
    exact ih hg'' (hr.idAt ▸ hsupply)

theorem Blank.governed (hb : room.Blank) : ∃ g, Governed g room.holdings room := by
  have hempty : room.holdings = ⟨[], []⟩ := hb.holdings
  have ho : room.Orderly := hb.orderly
  refine ⟨⟨fun _ => none, fun _ => none, fun _ _ => rfl⟩, ho.shows, ho.holdings, ?_, ?_, ?_, ?_,
    fun hid => (by cases hid), fun hid => (by cases hid)⟩
  · rw [hempty]
    exact ⟨fun _ hm => (List.not_mem_nil hm).elim, fun _ hl => (List.not_mem_nil hl).elim⟩
  · rw [hb.rows]
    exact ⟨.nil, .nil, fun _ hr => (List.not_mem_nil hr).elim⟩
  · rw [hb.rows]
    exact ⟨fun _ hr => (List.not_mem_nil hr).elim, fun _ hl => (List.not_mem_nil hl).elim,
      fun _ hl => (List.not_mem_nil hl).elim, fun _ hl => (List.not_mem_nil hl).elim⟩
  · rw [hb.backlog]
    exact fun _ ha => (List.not_mem_nil ha).elim

end Mailroom

end LabelMail
