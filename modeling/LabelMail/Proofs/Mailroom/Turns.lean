import LabelMail.Proofs.BacklogOrder
import LabelMail.Proofs.Mailroom.Runs
import LabelMail.Proofs.Replica.Linking

/-!
How tasks turn out. While the primary store is sound, a task either does to the replica what it is
for, or the replica was not sound. A message whose copy did not succeed is then in the backlog.
-/
namespace LabelMail.Mailroom

open Replica (Rows Leaves)

variable {σ α : Type}

/-- A task did its work on the replica, and the message is no longer in the backlog. -/
structure Settled (id : String) (Q : Rows → Prop) (b : Backlog) (r' : Replica) (b' : Backlog) :
    Prop where
  rows : Q r'.rows
  backlog : b' = (b.resolve id).1

/-- The replica failed on the way, and the message was entered in the backlog. -/
structure Deferred (id : String) (E : Rows → Prop) (r : Replica) (b : Backlog) (r' : Replica)
    (b' : Backlog) : Prop where
  rows : E r'.rows
  backlog : ∃ now owner labelIds e, b' = b.record now id owner labelIds e
  unsound : ¬ r.Sound

/-- What a task may make of replica and backlog. -/
inductive Turn (h : Holdings) (r : Replica) (b : Backlog) : Task → Replica → Backlog → Prop
  | copied {id : String} {m : Message} {r' : Replica} {b' : Backlog} (hm : h.find? id = some m)
      (hdone : Settled id (Rows.Copied m (h.labelsOf m) r.rows) b r' b') :
      Turn h r b (.refresh id) r' b'
  | uncopied {id : String} {m : Message} {r' : Replica} {b' : Backlog} (hm : h.find? id = some m)
      (hdone : Deferred id (Rows.Spares h id r.rows) r b r' b') : Turn h r b (.refresh id) r' b'
  | removed {id : String} {r' : Replica} {b' : Backlog} (hid : id ∉ h.ids)
      (hdone : Settled id (· = r.rows.without id) b r' b') : Turn h r b (.refresh id) r' b'
  | retried {a : Arrear} {r' : Replica} {b' : Backlog} (hid : a.messageId ∈ h.ids)
      (hturn : Turn h r b (.refresh a.messageId) r' b') : Turn h r b (.retry a) r' b'
  /-- The links that are on record are made for a message that the primary store lacks. -/
  | replayed {a : Arrear} {r' : Replica} {b' : Backlog} (hid : a.messageId ∉ h.ids)
      (hdone : Settled a.messageId (Rows.Relinked a.messageId a.labelIds r.rows) b r' b') :
      Turn h r b (.retry a) r' b'
  | unreplayed {a : Arrear} {r' : Replica} {b' : Backlog} (hid : a.messageId ∉ h.ids)
      (hdone : Deferred a.messageId (Rows.Spares h a.messageId r.rows) r b r' b') :
      Turn h r b (.retry a) r' b'
  | labelPut {l : Label} {r' : Replica}
      (hrows : r'.rows = { r.rows with labels := Replica.putLabelRow l r.rows.labels }) :
      Turn h r b (.putLabel l) r' b
  | labelDeleted {id : String} {r' : Replica} (hrows : r'.rows = r.rows.withoutLabel id) :
      Turn h r b (.deleteLabel id) r' b
  | swept {ids : List String} {r' : Replica} (hrows : r'.rows = r.rows.withoutAll ids) :
      Turn h r b (.sweep ids) r' (b.resolveAll ids)
  | unswept {ids : List String} {r' : Replica} (hrows : r'.rows = r.rows) (hunsound : ¬ r.Sound) :
      Turn h r b (.sweep ids) r' (b.resolveAll ids)
  | listed {owner : String} {r' : Replica} (hrows : r'.rows = r.rows) :
      Turn h r b (.list owner) r' b
  /-- The replica failed before it changed anything. -/
  | refused {t : Task} {r' : Replica} (hrefresh : ∀ id, t = .refresh id → id ∉ h.ids)
      (hrows : r'.rows = r.rows) (hunsound : ¬ r.Sound) : Turn h r b t r' b

/-- The primary store is sound and shows these holdings, and the replica is fit to follow it. -/
structure Tended (h : Holdings) (room : Mailroom σ) : Prop where
  shows : room.primary.rows.Shows h
  orderly : h.Orderly
  apart : h.Apart
  sound : room.primary.Sound
  kept : room.replica.rows.Kept h

variable {room mid : Mailroom σ} {h : Holdings} {m : Message} {id owner : String}
variable {Q : α → Rows → Prop} {E : Rows → Prop} {q : Replica.Query α} {labelIds : List String}

theorem of_state {a : Action σ α} {P : Mailroom σ → Prop}
    (ha : Ends (a room) (fun _ room' => P room') fun _ room' => P room') : P (state (a room)) := by
  cases hr : a room with
  | ok x room' => exact ha.ok x room' hr
  | error e room' => exact ha.error e room' hr

theorem onReplica_ends (room : Mailroom σ) (hq : Leaves room.replica q Q E) :
    Ends (onReplica q room)
      (fun a room' => ∃ r, room' = { room with replica := r } ∧ Q a r.rows ∧ room.replica.Later r)
      (fun _ room' => ∃ r, room' = { room with replica := r } ∧ E r.rows ∧ room.replica.Later r ∧
        ¬ room.replica.Sound) := by
  unfold onReplica
  split
  · next a r hr =>
    obtain ⟨hQ, hl⟩ := hq.ok a r hr
    exact .of_ok ⟨r, rfl, hQ, hl⟩
  · next e r hr =>
    obtain ⟨hE, hl, hs⟩ := hq.error e r hr
    exact .of_error ⟨r, rfl, hE, hl, hs⟩

theorem replaceLinks_ends (room : Mailroom σ) (hk : room.replica.rows.Kept h) (id owner : String)
    (labelIds : List String) :
    Ends (replaceLinks id owner labelIds room)
      (fun _ room' => Settled id (Rows.Relinked id labelIds room.replica.rows) room.backlog
        room'.replica room'.backlog ∧ room.replica.Later room'.replica)
      (fun _ room' => Deferred id (Rows.Spares h id room.replica.rows) room.replica room.backlog
        room'.replica room'.backlog ∧ room.replica.Later room'.replica) := by
  have hrelink := onReplica_ends room (Replica.leaves_relink hk id owner (distinct labelIds))
  refine (attempt_ends hrelink).bind (fun res mid hres => ?_) (fun _ _ he => he.elim)
  rcases hres with ⟨n, rfl, r, rfl, hrows, hl⟩ | ⟨e, rfl, r, rfl, hrows, hl, hs⟩
  · refine .of_ok ⟨⟨⟨hrows.messages, fun l => ?_, hrows.labels, fun hknown => ?_⟩, rfl⟩, hl⟩
    · rw [← mem_distinct (l := labelIds)]
      exact hrows.links l
    · exact hrows.known fun i hi => hknown i (mem_distinct.mp hi)
  · exact .of_error ⟨⟨hrows, ⟨_, _, _, _, rfl⟩, hs⟩, hl⟩

/-- Only the primary store was queried, and its rows are the same. -/
def Queried (room mid : Mailroom σ) : Prop :=
  ∃ db, room.primary.Idle db ∧ mid = { room with primary := db }

theorem Queried.refl (room : Mailroom σ) : Queried room room := ⟨_, .refl _, rfl⟩

theorem labelOfTag_ends (hlabels : room.primary.rows.labels = h.labels) (owner : String) (t : Tag) :
    Ends (labelOfTag owner t room) (fun l mid => l = h.labelOf owner t ∧ Queried room mid)
      (fun _ mid => ¬ room.primary.Sound ∧ Queried room mid) := by
  cases t with
  | custom name =>
    have hfind := onPrimary_ends room (Database.select_ends fun rows : Primary.Rows =>
      rows.labels.find? fun l => l.ownerId == owner && Text.sameName l.name name)
    refine hfind.bind (fun found mid hfound => .of_ok ?_) fun _ mid hfail => ?_
    · obtain ⟨db, ⟨rfl, hi⟩, rfl⟩ := hfound
      rw [hlabels]
      exact ⟨rfl, db, hi, rfl⟩
    · obtain ⟨db, ⟨hi, hs⟩, rfl⟩ := hfail
      exact ⟨hs, db, hi, rfl⟩
  | _ => exact .of_ok ⟨rfl, .refl room⟩

theorem labelsOfTags_ends (hlabels : room.primary.rows.labels = h.labels) (m : Message) :
    Ends (labelsOfTags m room) (fun ls mid => ls = h.labelsOf m ∧ Queried room mid)
      (fun _ mid => ¬ room.primary.Sound ∧ Queried room mid) := by
  refine Ends.mapM (fun t _ mid hmid => ?_) (Queried.refl room)
  obtain ⟨db, hi, rfl⟩ := hmid
  have hrows : ({ room with primary := db } : Mailroom σ).primary.rows.labels = h.labels :=
    hi.rows ▸ hlabels
  refine (labelOfTag_ends hrows m.ownerId t).mono (fun l _ hl => ⟨hl.1, ?_⟩)
    fun _ _ hfail => ⟨fun hs => ?_, ?_⟩
  · obtain ⟨-, db', hi', rfl⟩ := hl
    exact ⟨db', hi.trans hi', rfl⟩
  · -- A lookup that fails later on fails in a store which the earlier ones left as sound as it was.
    exact hfail.1 (hs.later hi.toLater)
  · obtain ⟨-, db', hi', rfl⟩ := hfail
    exact ⟨db', hi.trans hi', rfl⟩

theorem leaves_put {r : Replica} (hk : r.rows.Kept h) (ho : h.Orderly) (hm : m ∈ h.messages) :
    Leaves r (do Replica.putMessage m; Replica.putLabels (h.labelsOf m))
      (fun _ R => R = r.rows.put m (h.labelsOf m)) (fun R => Rows.Spares h m.id r.rows R) := by
  have hrow : Rows.Spares h m.id r.rows
      { r.rows with messages := Replica.putRow (.ofMessage m) r.rows.messages } :=
    Rows.spares_putRow hk ho hm
  refine ((Replica.leaves_putMessage m).mono (fun _ _ h => h) fun R h => ?_).bind fun _ r₁ h₁ => ?_
  · rw [h]
    exact .refl hk
  · refine (Replica.leaves_putLabels (h.labelsOf m)).mono (fun _ R h => ?_) fun R h => ?_
    · rw [h, h₁]
      rfl
    · rw [h, h₁]
      exact hrow

theorem copyMessage_ends (ht : Tended h room) (hm : m ∈ h.messages) :
    Ends (copyMessage m room)
      (fun _ room' => Settled m.id (Rows.Copied m (h.labelsOf m) room.replica.rows) room.backlog
        room'.replica room'.backlog ∧ room.replica.Later room'.replica)
      (fun _ room' => Deferred m.id (Rows.Spares h m.id room.replica.rows) room.replica room.backlog
        room'.replica room'.backlog ∧ room.replica.Later room'.replica) := by
  refine (labelsOfTags_ends ht.shows.labels m).bind (fun labels mid hlabels => ?_)
    (fun _ _ he => absurd ht.sound he.1)
  obtain ⟨rfl, db, -, rfl⟩ := hlabels
  have hput := onReplica_ends { room with primary := db } (leaves_put ht.kept ht.orderly hm)
  refine (attempt_ends hput).bind (fun res room₁ hres => ?_) (fun _ _ he => he.elim)
  rcases hres with ⟨_, rfl, r, rfl, hrows, hl⟩ | ⟨e, rfl, r, rfl, hrows, hl, hs⟩
  · have hspares : Rows.Spares h m.id room.replica.rows r.rows :=
      hrows ▸ Rows.spares_put ht.kept ht.orderly ht.apart hm
    have hlinks := replaceLinks_ends { room with primary := db, replica := r } hspares.kept m.id
      m.ownerId ((h.labelsOf m).map Label.id)
    refine .discard (hlinks.mono (fun _ room' hdone => ⟨⟨?_, hdone.1.backlog⟩, hl.trans hdone.2⟩)
      fun _ room' hdone => ⟨⟨hspares.trans hdone.1.rows, hdone.1.backlog,
        fun hs => hdone.1.unsound (hs.later hl)⟩, hl.trans hdone.2⟩)
    rw [Rows.Copied, ← hrows]
    exact hdone.1.rows
  · exact .of_error ⟨⟨hrows, ⟨_, _, _, _, rfl⟩, hs⟩, hl⟩

theorem Tended.idle {db : Primary.Store} (ht : Tended h room) (hi : room.primary.Idle db) :
    Tended h { room with primary := db } :=
  ⟨ht.shows.idle hi, ht.orderly, ht.apart, ht.sound.later hi.toLater, ht.kept⟩

/-- The state after a task is known from how it turned out. -/
def Turns (h : Holdings) (room : Mailroom σ) (t : Task) (room' : Mailroom σ) : Prop :=
  Turn h room.replica room.backlog t room'.replica room'.backlog ∧
    room.replica.Later room'.replica

theorem find_ends (ht : Tended h room) (id : String) :
    Ends (onPrimary (Primary.findMessage id) room)
      (fun found mid => found = h.find? id ∧ Queried room mid) (fun _ _ => False) := by
  refine (onPrimary_ends _ (Primary.findMessage_ends ht.shows ht.orderly)).mono ?_ ?_
  · rintro found mid ⟨db, ⟨hfound, hi⟩, rfl⟩
    exact ⟨hfound, db, hi, rfl⟩
  · rintro e mid ⟨db, ⟨-, hs⟩, rfl⟩
    exact hs ht.sound

theorem Tended.messagesOf (ht : Tended h room) (owner : String) :
    ∃ db, Primary.messagesOf owner room.primary = .ok (h.mailbox owner) db := by
  have hends : Ends (Primary.messagesOf owner room.primary) _ _ :=
    Primary.messagesOf_ends ht.shows ht.orderly
  cases hr : Primary.messagesOf owner room.primary with
  | ok ms db => exact ⟨db, by rw [(hends.ok ms db hr).1]⟩
  | error e db => exact absurd ht.sound (hends.error e db hr).2

theorem refresh_turns (ht : Tended h room) (id : String) :
    Ends (refresh id room) (fun _ room' => Turns h room (.refresh id) room')
      (fun _ room' => Turns h room (.refresh id) room') := by
  refine (find_ends ht id).bind (fun found mid hfound => ?_) (fun _ _ he => he.elim)
  obtain ⟨rfl, db, hi, rfl⟩ := hfound
  cases hfind : h.find? id with
  | some m =>
    obtain ⟨hm, rfl⟩ := Holdings.mem_of_find? hfind
    have hcopy := copyMessage_ends (ht.idle hi) hm
    refine hcopy.bind (fun _ room' hdone => .of_ok ⟨.copied hfind hdone.1, hdone.2⟩) ?_
    exact fun _ room' hdone => ⟨.uncopied hfind hdone.1, hdone.2⟩
  | none =>
    have hid : id ∉ h.ids := Holdings.find?_eq_none.mp hfind
    have hdelete := onReplica_ends { room with primary := db }
      (Replica.leaves_deleteMessage id)
    refine Ends.bind (Q := fun _ mid => ∃ r, mid = { room with primary := db, replica := r } ∧
      r.rows = room.replica.rows.without id ∧ room.replica.Later r)
      (.discard (hdelete.mono (fun _ _ h => h) fun _ _ h => h)) (fun _ mid hmid => ?_)
      (fun _ room' hfail => ?_)
    · obtain ⟨r, rfl, hrows, hl⟩ := hmid
      exact .of_ok ⟨.removed hid ⟨hrows, rfl⟩, hl⟩
    · obtain ⟨r, rfl, hrows, hl, hs⟩ := hfail
      refine ⟨.refused (fun i hi => ?_) hrows hs, hl⟩
      cases hi
      exact hid

theorem retry_turns (ht : Tended h room) (a : Arrear) :
    Ends (retry a room) (fun _ room' => Turns h room (.retry a) room')
      (fun _ room' => Turns h room (.retry a) room') := by
  refine (find_ends ht a.messageId).bind (fun found mid hfound => ?_) (fun _ _ he => he.elim)
  obtain ⟨rfl, db, hi, rfl⟩ := hfound
  cases hfind : h.find? a.messageId with
  | some m =>
    have hid : a.messageId ∈ h.ids :=
      Holdings.mem_ids.mpr ⟨m, Holdings.mem_of_find? hfind⟩
    have hrefresh := refresh_turns (ht.idle hi) a.messageId
    refine .discard (hrefresh.mono (fun _ _ hturn => ?_) fun _ _ hturn => ?_)
    · exact ⟨.retried hid hturn.1, hturn.2⟩
    · exact ⟨.retried hid hturn.1, hturn.2⟩
  | none =>
    have hid : a.messageId ∉ h.ids := Holdings.find?_eq_none.mp hfind
    have hlinks := replaceLinks_ends { room with primary := db } ht.kept a.messageId
      a.ownerId a.labelIds
    refine .discard (hlinks.mono (fun _ _ hdone => ?_) fun _ _ hdone => ?_)
    · exact ⟨.replayed hid hdone.1, hdone.2⟩
    · exact ⟨.unreplayed hid hdone.1, hdone.2⟩

theorem state_resolveAll (ids : List String) (room : Mailroom σ) :
    state (ids.forM resolve room) = { room with backlog := room.backlog.resolveAll ids } := by
  induction ids generalizing room with
  | nil => rfl
  | cons id ids ih => exact ih { room with backlog := (room.backlog.resolve id).1 }

theorem run_turns (ht : Tended h room) (t : Task) : Turns h room t (room.run t) := by
  cases t with
  | refresh id => exact of_state (refresh_turns ht id)
  | retry a => exact of_state (retry_turns ht a)
  | putLabel l =>
    refine of_state ((onReplica_ends room (Replica.leaves_putLabel l)).mono ?_ ?_)
    · rintro _ _ ⟨r, rfl, hrows, hl⟩
      exact ⟨.labelPut hrows, hl⟩
    · rintro _ _ ⟨r, rfl, hrows, hl, hs⟩
      exact ⟨.refused (fun _ hi => by cases hi) hrows hs, hl⟩
  | deleteLabel id =>
    refine of_state ((onReplica_ends room (Replica.leaves_deleteLabel id)).mono ?_ ?_)
    · rintro _ _ ⟨r, rfl, hrows, hl⟩
      exact ⟨.labelDeleted hrows, hl⟩
    · rintro _ _ ⟨r, rfl, hrows, hl, hs⟩
      exact ⟨.refused (fun _ hi => by cases hi) hrows hs, hl⟩
  | sweep ids =>
    rw [run, state_resolveAll]
    refine of_state (P := fun room₁ => Turns h room (.sweep ids)
      { room₁ with backlog := room₁.backlog.resolveAll ids })
      ((onReplica_ends room (Replica.leaves_deleteMessages ids)).mono ?_ ?_)
    · rintro _ _ ⟨r, rfl, hrows, hl⟩
      exact ⟨.swept hrows, hl⟩
    · rintro _ _ ⟨r, rfl, hrows, hl, hs⟩
      exact ⟨.unswept hrows hs, hl⟩
  | list owner =>
    refine of_state ((onReplica_ends room (Replica.leaves_idsOf owner)).mono ?_ ?_)
    · rintro _ _ ⟨r, rfl, hrows, hl⟩
      exact ⟨.listed hrows, hl⟩
    · rintro _ _ ⟨r, rfl, hrows, hl, -⟩
      exact ⟨.listed hrows, hl⟩

end LabelMail.Mailroom
