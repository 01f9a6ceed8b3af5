import LabelMail.Proofs.Mailroom.Turns
import LabelMail.Proofs.Replica.Series

/-!
Disciplines: which writes to the replica are in order, and which entries of the backlog. A task
whose own writes and entries are makes no others, whether the databases fail or not.
-/
namespace LabelMail

structure Discipline where
  Write : Replica.Rows → Replica.Rows → Prop
  Entry : Arrear → Prop

namespace Discipline

variable {d : Discipline} {h : Holdings} {id owner : String} {labelIds ids : List String}

/-- A relinking is in order, and so is what is entered in the backlog if it fails. -/
structure Relinks (d : Discipline) (id owner : String) (labelIds : List String) : Prop
    extends Replica.Rows.Relinks d.Write id owner labelIds where
  entry : ∀ a : Arrear, a.messageId = id → a.ownerId = owner → a.labelIds ⊆ labelIds → d.Entry a

structure Copies (d : Discipline) (m : Message) (labels : List Label) : Prop where
  message : ∀ R : Replica.Rows,
    d.Write R { R with messages := Replica.putRow (.ofMessage m) R.messages }
  names : ∀ l ∈ labels, ∀ R : Replica.Rows, d.Write R (R.putLabel l)
  links : d.Relinks m.id m.ownerId (labels.map Label.id)

structure Refreshes (d : Discipline) (h : Holdings) (id : String) : Prop where
  copies : ∀ m ∈ h.messages, m.id = id → d.Copies m (h.labelsOf m)
  removes : ∀ R : Replica.Rows, d.Write R (R.without id)

theorem Relinks.subset (hd : d.Relinks id owner labelIds) (hsub : ids ⊆ labelIds) :
    d.Relinks id owner ids where
  enter R i hi := hd.enter R i (hsub hi)
  clear := hd.clear
  link R i hi := hd.link R i (hsub hi)
  entry a hid howner hids := hd.entry a hid howner (List.Subset.trans hids hsub)

end Discipline

namespace Mailroom

open Replica (Obeys Leaves)

variable {σ α β : Type}

/-- What was done to the replica is a series of writes in order, and so are all new entries of the
backlog. -/
structure Abides (d : Discipline) (room room' : Mailroom σ) : Prop where
  rows : Relation.ReflTransGen d.Write room.replica.rows room'.replica.rows
  backlog : ∀ a ∈ room'.backlog.arrears, a ∈ room.backlog.arrears ∨ d.Entry a
  later : room.replica.Later room'.replica

/-- However the action ends, it abides by the discipline. -/
def Abiding (d : Discipline) (room : Mailroom σ) (a : Action σ α) : Prop :=
  Ends (a room) (fun _ room' => Abides d room room') fun _ room' => Abides d room room'

variable {d : Discipline} {h : Holdings} {room mid room' : Mailroom σ} {m : Message}
variable {id owner : String} {labelIds ids : List String} {t : Task}

theorem Abides.refl (room : Mailroom σ) : Abides d room room :=
  ⟨.refl, fun _ ha => .inl ha, .refl _⟩

theorem Abides.trans (ha : Abides d room mid) (ha' : Abides d mid room') :
    Abides d room room' where
  rows := ha.rows.trans ha'.rows
  backlog a hmem := (ha'.backlog a hmem).elim (ha.backlog a) .inr
  later := ha.later.trans ha'.later

theorem Ahead.abides (ha : room.Ahead mid) : Abides d room mid :=
  ⟨ha.replica ▸ .refl, fun _ hmem => .inl (ha.backlog ▸ hmem), ha.replica ▸ .refl _⟩

theorem Abiding.bind {a : Action σ α} {f : α → Action σ β} {P : α → Mailroom σ → Prop}
    (ha : Ends (a room) (fun x mid => P x mid ∧ Abides d room mid)
      fun _ mid => Abides d room mid)
    (hf : ∀ x mid, P x mid → Abiding d mid (f x)) : Abiding d room (a >>= f) :=
  Ends.bind ha (fun x mid hx => (hf x mid hx.1).mono (fun _ _ h => hx.2.trans h)
    fun _ _ h => hx.2.trans h) fun _ _ h => h

theorem Abiding.then {a : Action σ α} {f : α → Action σ β} (ha : Abiding d room a)
    (hf : ∀ x mid, Abiding d mid (f x)) : Abiding d room (a >>= f) :=
  .bind (P := fun _ _ => True) (ha.mono (fun _ _ h => ⟨trivial, h⟩) fun _ _ h => h)
    fun x mid _ => hf x mid

theorem abiding_pure (x : α) : Abiding d room (pure x) := .of_ok (.refl room)

theorem abiding_throw (e : Failure) : Abiding d room (throw e : Action σ α) :=
  .of_error (.refl room)

theorem Abiding.discard {a : Action σ α} (ha : Abiding d room a) :
    Abiding d room (Functor.discard a) :=
  Ends.discard (T := fun _ room' => Abides d room room') ha

theorem Abiding.state {a : Action σ α} (ha : Abiding d room a) :
    Abides d room (Mailroom.state (a room)) :=
  of_state ha

theorem Abiding.attempt {a : Action σ α} (ha : Abiding d room a) :
    Abiding d room (Mailroom.attempt a) :=
  (attempt_done a).mono (fun _ _ hstate => hstate ▸ ha.state) fun _ _ h => h.elim

theorem abiding_onReplica {q : Replica.Query α} (hq : Obeys d.Write room.replica q) :
    Abiding d room (onReplica q) := by
  refine (onReplica_ends room hq).mono ?_ ?_
  · rintro _ _ ⟨r, rfl, hrows, hl⟩
    exact ⟨hrows, fun _ ha => .inl ha, hl⟩
  · rintro _ _ ⟨r, rfl, hrows, hl, -⟩
    exact ⟨hrows, fun _ ha => .inl ha, hl⟩

theorem abiding_resolve (id : String) : Abiding d room (resolve id) :=
  .of_ok ⟨.refl, fun _ ha => .inl (List.mem_filter.mp ha).1, .refl _⟩

theorem abiding_recordFailure {e : Failure} (hd : d.Relinks id owner labelIds) :
    Abiding d room (recordFailure id owner labelIds e) := by
  refine .of_ok ⟨.refl, fun a ha => ?_, .refl _⟩
  rcases Backlog.mem_put ha with rfl | ha
  · exact .inr (hd.entry _ rfl rfl (List.Subset.refl _))
  · exact .inl ha

theorem abiding_replaceLinks (hd : d.Relinks id owner labelIds) :
    Abiding d room (replaceLinks id owner labelIds) := by
  have hdistinct : d.Relinks id owner (distinct labelIds) := hd.subset fun i => mem_distinct.mp
  refine (abiding_onReplica (Replica.obeys_relink hdistinct.toRelinks)).attempt.then fun r mid => ?_
  cases r with
  | ok linked => exact (abiding_resolve id).then fun _ _ => abiding_pure linked
  | error e => exact (abiding_recordFailure hdistinct).then fun _ _ => abiding_throw e

theorem Queried.abides (hmid : Queried room mid) : Abides d room mid := by
  obtain ⟨db, hi, rfl⟩ := hmid
  exact (ahead_primary hi.toLater).abides

theorem abiding_copyMessage (hlabels : room.primary.rows.labels = h.labels)
    (hd : d.Copies m (h.labelsOf m)) : Abiding d room (copyMessage m) := by
  refine .bind (P := fun ls _ => ls = h.labelsOf m) ((labelsOfTags_ends hlabels m).mono
    (fun _ _ hls => ⟨hls.1, hls.2.abides⟩) fun _ _ he => he.2.abides) fun ls mid hls => ?_
  subst hls
  have hput : Obeys d.Write mid.replica
      (do Replica.putMessage m; Replica.putLabels (h.labelsOf m)) :=
    Obeys.bind (.of_leaves (Replica.leaves_putMessage m) (.single (hd.message _))) fun _ r =>
      .of_leaves (Replica.leaves_putLabels _) (Replica.series_putLabelRows hd.names)
  refine (abiding_onReplica hput).attempt.then fun r mid' => ?_
  cases r with
  | ok _ => exact (abiding_replaceLinks hd.links).discard
  | error e => exact (abiding_recordFailure hd.links).then fun _ _ => abiding_throw e

theorem Queried.holdings (hmid : Queried room mid) : mid.holdings = room.holdings := by
  obtain ⟨db, hi, rfl⟩ := hmid
  exact congrArg Primary.Rows.holdings hi.rows

theorem findMessage_abides (id : String) :
    Ends (onPrimary (Primary.findMessage id) room)
      (fun found mid => ((∀ m, found = some m → m ∈ room.holdings.messages ∧ m.id = id) ∧
        Queried room mid) ∧ Abides d room mid)
      fun _ mid => Abides d room mid := by
  refine (onPrimary_ends room (Primary.findMessage_read room.primary id)).mono ?_ ?_
  · rintro found _ ⟨db, ⟨hread, hi⟩, rfl⟩
    refine ⟨⟨fun m hm => ?_, db, hi, rfl⟩, Queried.abides ⟨db, hi, rfl⟩⟩
    obtain ⟨row, hrow, hmessage⟩ := Primary.Rows.read?_eq_some.mp (hm ▸ hread)
    refine ⟨Primary.Rows.mem_holdings.mpr ⟨row, List.mem_of_find?_eq_some hrow, hmessage⟩, ?_⟩
    rw [Primary.MessageRow.message_id hmessage]
    simpa using List.find?_some hrow
  · rintro _ _ ⟨db, hfail, rfl⟩
    exact Queried.abides ⟨db, hfail.1, rfl⟩

theorem abiding_refresh (hd : d.Refreshes room.holdings id) : Abiding d room (refresh id) := by
  refine .bind (findMessage_abides id) fun found mid hfound => ?_
  obtain ⟨hread, hmid⟩ := hfound
  cases found with
  | some m =>
    obtain ⟨hm, hid⟩ := hread m rfl
    have hlabels : mid.primary.rows.labels = room.holdings.labels := by
      rw [← hmid.holdings]
      rfl
    exact (abiding_copyMessage hlabels (hd.copies m hm hid)).then fun _ _ => abiding_pure _
  | none =>
    have hdelete : Obeys d.Write mid.replica (Replica.deleteMessage id) :=
      .of_leaves (Replica.leaves_deleteMessage id) (.single (hd.removes _))
    refine (abiding_onReplica hdelete).discard.then fun _ _ => ?_
    exact (abiding_resolve id).then fun _ _ => abiding_pure _

theorem abiding_retry {a : Arrear} (hd : d.Refreshes room.holdings a.messageId)
    (hd' : d.Relinks a.messageId a.ownerId a.labelIds) : Abiding d room (retry a) := by
  refine .bind (findMessage_abides a.messageId) fun found mid hfound => ?_
  cases found with
  | some m => exact (abiding_refresh (hfound.2.holdings ▸ hd)).discard
  | none => exact (abiding_replaceLinks hd').discard

theorem abiding_resolveAll (ids : List String) : Abiding d room (ids.forM resolve) := by
  induction ids generalizing room with
  | nil => exact abiding_pure ()
  | cons id ids ih => exact (abiding_resolve id).then fun _ _ => ih

/-- The writes and entries of the task are in order. -/
def Task.Heeds (d : Discipline) (h : Holdings) : Task → Prop
  | .refresh id => d.Refreshes h id
  | .retry a => d.Refreshes h a.messageId ∧ d.Relinks a.messageId a.ownerId a.labelIds
  | .putLabel l => ∀ R : Replica.Rows, d.Write R (R.putLabel l)
  | .deleteLabel i => ∀ R : Replica.Rows, d.Write R (R.withoutLabel i)
  | .sweep ids => ∀ id ∈ ids, ∀ R : Replica.Rows, d.Write R (R.without id)
  | .list _ => True

theorem run_abides (ht : t.Heeds d room.holdings) : Abides d room (room.run t) := by
  cases t with
  | refresh id => exact (abiding_refresh ht).state
  | retry a => exact (abiding_retry ht.1 ht.2).state
  | putLabel l =>
    have hput : Obeys d.Write room.replica (Replica.putLabel l) :=
      .of_leaves (Replica.leaves_putLabel l) (.single (ht _))
    exact (abiding_onReplica hput).state
  | deleteLabel i =>
    have hdelete : Obeys d.Write room.replica (Replica.deleteLabel i) :=
      .of_leaves (Replica.leaves_deleteLabel i) (.single (ht _))
    exact (abiding_onReplica hdelete).state
  | sweep ids =>
    have hsweep : Obeys d.Write room.replica (Replica.deleteMessages ids) :=
      .of_leaves (Replica.leaves_deleteMessages ids) (Replica.series_withoutAll ht)
    exact (abiding_onReplica hsweep).state.trans (abiding_resolveAll ids).state
  | list owner =>
    have hlist : Obeys d.Write room.replica (Replica.idsOf owner) :=
      .of_leaves (Replica.leaves_idsOf owner) .refl
    exact (abiding_onReplica hlist).state

end Mailroom

end LabelMail
