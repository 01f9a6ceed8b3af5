import LabelMail.Proofs.Mailroom.Pairs
import LabelMail.Proofs.Mailroom.Syncing
import LabelMail.Proofs.Replica.Pairs

/-!
The tasks of an operation in two mailrooms that agree on one owner. Whether a task is for this owner
or for another, doing it in both leaves the agreement as it is, as long as no database fails.
-/
namespace LabelMail

namespace Backlog

variable {b : Backlog} {ids : List String}

theorem arrears_resolveAll :
    (b.resolveAll ids).arrears = b.arrears.filter fun a => !ids.contains a.messageId := by
  induction ids generalizing b with
  | nil => exact (List.filter_eq_self.mpr fun _ _ => rfl).symm
  | cons id ids ih =>
    have hrest : b.resolveAll (id :: ids) = (b.resolve id).1.resolveAll ids := rfl
    rw [hrest, ih, resolve, List.filter_filter]
    refine List.filter_congr fun a _ => ?_
    rw [List.contains_cons, Bool.not_or, bne, Bool.and_comm]

end Backlog

namespace Mailroom

open Replica (Rows)
open Replica.Rows (Fitting)

variable {σ : Type} {g g' : Owners} {h h' : Holdings} {room room' mid : Mailroom σ}
variable {owner o id : String} {t : Task} {tasks : List Task}
variable {r r' : Replica} {b b' : Backlog}

/-- No database of the mailroom refuses anything from here on. -/
structure Sound (room : Mailroom σ) : Prop where
  primary : room.primary.Sound
  replica : room.replica.Sound

/-- The mailrooms are alike but for what others than the owner have, in the primary store, in the
replica and in the backlog. -/
structure SameFor (owner : String) (room room' : Mailroom σ) : Prop where
  primary : room.primary.rows.SameFor owner room'.primary.rows
  replica : room.replica.rows.SameFor owner room.primary.rows.labels room'.replica.rows
  backlog : room'.backlog.arrears.filter (·.ownerId == owner) =
    room.backlog.arrears.filter (·.ownerId == owner)
  keeping : room'.keeping = room.keeping
  outside : room'.outside = room.outside
  rules : room'.rules = room.rules
  idAt : room'.idAt = room.idAt
  drawn : room'.drawn = room.drawn

theorem SameFor.symm (hsame : SameFor owner room room') : SameFor owner room' room where
  primary := hsame.primary.symm
  replica := hsame.replica.symm.relabel fun _ _ hk => hk.mono hsame.primary.labels
  backlog := hsame.backlog.symm
  keeping := hsame.keeping.symm
  outside := hsame.outside.symm
  rules := hsame.rules.symm
  idAt := hsame.idAt.symm
  drawn := hsame.drawn.symm

theorem SameFor.trans (hsame : SameFor owner room mid) (hsame' : SameFor owner mid room') :
    SameFor owner room room' where
  primary := hsame.primary.trans hsame'.primary
  replica := hsame.replica.trans <|
    hsame'.replica.relabel fun _ _ hk => hk.mono hsame.primary.labels.symm
  backlog := hsame'.backlog.trans hsame.backlog
  keeping := hsame'.keeping.trans hsame.keeping
  outside := hsame'.outside.trans hsame.outside
  rules := hsame'.rules.trans hsame.rules
  idAt := hsame'.idAt.trans hsame.idAt
  drawn := hsame'.drawn.trans hsame.drawn

/-- The ids whose entries in the backlog a task strikes out. -/
def Task.settles : Task → List String
  | .refresh id => [id]
  | .sweep ids => ids
  | _ => []

theorem Turn.backlog_eq (hturn : Turn h r b t r' b') (hs : r.Sound) (ht : t.Serves g h o) :
    b' = b.resolveAll t.settles := by
  cases hturn with
  | copied hm hdone => exact hdone.backlog
  | removed hid hdone => exact hdone.backlog
  | uncopied hm hdone => exact absurd hs hdone.unsound
  | retried hid hturn => exact ht.elim
  | replayed hid hdone => exact ht.elim
  | unreplayed hid hdone => exact ht.elim
  | labelPut hrows => rfl
  | labelDeleted hrows => rfl
  | swept hrows => rfl
  | unswept hrows hunsound => exact absurd hs hunsound
  | listed hrows => rfl
  | refused hrefresh hrows hunsound => exact absurd hs hunsound

theorem Task.Serves.of_settles (ht : t.Serves g h o) (hid : id ∈ t.settles) :
    g.message id = some o := by
  cases t with
  | refresh i => exact List.mem_singleton.mp hid ▸ ht
  | sweep ids => exact ht id hid
  | _ => cases hid

theorem Governed.fitting (hg : Governed g h room) : Fitting g h room.replica.rows :=
  ⟨hg.orderly, hg.covers, hg.kept, hg.parted⟩

theorem Governed.run_serves (hg : Governed g h room) (ht : t.Serves g h o) :
    Served g h (g.scope o) room (room.run t) :=
  hg.run ht.owned (ht.scope_le hg.orderly hg.covers)

theorem Sound.run (hs : room.Sound) (hg : Governed g h room) (ht : t.Serves g h o) :
    (room.run t).Sound :=
  ⟨hs.primary.later (trails_run room t).primary.toLater,
    hs.replica.later (hg.run_serves ht).later⟩

/-- What one owner has in the backlog after a task. -/
theorem Governed.arrears_run (hg : Governed g h room) (hs : room.Sound) (ht : t.Serves g h o) :
    (room.run t).backlog.arrears.filter (·.ownerId == owner) =
      (room.backlog.arrears.filter (·.ownerId == owner)).filter
        fun a => !t.settles.contains a.messageId := by
  rw [(run_turns (hg.tended hs.primary) t).1.backlog_eq hs.replica ht, Backlog.arrears_resolveAll,
    List.filter_filter, List.filter_filter]
  exact List.filter_congr fun _ _ => Bool.and_comm _ _

/-- Of an owner for whom the task is not, the backlog keeps what it has. -/
theorem Governed.arrears_aside (hg : Governed g h room) (hs : room.Sound) (ht : t.Serves g h o)
    (hne : o ≠ owner) : (room.run t).backlog.arrears.filter (·.ownerId == owner) =
      room.backlog.arrears.filter (·.ownerId == owner) := by
  rw [hg.arrears_run hs ht]
  refine List.filter_eq_self.mpr fun a ha => ?_
  obtain ⟨hmem, howner⟩ := List.mem_filter.mp ha
  rw [Bool.not_eq_true', List.contains_eq_mem, decide_eq_false_iff_not]
  intro hid
  have hmessage : g.message a.messageId = some a.ownerId := (hg.records a hmem).message
  rw [ht.of_settles hid] at hmessage
  exact hne ((Option.some.inj hmessage).trans (beq_iff_eq.mp howner))

/-- Of an owner for whom the task is not, the replica keeps what it has. -/
theorem Governed.replica_aside (hg : Governed g h room) (ht : t.Serves g h o) (hne : o ≠ owner)
    (hnamed : owner ≠ Replica.shared) :
    room.replica.rows.SameFor owner h.labels (room.run t).replica.rows := by
  have hserved : Served g h (g.scope o) room (room.run t) := hg.run_serves ht
  refine hserved.beyond.sameFor hg.fitting hserved.governed.fitting (fun id hid hscope => ?_)
    (fun i hi hscope => ?_) hnamed
  · exact hne (Option.some.inj (hscope.symm.trans hid))
  · rcases hscope with ⟨u, hu, hui⟩ | hlabel
    · exact Owners.ne_of_label hi hu hui.symm
    · exact hne (Option.some.inj (hlabel.symm.trans hi))

theorem Task.Serves.owner_eq (ht : (Task.refresh id).Serves g h owner) (hc : g.Covers h)
    {m : Message} (hm : h.find? id = some m) : m.ownerId = owner := by
  obtain ⟨hmem, rfl⟩ := Holdings.mem_of_find? hm
  exact Option.some.inj ((hc.messages m hmem).symm.trans ht)

/-- A task for the owner does the same to what two replicas have of the owner's. -/
theorem Turn.sameFor {r₁ r₁' : Replica} {b₁ b₁' : Backlog} (hturn : Turn h r b t r₁ b₁)
    (hturn' : Turn h' r' b' t r₁' b₁') (hs : r.Sound) (hs' : r'.Sound) (hf : Fitting g h r.rows)
    (hf' : Fitting g' h' r'.rows) (hh : h.SameFor owner h') (hnamed : owner ≠ Replica.shared)
    (ht : t.Serves g h owner) (ht' : t.Serves g' h' owner)
    (hsame : r.rows.SameFor owner h.labels r'.rows) :
    r₁.rows.SameFor owner h.labels r₁'.rows := by
  cases t with
  | refresh id =>
    rcases hturn.refresh_cases hs with ⟨m, hm, hdone⟩ | ⟨hid, hdone⟩
    · obtain rfl := ht.owner_eq hf.covers hm
      have hm' : h'.find? id = some m := hh.find? hf'.orderly hm rfl
      rcases hturn'.refresh_cases hs' with ⟨x, hx, hdone'⟩ | ⟨hid', -⟩
      · obtain rfl := Option.some.inj (hm'.symm.trans hx)
        exact hsame.copied hf hf' hh hnamed (Holdings.mem_of_find? hm).1 hdone.rows hdone'.rows
      · exact absurd (Holdings.mem_ids.mpr ⟨m, Holdings.mem_of_find? hm'⟩) hid'
    · rcases hturn'.refresh_cases hs' with ⟨x, hx, -⟩ | ⟨-, hdone'⟩
      · have hx' : h.find? id = some x := hh.symm.find? hf.orderly hx (ht'.owner_eq hf'.covers hx)
        exact absurd (Holdings.mem_ids.mpr ⟨x, Holdings.mem_of_find? hx'⟩) hid
      · rw [hdone.rows, hdone'.rows]
        exact hsame.without id
  | retry a => exact ht.elim
  | putLabel l =>
    cases hturn with
    | labelPut hrows =>
      cases hturn' with
      | labelPut hrows' =>
        rw [hrows, hrows']
        exact ⟨hsame.messages, Rows.agree_putLabelRow hf hf' ht.1 ht.2 hsame.labels, hsame.links⟩
      | refused hrefresh hrows' hunsound => exact absurd hs' hunsound
    | refused hrefresh hrows hunsound => exact absurd hs hunsound
  | deleteLabel i =>
    cases hturn with
    | labelDeleted hrows =>
      cases hturn' with
      | labelDeleted hrows' =>
        rw [hrows, hrows']
        exact hsame.withoutLabel i
      | refused hrefresh hrows' hunsound => exact absurd hs' hunsound
    | refused hrefresh hrows hunsound => exact absurd hs hunsound
  | sweep ids =>
    cases hturn with
    | swept hrows =>
      cases hturn' with
      | swept hrows' =>
        rw [hrows, hrows']
        exact hsame.withoutAll ids
      | unswept hrows' hunsound => exact absurd hs' hunsound
      | refused hrefresh hrows' hunsound => exact absurd hs' hunsound
    | unswept hrows hunsound => exact absurd hs hunsound
    | refused hrefresh hrows hunsound => exact absurd hs hunsound
  | list o =>
    rw [hturn.rows_list, hturn'.rows_list]
    exact hsame

theorem SameFor.holdings (hsame : SameFor owner room room') (hg : Governed g h room)
    (hg' : Governed g' h' room') : h.SameFor owner h' :=
  hsame.primary.holdings hg.shows hg'.shows hg.orderly hg'.orderly

/-- A task for the owner does the same to what two mailrooms have of the owner's. -/
theorem SameFor.run_own (hsame : SameFor owner room room') (hg : Governed g h room)
    (hg' : Governed g' h' room') (hs : room.Sound) (hs' : room'.Sound)
    (hnamed : owner ≠ Replica.shared) (ht : t.Serves g h owner) (ht' : t.Serves g' h' owner) :
    SameFor owner (room.run t) (room'.run t) := by
  have htrails : room.Trails (room.run t) := trails_run room t
  have htrails' : room'.Trails (room'.run t) := trails_run room' t
  have hlabels : h.labels = room.primary.rows.labels := hg.shows.labels.symm
  refine ⟨?_, ?_, ?_, ?_, ?_, ?_, ?_, ?_⟩
  · rw [htrails.primary.rows, htrails'.primary.rows]
    exact hsame.primary
  · rw [htrails.primary.rows, ← hlabels]
    exact (run_turns (hg.tended hs.primary) t).1.sameFor (run_turns (hg'.tended hs'.primary) t).1
      hs.replica hs'.replica hg.fitting hg'.fitting (hsame.holdings hg hg') hnamed ht ht'
      (hlabels ▸ hsame.replica)
  · rw [hg.arrears_run hs ht, hg'.arrears_run hs' ht', hsame.backlog]
  · rw [htrails.keeping, htrails'.keeping, hsame.keeping]
  · rw [htrails.outside, htrails'.outside, hsame.outside]
  · rw [htrails.rules, htrails'.rules, hsame.rules]
  · rw [htrails.idAt, htrails'.idAt, hsame.idAt]
  · rw [htrails.drawn, htrails'.drawn, hsame.drawn]

/-- A task for another owner leaves a mailroom as it is for this one. -/
theorem Governed.aside (hg : Governed g h room) (hs : room.Sound) (ht : t.Serves g h o)
    (hne : o ≠ owner) (hnamed : owner ≠ Replica.shared) : SameFor owner room (room.run t) := by
  have htrails : room.Trails (room.run t) := trails_run room t
  refine ⟨?_, ?_, hg.arrears_aside hs ht hne, htrails.keeping, htrails.outside, htrails.rules,
    htrails.idAt, htrails.drawn⟩
  · rw [htrails.primary.rows]
    exact .refl owner _
  · rw [hg.shows.labels]
    exact hg.replica_aside ht hne hnamed

/-- A task that is for the same owner in both mailrooms, whoever that is. -/
theorem SameFor.run (hsame : SameFor owner room room') (hg : Governed g h room)
    (hg' : Governed g' h' room') (hs : room.Sound) (hs' : room'.Sound)
    (hnamed : owner ≠ Replica.shared) (ht : t.Serves g h o) (ht' : t.Serves g' h' o) :
    SameFor owner (room.run t) (room'.run t) := by
  by_cases ho : o = owner
  · subst ho
    exact hsame.run_own hg hg' hs hs' hnamed ht ht'
  · exact ((hg.aside hs ht ho hnamed).symm.trans hsame).trans (hg'.aside hs' ht' ho hnamed)

theorem SameFor.done (hsame : SameFor owner room room') (hg : Governed g h room)
    (hg' : Governed g' h' room') (hs : room.Sound) (hs' : room'.Sound)
    (hnamed : owner ≠ Replica.shared)
    (htasks : ∀ t ∈ tasks, ∃ o, t.Serves g h o ∧ t.Serves g' h' o) :
    SameFor owner (room.done tasks) (room'.done tasks) := by
  induction tasks generalizing room room' with
  | nil => exact hsame
  | cons t tasks ih =>
    obtain ⟨o, ht, ht'⟩ := htasks t List.mem_cons_self
    exact ih (hsame.run hg hg' hs hs' hnamed ht ht') (hg.run_serves ht).governed
      (hg'.run_serves ht').governed (hs.run hg ht) (hs'.run hg' ht')
      fun u hu => htasks u (List.mem_cons_of_mem t hu)

end Mailroom

end LabelMail
