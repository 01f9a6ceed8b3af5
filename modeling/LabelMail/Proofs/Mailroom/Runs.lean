import LabelMail.Proofs.Mailroom.Operations
import LabelMail.Proofs.Replica.Linking

/-!
Runs of the mailroom, in which callers perform operations one after the other while the clock is set
anew for each. Whatever fails on the way, the holdings of the primary store stay orderly.
-/
namespace LabelMail

namespace Primary

/-- What the rows show of messages that can be read, and the labels. -/
def Rows.holdings (rows : Rows) : Holdings :=
  ⟨rows.messages.filterMap fun r => r.message.toOption, rows.labels⟩

theorem Rows.mem_holdings {rows : Rows} {m : Message} :
    m ∈ rows.holdings.messages ↔ ∃ row ∈ rows.messages, row.message = .ok m := by
  simp [holdings, toOption_eq_some]

/-- Messages have the ids of their rows. -/
theorem Rows.nodup_holdings {rows : Rows} (hids : (rows.messages.map (·.id)).Nodup) :
    rows.holdings.ids.Nodup := by
  rw [List.Nodup, List.pairwise_map] at hids
  rw [Holdings.ids, List.Nodup, List.pairwise_map, holdings, List.pairwise_filterMap]
  refine hids.imp fun {r r'} hne m hm m' hm' hid => hne ?_
  rwa [MessageRow.message_id (toOption_eq_some.mp hm),
    MessageRow.message_id (toOption_eq_some.mp hm')] at hid

theorem Rows.Shows.holdings_eq {rows : Rows} {h : Holdings} (hs : rows.Shows h)
    (hstorable : ∀ m ∈ h.messages, m.Storable) : rows.holdings = h := by
  have hmessages : h.messages.filterMap (fun m => (MessageRow.ofMessage m).message.toOption) =
      h.messages := by
    refine (List.filterMap_congr fun m hm => ?_).trans List.filterMap_some
    rw [(hstorable m hm).stored_message]
    rfl
  rw [Rows.holdings, hs.messages, List.filterMap_map, hs.labels]
  exact congrArg (Holdings.mk · h.labels) hmessages

end Primary

namespace Mailroom

variable {σ α β : Type}

/-- The messages and labels of the primary store. -/
def holdings (room : Mailroom σ) : Holdings :=
  room.primary.rows.holdings

/-- What a task leaves alone. The databases are further on. -/
structure Trails (room room' : Mailroom σ) : Prop where
  primary : room.primary.Idle room'.primary
  replica : room.replica.Later room'.replica
  keeping : room'.keeping = room.keeping
  outside : room'.outside = room.outside
  rules : room'.rules = room.rules
  now : room'.now = room.now
  idAt : room'.idAt = room.idAt
  drawn : room'.drawn = room.drawn

theorem Trails.refl (room : Mailroom σ) : room.Trails room :=
  ⟨.refl _, .refl _, rfl, rfl, rfl, rfl, rfl, rfl⟩

theorem Trails.trans {room room' room'' : Mailroom σ} (h : room.Trails room')
    (h' : room'.Trails room'') : room.Trails room'' where
  primary := h.primary.trans h'.primary
  replica := h.replica.trans h'.replica
  keeping := h'.keeping.trans h.keeping
  outside := h'.outside.trans h.outside
  rules := h'.rules.trans h.rules
  now := h'.now.trans h.now
  idAt := h'.idAt.trans h.idAt
  drawn := h'.drawn.trans h.drawn

instance : IsPreorder (Mailroom σ) Trails where
  refl := Trails.refl
  trans _ _ _ := Trails.trans

/-- An action of a task, which leaves alone what tasks leave alone. -/
def Quiet (a : Action σ α) : Prop :=
  ∀ room, Ends (a room) (fun _ room' => room.Trails room') (fun _ room' => room.Trails room')

theorem Quiet.trails {a : Action σ α} (ha : Quiet a) (room : Mailroom σ) :
    room.Trails (state (a room)) := by
  have hends := ha room
  cases hr : a room with
  | ok x room' => exact hends.ok x room' hr
  | error e room' => exact hends.error e room' hr

theorem quiet_pure (a : α) : Quiet (pure a : Action σ α) := Moves.pure a

theorem quiet_throw (e : Failure) : Quiet (throw e : Action σ α) := Moves.throw e

theorem Quiet.bind {a : Action σ α} {f : α → Action σ β} (ha : Quiet a) (hf : ∀ x, Quiet (f x)) :
    Quiet (a >>= f) :=
  Moves.bind ha hf

theorem Quiet.discard {a : Action σ α} (ha : Quiet a) : Quiet (Functor.discard a : Action σ Unit) :=
  Moves.discard ha

theorem Quiet.attempt {a : Action σ α} (ha : Quiet a) : Quiet (Mailroom.attempt a) := fun room =>
  (attempt_done a).mono (fun _ _ h => h ▸ ha.trails room) fun _ _ h => h.elim

theorem Quiet.mapM {f : α → Action σ β} (hf : ∀ x, Quiet (f x)) (l : List α) :
    Quiet (l.mapM f) :=
  Moves.mapM hf

theorem quiet_onReplica {q : Replica.Query α} (hq : Replica.Steady q) :
    Quiet (onReplica q : Action σ α) := by
  intro room
  have hends := hq room.replica
  unfold onReplica
  split
  · next a r hr => exact .of_ok ⟨.refl _, (hends.ok a r hr).2, rfl, rfl, rfl, rfl, rfl, rfl⟩
  · next e r hr =>
    exact .of_error ⟨.refl _, (hends.error e r hr).2.1, rfl, rfl, rfl, rfl, rfl, rfl⟩

theorem quiet_onPrimary {q : Primary.Query α} (hq : Primary.Looks q) :
    Quiet (onPrimary q : Action σ α) := by
  intro room
  refine (onPrimary_ends _ (hq room.primary)).mono ?_ ?_
  all_goals
    rintro _ _ ⟨db, hi, rfl⟩
    exact ⟨hi, .refl _, rfl, rfl, rfl, rfl, rfl, rfl⟩

theorem quiet_resolve (id : String) : Quiet (resolve id : Action σ Unit) := fun _ =>
  .of_ok ⟨.refl _, .refl _, rfl, rfl, rfl, rfl, rfl, rfl⟩

theorem quiet_recordFailure (id owner : String) (labelIds : List String) (e : Failure) :
    Quiet (recordFailure id owner labelIds e : Action σ Unit) := fun _ =>
  .of_ok ⟨.refl _, .refl _, rfl, rfl, rfl, rfl, rfl, rfl⟩

theorem quiet_replaceLinks (id owner : String) (labelIds : List String) :
    Quiet (replaceLinks id owner labelIds : Action σ Nat) := by
  refine (quiet_onReplica (Replica.steady_relink id owner _)).attempt.bind fun r => ?_
  cases r with
  | ok linked => exact (quiet_resolve id).bind fun _ => quiet_pure linked
  | error e => exact (quiet_recordFailure id owner _ e).bind fun _ => quiet_throw e

theorem quiet_labelOfTag (owner : String) (t : Tag) :
    Quiet (labelOfTag owner t : Action σ Label) := by
  cases t with
  | custom name =>
    exact (quiet_onPrimary (Primary.looks_select _)).bind fun l => quiet_pure _
  | _ => exact quiet_pure _

theorem quiet_copyMessage (m : Message) : Quiet (copyMessage m : Action σ Unit) := by
  refine (Quiet.mapM (quiet_labelOfTag m.ownerId) _).bind fun labels => ?_
  have hput : Replica.Steady (do Replica.putMessage m; Replica.putLabels labels) :=
    (Replica.steady_of_leaves fun _ => Replica.leaves_putMessage m).bind fun _ =>
      Replica.steady_of_leaves fun _ => Replica.leaves_putLabels labels
  refine (quiet_onReplica hput).attempt.bind fun r => ?_
  cases r with
  | ok _ => exact (quiet_replaceLinks m.id m.ownerId _).discard
  | error e => exact (quiet_recordFailure m.id m.ownerId _ e).bind fun _ => quiet_throw e

theorem quiet_refresh (id : String) : Quiet (refresh id : Action σ Refreshed) := by
  refine (quiet_onPrimary (Primary.looks_findMessage id)).bind fun found => ?_
  cases found with
  | some m => exact (quiet_copyMessage m).bind fun _ => quiet_pure _
  | none =>
    have hdelete := quiet_onReplica (σ := σ)
      (Replica.steady_of_leaves fun _ => Replica.leaves_deleteMessage id)
    exact hdelete.discard.bind fun _ => (quiet_resolve id).bind fun _ => quiet_pure _

theorem quiet_retry (a : Arrear) : Quiet (retry a : Action σ Unit) := by
  refine (quiet_onPrimary (Primary.looks_findMessage a.messageId)).bind fun found => ?_
  cases found with
  | some m => exact (quiet_refresh a.messageId).discard
  | none => exact (quiet_replaceLinks a.messageId a.ownerId a.labelIds).discard

theorem quiet_resolveAll (ids : List String) : Quiet (ids.forM resolve : Action σ Unit) := by
  induction ids with
  | nil => exact quiet_pure ()
  | cons id ids ih => exact (quiet_resolve id).bind fun _ => ih

theorem quiet_list (owner : String) :
    Quiet (onReplica (Replica.idsOf owner) : Action σ (List String)) :=
  quiet_onReplica (Replica.steady_of_leaves fun _ => Replica.leaves_idsOf owner)

theorem quiet_synchronize (owner : String) : Quiet (synchronize owner : Action σ Report) :=
  (quiet_onPrimary (Primary.looks_messagesOf owner)).bind fun _ =>
    (Quiet.mapM (fun id => (quiet_refresh id).attempt) _).bind fun _ =>
    (quiet_list owner).bind fun _ =>
    (Quiet.mapM (fun id => (quiet_refresh id).attempt) _).bind fun _ => quiet_pure _

theorem trails_run (room : Mailroom σ) (t : Task) : room.Trails (room.run t) := by
  cases t with
  | refresh id => exact (quiet_refresh id).trails room
  | retry a => exact (quiet_retry a).trails room
  | putLabel l => exact (quiet_onReplica (Replica.steady_putLabel l)).trails room
  | deleteLabel id => exact (quiet_onReplica (Replica.steady_deleteLabel id)).trails room
  | sweep ids =>
    exact ((quiet_onReplica (Replica.steady_deleteMessages ids)).trails room).trans
      ((quiet_resolveAll ids).trails _)
  | list owner => exact (quiet_list owner).trails room

theorem trails_done (room : Mailroom σ) (tasks : List Task) : room.Trails (room.done tasks) := by
  induction tasks generalizing room with
  | nil => exact .refl room
  | cons t tasks ih => exact (trails_run room t).trans (ih (room.run t))

/-- A call for an operation, at a time in milliseconds. -/
structure Event where
  caller : String
  now : Int
  operation : Operation

/-- The clock is set. -/
def atTime (room : Mailroom σ) (now : Int) : Mailroom σ :=
  { room with now := now }

/-- The mailroom after a call, whether or not the operation succeeds. -/
def step (room : Mailroom σ) (e : Event) : Mailroom σ :=
  state (perform e.caller e.operation (room.atTime e.now))

/-- What a call returns if the operation succeeds. -/
def outcome (room : Mailroom σ) (e : Event) : Option Outcome :=
  match perform e.caller e.operation (room.atTime e.now) with
  | .ok o _ => some o
  | .error _ _ => none

theorem step_of_ends {room : Mailroom σ} {e : Event} {Q : Outcome → Mailroom σ → Prop}
    {E : Failure → Mailroom σ → Prop}
    (h : Ends (perform e.caller e.operation (room.atTime e.now)) Q E) :
    (∀ o, room.outcome e = some o → Q o (room.step e)) ∧
      (room.outcome e = none → ∃ f, E f (room.step e)) := by
  unfold outcome step
  cases hr : perform e.caller e.operation (room.atTime e.now) with
  | ok o room' =>
    refine ⟨fun _ ho => ?_, fun hnone => (by cases hnone)⟩
    obtain rfl := Option.some.inj ho
    exact h.ok o room' hr
  | error f room' => exact ⟨fun _ ho => (by cases ho), fun _ => ⟨f, h.error f room' hr⟩⟩

/-- The mailroom after a run. -/
def after (room : Mailroom σ) (events : List Event) : Mailroom σ :=
  events.foldl step room

@[simp] theorem after_concat {room : Mailroom σ} {events : List Event} {e : Event} :
    room.after (events ++ [e]) = (room.after events).step e := by
  simp [after]

/-- The rows are those of orderly holdings. -/
structure Orderly (room : Mailroom σ) : Prop where
  shows : room.primary.rows.Shows room.holdings
  holdings : room.holdings.Orderly

variable {room : Mailroom σ} {h : Holdings}

theorem holdings_eq (hs : room.primary.rows.Shows h) (ho : h.Orderly) : room.holdings = h :=
  hs.holdings_eq ho.storable

theorem orderly_of_shows (hs : room.primary.rows.Shows h) (ho : h.Orderly) : room.Orderly := by
  have heq : room.holdings = h := holdings_eq hs ho
  exact ⟨heq.symm ▸ hs, heq.symm ▸ ho⟩

/-- Neither messages nor labels. -/
structure Vacant (room : Mailroom σ) : Prop where
  messages : room.primary.rows.messages = []
  labels : room.primary.rows.labels = []

/-- A sound mailroom for two users before its first call. -/
def sample : Mailroom Unit where
  primary :=
    { rows :=
        { Primary.Rows.empty with
          users := [⟨"alice", "Alice", "", "alice@mail"⟩, ⟨"bob", "Bob", "", "bob@mail"⟩] }
      plan := Database.sound
      count := 0 }
  replica := ⟨⟨Replica.Rows.empty, Database.sound, 0⟩, 0⟩
  backlog := .empty
  keeping := .own
  outside := ()
  rules := ⟨.failClosed, 1000⟩
  idAt n := String.ofList (List.replicate (n + 1) 'u')
  drawn := 0
  now := 0

theorem Vacant.orderly (hv : room.Vacant) : room.Orderly := by
  refine orderly_of_shows (h := ⟨[], []⟩) ⟨hv.messages, hv.labels⟩ ⟨.nil, .nil, ?_, ?_, ?_, ?_⟩
  all_goals
    intro x hx
    cases hx

/-- A call as its acts and tasks, and what it makes of the holdings. -/
theorem step_halves (ho : room.Orderly) (e : Event) :
    ∃ acts tasks mid, Wrote e.caller room.holdings acts (room.atTime e.now) mid ∧
      (Owed e.caller room.holdings room.backlog.arrears e.operation acts tasks ∨
        Lapsed e.caller room.holdings room.primary.Sound e.operation acts tasks) ∧
      room.step e = mid.done tasks := by
  have hdoes := perform_does (room.atTime e.now) e.caller ho.shows ho.holdings e.operation
  unfold step
  cases hr : perform e.caller e.operation (room.atTime e.now) with
  | ok a room' =>
    obtain ⟨acts, tasks, mid, hw, howed, hdone⟩ := hdoes.ok a room' hr
    exact ⟨acts, tasks, mid, hw, .inl howed, hdone⟩
  | error f room' =>
    obtain ⟨acts, tasks, mid, hw, hlapsed, hdone⟩ := hdoes.error f room' hr
    exact ⟨acts, tasks, mid, hw, .inr hlapsed, hdone⟩

theorem Wrote.done_shows {caller : String} {acts : List Act} {mid : Mailroom σ}
    (hw : Wrote caller h acts room mid) (tasks : List Task) :
    (mid.done tasks).primary.rows.Shows (h.after acts) :=
  hw.shows.idle (trails_done mid tasks).primary

theorem Wrote.done_holdings {caller : String} {acts : List Act} {mid : Mailroom σ}
    (ho : h.Orderly) (hw : Wrote caller h acts room mid) (tasks : List Task) :
    (mid.done tasks).holdings = h.after acts :=
  holdings_eq (hw.done_shows tasks) (ho.after hw.legal)

theorem Orderly.step (ho : room.Orderly) (e : Event) : (room.step e).Orderly := by
  obtain ⟨acts, tasks, mid, hw, -, hdone⟩ := step_halves ho e
  rw [hdone]
  exact orderly_of_shows (hw.done_shows tasks) (ho.holdings.after hw.legal)

theorem Orderly.after (ho : room.Orderly) (events : List Event) : (room.after events).Orderly := by
  induction events generalizing room with
  | nil => exact ho
  | cons e events ih => exact ih (ho.step e)

/-- What every act that fits keeps is kept along every run. -/
theorem Orderly.kept_after {P : Holdings → Prop}
    (hP : ∀ h a caller fresh, P h → h.Fits caller fresh a → P (h.apply a)) (ho : room.Orderly)
    (hroom : P room.holdings) (events : List Event) : P (room.after events).holdings := by
  induction events generalizing room with
  | nil => exact hroom
  | cons e events ih =>
    apply ih (ho.step e)
    obtain ⟨acts, tasks, mid, hw, -, hdone⟩ := step_halves ho e
    rw [hdone, hw.done_holdings ho.holdings]
    exact Holdings.kept_after (fun h a => hP h a e.caller _) hw.legal hroom

/-- What no call changes. -/
structure Fixed (room room' : Mailroom σ) : Prop where
  keeping : room'.keeping = room.keeping
  rules : room'.rules = room.rules
  idAt : room'.idAt = room.idAt

theorem Orderly.fixed_step (ho : room.Orderly) (e : Event) : room.Fixed (room.step e) := by
  obtain ⟨acts, tasks, mid, hw, -, hdone⟩ := step_halves ho e
  have htrails : mid.Trails (mid.done tasks) := trails_done mid tasks
  rw [hdone]
  exact ⟨htrails.keeping.trans hw.keeping, htrails.rules.trans hw.rules, htrails.idAt.trans hw.idAt⟩

theorem Orderly.fixed_after (ho : room.Orderly) (events : List Event) :
    room.Fixed (room.after events) := by
  induction events generalizing room with
  | nil => exact ⟨rfl, rfl, rfl⟩
  | cons e events ih =>
    have hfirst : room.Fixed (room.step e) := ho.fixed_step e
    have hrest : (room.step e).Fixed ((room.step e).after events) := ih (ho.step e)
    exact ⟨hrest.keeping.trans hfirst.keeping, hrest.rules.trans hfirst.rules,
      hrest.idAt.trans hfirst.idAt⟩

end Mailroom

end LabelMail
