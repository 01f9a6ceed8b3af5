import LabelMail.Proofs.ActionPairs
import LabelMail.Proofs.Divergence

/-!
The replica never decides. Two mailrooms that differ in replica and backlog alone answer every call
alike that does not ask for the state of the two, and they keep the same primary store and the same
blacklist, whatever the one replica refuses and the other does not.
-/
namespace LabelMail.Mailroom

open Blacklist (Oracle)
open Request (Compose LabelChange)

variable {σ α β : Type} {room room' mid : Mailroom σ}

/-- The mailrooms differ in replica and backlog at most. -/
def Twins (room room' : Mailroom σ) : Prop :=
  ∃ r b, room' = { room with replica := r, backlog := b }

theorem Twins.refl (room : Mailroom σ) : room.Twins room := ⟨room.replica, room.backlog, rfl⟩

theorem Twins.symm (h : room.Twins room') : room'.Twins room := by
  obtain ⟨r, b, rfl⟩ := h
  exact ⟨room.replica, room.backlog, rfl⟩

theorem Twins.trans (h : room.Twins mid) (h' : mid.Twins room') : room.Twins room' := by
  obtain ⟨r, b, rfl⟩ := h
  obtain ⟨r', b', rfl⟩ := h'
  exact ⟨r', b', rfl⟩

instance : IsPreorder (Mailroom σ) Twins where
  refl := Twins.refl
  trans _ _ _ := Twins.trans

/-- The action touches nothing but replica and backlog. -/
def Aside (a : Action σ α) : Prop :=
  ∀ room, Ends (a room) (fun _ room' => room.Twins room') fun _ room' => room.Twins room'

theorem aside_pure (a : α) : Aside (pure a : Action σ α) := Moves.pure a

theorem aside_throw (e : Failure) : Aside (throw e : Action σ α) := Moves.throw e

theorem Aside.bind {a : Action σ α} {f : α → Action σ β} (ha : Aside a) (hf : ∀ x, Aside (f x)) :
    Aside (a >>= f) :=
  Moves.bind ha hf

theorem Aside.discard {a : Action σ α} (ha : Aside a) : Aside (Functor.discard a : Action σ Unit) :=
  Moves.discard ha

theorem Aside.attempt {a : Action σ α} (ha : Aside a) : Aside (Mailroom.attempt a) := fun room =>
  (attempt_done a).mono (fun _ _ h => h ▸ of_state (ha room)) fun _ _ h => h.elim

theorem aside_onReplica (q : Replica.Query α) : Aside (onReplica q : Action σ α) := by
  intro room
  unfold onReplica
  split
  · exact .of_ok ⟨_, room.backlog, rfl⟩
  · exact .of_error ⟨_, room.backlog, rfl⟩

theorem aside_resolve (id : String) : Aside (resolve id : Action σ Unit) := fun room =>
  .of_ok ⟨room.replica, _, rfl⟩

theorem aside_resolveAll (ids : List String) : Aside (ids.forM resolve : Action σ Unit) := by
  induction ids with
  | nil => exact aside_pure ()
  | cons id ids ih => exact (aside_resolve id).bind fun _ => ih

theorem aside_recordFailure (id owner : String) (labelIds : List String) (e : Failure) :
    Aside (recordFailure id owner labelIds e : Action σ Unit) := fun room =>
  .of_ok ⟨room.replica, _, rfl⟩

theorem aside_replaceLinks (id owner : String) (labelIds : List String) :
    Aside (replaceLinks id owner labelIds : Action σ Nat) := by
  refine (aside_onReplica _).attempt.bind fun r => ?_
  cases r with
  | ok linked => exact (aside_resolve id).bind fun _ => aside_pure linked
  | error e => exact (aside_recordFailure id owner _ e).bind fun _ => aside_throw e

/-- The action takes no notice of replica and backlog. -/
def Heedless (a : Action σ α) : Prop :=
  ∀ room room', room.Twins room' → Same Twins a a room room'

theorem heedless_pure (a : α) : Heedless (pure a : Action σ α) := fun _ _ h => .pure a h

theorem heedless_throw (e : Failure) : Heedless (throw e : Action σ α) := fun _ _ h => .throw e h

theorem heedless_ofExcept (v : Except Failure α) :
    Heedless (MonadExcept.ofExcept v : Action σ α) := fun _ _ h => .ofExcept v h

theorem Heedless.bind {a : Action σ α} {f : α → Action σ β} (ha : Heedless a)
    (hf : ∀ x, Heedless (f x)) : Heedless (a >>= f) := fun room room' h =>
  (ha room room' h).bind (fun x s t hst => hf x s t hst) fun _ _ h => h

theorem Heedless.map {a : Action σ α} (ha : Heedless a) (f : α → β) : Heedless (f <$> a) :=
  fun room room' h => (ha room room' h).map f

theorem Heedless.discard {a : Action σ α} (ha : Heedless a) :
    Heedless (Functor.discard a : Action σ Unit) := fun room room' h => (ha room room' h).discard

theorem Heedless.mapM {f : α → Action σ β} (hf : ∀ x, Heedless (f x)) (l : List α) :
    Heedless (l.mapM f) := fun _ _ h => .mapM (fun x s t hst => hf x s t hst) l h

theorem Heedless.attempt {a : Action σ α} (ha : Heedless a) : Heedless (Mailroom.attempt a) :=
  fun room room' h => attempt_same (ha room room' h)

theorem heedless_onPrimary (q : Primary.Query α) : Heedless (onPrimary q : Action σ α) := by
  rintro room _ ⟨r, b, rfl⟩
  unfold Same onPrimary
  dsimp only
  cases q room.primary with
  | ok a db => exact .ok ⟨rfl, r, b, rfl⟩
  | error e db => exact .error ⟨r, b, rfl⟩

theorem heedless_drawId : Heedless (drawId : Action σ String) := by
  rintro room _ ⟨r, b, rfl⟩
  exact .ok ⟨rfl, r, b, rfl⟩

theorem heedless_time : Heedless (time : Action σ Calendar.Instant) := by
  rintro room _ ⟨r, b, rfl⟩
  exact .ok ⟨rfl, r, b, rfl⟩

theorem ask_parallel : Screening.Parallel (ask : Oracle (Mailroom σ)) Twins := by
  rintro c room _ ⟨r, b, rfl⟩
  unfold ask
  dsimp only
  cases room.keeping with
  | own =>
    dsimp only
    cases Primary.ask room.now c room.primary with
    | ok a db => exact ⟨rfl, r, b, rfl⟩
    | error e db => exact ⟨rfl, r, b, rfl⟩
  | elsewhere ask => exact ⟨rfl, r, b, rfl⟩

theorem heedless_call (verb : Blacklist.Verb) (url : String) :
    Heedless (call verb url : Action σ Bool) := fun _ _ h => call_same ask_parallel verb url h

theorem heedless_screening {f : Oracle (Mailroom σ) → Screening.Rules → Mailroom σ →
      Except Failure α × Mailroom σ}
    (hf : ∀ rules room room', room.Twins room' →
      Screening.Agree Twins (f ask rules room) (f ask rules room')) :
    Heedless (screening f) := by
  intro room room' h
  have hrules : room'.rules = room.rules := by
    obtain ⟨r, b, rfl⟩ := h
    rfl
  exact screening_same hrules (hf room.rules room room' h)

/-- However the action ends, in either of two twins it leaves twins behind. -/
def Parts (a : Action σ α) : Prop :=
  ∀ room room', room.Twins room' → (state (a room)).Twins (state (a room'))

theorem Aside.parts {a : Action σ α} (ha : Aside a) : Parts a := fun room room' h =>
  ((of_state (ha room)).symm.trans h).trans (of_state (ha room'))

theorem Heedless.parts {a : Action σ α} (ha : Heedless a) {f : α → Action σ β}
    (hf : ∀ x, Parts (f x)) : Parts (a >>= f) := by
  intro room room' h
  have hends : Same Twins a a room room' := ha room room' h
  change (state (EStateM.bind a f room)).Twins (state (EStateM.bind a f room'))
  unfold EStateM.bind
  unfold Same at hends
  generalize a room = r at hends
  generalize a room' = r' at hends
  cases hends with
  | ok h =>
    obtain ⟨rfl, h⟩ := h
    exact hf _ _ _ h
  | error h => exact h

theorem attempt_eq (a : Action σ α) (room : Mailroom σ) :
    ∃ v, attempt a room = .ok v (state (a room)) := by
  unfold attempt
  cases a room with
  | ok x room' => exact ⟨.ok x, rfl⟩
  | error e room' => exact ⟨.error e, rfl⟩

/-- What fails on the side of the replica is not heard of. -/
theorem Parts.quietly {a : Action σ α} (ha : Parts a) :
    Heedless (Functor.discard (attempt a) : Action σ Unit) := by
  intro room room' h
  obtain ⟨v, hv⟩ := attempt_eq a room
  obtain ⟨v', hv'⟩ := attempt_eq a room'
  refine Alike.map (p := fun _ => ()) (q := fun _ => ()) ?_
  rw [hv, hv']
  exact .ok ⟨rfl, ha room room' h⟩

theorem heedless_labelOfTag (owner : String) (t : Tag) :
    Heedless (labelOfTag owner t : Action σ Label) := by
  cases t with
  | custom name => exact (heedless_onPrimary _).bind fun _ => heedless_pure _
  | _ => exact heedless_pure _

/-- All that a refresh reads in the primary store it reads before it turns to the replica. -/
theorem parts_refresh (id : String) : Parts (refresh id : Action σ Refreshed) := by
  refine (heedless_onPrimary _).parts fun found => ?_
  cases found with
  | none =>
    exact Aside.parts ((aside_onReplica _).discard.bind fun _ =>
      (aside_resolve id).bind fun _ => aside_pure _)
  | some m =>
    change Parts ((labelsOfTags m >>= fun labels => _) >>= fun _ => pure Refreshed.copied)
    rw [bind_assoc]
    refine (Heedless.mapM (heedless_labelOfTag m.ownerId) _).parts fun labels => Aside.parts ?_
    refine Aside.bind ((aside_onReplica _).attempt.bind fun r => ?_) fun _ => aside_pure _
    cases r with
    | ok _ => exact (aside_replaceLinks m.id m.ownerId _).discard
    | error e => exact (aside_recordFailure m.id m.ownerId _ e).bind fun _ => aside_throw e

theorem heedless_refreshQuietly (id : String) : Heedless (refreshQuietly id : Action σ Unit) :=
  (parts_refresh id).quietly

theorem heedless_refreshAll (ms : List Message) : Heedless (refreshAll ms : Action σ Unit) :=
  fun _ _ h => .forM (fun m s t hst => heedless_refreshQuietly m.id s t hst) ms h

/-- A write to the replica that an operation makes in passing. -/
theorem heedless_inPassing (q : Replica.Query α) :
    Heedless (Functor.discard (attempt (onReplica q)) : Action σ Unit) :=
  (aside_onReplica q).parts.quietly

theorem heedless_spelling (owner name : String) :
    Heedless (spelling owner name : Action σ String) :=
  (heedless_onPrimary _).bind fun _ => heedless_pure _

theorem heedless_tagOfText (owner text : String) :
    Heedless (tagOfText owner text : Action σ Tag) := by
  refine (heedless_ofExcept _).bind fun t => ?_
  cases t with
  | custom name => exact (heedless_spelling owner name).map Tag.custom
  | _ => exact heedless_pure _

theorem heedless_folderOfText (owner text : String) :
    Heedless (folderOfText owner text : Action σ Folder) := by
  refine (heedless_ofExcept _).bind fun f => ?_
  cases f with
  | custom name => exact (heedless_spelling owner name).map Folder.custom
  | _ => exact heedless_pure _

theorem heedless_enterLabel (owner text : String) :
    Heedless (enterLabel owner text : Action σ Label) := by
  refine (heedless_ofExcept _).bind fun name => (heedless_onPrimary _).bind fun found => ?_
  have hrest : Heedless (do
      let l : Label := ⟨← drawId, owner, name⟩
      onPrimary (Primary.insertLabel l)
      return l : Action σ Label) :=
    heedless_drawId.bind fun _ => (heedless_onPrimary _).bind fun _ => heedless_pure _
  split
  · exact (heedless_throw _).bind fun _ => hrest
  · exact hrest

theorem heedless_ensureLabel (owner name : String) :
    Heedless (ensureLabel owner name : Action σ Label) := by
  refine (heedless_onPrimary _).bind fun found => ?_
  cases found with
  | some l => exact heedless_pure l
  | none =>
    refine (heedless_enterLabel owner name).attempt.bind fun r => ?_
    cases r with
    | ok l => exact heedless_pure l
    | error e =>
      cases e with
      | conflict why =>
        refine (heedless_onPrimary _).bind fun found => ?_
        cases found with
        | some l => exact heedless_pure l
        | none => exact heedless_throw _
      | _ => exact heedless_throw _

theorem heedless_retag (m : Message) (tags : TagSet) :
    Heedless (retag m tags : Action σ Message) :=
  (heedless_onPrimary _).bind fun _ => heedless_pure _

theorem heedless_retagSpam (m : Message) (t : Screening.Toggled) :
    Heedless (retagSpam m t : Action σ Update) :=
  (heedless_retag m t.tags).bind fun _ => heedless_pure _

theorem heedless_condemn (m : Message) : Heedless (condemn m : Action σ Update) :=
  (heedless_screening fun _ _ _ h => Screening.condemn_parallel ask_parallel h _ m).bind
    (heedless_retagSpam m)

theorem heedless_acquit (m : Message) : Heedless (acquit m : Action σ Update) := by
  refine (heedless_screening fun rules room room' h => ?_).bind (heedless_retagSpam m)
  obtain ⟨htoggled, hstate⟩ := Screening.acquit_parallel ask_parallel h rules m
  exact ⟨congrArg Except.ok htoggled, hstate⟩

theorem heedless_flipSpam (id owner : String) : Heedless (flipSpam id owner : Action σ Update) :=
  (heedless_onPrimary _).bind fun m =>
    (heedless_screening fun _ _ _ h => Screening.flipSpam_parallel ask_parallel h _ m).bind
      (heedless_retagSpam m)

theorem heedless_addTag (id owner text : String) :
    Heedless (addTag id owner text : Action σ Update) := by
  refine (heedless_tagOfText owner text).bind fun t => (heedless_onPrimary _).bind fun m => ?_
  have hstore (tags : TagSet) :
      Heedless (do return ⟨← retag m tags, true, []⟩ : Action σ Update) :=
    (heedless_retag m tags).bind fun _ => heedless_pure _
  split
  · split
    · exact heedless_pure _
    · exact heedless_condemn m
  · refine (heedless_ofExcept _).bind fun r => ?_
    obtain ⟨tags, changed⟩ := r
    cases changed with
    | false => exact heedless_pure _
    | true =>
      cases t with
      | custom name => exact (heedless_ensureLabel owner name).discard.bind fun _ => hstore tags
      | _ => exact hstore tags

theorem heedless_removeTag (id owner text : String) :
    Heedless (removeTag id owner text : Action σ Update) := by
  refine (heedless_tagOfText owner text).bind fun t => (heedless_onPrimary _).bind fun m => ?_
  split
  · split
    · exact heedless_acquit m
    · exact heedless_pure _
  · rcases m.tags.remove t with ⟨tags, changed⟩
    cases changed with
    | false => exact heedless_pure _
    | true => exact (heedless_retag m tags).bind fun _ => heedless_pure _

theorem heedless_setReadMany (owner : String) (ids : List String) (read : Bool) :
    Heedless (setReadMany owner ids read : Action σ (List Message)) := by
  refine (Heedless.mapM (fun id => ?_) ids).bind fun changes =>
    (heedless_onPrimary _).bind fun _ => heedless_pure _
  refine (heedless_onPrimary _).attempt.bind fun r => ?_
  cases r with
  | ok m => exact heedless_pure _
  | error e =>
    cases e with
    | notFound what => exact heedless_pure none
    | _ => exact heedless_throw _

theorem heedless_person (id missing : String) :
    Heedless (person id missing : Action σ User) := by
  refine (heedless_onPrimary _).bind fun found => ?_
  cases found with
  | none => exact heedless_throw _
  | some u => exact heedless_pure u

theorem heedless_newMessage (src dest : User) (subject content ownerId : String) (tags : TagSet) :
    Heedless (newMessage src dest subject content ownerId tags : Action σ Message) :=
  heedless_drawId.bind fun _ => heedless_time.bind fun _ => heedless_pure _

theorem heedless_screen (subject content : String) (withdrawn : Bool) :
    Heedless (screen subject content withdrawn : Action σ TagSet) := by
  refine heedless_screening fun rules room room' h => ?_
  obtain ⟨htags, hwithdrawn, hstate⟩ :=
    Screening.classify_parallel ask_parallel h rules subject content withdrawn
  exact ⟨by simp only [htags, hwithdrawn], hstate⟩

theorem heedless_send (caller : String) (c : Compose) (withdrawn : Bool) :
    Heedless (send caller c withdrawn : Action σ Delivery) :=
  (heedless_ofExcept _).bind fun name => (heedless_ofExcept _).bind fun subject =>
    (heedless_ofExcept _).bind fun content => (heedless_person caller _).bind fun src =>
    (heedless_person name _).bind fun dest => (heedless_screen subject content withdrawn).bind
    fun tags => (heedless_newMessage src dest subject content dest.id tags).bind fun _ =>
    heedless_drawId.bind fun _ => (heedless_onPrimary _).bind fun _ =>
    (heedless_refreshAll _).bind fun _ => heedless_pure _

theorem heedless_saveDraft (caller : String) (c : Compose) :
    Heedless (saveDraft caller c : Action σ Message) := by
  have hrest : Heedless (do
      let name ← MonadExcept.ofExcept (required "to" c.recipient)
      let src ← sender caller
      let dest ← recipient name
      let draft ←
        newMessage src dest (trimmed c.subject) (trimmed c.content) src.id (.ofList [.drafts])
      onPrimary (Primary.insertMessage draft)
      refreshQuietly draft.id
      return draft : Action σ Message) :=
    (heedless_ofExcept _).bind fun name => (heedless_person caller _).bind fun src =>
      (heedless_person name _).bind fun dest => (heedless_newMessage src dest _ _ _ _).bind
      fun draft => (heedless_onPrimary _).bind fun _ =>
      (heedless_refreshQuietly draft.id).bind fun _ => heedless_pure draft
  unfold saveDraft
  split
  · exact (heedless_throw _).bind fun _ => hrest
  · exact hrest

theorem heedless_thenRefresh {a : Action σ α} (id : String) (ha : Heedless a) :
    Heedless (thenRefresh id a) :=
  ha.bind fun r => (heedless_refreshQuietly id).bind fun _ => heedless_pure r

theorem heedless_thenRefreshAll {a : Action σ (List Message)} (ha : Heedless a) :
    Heedless (thenRefreshAll a) :=
  ha.bind fun ms => (heedless_refreshAll ms).bind fun _ => heedless_pure _

theorem heedless_changeLabel (caller id : String) (c : LabelChange) :
    Heedless (changeLabel caller id c : Action σ Update) := by
  have hfinish (u : Update) :
      Heedless (do if u.changed then refreshQuietly id
                   return u : Action σ Update) := by
    split
    · exact (heedless_refreshQuietly id).bind fun _ => heedless_pure u
    · exact heedless_pure u
  refine (heedless_ofExcept _).bind fun text => ?_
  cases c.action with
  | add => exact (heedless_addTag id caller text).bind hfinish
  | remove => exact (heedless_removeTag id caller text).bind hfinish

theorem heedless_createLabel (caller : String) (name : Option String) :
    Heedless (createLabel caller name : Action σ Label) :=
  (heedless_ofExcept _).bind fun text => (heedless_enterLabel caller text).bind fun l =>
    (heedless_inPassing _).bind fun _ => heedless_pure l

theorem heedless_renameLabel (caller id : String) (name : Option String) :
    Heedless (renameLabel caller id name : Action σ Label) :=
  (heedless_ofExcept _).bind fun _ => (heedless_onPrimary _).bind fun r =>
    (heedless_inPassing _).bind fun _ => (heedless_refreshAll r.2).bind fun _ => heedless_pure r.1

theorem heedless_deleteLabel (caller id : String) :
    Heedless (deleteLabel caller id : Action σ Label) :=
  (heedless_onPrimary _).bind fun r =>
    (heedless_inPassing _).bind fun _ => (heedless_refreshAll r.2).bind fun _ => heedless_pure r.1

/-- Of a sweep, how many of the messages the replica had is left open. -/
def Outcome.unaided : Outcome → Outcome
  | .sweep s => .sweep { s with removed := 0 }
  | o => o

/-- The operations that ask for the state of the replica or of the backlog. -/
def Operation.audits : List Operation :=
  [.synchronize, .pending, .retryPending]

theorem twins_sweep (room : Mailroom σ) (ids : List String) :
    room.Twins (room.done [.sweep ids]) :=
  (of_state (aside_onReplica _ room)).trans (of_state (aside_resolveAll ids _))

/-- The replica only tells how many of the messages it had. -/
theorem clearTrash_alike (caller : String) (h : room.Twins room') :
    Alike (fun s mid s' mid' => s.count = s'.count ∧ mid.Twins mid') Twins
      (clearTrash caller room) (clearTrash caller room') := by
  refine Alike.bind (heedless_onPrimary _ room room' h) (fun ids mid ids' mid' hids => ?_)
    fun _ _ h => h
  obtain ⟨rfl, hmid⟩ := hids
  refine .of_ends (finishes_sweep ids mid) (finishes_sweep ids mid')
    fun s room₁ s' room₁' hs hs' => ?_
  obtain ⟨hcount, rfl⟩ := hs
  obtain ⟨hcount', rfl⟩ := hs'
  exact ⟨hcount.trans hcount'.symm,
    ((twins_sweep mid ids).symm.trans hmid).trans (twins_sweep mid' ids)⟩

theorem perform_alike (caller : String) {op : Operation} (hop : op ∉ Operation.audits)
    (h : room.Twins room') :
    Alike (fun o mid o' mid' => o.unaided = o'.unaided ∧ mid.Twins mid') Twins
      (perform caller op room) (perform caller op room') := by
  have hsame {α : Type} {a : Action σ α} (ha : Heedless a) (f : α → Outcome) :
      Alike (fun o mid o' mid' => o.unaided = o'.unaided ∧ mid.Twins mid') Twins
        ((f <$> a) room) ((f <$> a) room') :=
    Alike.mono (ha.map f room room' h)
      (fun _ _ _ _ h => ⟨congrArg Outcome.unaided h.1, h.2⟩) fun _ _ h => h
  cases op with
  | send c withdrawn => exact hsame (heedless_send caller c withdrawn) _
  | saveDraft c => exact hsame (heedless_saveDraft caller c) _
  | editDraft id e =>
    exact hsame ((heedless_onPrimary _).bind fun m =>
      (heedless_refreshQuietly id).bind fun _ => heedless_pure m) _
  | find id => exact hsame (heedless_onPrimary _) _
  | list folder =>
    exact hsame ((heedless_folderOfText caller _).bind fun _ => heedless_onPrimary _) _
  | listSpam => exact hsame (heedless_onPrimary _) _
  | delete id =>
    exact hsame ((heedless_onPrimary _).bind fun _ => heedless_refreshQuietly id) _
  | changeLabel id c => exact hsame (heedless_changeLabel caller id c) _
  | flipSpam id => exact hsame (heedless_thenRefresh id (heedless_flipSpam id caller)) _
  | flipStar id => exact hsame (heedless_thenRefresh id (heedless_onPrimary _)) _
  | flipArchive id => exact hsame (heedless_thenRefresh id (heedless_onPrimary _)) _
  | flipTrash id => exact hsame (heedless_thenRefresh id (heedless_onPrimary _)) _
  | markRead id read => exact hsame (heedless_thenRefresh id (heedless_onPrimary _)) _
  | markAllRead =>
    exact hsame (heedless_thenRefreshAll ((heedless_onPrimary _).bind fun _ =>
      heedless_setReadMany caller _ true)) _
  | markUnread ids =>
    refine hsame ?_ _
    unfold markUnread
    split
    · exact heedless_throw _
    · exact heedless_thenRefreshAll (heedless_setReadMany caller ids false)
  | clearTrash =>
    refine Alike.map ((clearTrash_alike caller h).mono (fun s _ s' _ hs => ⟨?_, hs.2⟩)
      fun _ _ h => h)
    simp only [Outcome.unaided, hs.1]
  | search query =>
    exact hsame ((heedless_ofExcept _).bind fun _ => heedless_onPrimary _) _
  | searchIn folder query =>
    exact hsame ((heedless_ofExcept _).bind fun _ =>
      (heedless_folderOfText caller folder).bind fun _ => heedless_onPrimary _) _
  | labels => exact hsame (heedless_onPrimary _) _
  | findLabel id => exact hsame (heedless_onPrimary _) _
  | createLabel name => exact hsame (heedless_createLabel caller name) _
  | renameLabel id name => exact hsame (heedless_renameLabel caller id name) _
  | deleteLabel id => exact hsame (heedless_deleteLabel caller id) _
  | blacklist url =>
    exact hsame ((heedless_ofExcept _).bind fun url => heedless_call .add url) _
  | unblacklist url => exact hsame (heedless_call .remove url) _
  | isBlacklisted url => exact hsame (heedless_call .lookup url) _
  | synchronize => exact absurd (by decide) hop
  | pending => exact absurd (by decide) hop
  | retryPending => exact absurd (by decide) hop

/-- What a call returns, or why it fails. -/
def result (room : Mailroom σ) (e : Event) : Except Failure Outcome :=
  match perform e.caller e.operation (room.atTime e.now) with
  | .ok o _ => .ok o
  | .error f _ => .error f

/-- What the calls of a run return. -/
def results (room : Mailroom σ) : List Event → List (Except Failure Outcome)
  | [] => []
  | e :: events => room.result e :: (room.step e).results events

theorem Twins.step (h : room.Twins room') {e : Event} (he : e.operation ∉ Operation.audits) :
    (room'.result e).map Outcome.unaided = (room.result e).map Outcome.unaided ∧
      (room.step e).Twins (room'.step e) := by
  have hnow : (room.atTime e.now).Twins (room'.atTime e.now) := by
    obtain ⟨r, b, rfl⟩ := h
    exact ⟨r, b, rfl⟩
  have hends := perform_alike e.caller he hnow
  unfold result Mailroom.step
  generalize perform e.caller e.operation (room.atTime e.now) = r at hends
  generalize perform e.caller e.operation (room'.atTime e.now) = r' at hends
  cases hends with
  | ok h => exact ⟨congrArg Except.ok h.1.symm, h.2⟩
  | error h => exact ⟨rfl, h⟩

theorem Twins.after (h : room.Twins room') {events : List Event}
    (hevents : ∀ e ∈ events, e.operation ∉ Operation.audits) :
    (room'.results events).map (·.map Outcome.unaided) =
        (room.results events).map (·.map Outcome.unaided) ∧
      (room.after events).Twins (room'.after events) := by
  induction events generalizing room room' with
  | nil => exact ⟨rfl, h⟩
  | cons e events ih =>
    obtain ⟨hresult, hstep⟩ := h.step (hevents e List.mem_cons_self)
    obtain ⟨hresults, hafter⟩ := ih hstep fun e' he' => hevents e' (List.mem_cons_of_mem e he')
    exact ⟨List.cons_eq_cons.mpr ⟨hresult, hresults⟩, hafter⟩

/-- Whatever the replica and the backlog are, which includes what the replica will refuse, a run of
calls that do not ask for them returns the same and leaves the same primary store and the same
blacklist. -/
theorem replica_never_decides (room : Mailroom σ) (replica : Replica) (backlog : Backlog)
    (events : List Event) (hevents : ∀ e ∈ events, e.operation ∉ Operation.audits) :
    let other := { room with replica := replica, backlog := backlog }
    (other.results events).map (·.map Outcome.unaided) =
        (room.results events).map (·.map Outcome.unaided) ∧
      (other.after events).primary = (room.after events).primary ∧
      (other.after events).outside = (room.after events).outside := by
  intro other
  have htwins : room.Twins other := ⟨replica, backlog, rfl⟩
  obtain ⟨hresults, r, b, hafter⟩ := htwins.after hevents
  exact ⟨hresults, by rw [hafter], by rw [hafter]⟩

/-- A replica that refuses to delete a message has it after a sweep, and the sweep tells so. -/
theorem replica_never_decides_swept :
    let other := { sample with replica := (refusing (.deleteMessage "u")).replica, backlog := .empty }
    (∀ e ∈ sweptDelivery, e.operation ∉ Operation.audits) ∧
      other.results sweptDelivery ≠ sample.results sweptDelivery ∧
      (other.results sweptDelivery).map (·.map Outcome.unaided) =
        (sample.results sweptDelivery).map (·.map Outcome.unaided) ∧
      (other.after sweptDelivery).primary = (sample.after sweptDelivery).primary ∧
      (other.after sweptDelivery).outside = (sample.after sweptDelivery).outside := by
  intro other
  have hevents : ∀ e ∈ sweptDelivery, e.operation ∉ Operation.audits := by decide
  exact ⟨hevents, by decide +kernel,
    replica_never_decides sample (refusing (.deleteMessage "u")).replica .empty sweptDelivery
      hevents⟩

end LabelMail.Mailroom
