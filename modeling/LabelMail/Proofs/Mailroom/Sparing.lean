import LabelMail.Proofs.Mailroom.Moving
import LabelMail.Proofs.Primary.Sparing

/-!
What the operations spare. All but a few never touch the directory of users nor the blacklist that
the primary store keeps itself, however they end; the others are those that ask for a change of the
blacklist.
-/
namespace LabelMail.Mailroom

open Request (Compose DraftEdit)

variable {σ α β : Type} {start room room' : Mailroom σ}

/-- The users and the store's own blacklist are as they were, and the blacklist is kept where it
was. -/
structure SparedTables (room room' : Mailroom σ) : Prop where
  primary : Primary.SparedTables room.primary room'.primary
  keeping : room'.keeping = room.keeping

theorem SparedTables.refl (room : Mailroom σ) : SparedTables room room :=
  ⟨Primary.spared_of_idle (.refl _), rfl⟩

theorem SparedTables.trans (h : SparedTables start room) (h' : SparedTables room room') :
    SparedTables start room' :=
  ⟨h.primary.trans h'.primary, h'.keeping.trans h.keeping⟩

instance : IsPreorder (Mailroom σ) SparedTables where
  refl := SparedTables.refl
  trans _ _ _ := SparedTables.trans

theorem Trails.spared (h : room.Trails room') : SparedTables room room' :=
  ⟨Primary.spared_of_idle h.primary, h.keeping⟩

/-- An action that spares users and blacklist, however it ends. -/
def Sparing (a : Action σ α) : Prop :=
  Moves SparedTables a

theorem Quiet.sparing {a : Action σ α} (ha : Quiet a) : Sparing a :=
  Moves.mono ha fun _ _ => Trails.spared

theorem sparing_pure (a : α) : Sparing (pure a : Action σ α) := Moves.pure a

theorem sparing_ofExcept (v : Except Failure α) :
    Sparing (MonadExcept.ofExcept v : Action σ α) :=
  Moves.ofExcept v

theorem Sparing.attempt {a : Action σ α} (ha : Sparing a) : Sparing (attempt a) :=
  moves_attempt ha

theorem sparing_onPrimary {q : Primary.Query α} (hq : Primary.Sparing q) :
    Sparing (onPrimary q : Action σ α) := by
  intro room
  refine (onPrimary_ends room (hq room.primary)).mono ?_ ?_
  all_goals
    intro _ room' h
    obtain ⟨db, hdb, rfl⟩ := h
    exact ⟨hdb, rfl⟩

theorem overlooks_sparedTables : Overlooks (SparedTables : Mailroom σ → Mailroom σ → Prop) :=
  fun _ _ hidle hkeeping => ⟨Primary.spared_of_idle hidle, hkeeping⟩

theorem sparing_looking {q : Primary.Query α} (hq : Primary.Looks q) :
    Sparing (onPrimary q : Action σ α) :=
  overlooks_sparedTables.looking hq

theorem sparing_drawId : Sparing (drawId : Action σ String) := overlooks_sparedTables.drawId

theorem sparing_newMessage (src dest : User) (subject content owner : String) (tags : TagSet) :
    Sparing (newMessage src dest subject content owner tags : Action σ Message) :=
  sparing_drawId.bind fun _ => fun room => .of_ok (.refl room)

theorem SparedTables.ask_lookup (h : SparedTables start room) (url : String) :
    SparedTables start (ask ⟨.lookup, url⟩ room).2 := by
  have hconsults : Consults room (ask ⟨.lookup, url⟩ room).2 := consults_lookup url (.refl room)
  exact h.trans ⟨Primary.spared_of_idle hconsults.primary, hconsults.keeping⟩

/-- To ask whether an address is listed changes no table. -/
theorem sparing_lookup (url : String) : Sparing (call .lookup url : Action σ Bool) := fun room =>
  call_leaves ((SparedTables.refl room).ask_lookup url)

theorem sparing_screen (subject content : String) (withdrawn : Bool) :
    Sparing (screen subject content withdrawn : Action σ TagSet) := fun room =>
  screening_leaves
    (Screening.classify_keeps (fun url _ h => h.ask_lookup url) (SparedTables.refl room))

theorem sparing_person (id missing : String) : Sparing (person id missing : Action σ User) := by
  refine (sparing_looking (Primary.looks_select _)).bind fun found => ?_
  cases found with
  | none => exact .throw _
  | some u => exact .pure u

theorem sparing_refreshQuietly (id : String) : Sparing (refreshQuietly id : Action σ Unit) :=
  (quiet_refresh id).sparing.attempt.discard

theorem sparing_refreshed (id : String) (x : α) :
    Sparing (do refreshQuietly id; return x : Action σ α) :=
  (sparing_refreshQuietly id).bind fun _ => .pure x

theorem sparing_refreshAll (ms : List Message) : Sparing (refreshAll ms : Action σ Unit) := by
  induction ms with
  | nil => exact .pure ()
  | cons m ms ih => exact (sparing_refreshQuietly m.id).bind fun _ => ih

theorem sparing_saveDraft (caller : String) (c : Compose) :
    Sparing (saveDraft caller c : Action σ Message) := by
  have hrest : Sparing (do
      let name ← MonadExcept.ofExcept (required "to" c.recipient)
      let src ← sender caller
      let dest ← recipient name
      let draft ←
        newMessage src dest (trimmed c.subject) (trimmed c.content) src.id (.ofList [.drafts])
      onPrimary (Primary.insertMessage draft)
      refreshQuietly draft.id
      return draft : Action σ Message) := by
    exact (sparing_ofExcept _).bind fun name => (sparing_person caller _).bind fun src =>
      (sparing_person name _).bind fun dest =>
      (sparing_newMessage _ _ _ _ _ _).bind fun draft =>
      (sparing_onPrimary (Primary.sparing_insertMessage draft)).bind fun _ =>
      sparing_refreshed draft.id draft
  unfold saveDraft
  split
  · exact (Moves.throw _).bind fun _ => hrest
  · exact hrest

theorem sparing_deliver (src dest : User) (subject content : String) (tags : TagSet) :
    Sparing (deliver src dest subject content tags : Action σ Delivery) :=
  (sparing_newMessage _ _ _ _ _ _).bind fun m => sparing_drawId.bind fun _ =>
    (sparing_onPrimary (Primary.sparing_insertPair _ m)).bind fun _ =>
    (sparing_refreshAll _).bind fun _ => .pure _

theorem sparing_send (caller : String) (c : Compose) (withdrawn : Bool) :
    Sparing (send caller c withdrawn : Action σ Delivery) :=
  (sparing_ofExcept _).bind fun name => (sparing_ofExcept _).bind fun subject =>
    (sparing_ofExcept _).bind fun content => (sparing_person caller _).bind fun src =>
    (sparing_person name _).bind fun dest =>
    (sparing_screen subject content withdrawn).bind fun tags =>
    sparing_deliver src dest subject content tags

/-- A change of one message of the caller's. -/
theorem sparing_changeOwn {id caller : String} {f : Message → Primary.Query α}
    (hf : ∀ m, Primary.Sparing (f m)) :
    Sparing (onPrimary (Primary.ownMessage id caller >>= f) : Action σ α) :=
  sparing_onPrimary ((Primary.looks_ownMessage id caller).sparing.bind hf)

theorem sparing_changeDraft (caller id : String) (e : DraftEdit) :
    Sparing (changeDraft caller id e : Action σ Message) := by
  refine sparing_changeOwn fun draft => ?_
  have hrest : Primary.Sparing (do
      let draft : Message :=
        { draft with
          subject := edited draft.subject e.subject
          content := edited draft.content e.content }
      Primary.saveContent draft
      return draft : Primary.Query Message) :=
    (Primary.sparing_saveContent _).bind fun _ => .pure _
  split
  · exact (Moves.throw _).bind fun _ => hrest
  · exact hrest

theorem sparing_flipStar (id owner : String) : Sparing (flipStar id owner : Action σ Message) :=
  sparing_changeOwn fun _ => (Primary.sparing_saveTags _).bind fun _ => .pure _

theorem sparing_flipArchive (id owner : String) :
    Sparing (flipArchive id owner : Action σ Message) :=
  sparing_changeOwn fun _ => (Primary.looks_ofExcept _).sparing.bind fun _ =>
    (Primary.sparing_saveTags _).bind fun _ => .pure _

theorem sparing_flipTrash (id owner : String) : Sparing (flipTrash id owner : Action σ Message) :=
  sparing_changeOwn fun _ => (Primary.sparing_saveTags _).bind fun _ => .pure _

theorem sparing_setRead (id owner : String) (read : Bool) :
    Sparing (setRead id owner read : Action σ Message) := by
  refine sparing_changeOwn fun m => ?_
  rcases m.setRead read with ⟨m', changed⟩
  cases changed with
  | true => exact (Primary.sparing_saveTags m').bind fun _ => .pure m'
  | false => exact .pure m'

theorem sparing_setReadMany (owner : String) (ids : List String) (read : Bool) :
    Sparing (setReadMany owner ids read : Action σ (List Message)) := by
  refine Moves.bind (Moves.mapM fun id => ?_) fun changes =>
    (sparing_onPrimary (Primary.sparing_saveAllTags _)).bind fun _ => .pure _
  refine (sparing_looking (Primary.looks_ownMessage id owner)).attempt.bind fun r => ?_
  cases r with
  | ok m => exact .pure _
  | error e =>
    cases e with
    | notFound what => exact .pure none
    | _ => exact .throw _

theorem sparing_setAllRead (owner : String) :
    Sparing (setAllRead owner : Action σ (List Message)) :=
  (sparing_looking (Primary.looks_messagesOf owner)).bind fun _ => sparing_setReadMany owner _ true

theorem sparing_insertLabel (l : Label) :
    Sparing (onPrimary (Primary.insertLabel l) : Action σ Unit) :=
  sparing_onPrimary (Primary.sparing_insertLabel l)

theorem sparing_enterLabel (owner text : String) :
    Sparing (enterLabel owner text : Action σ Label) :=
  overlooks_sparedTables.enterLabel sparing_insertLabel owner text

theorem sparing_ensureLabel (owner name : String) :
    Sparing (ensureLabel owner name : Action σ Label) :=
  overlooks_sparedTables.ensureLabel sparing_insertLabel owner name

theorem sparing_retag (m : Message) (tags : TagSet) : Sparing (retag m tags : Action σ Message) :=
  (sparing_onPrimary (Primary.sparing_saveTags _)).bind fun _ => .pure _

theorem sparing_retagSpam (m : Message) (t : Screening.Toggled) :
    Sparing (retagSpam m t : Action σ Update) :=
  (sparing_retag m t.tags).bind fun _ => .pure _

theorem sparing_spelling (owner name : String) : Sparing (spelling owner name : Action σ String) :=
  overlooks_sparedTables.spelling owner name

theorem sparing_tagOfText (owner text : String) :
    Sparing (tagOfText owner text : Action σ Tag) :=
  overlooks_sparedTables.tagOfText owner text

/-- The tagging of a message with anything but spam. -/
theorem sparing_tagWith (m : Message) (t : Tag) (owner : String) :
    Sparing (do
      let (tags, changed) ← MonadExcept.ofExcept (m.tags.add t)
      if changed then
        if let .custom name := t then discard (ensureLabel owner name)
        return ⟨← retag m tags, true, []⟩
      else return ⟨m, false, []⟩ : Action σ Update) := by
  refine (sparing_ofExcept _).bind fun r => ?_
  have hstore : Sparing (do return ⟨← retag m r.1, true, []⟩ : Action σ Update) :=
    (sparing_retag m r.1).bind fun _ => .pure _
  obtain ⟨tags, changed⟩ := r
  cases changed with
  | false => exact .pure _
  | true =>
    cases t with
    | custom name => exact (sparing_ensureLabel owner name).discard.bind fun _ => hstore
    | _ => exact hstore

theorem sparing_untag (m : Message) (t : Tag) :
    Sparing (do
      let (tags, changed) := m.tags.remove t
      if changed then return ⟨← retag m tags, true, []⟩
      else return ⟨m, false, []⟩ : Action σ Update) := by
  rcases m.tags.remove t with ⟨tags, changed⟩
  cases changed with
  | false => exact .pure _
  | true => exact (sparing_retag m tags).bind fun _ => .pure _

/-- What follows a change of tags. -/
theorem sparing_finish (id : String) (u : Update) :
    Sparing (do
      if u.changed then refreshQuietly id
      return u : Action σ Update) := by
  split
  · exact sparing_refreshed id u
  · exact .pure u

theorem sparing_thenRefresh {a : Action σ α} (id : String) (ha : Sparing a) :
    Sparing (thenRefresh id a) :=
  ha.bind fun r => sparing_refreshed id r

theorem sparing_thenRefreshAll {a : Action σ (List Message)} (ha : Sparing a) :
    Sparing (thenRefreshAll a) :=
  ha.bind fun ms => (sparing_refreshAll ms).bind fun _ => .pure _

theorem sparing_markUnread (caller : String) (ids : List String) :
    Sparing (markUnread caller ids : Action σ Nat) := by
  unfold markUnread
  split
  · exact .throw _
  · exact sparing_thenRefreshAll (sparing_setReadMany caller ids false)

theorem sparing_sweepTrash (caller : String) :
    Sparing (sweepTrash caller : Action σ (List String)) :=
  sparing_onPrimary ((Primary.looks_trashedIds caller).sparing.bind fun ids =>
    Primary.sparing_deleteTrashed caller ids)

/-- A write to the replica that an operation makes in passing. -/
theorem sparing_inPassing {q : Replica.Query α} (hq : Replica.Steady q) :
    Sparing (Functor.discard (attempt (onReplica q)) : Action σ Unit) :=
  (quiet_onReplica hq).sparing.attempt.discard

theorem sparing_clearTrash (caller : String) : Sparing (clearTrash caller : Action σ Sweep) :=
  (sparing_sweepTrash caller).bind fun ids =>
    (quiet_onReplica (Replica.steady_deleteMessages ids)).sparing.attempt.bind fun _ =>
    (quiet_resolveAll ids).sparing.bind fun _ => .pure _

theorem sparing_createLabel (caller : String) (name : Option String) :
    Sparing (createLabel caller name : Action σ Label) :=
  (sparing_ofExcept _).bind fun text => (sparing_enterLabel caller text).bind fun l =>
    (sparing_inPassing (Replica.steady_putLabel l)).bind fun _ => .pure l

theorem sparing_renameTag (id owner text : String) :
    Sparing (renameTag id owner text : Action σ (Label × List Message)) :=
  sparing_onPrimary ((Primary.looks_select _).sparing.discard.bind fun _ =>
    Primary.sparing_renameLabel id owner text)

theorem sparing_renameLabel (caller id : String) (name : Option String) :
    Sparing (renameLabel caller id name : Action σ Label) :=
  (sparing_ofExcept _).bind fun text => (sparing_renameTag id caller text).bind fun r =>
    (sparing_inPassing (Replica.steady_putLabel r.1)).bind fun _ =>
    (sparing_refreshAll r.2).bind fun _ => .pure r.1

theorem sparing_deleteTag (id owner : String) :
    Sparing (deleteTag id owner : Action σ (Label × List Message)) :=
  sparing_onPrimary ((Primary.looks_select _).sparing.discard.bind fun _ =>
    Primary.sparing_deleteLabel id owner)

theorem sparing_deleteLabel (caller id : String) :
    Sparing (deleteLabel caller id : Action σ Label) :=
  (sparing_deleteTag id caller).bind fun r =>
    (sparing_inPassing (Replica.steady_deleteLabel _)).bind fun _ =>
    (sparing_refreshAll r.2).bind fun _ => .pure r.1

theorem sparing_folderOfText (owner text : String) :
    Sparing (folderOfText owner text : Action σ Folder) := by
  refine (sparing_ofExcept _).bind fun f => ?_
  cases f with
  | custom name => exact (sparing_spelling owner name).map Folder.custom
  | _ => exact .pure _

theorem sparing_retryPending : Sparing (retryPending : Action σ Retried) := fun room =>
  (retryPending_ends room).mono (fun _ _ h => h ▸ (trails_done room _).spared) fun _ _ h => h.elim

/-- The operations that may ask for a change of the blacklist. -/
def Operation.MayList : Operation → Prop
  | .changeLabel _ _ | .flipSpam _ | .blacklist _ | .unblacklist _ => True
  | _ => False

theorem perform_sparing (caller : String) {op : Operation} (hop : ¬ op.MayList) :
    Sparing (perform caller op : Action σ Outcome) := by
  cases op with
  | send c withdrawn => exact (sparing_send caller c withdrawn).map _
  | saveDraft c => exact (sparing_saveDraft caller c).map _
  | editDraft id e =>
    exact ((sparing_changeDraft caller id e).bind fun m => sparing_refreshed id m).map _
  | find id => exact (sparing_looking (Primary.looks_ownMessage id caller)).map _
  | list folder =>
    exact ((sparing_folderOfText caller _).bind fun f =>
      sparing_looking (Primary.looks_messagesIn caller f)).map _
  | listSpam => exact (sparing_looking (Primary.looks_messagesIn caller .spam)).map _
  | delete id =>
    exact ((sparing_onPrimary (Primary.sparing_deleteOwn id caller)).bind fun _ =>
      sparing_refreshQuietly id).map _
  | changeLabel id c => exact absurd trivial hop
  | flipSpam id => exact absurd trivial hop
  | flipStar id => exact (sparing_thenRefresh id (sparing_flipStar id caller)).map _
  | flipArchive id => exact (sparing_thenRefresh id (sparing_flipArchive id caller)).map _
  | flipTrash id => exact (sparing_thenRefresh id (sparing_flipTrash id caller)).map _
  | markRead id read => exact (sparing_thenRefresh id (sparing_setRead id caller read)).map _
  | markAllRead => exact (sparing_thenRefreshAll (sparing_setAllRead caller)).map _
  | markUnread ids => exact (sparing_markUnread caller ids).map _
  | clearTrash => exact (sparing_clearTrash caller).map _
  | search query =>
    exact ((sparing_ofExcept _).bind fun text =>
      sparing_looking (Primary.looks_search caller text none)).map _
  | searchIn folder query =>
    exact ((sparing_ofExcept _).bind fun text => (sparing_folderOfText caller folder).bind fun f =>
      sparing_looking (Primary.looks_search caller text (some f))).map _
  | labels => exact (sparing_looking (Primary.looks_select _)).map _
  | findLabel id => exact (sparing_looking (Primary.looks_ownLabel id caller)).map _
  | createLabel name => exact (sparing_createLabel caller name).map _
  | renameLabel id name => exact (sparing_renameLabel caller id name).map _
  | deleteLabel id => exact (sparing_deleteLabel caller id).map _
  | blacklist url => exact absurd trivial hop
  | unblacklist url => exact absurd trivial hop
  | isBlacklisted url => exact (sparing_lookup url).map _
  | synchronize => exact (quiet_synchronize caller).sparing.map _
  | pending => exact Moves.map (fun room => .of_ok (.refl room)) _
  | retryPending => exact sparing_retryPending.map _

end LabelMail.Mailroom
