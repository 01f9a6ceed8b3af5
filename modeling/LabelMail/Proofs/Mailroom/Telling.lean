import LabelMail.Proofs.Mailroom.Runs

/-!
The messages that an operation returns. Each of them is as the primary store has it in the end,
whether the operation has written it or only read it; what happens to the replica in between makes
no difference.
-/
namespace LabelMail

namespace Primary

variable {db : Store} {h : Holdings} {owner query : String}

theorem search_shown (hs : db.rows.Shows h) (ho : h.Orderly) (f : Option Folder) :
    Ends (search owner query f db) (fun r db' => (∀ m ∈ r, m ∈ h.messages) ∧ db.Idle db')
      (fun _ db' => db.Idle db') := by
  have hfound : Ends (Database.statement (.database "") (fun _ => []) (fun rows =>
        let mine := rowsOf owner rows
        if Text.Wildcard.tooLong (Text.Wildcard.containing query) && !mine.isEmpty then
          .error .broken
        else .ok (mine.filter (·.contains (Text.Wildcard.containing query)), rows)) db)
      (fun rows db' => (∀ row ∈ rows, ∃ m ∈ h.messages, row = .ofMessage m) ∧ db.Idle db')
      (fun _ db' => db.Idle db') := by
    refine (Database.statement_ends _ _ _).mono (fun rows db' hrows => ?_) (fun _ _ he => he.1)
    obtain ⟨hrows, hcount⟩ := hrows
    dsimp only at hrows
    split at hrows
    · cases hrows
    · obtain ⟨rfl, hsame⟩ := Prod.mk.inj (Except.ok.inj hrows)
      refine ⟨fun row hrow => ?_, hcount, hsame.symm⟩
      have hmine : row ∈ rowsOf owner db.rows := (List.mem_filter.mp hrow).1
      rw [hs.rowsOf] at hmine
      obtain ⟨m, hm, rfl⟩ := List.mem_map.mp hmine
      exact ⟨m, (Holdings.mem_mailbox.mp hm).1, rfl⟩
  refine hfound.bind (fun rows db' hrows => ?_) (fun _ _ he => he)
  obtain ⟨hrows, hi⟩ := hrows
  have hread : Ends (rows.mapM (fun r => (MonadExcept.ofExcept r.message : Query Message)) db')
      (fun ms db'' => (∀ m ∈ ms, m ∈ h.messages) ∧ db.Idle db'') (fun _ db'' => db.Idle db'') := by
    refine Ends.mapM_all (I := fun db'' => db.Idle db'') (fun row hrow db'' hi' => ?_) hi
    obtain ⟨m, hm, rfl⟩ := hrows row hrow
    refine (readRow_ends (ho.storable m hm)).mono (fun x _ hx => ?_) fun _ _ he => he.elim
    obtain ⟨rfl, rfl⟩ := hx
    exact ⟨hm, hi'⟩
  refine hread.bind (fun ms db'' hms => ?_) (fun _ _ he => he)
  cases f with
  | none => exact .of_ok hms
  | some f =>
    refine .of_ok ⟨?_, hms.2⟩
    intro m hm
    exact hms.1 m (List.mem_filter.mp hm).1

end Primary

namespace Mailroom

open Request (Compose DraftEdit LabelChange)

variable {σ α : Type} {room mid room' : Mailroom σ} {h : Holdings} {caller id : String}
variable {m : Message} {ms : List Message} {acts : List Act}

/-- The messages in what an operation returns. -/
def Outcome.told : Outcome → List Message
  | .message m => [m]
  | .messages ms => ms
  | .delivery d => [d.senderCopy, d.recipientCopy]
  | .update u => [u.message]
  | _ => []

/-- The primary store has each of these messages. -/
def Stores (room : Mailroom σ) (ms : List Message) : Prop :=
  ∀ m ∈ ms, m ∈ room.holdings.messages

/-- The messages that the action returns are stored when it ends. -/
def Tells (tell : α → List Message) (a : Action σ α) (room : Mailroom σ) : Prop :=
  Ends (a room) (fun x room' => room'.Stores (tell x)) (fun _ _ => True)

theorem Stores.done (hstores : room.Stores ms) (tasks : List Task) :
    (room.done tasks).Stores ms := by
  have hrows : (room.done tasks).primary.rows = room.primary.rows :=
    (trails_done room tasks).primary.rows
  intro m hm
  rw [holdings, hrows]
  exact hstores m hm

theorem Rests.stores (hrest : Rests h room mid) (ho : h.Orderly)
    (hmem : ∀ m ∈ ms, m ∈ h.messages) : mid.Stores ms := by
  rw [Stores, holdings_eq hrest.shows ho]
  exact hmem

theorem Wrote.stores (hw : Wrote caller h acts room mid) (ho : h.Orderly)
    (hmem : ∀ m ∈ ms, m ∈ (h.after acts).messages) : mid.Stores ms := by
  rw [Stores, holdings_eq hw.shows (ho.after hw.legal)]
  exact hmem

theorem EditOf.mem_put {labels : List Label} (he : EditOf h caller id labels m) :
    m ∈ (h.put m).messages := by
  obtain ⟨x, hx, -, hedit⟩ := he.found
  have hid : m.id ∈ h.ids :=
    Holdings.mem_ids.mpr ⟨x, (Holdings.mem_of_find? hx).1, congrArg Row.id hedit.envelope.symm⟩
  exact (Holdings.mem_put hid).mpr (.inl rfl)

theorem Tagged.stores {u : Update} (ho : h.Orderly) (ht : Tagged h caller id room mid u) :
    mid.Stores [u.message] := by
  cases ht with
  | same hchanged hfound howner hrest =>
    exact hrest.stores ho (List.forall_mem_singleton.mpr (Holdings.mem_of_find? hfound).1)
  | altered hchanged hedit hw =>
    exact hw.stores ho (List.forall_mem_singleton.mpr hedit.mem_put)
  | labelled l hchanged howner hcarried hedit hw =>
    have hedit' : EditOf (h.apply (.enterLabel l)) caller id (h.labels ++ [l]) u.message :=
      ⟨hedit.found⟩
    exact hw.stores ho (List.forall_mem_singleton.mpr hedit'.mem_put)

theorem tells_nothing {tell : α → List Message} {a : Action σ α} (hnil : ∀ x, tell x = []) :
    Tells tell a room := by
  refine ⟨fun x room' _ => ?_, fun _ _ _ => trivial⟩
  rw [hnil]
  exact List.forall_mem_nil _

theorem Tells.map {β : Type} {tell : β → List Message} {f : α → β} {a : Action σ α}
    (ha : Tells (fun x => tell (f x)) a room) : Tells tell (f <$> a) room :=
  Ends.map ha

/-- The refresh of a message does not change what is stored. -/
theorem Tells.thenRefresh {tell : α → List Message} {a : Action σ α} (ha : Tells tell a room)
    (id : String) : Tells tell (thenRefresh id a) room := by
  refine Ends.bind ha (fun x mid hx => ?_) fun _ _ _ => trivial
  refine (refreshQuietly_ends id).bind (fun _ room' hroom' => ?_) fun _ _ _ => trivial
  subst hroom'
  exact .of_ok (hx.done [.refresh id])

/-- An edit of one message, which is returned. -/
theorem tells_edit {a : Action σ Message} (ho : h.Orderly)
    (ha : Ends (a room)
      (fun m mid => EditOf h caller id h.labels m ∧ Wrote caller h [.alter m] room mid)
      (fun _ mid => Rests h room mid)) :
    Tells (fun m => [m]) (thenRefresh id a) room := by
  refine Tells.thenRefresh (ha.mono (fun m mid hm => ?_) fun _ _ _ => trivial) id
  exact hm.2.stores ho (List.forall_mem_singleton.mpr hm.1.mem_put)

theorem tells_looking {q : Primary.Query (List Message)} (hs : room.primary.rows.Shows h)
    (ho : h.Orderly)
    (hq : Ends (q room.primary) (fun r db => (∀ m ∈ r, m ∈ h.messages) ∧ room.primary.Idle db)
      (fun _ db => room.primary.Idle db)) :
    Tells (fun ms => ms) (onPrimary q) room := by
  refine (reading_ends (E := fun _ => True) hs (hq.mono (fun _ _ hr => hr) fun _ _ he =>
    ⟨trivial, he⟩)).mono (fun ms mid hms => ?_) fun _ _ _ => trivial
  exact hms.2.stores ho hms.1

theorem tells_send (hs : room.primary.rows.Shows h) (ho : h.Orderly) (c : Compose)
    (withdrawn : Bool) :
    Tells (fun d => [d.senderCopy, d.recipientCopy]) (send caller c withdrawn) room := by
  refine (send_delivers hs c withdrawn).mono (fun d room' hd => ?_) fun _ _ _ => trivial
  obtain ⟨mid, hw, rfl⟩ := hd
  refine Stores.done (hw.stores ho ?_) _
  simp [Holdings.after, Holdings.apply]

theorem tells_saveDraft (hs : room.primary.rows.Shows h) (ho : h.Orderly) (c : Compose) :
    Tells (fun m => [m]) (saveDraft caller c) room := by
  refine (saveDraft_ends hs c).mono (fun m room' hm => ?_) fun _ _ _ => trivial
  obtain ⟨-, mid, hw, rfl⟩ := hm
  refine Stores.done (hw.stores ho ?_) _
  simp [Holdings.after, Holdings.apply]

theorem tells_changeLabel (hs : room.primary.rows.Shows h) (ho : h.Orderly) (c : LabelChange) :
    Tells (fun u => [u.message]) (changeLabel caller id c) room := by
  refine Ends.after_ofExcept (fun text _ => ?_) fun _ => trivial
  have hrefreshed {u : Update} {mid : Mailroom σ} (hu : Tagged h caller id room mid u) :
      Ends ((do if u.changed then refreshQuietly id
                return u : Action σ Update) mid)
        (fun u room' => room'.Stores [u.message]) (fun _ _ => True) := by
    refine (finishes_update id u mid).mono (fun v room' hv => ?_) fun _ _ _ => trivial
    obtain ⟨rfl, rfl⟩ := hv
    exact (hu.stores ho).done _
  cases c.action with
  | add => exact (addTag_ends hs ho).bind (fun u mid hu => hrefreshed hu.1) fun _ _ _ => trivial
  | remove => exact (removeTag_ends hs ho).bind (fun u mid hu => hrefreshed hu) fun _ _ _ => trivial

theorem tells_folder (hs : room.primary.rows.Shows h) (ho : h.Orderly) (f : Folder) :
    Tells (fun ms => ms) (onPrimary (Primary.messagesIn caller f)) room := by
  refine tells_looking hs ho ((Primary.messagesIn_ends hs ho f).mono (fun r db hr => ?_)
    fun _ _ he => he.1)
  obtain ⟨rfl, hi⟩ := hr
  refine ⟨?_, hi⟩
  intro m hm
  exact (Holdings.mem_mailbox.mp (List.mem_filter.mp hm).1).1

theorem tells_list (hs : room.primary.rows.Shows h) (ho : h.Orderly) (folder : Option String) :
    Tells (fun ms => ms) (list caller folder) room := by
  refine (folderOfText_ends hs _).bind (fun f mid hmid => ?_) fun _ _ _ => trivial
  exact tells_folder hmid.shows ho f

theorem tells_search (hs : room.primary.rows.Shows h) (ho : h.Orderly) (query : String) :
    Tells (fun ms => ms) (search caller query) room := by
  refine Ends.after_ofExcept (fun text _ => ?_) fun _ => trivial
  exact tells_looking hs ho (Primary.search_shown hs ho none)

theorem tells_searchIn (hs : room.primary.rows.Shows h) (ho : h.Orderly)
    (folder query : String) : Tells (fun ms => ms) (searchIn caller folder query) room := by
  refine Ends.after_ofExcept (fun text _ => ?_) fun _ => trivial
  refine (folderOfText_ends hs _).bind (fun f mid hmid => ?_) fun _ _ _ => trivial
  exact tells_looking hmid.shows ho (Primary.search_shown hmid.shows ho (some f))

/-- Whatever message an operation returns is stored as it is returned. -/
theorem perform_tells (hs : room.primary.rows.Shows h) (ho : h.Orderly) (op : Operation) :
    Tells Outcome.told (perform caller op) room := by
  cases op with
  | send c withdrawn => exact (tells_send hs ho c withdrawn).map
  | saveDraft c => exact (tells_saveDraft hs ho c).map
  | editDraft id e => exact (tells_edit ho (changeDraft_ends hs ho e)).map
  | find id =>
    refine Tells.map ((ownMessage_rests hs ho).mono (fun m mid hm => ?_) fun _ _ _ => trivial)
    exact hm.2.2.stores ho (List.forall_mem_singleton.mpr (Holdings.mem_of_find? hm.1).1)
  | list folder => exact (tells_list hs ho folder).map
  | listSpam => exact (tells_folder hs ho .spam).map
  | changeLabel id c => exact (tells_changeLabel hs ho c).map
  | flipSpam id =>
    refine Tells.map (Tells.thenRefresh ?_ id)
    exact (flipSpam_ends hs ho).mono (fun u mid hu => hu.stores ho) fun _ _ _ => trivial
  | flipStar id => exact (tells_edit ho (flipStar_ends hs ho)).map
  | flipArchive id => exact (tells_edit ho (flipArchive_ends hs ho)).map
  | flipTrash id => exact (tells_edit ho (flipTrash_ends hs ho)).map
  | markRead id read => exact (tells_edit ho (setRead_ends hs ho read)).map
  | search query => exact (tells_search hs ho query).map
  | searchIn folder query => exact (tells_searchIn hs ho folder query).map
  | delete _ | markAllRead | markUnread _ | clearTrash | labels | findLabel _ | createLabel _
  | renameLabel _ _ | deleteLabel _ | blacklist _ | unblacklist _ | isBlacklisted _ | synchronize
  | pending | retryPending => exact (tells_nothing fun _ => rfl).map

theorem Orderly.tells_step (ho : room.Orderly) {e : Event} {o : Outcome}
    (hout : room.outcome e = some o) (hm : m ∈ o.told) : m ∈ (room.step e).holdings.messages := by
  have hs : (room.atTime e.now).primary.rows.Shows room.holdings := ho.shows
  exact (step_of_ends (perform_tells hs ho.holdings e.operation)).1 o hout m hm

end Mailroom

end LabelMail
