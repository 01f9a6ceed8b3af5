import LabelMail.Proofs.Mailroom.Listings
import LabelMail.Proofs.Mailroom.TaskPairs

/-!
What is left of an operation that fails. The operations check before they write, and what they do
last cannot fail while the databases do not. An address is listed one call at a time, but the
blacklist that the primary store keeps answers at once, so that no budget runs out between two
calls, and it refuses either all addresses of a message or none.
-/
namespace LabelMail.Mailroom

open Request (LabelChange)

variable {σ α β : Type} {start room room' : Mailroom σ} {m : Message}

/-- An action that spares users and blacklist when it fails, as long as the primary store does
not. -/
def Recoils (a : Action σ α) : Prop :=
  ∀ room, room.primary.Sound → Ends (a room) (fun _ room' => room'.primary.Sound)
    (fun _ room' => SparedTables room room')

/-- An action that goes through as long as the primary store does not fail. -/
def Unfailing (a : Action σ α) : Prop :=
  ∀ room, room.primary.Sound → Ends (a room) (fun _ room' => room'.primary.Sound)
    (fun _ _ => False)

theorem SparedTables.sound (h : SparedTables room room') (hs : room.primary.Sound) :
    room'.primary.Sound :=
  hs.later h.primary.toLater

theorem Sparing.recoils {a : Action σ α} (ha : Sparing a) : Recoils a := fun room hs =>
  (ha room).mono (fun _ _ h => h.sound hs) fun _ _ h => h

theorem Sparing.bind_recoils {a : Action σ α} {f : α → Action σ β} (ha : Sparing a)
    (hf : ∀ x, Recoils (f x)) : Recoils (a >>= f) := by
  intro room hs
  refine (ha room).bind (fun x mid hmid => ?_) fun _ _ h => h
  exact (hf x mid (hmid.sound hs)).mono (fun _ _ h => h) fun _ _ h => hmid.trans h

theorem Recoils.map {a : Action σ α} (ha : Recoils a) (f : α → β) : Recoils (f <$> a) :=
  fun room hs => Ends.map (ha room hs)

/-- An action that recoils may be followed by one that goes through. -/
theorem Recoils.bind {a : Action σ α} {f : α → Action σ β} (ha : Recoils a)
    (hf : ∀ x, Unfailing (f x)) : Recoils (a >>= f) := by
  intro room hs
  refine (ha room hs).bind (fun x mid hmid => ?_) fun _ _ h => h
  exact (hf x mid hmid).mono (fun _ _ h => h) fun _ _ h => h.elim

theorem unfailing_pure (a : α) : Unfailing (pure a : Action σ α) := fun _ hs => .of_ok hs

theorem Unfailing.bind {a : Action σ α} {f : α → Action σ β} (ha : Unfailing a)
    (hf : ∀ x, Unfailing (f x)) : Unfailing (a >>= f) := fun room hs =>
  (ha room hs).bind (fun x mid hmid => hf x mid hmid) fun _ _ h => h

theorem unfailing_retag (m : Message) (tags : TagSet) :
    Unfailing (retag m tags : Action σ Message) := by
  intro room hs
  have hsave : Ends (onPrimary (Primary.saveTags (m.withTags tags).withFlagsOfTags) room)
      (fun _ room' => room'.primary.Sound) (fun _ _ => False) := by
    refine (onPrimary_ends room (Ends.discard (T := fun _ db => room.primary.Later db)
      ((Database.modifyRows_ends _ _).mono (fun _ _ h => h.2) fun _ _ h => h.2))).mono ?_ ?_
    · rintro _ _ ⟨db, hlater, rfl⟩
      exact hs.later hlater
    · rintro _ _ ⟨db, hunsound, -⟩
      exact hunsound hs
  exact hsave.bind (fun _ _ hmid => .of_ok hmid) fun _ _ h => h

theorem unfailing_retagSpam (m : Message) (t : Screening.Toggled) :
    Unfailing (retagSpam m t : Action σ Update) :=
  (unfailing_retag m t.tags).bind fun _ => unfailing_pure _

theorem unfailing_refreshQuietly (id : String) :
    Unfailing (refreshQuietly id : Action σ Unit) := fun room hs =>
  (((sparing_refreshQuietly id) room).both (refreshQuietly_ends id)).mono
    (fun _ _ h => h.1.sound hs) fun _ _ h => h.2

theorem unfailing_refreshed (id : String) (x : α) :
    Unfailing (do refreshQuietly id; return x : Action σ α) :=
  (unfailing_refreshQuietly id).bind fun _ => unfailing_pure x

theorem unfailing_finish (id : String) (u : Update) :
    Unfailing (do
      if u.changed then refreshQuietly id
      return u : Action σ Update) := by
  split
  · exact unfailing_refreshed id u
  · exact unfailing_pure u

theorem ask_later (c : Blacklist.Call) (room : Mailroom σ) :
    room.primary.Later (ask c room).2.primary := by
  unfold ask
  split
  · have hask : Ends (Primary.ask room.now c room.primary) _ _ := Primary.ask_answered c
    split
    · next b db hb =>
      obtain ⟨u, table, -, -, -, -, hlater⟩ := hask.ok b db hb
      exact hlater
    · next e db he => exact (hask.error e db he).1.toLater
  · exact .refl _

/-- A call that fails changes no table, and neither does a removal that finds nothing to remove. -/
theorem spared_of_ask (c : Blacklist.Call) (room : Mailroom σ)
    (h : (∃ e, (ask c room).1.answer = .error e) ∨
      c.verb = .remove ∧ (ask c room).1.answer = .ok false) :
    SparedTables room (ask c room).2 := by
  unfold ask at h ⊢
  split at h
  · have hask : Ends (Primary.ask room.now c room.primary) _ _ := Primary.ask_idle c
    split at h
    · next b db hb =>
      obtain ⟨e, he⟩ | ⟨hverb, hfalse⟩ := h
      · cases he
      · exact ⟨Primary.spared_of_idle (hask.ok b db hb hverb (Except.ok.inj hfalse)), rfl⟩
    · next e db he => exact ⟨Primary.spared_of_idle (hask.error e db he), rfl⟩
  · exact ⟨(SparedTables.refl room).primary, rfl⟩

theorem recoils_call (verb : Blacklist.Verb) (url : String) :
    Recoils (call verb url : Action σ Bool) := fun room hs =>
  call_answered (fun _ _ => hs.later (ask_later _ room)) fun e he =>
    spared_of_ask _ room (.inl ⟨e, he⟩)

/-- A blacklist kept elsewhere is asked without any effect on the tables. -/
theorem spared_elsewhere {other : Blacklist.Oracle σ} (h : room.keeping = .elsewhere other)
    (c : Blacklist.Call) : SparedTables room (ask c room).2 := by
  unfold ask
  split
  · next hown =>
    rw [h] at hown
    cases hown
  · exact ⟨(SparedTables.refl room).primary, rfl⟩

/-- While the addresses of a message are listed in the store's own blacklist, nothing is listed yet
or the table is there to take them all. -/
structure Enlisting (start room : Mailroom σ) : Prop where
  own : room.keeping = .own
  sound : room.primary.Sound
  begun : SparedTables start room ∨ room.primary.rows.blacklist ≠ none

theorem Enlisting.answered (he : Enlisting start room) {url : String} {b : Bool}
    (h : (ask ⟨.add, url⟩ room).1.answer = .ok b) : Enlisting start (ask ⟨.add, url⟩ room).2 := by
  obtain ⟨answer, db, hask, hok, -⟩ := ask_own he.own (Primary.ask_answered ⟨.add, url⟩)
  rw [hask] at h ⊢
  obtain ⟨u, table, -, -, -, hrows, hlater⟩ := hok b h
  refine ⟨he.own, he.sound.later hlater, .inr ?_⟩
  dsimp only
  rw [hrows]
  exact Option.some_ne_none _

theorem Enlisting.failed (he : Enlisting start room) {url : String} {e : Failure}
    (hurl : Url.accepted url = .ok url) (h : (ask ⟨.add, url⟩ room).1.answer = .error e) :
    SparedTables start (ask ⟨.add, url⟩ room).2 := by
  have hspared : SparedTables room (ask ⟨.add, url⟩ room).2 := spared_of_ask _ room (.inl ⟨e, h⟩)
  obtain ⟨answer, db, hask, -, herror⟩ := ask_own he.own (Primary.ask_answered ⟨.add, url⟩)
  rw [hask] at h
  rcases (herror e h).2 with haccepted | ⟨-, hnone⟩
  · rw [hurl] at haccepted
    cases haccepted
  · rcases he.begun with hbegun | htable
    · exact hbegun.trans hspared
    · exact absurd (hnone he.sound) htable

theorem spared_of_condemn {e : Failure} (hs : room.primary.Sound)
    (h : (Screening.condemn ask room.rules m room).1 = .error e) :
    SparedTables room (Screening.condemn ask room.rules m room).2 := by
  cases hkeeping : room.keeping with
  | own =>
    -- The table is missing from the first call on, or it is there and no address is refused.
    have hstart : Enlisting room room := ⟨hkeeping, hs, .inl (.refl room)⟩
    refine Screening.condemn_stopped (I := Enlisting room) (fun url mid hmid => ?_)
      (fun url _ mid b hmid => hmid.answered)
      (fun url hurl mid e hmid => hmid.failed (Url.accepted_of_mem_inText hurl)) hstart h
    obtain ⟨answer, db, hask, -⟩ := ask_own hmid.own (Primary.ask_answered ⟨.add, url⟩)
    rw [hask]
    rfl
  | elsewhere other =>
    -- However many addresses were sent, the tables have seen none of them.
    refine Screening.condemn_keeps (fun url mid hmid => ?_) (.refl room)
    exact hmid.trans (spared_elsewhere (hmid.keeping.trans hkeeping) _)

/-- A screening recoils if it changes no table whenever it fails. -/
theorem recoils_screening {f : Blacklist.Oracle (Mailroom σ) → Screening.Rules → Mailroom σ →
      Except Failure α × Mailroom σ}
    (hsound : ∀ room : Mailroom σ, room.primary.Sound → (f ask room.rules room).2.primary.Sound)
    (hspared : ∀ (room : Mailroom σ) (e : Failure), room.primary.Sound →
      (f ask room.rules room).1 = .error e → SparedTables room (f ask room.rules room).2) :
    Recoils (screening f) := fun room hs =>
  screening_answered (fun _ _ => hsound room hs) fun e => hspared room e hs

theorem sound_ask (c : Blacklist.Call) (room : Mailroom σ) (hs : room.primary.Sound) :
    (ask c room).2.primary.Sound :=
  hs.later (ask_later c room)

theorem recoils_condemn (m : Message) : Recoils (condemn m : Action σ Update) := by
  refine Recoils.bind (recoils_screening (fun room hs => ?_) fun room e hs => spared_of_condemn hs)
    fun t => unfailing_retagSpam m t
  exact Screening.condemn_keeps (fun url => sound_ask ⟨.add, url⟩) hs

theorem recoils_acquit (m : Message) : Recoils (acquit m : Action σ Update) := by
  refine Recoils.bind (recoils_screening (fun room hs => ?_) fun room e hs h => ?_)
    fun t => unfailing_retagSpam m t
  · exact Screening.acquit_keeps (fun url _ => sound_ask ⟨.remove, url⟩) hs
  · cases h

theorem recoils_flipSpam (id owner : String) : Recoils (flipSpam id owner : Action σ Update) := by
  refine (sparing_looking (Primary.looks_ownMessage id owner)).bind_recoils fun m => ?_
  refine Recoils.bind (recoils_screening (fun room hs => ?_) fun room e hs h => ?_)
    fun t => unfailing_retagSpam m t
  · exact Screening.flipSpam_keeps (fun url => sound_ask ⟨.add, url⟩)
      (fun _ url _ => sound_ask ⟨.remove, url⟩) hs
  · unfold Screening.flipSpam at h ⊢
    split at h
    · cases h
    · next hspam =>
      rw [if_neg hspam]
      exact spared_of_condemn hs h

theorem recoils_addTag (id owner text : String) :
    Recoils (addTag id owner text : Action σ Update) := by
  refine (sparing_tagOfText owner text).bind_recoils fun t =>
    (sparing_looking (Primary.looks_ownMessage id owner)).bind_recoils fun m => ?_
  split
  · split
    · exact (sparing_pure _).recoils
    · exact recoils_condemn m
  · exact (sparing_tagWith m t owner).recoils

theorem recoils_removeTag (id owner text : String) :
    Recoils (removeTag id owner text : Action σ Update) := by
  refine (sparing_tagOfText owner text).bind_recoils fun t =>
    (sparing_looking (Primary.looks_ownMessage id owner)).bind_recoils fun m => ?_
  split
  · split
    · exact recoils_acquit m
    · exact (sparing_pure _).recoils
  · exact (sparing_untag m t).recoils

theorem recoils_changeLabel (caller id : String) (c : LabelChange) :
    Recoils (changeLabel caller id c : Action σ Update) := by
  refine (sparing_ofExcept _).bind_recoils fun text => ?_
  cases c.action with
  | add => exact (recoils_addTag id caller text).bind fun u => unfailing_finish id u
  | remove => exact (recoils_removeTag id caller text).bind fun u => unfailing_finish id u

theorem perform_recoils (caller : String) (op : Operation) :
    Recoils (perform caller op : Action σ Outcome) := by
  by_cases hop : op.MayList
  · cases op with
    | changeLabel id c => exact (recoils_changeLabel caller id c).map _
    | flipSpam id =>
      exact ((recoils_flipSpam id caller).bind fun u => unfailing_refreshed id u).map _
    | blacklist url =>
      exact ((sparing_ofExcept _).bind_recoils fun url => recoils_call .add url).map _
    | unblacklist url => exact (recoils_call .remove url).map _
    | _ => exact absurd hop id
  · exact (perform_sparing caller hop).recoils

/-- The mailrooms have the same messages and labels, users and blacklist, the same replica and the
same backlog. -/
structure Untouched (room room' : Mailroom σ) : Prop where
  rows : room'.primary.rows = room.primary.rows
  replica : room'.replica = room.replica
  backlog : room'.backlog = room.backlog

/-- Where neither the holdings nor the other tables changed, nothing did. -/
theorem Rests.untouched (ho : room.Orderly) (hrest : Rests room.holdings room room')
    (hspared : SparedTables room room') : Untouched room room' := by
  refine ⟨?_, hrest.replica, hrest.backlog⟩
  have hmessages : room'.primary.rows.messages = room.primary.rows.messages :=
    hrest.shows.messages.trans ho.shows.messages.symm
  have hlabels : room'.primary.rows.labels = room.primary.rows.labels :=
    hrest.shows.labels.trans ho.shows.labels.symm
  calc room'.primary.rows
      = ⟨room'.primary.rows.users, room'.primary.rows.messages, room'.primary.rows.labels,
          room'.primary.rows.blacklist⟩ := rfl
    _ = room.primary.rows := by
      rw [hmessages, hlabels, hspared.primary.users, hspared.primary.blacklist]

/-- A synchronization goes through while both databases do. -/
theorem synchronize_goes (ho : room.Orderly) (hs : room.Sound) (owner : String) :
    Ends (synchronize owner room) (fun _ _ => True) (fun _ _ => False) := by
  have hmailbox : Ends (onPrimary (Primary.messagesOf owner) room)
      (fun _ mid => mid.replica = room.replica) (fun _ _ => False) := by
    refine (onPrimary_ends room (Primary.messagesOf_ends ho.shows ho.holdings)).mono ?_ ?_
    · rintro _ _ ⟨db, -, rfl⟩
      rfl
    · rintro _ _ ⟨db, herror, -⟩
      exact herror.2 hs.primary
  refine hmailbox.bind (fun ms mid hmid => ?_) fun _ _ h => h
  refine (mapM_attempt_ends (t := .refresh) (fun _ _ => rfl) _).bind (fun kept room₁ h₁ => ?_)
    fun _ _ h => h
  subst h₁
  have hsound : (mid.done ((ms.map Message.id).map .refresh)).replica.Sound :=
    (hmid ▸ hs.replica).later (trails_done mid _).replica
  refine ((onReplica_ends _ (Replica.leaves_idsOf owner)).mono (fun _ _ _ => trivial) ?_).bind
    (fun held room₂ _ => ?_) fun _ _ h => h
  · rintro _ _ ⟨r, -, -, -, hunsound⟩
    exact hunsound hsound
  · exact (mapM_attempt_ends (t := .refresh) (fun _ _ => rfl) _).bind
      (fun _ _ _ => .of_ok trivial) fun _ _ h => h

/-- Unless a database fails, an operation that fails changes nothing. -/
theorem perform_untouched (ho : room.Orderly) (hs : room.Sound) (caller : String)
    (op : Operation) : Ends (perform caller op room) (fun _ _ => True)
      (fun _ room' => Untouched room room') := by
  by_cases hsync : op = .synchronize
  · -- Refreshes have gone before where the listing fails, so it must be known not to.
    subst hsync
    exact Ends.map ((synchronize_goes ho hs caller).mono (fun _ _ h => h) fun _ _ h => h.elim)
  refine ((perform_does room caller ho.shows ho.holdings op).both
    (perform_recoils caller op room hs.primary)).mono (fun _ _ _ => trivial) fun _ room' h => ?_
  obtain ⟨⟨acts, tasks, mid, hw, hlapsed, rfl⟩, hspared⟩ := h
  cases hlapsed with
  | refused op => exact Rests.untouched ho ⟨hw.toAhead, hw.shows⟩ hspared
  | stopped op l hunsound => exact absurd hs.primary hunsound
  | unlisted => exact absurd rfl hsync

end LabelMail.Mailroom
