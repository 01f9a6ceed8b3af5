import LabelMail.Proofs.Mailroom.Moving
import LabelMail.Proofs.Primary.Listings

/-!
Mail that a failure leaves as it is. Looks, calls to the blacklist and new labels do not touch the
messages of the primary store. New tags reach a message by one statement, the last that is made for
it, so that where that fails, or something before it, no message has changed; the blacklist may have
changed by then.
-/
namespace LabelMail.Mailroom

variable {σ α β : Type} {start room room' : Mailroom σ}

/-- The primary store has the messages that it had. -/
def SameMail (room room' : Mailroom σ) : Prop :=
  room'.primary.rows.messages = room.primary.rows.messages

theorem SameMail.refl (room : Mailroom σ) : SameMail room room := rfl

theorem SameMail.trans (h : SameMail start room) (h' : SameMail room room') :
    SameMail start room' :=
  Eq.trans h' h

instance : IsPreorder (Mailroom σ) SameMail where
  refl := SameMail.refl
  trans _ _ _ := SameMail.trans

theorem overlooks_sameMail : Overlooks (SameMail : Mailroom σ → Mailroom σ → Prop) :=
  fun _ _ hidle _ => congrArg Primary.Rows.messages hidle.rows

theorem sameMail_ask (c : Blacklist.Call) (room : Mailroom σ) : SameMail room (ask c room).2 := by
  unfold ask
  split
  · have hask : Ends (Primary.ask room.now c room.primary) _ _ := Primary.ask_answered c
    split
    · next b db hb =>
      obtain ⟨u, table, -, -, -, hrows, -⟩ := hask.ok b db hb
      show db.rows.messages = room.primary.rows.messages
      rw [hrows]
    · next e db he => exact congrArg Primary.Rows.messages (hask.error e db he).1.rows
  · exact .refl room

theorem SameMail.ask (h : SameMail start room) (c : Blacklist.Call) :
    SameMail start (ask c room).2 :=
  h.trans (sameMail_ask c room)

theorem sameMail_insertLabel (l : Label) :
    Moves SameMail (onPrimary (Primary.insertLabel l) : Action σ Unit) := by
  intro room
  refine (onPrimary_ends room (Database.statement_ends _ _ _)).mono ?_ ?_
  · rintro _ _ ⟨db, ⟨hinsert, -⟩, rfl⟩
    split at hinsert
    · cases hinsert
    · have hrows := (Prod.mk.inj (Except.ok.inj hinsert)).2
      show db.rows.messages = room.primary.rows.messages
      rw [← hrows]
  · rintro _ _ ⟨db, ⟨hidle, -⟩, rfl⟩
    exact congrArg Primary.Rows.messages hidle.rows

theorem sameMail_ensureLabel (owner name : String) :
    Moves SameMail (ensureLabel owner name : Action σ Label) :=
  overlooks_sameMail.ensureLabel sameMail_insertLabel owner name

/-- An action that leaves the messages alone when it fails. -/
def FailsIntact (a : Action σ α) : Prop :=
  ∀ room, Ends (a room) (fun _ _ => True) fun _ room' => SameMail room room'

namespace FailsIntact

theorem of_moves {a : Action σ α} (ha : Moves SameMail a) : FailsIntact a := fun room =>
  (ha room).mono (fun _ _ _ => trivial) fun _ _ h => h

/-- What leaves the messages alone may go before. -/
theorem after_moves {a : Action σ α} {f : α → Action σ β} (ha : Moves SameMail a)
    (hf : ∀ x, FailsIntact (f x)) : FailsIntact (a >>= f) := by
  intro room
  refine (ha room).bind (fun x mid hmid => ?_) fun _ _ h => h
  exact (hf x mid).mono (fun _ _ h => h) fun _ _ h => hmid.trans h

theorem returning {a : Action σ α} (ha : FailsIntact a) (f : α → β) :
    FailsIntact (do return f (← a)) := fun room =>
  (ha room).bind (fun _ _ _ => .of_ok trivial) fun _ _ h => h

end FailsIntact

theorem failsIntact_retag (m : Message) (tags : TagSet) :
    FailsIntact (retag m tags : Action σ Message) := by
  intro room
  have hsave : Ends (Primary.saveTags (m.withTags tags).withFlagsOfTags room.primary)
      (fun _ _ => True) (fun _ db => db.rows = room.primary.rows) :=
    Ends.discard ((Database.modifyRows_ends _ _).mono (fun _ _ _ => trivial) fun _ _ h => h.1.rows)
  refine (onPrimary_ends room hsave).bind (fun _ _ _ => .of_ok trivial) ?_
  rintro _ _ ⟨db, hrows, rfl⟩
  exact congrArg Primary.Rows.messages hrows

theorem failsIntact_retagSpam (m : Message) (t : Screening.Toggled) :
    FailsIntact (retagSpam m t : Action σ Update) :=
  (failsIntact_retag m t.tags).returning (Update.mk · true t.effects)

/-- The tags that a screening finds for a message. -/
theorem failsIntact_screened {m : Message} {f : Blacklist.Oracle (Mailroom σ) → Screening.Rules →
      Mailroom σ → Except Failure Screening.Toggled × Mailroom σ}
    (hf : ∀ room : Mailroom σ, SameMail room (f ask room.rules room).2) :
    FailsIntact (do retagSpam m (← screening f) : Action σ Update) :=
  .after_moves (fun room => screening_leaves (hf room)) fun t => failsIntact_retagSpam m t

theorem failsIntact_condemn (m : Message) : FailsIntact (condemn m : Action σ Update) :=
  failsIntact_screened fun room =>
    Screening.condemn_keeps (fun url _ h => h.ask ⟨.add, url⟩) (.refl room)

theorem failsIntact_acquit (m : Message) : FailsIntact (acquit m : Action σ Update) :=
  failsIntact_screened fun room =>
    Screening.acquit_keeps (fun url _ _ h => h.ask ⟨.remove, url⟩) (.refl room)

theorem failsIntact_flipSpam (id owner : String) :
    FailsIntact (flipSpam id owner : Action σ Update) :=
  .after_moves (overlooks_sameMail.looking (Primary.looks_ownMessage id owner)) fun _ =>
    failsIntact_screened fun room =>
      Screening.flipSpam_keeps (fun url _ h => h.ask ⟨.add, url⟩)
        (fun _ url _ _ h => h.ask ⟨.remove, url⟩) (.refl room)

theorem failsIntact_addTag (id owner text : String) :
    FailsIntact (addTag id owner text : Action σ Update) := by
  refine .after_moves (overlooks_sameMail.tagOfText owner text) fun t =>
    .after_moves (overlooks_sameMail.looking (Primary.looks_ownMessage id owner)) fun m => ?_
  split
  · split
    · exact .of_moves (.pure _)
    · exact failsIntact_condemn m
  · refine .after_moves (.ofExcept _) fun r => ?_
    have hstore : FailsIntact (do return ⟨← retag m r.1, true, []⟩ : Action σ Update) :=
      (failsIntact_retag m r.1).returning (Update.mk · true [])
    obtain ⟨tags, changed⟩ := r
    cases changed with
    | false => exact .of_moves (.pure _)
    | true =>
      cases t with
      | custom name => exact .after_moves (sameMail_ensureLabel owner name).discard fun _ => hstore
      | _ => exact hstore

theorem failsIntact_removeTag (id owner text : String) :
    FailsIntact (removeTag id owner text : Action σ Update) := by
  refine .after_moves (overlooks_sameMail.tagOfText owner text) fun t =>
    .after_moves (overlooks_sameMail.looking (Primary.looks_ownMessage id owner)) fun m => ?_
  split
  · split
    · exact failsIntact_acquit m
    · exact .of_moves (.pure _)
  · rcases m.tags.remove t with ⟨tags, changed⟩
    cases changed with
    | false => exact .of_moves (.pure _)
    | true => exact (failsIntact_retag m tags).returning (Update.mk · true [])

end LabelMail.Mailroom
