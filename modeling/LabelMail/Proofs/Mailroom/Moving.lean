import LabelMail.Proofs.Mailroom.Sending

/-!
Looking into the primary store and making labels, along any relation of mailrooms that does not tell
the store from what it was before a look. Such a relation need only know about the statement that
enters a label in order to know about the spelling of tags and the labels that they need.
-/
namespace LabelMail.Mailroom

variable {σ α : Type} {R : Mailroom σ → Mailroom σ → Prop}

theorem moves_attempt {a : Action σ α} (ha : Moves R a) : Moves R (attempt a) := by
  intro room
  refine (attempt_ends (ha room)).mono (fun r room' hr => ?_) fun _ _ h => h.elim
  obtain ⟨x, -, h⟩ | ⟨e, -, h⟩ := hr
  · exact h
  · exact h

/-- To look into the primary store, or to use up an id, makes no difference. -/
def Overlooks (R : Mailroom σ → Mailroom σ → Prop) : Prop :=
  ∀ room room' : Mailroom σ, room.primary.Idle room'.primary → room'.keeping = room.keeping →
    R room room'

namespace Overlooks

theorem looking (hR : Overlooks R) {q : Primary.Query α} (hq : Primary.Looks q) :
    Moves R (onPrimary q) := by
  intro room
  refine (onPrimary_ends room (hq room.primary)).mono ?_ ?_
  all_goals
    intro _ room' h
    obtain ⟨db, hdb, rfl⟩ := h
    exact hR _ _ hdb rfl

theorem drawId (hR : Overlooks R) : Moves R (drawId : Action σ String) := fun room =>
  .of_ok (hR _ _ (.refl room.primary) rfl)

variable [IsPreorder (Mailroom σ) R]

theorem spelling (hR : Overlooks R) (owner name : String) :
    Moves R (spelling owner name : Action σ String) :=
  (hR.looking (Primary.looks_select _)).bind fun _ => .pure _

theorem tagOfText (hR : Overlooks R) (owner text : String) :
    Moves R (tagOfText owner text : Action σ Tag) := by
  refine (Moves.ofExcept _).bind fun t => ?_
  cases t with
  | custom name => exact (hR.spelling owner name).map Tag.custom
  | _ => exact .pure _

variable (hinsert : ∀ l, Moves R (onPrimary (Primary.insertLabel l) : Action σ Unit))

include hinsert

theorem enterLabel (hR : Overlooks R) (owner text : String) :
    Moves R (enterLabel owner text : Action σ Label) := by
  refine (Moves.ofExcept _).bind fun name =>
    (hR.looking (Primary.looks_select _)).bind fun found => ?_
  have hrest : Moves R (do
      let l : Label := ⟨← Mailroom.drawId, owner, name⟩
      onPrimary (Primary.insertLabel l)
      return l : Action σ Label) :=
    hR.drawId.bind fun id => (hinsert _).bind fun _ => .pure _
  split
  · exact (Moves.throw _).bind fun _ => hrest
  · exact hrest

/-- Whether the label was there, was made, or was made by somebody else in the meantime. -/
theorem ensureLabel (hR : Overlooks R) (owner name : String) :
    Moves R (ensureLabel owner name : Action σ Label) := by
  have hfind : Moves R (onPrimary (Primary.findLabel owner name) : Action σ (Option Label)) :=
    hR.looking (Primary.looks_select _)
  refine hfind.bind fun found => ?_
  cases found with
  | some l => exact .pure l
  | none =>
    refine (moves_attempt (enterLabel hinsert hR owner name)).bind fun r => ?_
    cases r with
    | ok l => exact .pure l
    | error e =>
      cases e with
      | conflict why =>
        refine hfind.bind fun found => ?_
        cases found with
        | some l => exact .pure l
        | none => exact .throw _
      | _ => exact .throw _

end Overlooks

end LabelMail.Mailroom
