import LabelMail.Mailroom.Basic
import LabelMail.Proofs.Alike
import LabelMail.Proofs.ScreeningPairs

/-!
Actions on two mailrooms. Attempts, calls to the blacklist and screenings end alike when what they
are made of does, whatever relates the two mailrooms.
-/
namespace LabelMail.Mailroom

variable {σ α β : Type} {R S : Mailroom σ → Mailroom σ → Prop} {room room' : Mailroom σ}

theorem attempt_alike {a : Action σ α} {b : Action σ β} {Q : α → Mailroom σ → β → Mailroom σ → Prop}
    (h : Alike Q R (a room) (b room')) :
    Alike (fun r s r' t => (∃ x y, r = .ok x ∧ r' = .ok y ∧ Q x s y t) ∨
        ∃ e, r = .error e ∧ r' = .error e ∧ R s t) S
      (attempt a room) (attempt b room') := by
  unfold attempt
  generalize a room = r at h
  generalize b room' = r' at h
  cases h with
  | ok h => exact .ok (.inl ⟨_, _, rfl, rfl, h⟩)
  | error h => exact .ok (.inr ⟨_, rfl, rfl, h⟩)

theorem attempt_same {a b : Action σ α} (h : Same R a b room room') :
    Same R (attempt a) (attempt b) room room' := by
  refine Alike.mono (attempt_alike h) (fun r s r' t hr => ?_) fun _ _ h => h
  rcases hr with ⟨x, y, rfl, rfl, rfl, hst⟩ | ⟨e, rfl, rfl, hst⟩
  · exact ⟨rfl, hst⟩
  · exact ⟨rfl, hst⟩

theorem call_same (hask : Screening.Parallel ask R) (verb : Blacklist.Verb) (url : String)
    (h : R room room') : Same R (call verb url) (call verb url) room room' := by
  obtain ⟨hreply, hstate⟩ := hask ⟨verb, url⟩ room room' h
  unfold Same call
  generalize ask ⟨verb, url⟩ room = x at hreply hstate
  generalize ask ⟨verb, url⟩ room' = y at hreply hstate
  obtain ⟨reply, s⟩ := x
  obtain ⟨reply', t⟩ := y
  obtain rfl : reply = reply' := hreply
  obtain ⟨answer, delay, withdrawn⟩ := reply
  cases answer with
  | ok b => exact .ok ⟨rfl, hstate⟩
  | error e => exact .error hstate

theorem screening_same {f : Blacklist.Oracle (Mailroom σ) → Screening.Rules → Mailroom σ →
      Except Failure α × Mailroom σ} (hrules : room'.rules = room.rules)
    (hf : Screening.Agree R (f ask room.rules room) (f ask room.rules room')) :
    Same R (screening f) (screening f) room room' := by
  obtain ⟨hvalue, hstate⟩ := hf
  unfold Same screening
  rw [hrules]
  generalize f ask room.rules room = x at hvalue hstate
  generalize f ask room.rules room' = y at hvalue hstate
  obtain ⟨v, s⟩ := x
  obtain ⟨v', t⟩ := y
  obtain rfl : v = v' := hvalue
  cases v with
  | ok a => exact .ok ⟨rfl, hstate⟩
  | error e => exact .error hstate

end LabelMail.Mailroom
