import LabelMail.Proofs.Replica.Relinking

/-!
What is announced of the writes to the replica. Each kind of change is made in one statement or one
transaction and announced behind it, except that new labels are entered in a statement for each.
Main statement: rows are changed without an announcement just if labels are entered and one of them
is refused behind a new one.
-/
namespace LabelMail

namespace Replica

/-- The kinds of changes to the replica. -/
inductive Change where
  | putMessage (m : Message)
  | insertLabels (labels : List Label)
  | putLabel (l : Label)
  | putLabels (labels : List Label)
  | deleteLabel (id : String)
  | addLink (l : Link)
  | clearLinks (messageId : String)
  | deleteMessage (id : String)
  | deleteMessages (ids : List String)
  deriving DecidableEq, Repr

/-- Makes a change, whose result is left aside. -/
def make : Change → Query Unit
  | .putMessage m => putMessage m
  | .insertLabels labels => discard (insertLabels labels)
  | .putLabel l => putLabel l
  | .putLabels labels => putLabels labels
  | .deleteLabel id => discard (deleteLabel id)
  | .addLink l => addLink l
  | .clearLinks messageId => discard (clearLinks messageId)
  | .deleteMessage id => discard (deleteMessage id)
  | .deleteMessages ids => discard (deleteMessages ids)

/-- The replica after a change, which went through or failed. -/
def after (r : Replica) (c : Change) : Replica :=
  match make c r with
  | .ok _ r' => r'
  | .error _ r' => r'

/-- If rows have changed, the version has gone up. -/
def Tells (r r' : Replica) : Prop :=
  r'.rows ≠ r.rows → r.version < r'.version

/-- The version is still the same. -/
def Quiet (r r' : Replica) : Prop :=
  r'.version = r.version

instance : IsPreorder Replica Quiet where
  refl _ := rfl
  trans _ _ _ h h' := h'.trans h

/-- One of the labels is refused, and one before it is new. -/
def StopsEntering (r : Replica) (labels : List Label) : Prop :=
  let passed := r.passes (labels.map fun l => [.putLabel l.id])
  passed < labels.length ∧ ∃ l ∈ labels.take passed, hasLabel r.rows l.id = false

variable {α β : Type} {r : Replica} {c : Change}

theorem after_of_ends {P : Replica → Prop}
    (h : Ends (make c r) (fun _ r' => P r') fun _ r' => P r') : P (r.after c) := by
  unfold after
  split
  · next r' hr => exact h.ok _ r' hr
  · next r' hr => exact h.error _ r' hr

theorem quiet_onDatabase (q : Database.Query Rows Write α) : Moves Quiet (onDatabase q) := by
  intro r
  unfold onDatabase
  split
  · exact .of_ok rfl
  · exact .of_error rfl

/-- The version goes up by one just if the query goes through. -/
def Announces (q : Query α) : Prop :=
  ∀ r, Ends (q r) (fun _ r' => r'.version = r.version + 1) fun _ r' => Quiet r r'

namespace Announces

theorem announce : Announces announce := fun _ => .of_ok rfl

theorem behind {q : Database.Query Rows Write α} {f : α → Query β} (hf : ∀ a, Announces (f a)) :
    Announces (onDatabase q >>= f) := by
  intro r
  refine (quiet_onDatabase q r).bind (fun a r' hquiet => ?_) fun _ _ h => h
  refine (hf a r').mono (fun _ _ h => ?_) fun _ _ h => h.trans hquiet
  rw [h, show r'.version = r.version from hquiet]

theorem returning {q : Query α} (hq : Announces q) (b : β) :
    Announces (q >>= fun _ => Pure.pure b) := fun r =>
  (hq r).bind (fun _ _ h => .of_ok h) fun _ _ h => h

/-- A query that changes no row where it fails tells of all that it changes. -/
theorem tells {q : Query α} {Q : Replica → α → Rows → Prop} (hq : Announces q)
    (hrows : ∀ r, Leaves r q (Q r) (· = r.rows)) : Moves Tells q := by
  intro r
  refine ((hq r).both (hrows r)).mono (fun _ r' h _ => ?_) fun _ r' h hne => absurd h.2.1 hne
  rw [h.1]
  exact Nat.lt_succ_self _

end Announces

section Telling

variable {q : Database.Query Rows Write α} {g : α → β}

theorem tells_announced {Q : Replica → Unit → Rows → Prop}
    (hrows : ∀ r, Leaves r (do let _ ← onDatabase q; announce) (Q r) (· = r.rows)) :
    Moves Tells (do let _ ← onDatabase q; announce) :=
  Announces.tells (.behind fun _ => .announce) hrows

theorem tells_returned {Q : Replica → β → Rows → Prop}
    (hrows : ∀ r, Leaves r (do let a ← onDatabase q; announce; return g a) (Q r) (· = r.rows)) :
    Moves Tells (discard (do let a ← onDatabase q; announce; return g a : Query β)) :=
  (Announces.tells (.behind fun _ => .returning .announce _) hrows).discard

end Telling

theorem tells_putLabels (labels : List Label) : Moves Tells (putLabels labels) := by
  have hrows : ∀ r, Leaves r (putLabels labels) _ (· = r.rows) := fun _ => leaves_putLabels labels
  unfold putLabels at hrows ⊢
  split at hrows
  · next hnone =>
    rw [if_pos hnone]
    exact fun r => .of_ok fun hne => absurd rfl hne
  · next hsome =>
    rw [if_neg hsome]
    exact tells_announced hrows

/-- Each change but the entering of new labels tells of what it changes, however it ends. -/
theorem tells_make (hc : ∀ labels, c ≠ .insertLabels labels) : Moves Tells (make c) := by
  cases c with
  | putMessage m => exact tells_announced fun _ => leaves_putMessage m
  | insertLabels labels => exact absurd rfl (hc labels)
  | putLabel l => exact tells_announced fun _ => leaves_putLabel l
  | putLabels labels => exact tells_putLabels labels
  | deleteLabel id => exact tells_returned fun _ => leaves_deleteLabel id
  | addLink l => exact tells_announced fun _ => leaves_addLink l
  | clearLinks messageId => exact tells_returned fun _ => leaves_clearLinks messageId
  | deleteMessage id => exact tells_returned fun _ => leaves_deleteMessage id
  | deleteMessages ids => exact tells_returned fun _ => leaves_deleteMessages ids

namespace Rows

variable {R : Rows} {labels : List Label}

theorem length_labels_enterNew (R : Rows) (labels : List Label) :
    R.labels.length ≤ (R.enterNew labels).labels.length := by
  induction labels generalizing R with
  | nil => exact Nat.le_refl _
  | cons l labels ih =>
    rw [enterNew_cons]
    split
    · exact ih R
    · refine Nat.le_trans ?_ (ih (R.enterLabel l))
      rw [enterLabel, List.length_append]
      exact Nat.le_add_right _ _

/-- The rows stay as they are just if none of the labels is new. -/
theorem enterNew_eq_self_iff :
    R.enterNew labels = R ↔ ∀ l ∈ labels, hasLabel R l.id = true := by
  induction labels with
  | nil => simp [enterNew]
  | cons l labels ih =>
    rw [enterNew_cons, List.forall_mem_cons]
    split
    · next hthere => rw [ih, and_iff_right hthere]
    · next hnew =>
      refine iff_of_false (fun heq => ?_) fun h => hnew h.1
      have hlength := length_labels_enterNew (R.enterLabel l) labels
      rw [heq, enterLabel, List.length_append, List.length_singleton] at hlength
      omega

end Rows

/-- Where no label is refused, what was entered is announced. Otherwise the labels before the
refused one are there, and the version is the same. -/
theorem insertLabels_ends (labels : List Label) (r : Replica) :
    Ends (insertLabels labels r)
      (fun _ r' => r.passes (labels.map fun l => [.putLabel l.id]) = labels.length ∧ Tells r r')
      (fun _ r' =>
        let passed := r.passes (labels.map fun l => [.putLabel l.id])
        passed < labels.length ∧ r'.rows = r.rows.enterNew (labels.take passed) ∧ Quiet r r') := by
  have hquiet : Moves Quiet (labels.mapM fun l => onDatabase (insertLabel l)) :=
    .mapM fun l => quiet_onDatabase (insertLabel l)
  have hcourse := course_insertEach (r := r) labels
  rw [Course, List.length_map] at hcourse
  refine (hcourse.both (hquiet r)).bind (fun bs r₁ h₁ => ?_) fun _ r' h => ⟨h.1.1, h.1.2.1.2, h.2⟩
  obtain ⟨⟨hpasses, ⟨hcount, hrows⟩, -⟩, hversion⟩ := h₁
  dsimp only
  split
  · refine .of_ok ⟨hpasses, fun _ => ?_⟩
    exact Nat.lt_succ_of_le (Nat.le_of_eq hversion.symm)
  · next hnone =>
    refine .of_ok ⟨hpasses, fun hne => absurd ?_ hne⟩
    rw [hrows, Rows.enterNew_eq_self_iff]
    exact hcount.mp (not_not.mp hnone)

theorem unannounced_insertLabels_iff (r : Replica) (labels : List Label) :
    ((r.after (.insertLabels labels)).rows ≠ r.rows ∧
      ¬ r.version < (r.after (.insertLabels labels)).version) ↔ r.StopsEntering labels := by
  refine after_of_ends (P := fun r' => (r'.rows ≠ r.rows ∧ ¬ r.version < r'.version) ↔
    r.StopsEntering labels) (Ends.map ((insertLabels_ends labels r).mono ?_ ?_))
  · rintro _ r' ⟨hpasses, htells⟩
    refine iff_of_false (fun h => h.2 (htells h.1)) fun hstops => ?_
    exact Nat.ne_of_lt hstops.1 hpasses
  · rintro _ r' ⟨hrefused, hrows, hquiet⟩
    have hversion : ¬ r.version < r'.version := Nat.not_lt_of_le (Nat.le_of_eq hquiet)
    rw [hrows, Ne, Rows.enterNew_eq_self_iff, and_iff_left hversion, StopsEntering,
      and_iff_right hrefused]
    simp

/-- Whatever is refused and however the change ends, if it changes rows then it is announced, unless
it was to enter labels and one of them was refused behind a new one. -/
theorem unannounced_iff (r : Replica) (c : Change) :
    ((r.after c).rows ≠ r.rows ∧ ¬ r.version < (r.after c).version) ↔
      ∃ labels, c = .insertLabels labels ∧ r.StopsEntering labels := by
  by_cases hc : ∃ labels, c = .insertLabels labels
  · obtain ⟨labels, rfl⟩ := hc
    rw [unannounced_insertLabels_iff]
    refine ⟨fun hstops => ⟨labels, rfl, hstops⟩, ?_⟩
    rintro ⟨_, heq, hstops⟩
    exact Change.insertLabels.inj heq ▸ hstops
  · have hother : ∀ labels, c ≠ .insertLabels labels := fun labels h => hc ⟨labels, h⟩
    have htells : Tells r (r.after c) := after_of_ends (tells_make hother r)
    refine iff_of_false (fun h => h.2 (htells h.1)) ?_
    rintro ⟨labels, h, -⟩
    exact hother labels h

/-- An empty replica that refuses the label "b". -/
def refusingLabel : Replica where
  database :=
    { rows := .empty
      plan := fun _ writes => if .putLabel "b" ∈ writes then some .broken else none
      count := 0 }
  version := 0

/-- Of two labels the second is refused. The first is there afterwards, and nobody is told. -/
theorem entered_unannounced :
    let r' := refusingLabel.after (.insertLabels [⟨"a", "bob", "a"⟩, ⟨"b", "bob", "b"⟩])
    r'.rows ≠ refusingLabel.rows ∧ r'.rows.labels = [⟨"a", "bob", "a"⟩] ∧
      ¬ refusingLabel.version < r'.version := by
  decide

end Replica

end LabelMail
