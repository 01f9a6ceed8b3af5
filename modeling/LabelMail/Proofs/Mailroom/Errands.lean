import LabelMail.Mailroom.Errand
import LabelMail.Proofs.Mailroom.Duties

/-!
Errands in their two halves, and runs in which errands stand between the calls. Apart from the
replacement of links, what an errand leaves for the replica are tasks like those of an operation.
-/
namespace LabelMail.Mailroom

variable {σ α : Type}

/-- What is taken up again is in the backlog, and what is put is a label on hand. -/
def Task.Grounded (h : Holdings) (arrears : List Arrear) : Task → Prop
  | .retry a => a ∈ arrears
  | .putLabel l => l ∈ h.labels
  | _ => True

/-- Acts for the owner, none if there is no owner, and then tasks that are grounded in what the acts
leave. -/
def Works (owner? : Option String) (h : Holdings) (room room' : Mailroom σ) : Prop :=
  ∃ acts tasks mid, (owner? = none → acts = []) ∧ Wrote (owner?.getD "") h acts room mid ∧
    (∀ t ∈ tasks, t.Grounded (h.after acts) room.backlog.arrears) ∧ room' = mid.done tasks

/-- Whose mail an errand is about, where it says so. -/
def Errand.owner? : Errand → Option String
  | .replaceLinks _ owner _ => some owner
  | .synchronize owner => some owner
  | .markAllRead owner => some owner
  | .markUnread owner _ => some owner
  | .clearTrash owner => some owner
  | .makeLabel owner _ => some owner
  | .nameLabel _ owner _ => some owner
  | .deleteLabel _ owner => some owner
  | _ => none

/-- A call of an operation, or an errand at a time in milliseconds. -/
inductive Dealing where
  | call (e : Event)
  | errand (now : Int) (e : Errand)

/-- The mailroom after a dealing, whether or not it succeeds. -/
def deal (room : Mailroom σ) : Dealing → Mailroom σ
  | .call e => room.step e
  | .errand now e => state (carry e (room.atTime now))

/-- The mailroom after several dealings. -/
def afterAll (room : Mailroom σ) (dealings : List Dealing) : Mailroom σ :=
  dealings.foldl deal room

variable {room : Mailroom σ} {h : Holdings} {caller : String} {arrears : List Arrear}
variable {op : Operation} {acts : List Act} {tasks : List Task} {fresh : String → Prop}
variable {sound : Prop} {e : Errand}

theorem grounded_refresh {β : Type} (f : β → String) {xs : List β} :
    ∀ t ∈ xs.map (fun x => Task.refresh (f x)), t.Grounded h arrears := by
  intro t ht
  obtain ⟨x, -, rfl⟩ := List.mem_map.mp ht
  trivial

theorem Owed.grounded (howed : Owed caller h arrears op acts tasks)
    (hlegal : h.Legal caller fresh acts) : ∀ t ∈ tasks, t.Grounded (h.after acts) arrears := by
  intro t ht
  cases t with
  | retry a => exact ((howed.mem_tasks ht).1 a rfl).2
  | putLabel l =>
    cases howed with
    | enteredLabel op k hnone =>
      cases List.mem_singleton.mp ht
      exact List.mem_append_right _ List.mem_cons_self
    | renamedLabel k name text =>
      simp only [List.mem_cons, Task.putLabel.injEq, List.mem_map, reduceCtorEq, and_false,
        exists_false, or_false] at ht
      exact Holdings.mem_labels_renameLabel.mpr ⟨k, hlegal.1.1, ht ▸ if_pos rfl⟩
    | _ => simp at ht
  | _ => trivial

theorem Lapsed.grounded (hlapsed : Lapsed caller h sound op acts tasks) :
    ∀ t ∈ tasks, t.Grounded (h.after acts) arrears := by
  intro t ht
  cases t with
  | retry a => exact absurd rfl ((hlapsed.mem_tasks ht).1 a)
  | putLabel l => cases hlapsed <;> simp at ht
  | _ => trivial

theorem state_discard (a : Action σ α) (room : Mailroom σ) :
    state (Functor.discard a room) = state (a room) := by
  change state (EStateM.map _ a room) = _
  unfold EStateM.map
  cases a room <;> rfl

theorem Does.works {a : Action σ α} (hdoes : Does caller h op a room) :
    Works (some caller) h room (state (a room)) := by
  refine of_state (hdoes.mono ?_ ?_)
  · rintro _ _ ⟨acts, tasks, mid, hw, howed, hdone⟩
    exact ⟨acts, tasks, mid, nofun, hw, howed.grounded hw.legal, hdone⟩
  · rintro _ _ ⟨acts, tasks, mid, hw, hlapsed, hdone⟩
    exact ⟨acts, tasks, mid, nofun, hw, hlapsed.grounded, hdone⟩

theorem Does.discarded {a : Action σ α} (hdoes : Does caller h op a room) :
    Works (some caller) h room (state (Functor.discard a room)) := by
  rw [state_discard]
  exact hdoes.works

theorem works_of_tasks (hs : room.primary.rows.Shows h)
    (htasks : ∀ t ∈ tasks, t.Grounded h room.backlog.arrears) :
    Works none h room (room.done tasks) :=
  ⟨[], tasks, room, fun _ => rfl, (Rests.refl hs).wrote, htasks, rfl⟩

/-- An errand works for the owner that it names; a replacement of links is another matter. -/
theorem carry_works (hs : room.primary.rows.Shows h) (ho : h.Orderly)
    (hlinks : ∀ id owner labelIds, e ≠ .replaceLinks id owner labelIds) :
    Works e.owner? h room (state (carry e room)) := by
  cases e with
  | replaceLinks id owner labelIds => exact absurd rfl (hlinks id owner labelIds)
  | refresh id =>
    have hwork : Works none h room (room.done [.refresh id]) :=
      works_of_tasks hs (List.forall_mem_singleton.mpr trivial)
    rwa [carry, state_discard]
  | refreshQuietly id =>
    refine of_state ((refreshQuietly_ends id).mono (fun _ _ hdone => ?_) fun _ _ he => he.elim)
    exact hdone ▸ works_of_tasks hs (List.forall_mem_singleton.mpr trivial)
  | refreshAll ms =>
    refine of_state ((refreshAll_ends ms).mono (fun _ _ hdone => ?_) fun _ _ he => he.elim)
    exact hdone ▸ works_of_tasks hs (grounded_refresh Message.id)
  | retryPending =>
    rw [carry, state_discard]
    refine of_state ((retryPending_ends room).mono (fun _ _ hdone => ?_) fun _ _ he => he.elim)
    refine hdone ▸ works_of_tasks hs fun t ht => ?_
    obtain ⟨a, ha, rfl⟩ := List.mem_map.mp ht
    exact ha
  | synchronize owner => exact (synchronize_does hs ho).discarded
  | markAllRead owner =>
    have hdoes : Does owner h .markAllRead (thenRefreshAll (setAllRead owner)) room :=
      (edits_begin rfl (setAllRead_ends hs ho)).does fun ms => finishes_refreshAll ms ms.length
    exact hdoes.discarded
  | markUnread owner ids =>
    have hdoes : Does owner h (.markUnread ids) (thenRefreshAll (setReadMany owner ids false))
        room :=
      (edits_begin rfl (setReadMany_ends hs ho ids false)).does fun ms =>
        finishes_refreshAll ms ms.length
    exact hdoes.discarded
  | clearTrash owner => exact ((sweepTrash_begins hs ho).does finishes_sweep).discarded
  | makeLabel owner text =>
    have hdoes : Does owner h (.createLabel (some text)) (makeLabel owner text) room :=
      (enterLabel_begins hs rfl text).does finishes_putLabel
    exact hdoes.discarded
  | nameLabel id owner text =>
    have hdoes : Does owner h (.renameLabel id (some text)) (nameLabel id owner text) room :=
      (renameTag_begins hs ho (some text) text).does fun r => finishes_renaming r.1 r.2
    exact hdoes.discarded
  | deleteLabel id owner =>
    have hdoes : Does owner h (.deleteLabel id) (deleteLabel owner id) room :=
      (deleteTag_begins hs ho).does fun r => finishes_deletion r.1 r.2
    exact hdoes.discarded

end LabelMail.Mailroom
