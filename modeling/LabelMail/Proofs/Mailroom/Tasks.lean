import LabelMail.Proofs.Mailroom.Labelling

/-!
The two halves of an operation. After its acts on the primary store an operation has tasks left for
the replica; none of them makes the operation fail. Which tasks are owed for which acts is said once
here for all operations.
-/
namespace LabelMail.Mailroom

variable {σ α : Type}

/-- What is left to do for the replica once the primary store is written. -/
inductive Task where
  | refresh (id : String)
  | retry (a : Arrear)
  | putLabel (l : Label)
  | deleteLabel (id : String)
  | sweep (ids : List String)
  /-- The listing of what the replica has of an owner's. -/
  | list (owner : String)

/-- The state in which an action ends. -/
def state : EStateM.Result Failure (Mailroom σ) α → Mailroom σ
  | .ok _ room => room
  | .error _ room => room

/-- The mailroom after a task, whether or not it went well. -/
def run (room : Mailroom σ) : Task → Mailroom σ
  | .refresh id => state (refresh id room)
  | .retry a => state (retry a room)
  | .putLabel l => state (onReplica (Replica.putLabel l) room)
  | .deleteLabel id => state (onReplica (Replica.deleteLabel id) room)
  | .sweep ids => state (ids.forM resolve (state (onReplica (Replica.deleteMessages ids) room)))
  | .list owner => state (onReplica (Replica.idsOf owner) room)

/-- The mailroom after some tasks. -/
def done (room : Mailroom σ) (tasks : List Task) : Mailroom σ :=
  tasks.foldl run room

/-- The message that an operation names. -/
def Operation.subject? : Operation → Option String
  | .editDraft id _ => some id
  | .find id => some id
  | .delete id => some id
  | .changeLabel id _ => some id
  | .flipSpam id => some id
  | .flipStar id => some id
  | .flipArchive id => some id
  | .flipTrash id => some id
  | .markRead id _ => some id
  | _ => none

/-- The operation names no other message. -/
def Operation.Concerns (op : Operation) (id : String) : Prop :=
  ∀ i, op.subject? = some i → id = i

/-- Which tasks an operation owes for which acts. -/
inductive Owed (caller : String) (h : Holdings) (arrears : List Arrear) :
    Operation → List Act → List Task → Prop
  /-- Nothing was written. -/
  | refreshed (op : Operation) (ids : List String)
      (hown : ∀ id ∈ ids, Owns h caller id ∧ op.Concerns id) :
      Owed caller h arrears op [] (ids.map .refresh)
  /-- Only what is sent may be another's. -/
  | entered (op : Operation) (ms : List Message) (hnone : op.subject? = none)
      (hown : ∀ m ∈ ms, m.ownerId = caller ∨ ∃ c withdrawn, op = .send c withdrawn) :
      Owed caller h arrears op (ms.map .enter) (ms.map fun m => .refresh m.id)
  | altered (op : Operation) (ms : List Message) (hone : ∀ m ∈ ms, op.Concerns m.id) :
      Owed caller h arrears op (ms.map .alter) (ms.map fun m => .refresh m.id)
  /-- The label is brought to the replica by the message that carries its tag. -/
  | labelled (op : Operation) (l : Label) (m : Message) (howner : l.ownerId = caller)
      (hm : m.ownerId = caller) (hcarried : .custom l.name ∈ m.tags) (hone : op.Concerns m.id) :
      Owed caller h arrears op [.enterLabel l, .alter m] [.refresh m.id]
  | removed (id : String) : Owed caller h arrears (.delete id) [.discard id] [.refresh id]
  | swept : Owed caller h arrears .clearTrash ((trash h caller).map .discard)
      [.sweep (trash h caller)]
  | enteredLabel (op : Operation) (l : Label) (hnone : op.subject? = none) :
      Owed caller h arrears op [.enterLabel l] [.putLabel l]
  | renamedLabel (l : Label) (name : String) (text : Option String) :
      Owed caller h arrears (.renameLabel l.id text) [.renameLabel l name]
        (.putLabel { l with name := name } ::
          (Primary.affected h l (·.insert (.custom name))).map fun m => .refresh m.id)
  | discardedLabel (l : Label) :
      Owed caller h arrears (.deleteLabel l.id) [.discardLabel l]
        (.deleteLabel l.id ::
          (Primary.affected h l fun s => s).map fun m => .refresh m.id)
  | synchronized (stale : List String) :
      Owed caller h arrears .synchronize []
        (((h.mailbox caller).map fun m => .refresh m.id) ++ .list caller :: stale.map .refresh)
  | retried : Owed caller h arrears .retryPending [] (arrears.map .retry)

/-- What a failed operation may have done. -/
inductive Lapsed (caller : String) (h : Holdings) (sound : Prop) :
    Operation → List Act → List Task → Prop
  | refused (op : Operation) : Lapsed caller h sound op [] []
  | stopped (op : Operation) (l : Label) (hsound : ¬ sound) :
      Lapsed caller h sound op [.enterLabel l] []
  /-- The listing failed. -/
  | unlisted : Lapsed caller h sound .synchronize []
      (((h.mailbox caller).map fun m => .refresh m.id) ++ [.list caller])

/-- The two halves: the acts lead to a state from which the tasks are done. -/
def Halves (caller : String) (h : Holdings) (room room' : Mailroom σ)
    (P : List Act → List Task → Prop) : Prop :=
  ∃ acts tasks mid, Wrote caller h acts room mid ∧ P acts tasks ∧ room' = mid.done tasks

/-- The action ends as an operation with its acts and tasks. -/
def Does (caller : String) (h : Holdings) (op : Operation) (a : Action σ α) (room : Mailroom σ) :
    Prop :=
  Ends (a room)
    (fun _ room' => Halves caller h room room' (Owed caller h room.backlog.arrears op))
    (fun _ room' => Halves caller h room room' (Lapsed caller h room.primary.Sound op))

variable {room mid : Mailroom σ} {h : Holdings} {caller id : String} {acts : List Act}
variable {op : Operation} {tasks : List Task} {ids : List String}

@[simp] theorem done_cons {t : Task} : room.done (t :: tasks) = (room.run t).done tasks := rfl

@[simp] theorem done_append {tasks' : List Task} :
    room.done (tasks ++ tasks') = (room.done tasks).done tasks' :=
  List.foldl_append

theorem attempt_done (a : Action σ α) :
    Ends (attempt a room) (fun _ room' => room' = state (a room)) (fun _ _ => False) := by
  unfold attempt
  cases a room with
  | ok x room' => exact .of_ok rfl
  | error e room' => exact .of_ok rfl

/-- Attempts at one task after the other. -/
theorem mapM_attempt_ends {β : Type} {g : β → Action σ α} {t : β → Task}
    (hg : ∀ b (room : Mailroom σ), state (g b room) = room.run (t b)) (l : List β) :
    Ends (l.mapM (fun b => attempt (g b)) room) (fun _ room' => room' = room.done (l.map t))
      (fun _ _ => False) := by
  induction l generalizing room with
  | nil => exact .of_ok rfl
  | cons b l ih =>
    rw [List.mapM_cons]
    refine (attempt_done (g b)).bind (fun r room' hr => ?_) (fun _ _ he => he)
    rw [hg] at hr
    subst hr
    exact ih.bind (fun rs room' hroom' => .of_ok hroom') fun _ _ he => he

theorem refreshQuietly_ends (id : String) :
    Ends (refreshQuietly id room) (fun _ room' => room' = room.done [.refresh id])
      (fun _ _ => False) :=
  .discard (attempt_done (refresh id))

theorem refreshAll_ends (ms : List Message) :
    Ends (refreshAll ms room)
      (fun _ room' => room' = room.done (ms.map fun m => .refresh m.id)) (fun _ _ => False) := by
  induction ms generalizing room with
  | nil => exact .of_ok rfl
  | cons m ms ih =>
    refine (refreshQuietly_ends m.id).bind (fun _ room' hr => ?_) (fun _ _ he => he)
    subst hr
    exact ih

theorem resolveAll_ends (ids : List String) :
    Ends (ids.forM resolve room) (fun _ room' => room' = state (ids.forM resolve room))
      (fun _ _ => False) := by
  induction ids generalizing room with
  | nil => exact .of_ok rfl
  | cons id ids ih =>
    let resolved : Mailroom σ := { room with backlog := (room.backlog.resolve id).1 }
    exact Ends.bind (Q := fun _ room' => room' = resolved) (F := fun _ _ => False) (.of_ok rfl)
      (fun _ _ hr => by subst hr; exact ih) fun _ _ he => he

/-- While the primary store is sound, an operation that fails has written nothing. -/
theorem Lapsed.no_acts {sound : Prop} (hlapsed : Lapsed caller h sound op acts tasks)
    (hs : sound) : acts = [] := by
  cases hlapsed with
  | refused op => rfl
  | stopped op l hsound => exact absurd hs hsound
  | unlisted => rfl

theorem Rests.lapsed {room' : Mailroom σ} (hrest : Rests h room room') :
    Halves caller h room room' (Lapsed caller h room.primary.Sound op) :=
  ⟨[], [], room', hrest.wrote, .refused op, rfl⟩

theorem Rests.looked {room' : Mailroom σ} (hrest : Rests h room room') :
    Halves caller h room room' (Owed caller h room.backlog.arrears op) :=
  ⟨[], [], room', hrest.wrote, .refreshed op [] fun _ hid => (List.not_mem_nil hid).elim, rfl⟩

/-- An action that only looks. -/
theorem does_look {a : Action σ α}
    (ha : Ends (a room) (fun _ mid => Rests h room mid) (fun _ mid => Rests h room mid)) :
    Does caller h op a room :=
  ha.mono (fun _ _ hrest => hrest.looked) fun _ _ hrest => hrest.lapsed

theorem does_map {β : Type} {f : α → β} {a : Action σ α} (ha : Does caller h op a room) :
    Does caller h op (f <$> a) room :=
  Ends.map ha

/-- The first half of an operation: what it returns tells which tasks are owed for what it wrote. -/
def Begins (caller : String) (h : Holdings) (op : Operation) (tasks : α → List Task)
    (a : Action σ α) (room : Mailroom σ) : Prop :=
  Ends (a room)
    (fun x mid => ∃ acts, Wrote caller h acts room mid ∧
      Owed caller h room.backlog.arrears op acts (tasks x))
    (fun _ mid => ∃ acts, Wrote caller h acts room mid ∧
      Lapsed caller h room.primary.Sound op acts [])

/-- The second half of an operation, which does the tasks and never fails. -/
def Finishes (tasks : List Task) (P : α → Prop) (a : Action σ α) : Prop :=
  ∀ room, Ends (a room) (fun x room' => P x ∧ room' = room.done tasks) fun _ _ => False

theorem Begins.does {β : Type} {tasks : α → List Task} {P : α → β → Prop} {a : Action σ α}
    {f : α → Action σ β} (ha : Begins caller h op tasks a room)
    (hf : ∀ x, Finishes (tasks x) (P x) (f x)) : Does caller h op (a >>= f) room := by
  refine Ends.bind ha (fun x mid hx => ?_) (fun _ mid hx => ?_)
  · obtain ⟨acts, hw, howed⟩ := hx
    exact (hf x mid).mono (fun _ _ hdone => ⟨acts, _, mid, hw, howed, hdone.2⟩) fun _ _ he => he.elim
  · obtain ⟨acts, hw, hlapsed⟩ := hx
    exact ⟨acts, [], mid, hw, hlapsed, rfl⟩

/-- An action that either leaves owed tasks behind or has written nothing. -/
theorem begins_of_ends {tasks : α → List Task} {a : Action σ α}
    (ha : Ends (a room)
      (fun x mid => ∃ acts, Wrote caller h acts room mid ∧
        Owed caller h room.backlog.arrears op acts (tasks x))
      (fun _ mid => Rests h room mid)) : Begins caller h op tasks a room :=
  ha.mono (fun _ _ hx => hx) fun _ _ hrest => ⟨[], hrest.wrote, .refused op⟩

theorem finishes_refreshQuietly (id : String) :
    Finishes [.refresh id] (fun _ => True) (refreshQuietly id : Action σ Unit) := fun _ =>
  (refreshQuietly_ends id).mono (fun _ _ hdone => ⟨trivial, hdone⟩) fun _ _ he => he

theorem finishes_refresh (id : String) (x : α) :
    Finishes [.refresh id] (· = x) (do refreshQuietly id; return x : Action σ α) := fun _ =>
  (refreshQuietly_ends id).bind (fun _ _ hdone => .of_ok ⟨rfl, hdone⟩) fun _ _ he => he

theorem finishes_refreshAll (ms : List Message) (x : α) :
    Finishes (ms.map fun m => .refresh m.id) (· = x) (do refreshAll ms; return x : Action σ α) :=
  fun _ => (refreshAll_ends ms).bind (fun _ _ hdone => .of_ok ⟨rfl, hdone⟩) fun _ _ he => he

/-- A write to the replica that is one task, done in passing. -/
theorem Finishes.inPassing {β : Type} {t : Task} {P : β → Prop} {q : Replica.Query α}
    {a : Action σ β} (ht : ∀ room : Mailroom σ, state (onReplica q room) = room.run t)
    (ha : Finishes tasks P a) :
    Finishes (t :: tasks) P (do discard (attempt (onReplica q)); a) := fun room => by
  refine (Ends.discard (T := fun _ mid => mid = room.run t)
    ((attempt_done (onReplica q)).mono (fun _ _ hmid => hmid.trans (ht room)) fun _ _ he => he)).bind
    (fun _ mid hmid => ?_) fun _ _ he => he
  subst hmid
  exact ha (room.run t)

theorem finishes_pure (x : α) : Finishes [] (· = x) (pure x : Action σ α) := fun _ =>
  .of_ok ⟨rfl, rfl⟩

end LabelMail.Mailroom
