import LabelMail.Proofs.Mailroom.Tasks

/-!
Every operation in its two halves.
-/
namespace LabelMail.Mailroom

open Request (Compose DraftEdit LabelChange)

variable {σ : Type} {room mid : Mailroom σ} {h : Holdings} {caller id : String}

theorem Does.after_ofExcept {α β : Type} {op : Operation} {v : Except Failure α}
    {f : α → Action σ β} (hs : room.primary.rows.Shows h)
    (hf : ∀ r, Does caller h op (f r) room) :
    Does caller h op (MonadExcept.ofExcept v >>= f) room :=
  Ends.after_ofExcept (fun r _ => hf r) fun _ => (Rests.refl hs).lapsed

theorem person_ends (hs : room.primary.rows.Shows h) (missing : String) :
    Ends (person id missing room) (fun u mid => u.id = id ∧ Rests h room mid)
      (fun _ mid => Rests h room mid) := by
  have hfind : Ends (onPrimary (Primary.findUser id) room)
      (fun r mid => (∀ u, r = some u → u.id = id) ∧ Rests h room mid)
      (fun _ mid => True ∧ Rests h room mid) := by
    refine reading_ends (E := fun _ => True) hs ((Database.select_ends _).mono (fun r _ hr => ?_)
      fun _ _ he => ⟨trivial, he.1⟩)
    refine ⟨fun u hu => ?_, hr.2⟩
    rw [hr.1] at hu
    simpa using List.find?_some hu
  refine hfind.bind (fun r mid hr => ?_) (fun _ _ he => he.2)
  cases r with
  | none => exact .of_error hr.2
  | some u => exact .of_ok ⟨hr.1 u rfl, hr.2⟩

/-- A new message has the next id of the supply and the time of now. -/
theorem newMessage_ends {src dest : User} {subject content ownerId : String} {tags : TagSet}
    (hsrc : src.id = caller)
    (hplaced : (ownerId = caller ∧ (tags = .ofList [.sent] ∨ tags = .ofList [.drafts])) ∨
      (ownerId = dest.id ∧ (tags = .ofList [.inbox] ∨ tags = .ofList [.spam]))) :
    Ends (newMessage src dest subject content ownerId tags room)
      (fun m mid => m.New caller ∧ m.ownerId = ownerId ∧ m.id = room.idAt room.drawn ∧
        mid = { room with drawn := room.drawn + 1 })
      (fun _ _ => False) := by
  refine .of_ok ⟨⟨?_, rfl, rfl, hsrc, hplaced⟩, rfl, rfl, rfl⟩
  exact Calendar.Instant.ofMillis_toMillis_ofMillis room.now

theorem screen_ends (hs : room.primary.rows.Shows h) (subject content : String) (withdrawn : Bool) :
    Ends (screen subject content withdrawn room)
      (fun tags mid => (tags = .ofList [.inbox] ∨ tags = .ofList [.spam]) ∧ Rests h room mid)
      (fun _ mid => Rests h room mid) := by
  refine screening_ends (fun tags htags => ?_)
    (Screening.classify_keeps (I := Rests h room) (fun _ _ => rests_ask _) (.refl hs))
  dsimp only at htags
  cases hv : (Screening.classify ask room.rules subject content withdrawn room).tags with
  | error e =>
    rw [hv] at htags
    cases htags
  | ok tags' =>
    rw [hv] at htags
    refine Screening.classify_tags (s := room) (hv.trans ?_)
    change (if _ then _ else _) = _ at htags
    split at htags
    · cases htags
    · exact htags

/-- After `n` more ids. -/
def drawing (room : Mailroom σ) (n : Nat) : Mailroom σ :=
  { room with drawn := room.drawn + n }

theorem ahead_drawing (room : Mailroom σ) (n : Nat) : room.Ahead (room.drawing n) :=
  ⟨.refl _, rfl, rfl, rfl, rfl, rfl, rfl, Nat.le_add_right _ _⟩

theorem wrote_drawing {n : Nat} {db : Primary.Store} {acts : List Act}
    (hlegal : h.Legal caller (DrawnSince room (room.drawing n)) acts)
    (hs : db.rows.Shows (h.after acts)) (hl : room.primary.Later db) :
    Wrote caller h acts room { room.drawing n with primary := db } :=
  ⟨(ahead_drawing room n).trans (ahead_primary hl), hlegal, hs⟩

/-- Both copies of a delivery were entered, and then they were refreshed. -/
def Delivers (caller : String) (h : Holdings) (room : Mailroom σ) (d : Delivery)
    (room' : Mailroom σ) : Prop :=
  ∃ mid, Wrote caller h [.enter d.senderCopy, .enter d.recipientCopy] room mid ∧
    room' = mid.done [.refresh d.senderCopy.id, .refresh d.recipientCopy.id]

theorem deliver_delivers {src dest : User} {subject content : String} {tags : TagSet}
    (hs : room.primary.rows.Shows h) (hsrc : src.id = caller)
    (htags : tags = .ofList [.inbox] ∨ tags = .ofList [.spam]) :
    Ends (deliver src dest subject content tags room)
      (fun d room' => Delivers caller h room d room') (fun _ room' => Rests h room room') := by
  refine (newMessage_ends hsrc (.inr ⟨rfl, htags⟩)).bind (fun m mid hm => ?_)
    (fun _ _ he => he.elim)
  obtain ⟨hnew, -, hid, rfl⟩ := hm
  let copy : Message :=
    { m with id := room.idAt (room.drawn + 1), ownerId := src.id, tags := .ofList [.sent] }
  have hcopy : copy.New caller :=
    ⟨hnew.exact, hnew.unread, hnew.unstarred, hnew.sender, .inl ⟨hsrc, .inl rfl⟩⟩
  refine (onPrimary_ends (room.drawing 2)
    (Primary.insertPair_ends copy m hs)).bind (fun _ mid hmid => ?_) ?_
  · obtain ⟨db, ⟨hfirst, hsecond, hs', hl⟩, rfl⟩ := hmid
    have hlegal : h.Legal caller (DrawnSince room (room.drawing 2)) [.enter copy, .enter m] :=
      ⟨⟨⟨room.drawn + 1, Nat.le_succ _, Nat.lt_succ_self _, rfl⟩, hfirst, hcopy⟩,
        ⟨⟨room.drawn, Nat.le_refl _, Nat.lt_add_of_pos_right (by decide), hid.symm⟩, hsecond, hnew⟩,
        trivial⟩
    refine (refreshAll_ends [copy, m]).bind (fun _ room' hroom' => ?_) (fun _ _ he => he.elim)
    exact .of_ok ⟨_, wrote_drawing hlegal hs' hl, hroom'⟩
  · rintro _ _ ⟨db, ⟨hi, -⟩, rfl⟩
    exact ⟨(ahead_drawing room 2).trans (ahead_primary hi.toLater), hs.idle hi⟩

theorem Rests.delivers {d : Delivery} {room' : Mailroom σ} (hrest : Rests h room mid)
    (hd : Delivers caller h mid d room') : Delivers caller h room d room' := by
  obtain ⟨mid', hw, hdone⟩ := hd
  exact ⟨mid', hrest.then hw, hdone⟩

theorem send_delivers (hs : room.primary.rows.Shows h) (c : Compose) (withdrawn : Bool) :
    Ends (send caller c withdrawn room) (fun d room' => Delivers caller h room d room')
      (fun _ room' => Rests h room room') := by
  refine .after_ofExcept (fun name _ => ?_) fun _ => .refl hs
  refine .after_ofExcept (fun subject _ => ?_) fun _ => .refl hs
  refine .after_ofExcept (fun content _ => ?_) fun _ => .refl hs
  refine (person_ends hs _).bind (fun src room₁ h₁ => ?_) fun _ _ hrest => hrest
  obtain ⟨hsrc, h₁⟩ := h₁
  refine (person_ends h₁.shows _).bind (fun dest room₂ h₂ => ?_) fun _ _ hrest => h₁.trans hrest
  have hrest₂ := h₁.trans h₂.2
  refine (screen_ends hrest₂.shows subject content withdrawn).bind (fun tags room₃ h₃ => ?_)
    fun _ _ hrest => hrest₂.trans hrest
  have hrest₃ := hrest₂.trans h₃.2
  exact (deliver_delivers hrest₃.shows hsrc h₃.1).mono (fun _ _ hd => hrest₃.delivers hd)
    fun _ _ hrest => hrest₃.trans hrest

theorem send_does (hs : room.primary.rows.Shows h) (c : Compose) (withdrawn : Bool) :
    Does caller h (.send c withdrawn) (send caller c withdrawn) room := by
  refine (send_delivers hs c withdrawn).mono (fun d room' hd => ?_) fun _ _ hrest => hrest.lapsed
  obtain ⟨mid, hw, hdone⟩ := hd
  refine ⟨_, _, mid, hw, ?_, hdone⟩
  exact .entered _ [d.senderCopy, d.recipientCopy] rfl fun _ _ => .inr ⟨c, withdrawn, rfl⟩

/-- Messages were entered, and then each of them was refreshed. -/
def Enters (caller : String) (h : Holdings) (ms : List Message) (room room' : Mailroom σ) : Prop :=
  ∃ mid, Wrote caller h (ms.map .enter) room mid ∧ room' = mid.done (ms.map fun m => .refresh m.id)

theorem Rests.enters {ms : List Message} {room' : Mailroom σ} (hrest : Rests h room mid)
    (he : Enters caller h ms mid room') : Enters caller h ms room room' := by
  obtain ⟨mid', hw, hdone⟩ := he
  exact ⟨mid', hrest.then hw, hdone⟩

theorem saveDraft_ends (hs : room.primary.rows.Shows h) (c : Compose) :
    Ends (saveDraft caller c room)
      (fun m room' => m.ownerId = caller ∧ Enters caller h [m] room room')
      (fun _ room' => Rests h room room') := by
  unfold saveDraft
  split
  · exact .of_error (.refl hs)
  · refine .after_ofExcept (fun name _ => ?_) fun _ => .refl hs
    refine (person_ends hs _).bind (fun src room₁ h₁ => ?_) fun _ _ hrest => hrest
    obtain ⟨hsrc, h₁⟩ := h₁
    refine (person_ends h₁.shows _).bind (fun dest room₂ h₂ => ?_) fun _ _ hrest => h₁.trans hrest
    have hrest : Rests h room room₂ := h₁.trans h₂.2
    refine (newMessage_ends hsrc (.inl ⟨hsrc, .inr rfl⟩)).bind (fun m mid hm => ?_)
      (fun _ _ he => he.elim)
    obtain ⟨hnew, hown, hid, rfl⟩ := hm
    refine (onPrimary_ends (room₂.drawing 1)
      (Primary.insertMessage_ends m hrest.shows)).bind (fun _ mid hmid => ?_) ?_
    · obtain ⟨db, ⟨hfree, hs', hl⟩, rfl⟩ := hmid
      have hlegal : h.Legal caller (DrawnSince room₂ (room₂.drawing 1)) [.enter m] :=
        ⟨⟨⟨room₂.drawn, Nat.le_refl _, Nat.lt_succ_self _, hid.symm⟩, hfree, hnew⟩, trivial⟩
      refine (refreshQuietly_ends m.id).bind (fun _ room' hroom' => ?_) (fun _ _ he => he.elim)
      exact .of_ok ⟨hown.trans hsrc, hrest.enters ⟨_, wrote_drawing hlegal hs' hl, hroom'⟩⟩
    · rintro _ _ ⟨db, ⟨hi, -⟩, rfl⟩
      have hahead : Ahead room₂ _ := (ahead_drawing room₂ 1).trans (ahead_primary hi.toLater)
      exact hrest.trans ⟨hahead, hrest.shows.idle hi⟩

theorem saveDraft_does (hs : room.primary.rows.Shows h) (c : Compose) :
    Does caller h (.saveDraft c) (saveDraft caller c) room := by
  refine (saveDraft_ends hs c).mono (fun m room' hm => ?_) fun _ _ hrest => hrest.lapsed
  obtain ⟨howner, mid, hw, hdone⟩ := hm
  exact ⟨_, _, mid, hw, .entered _ [m] rfl (List.forall_mem_singleton.mpr (.inl howner)), hdone⟩

theorem changeDraft_ends (hs : room.primary.rows.Shows h) (ho : h.Orderly) (e : DraftEdit) :
    Ends (changeDraft caller id e room)
      (fun m mid => EditOf h caller id h.labels m ∧ Wrote caller h [.alter m] room mid)
      (fun _ mid => Rests h room mid) := by
  refine changeOwn_ends hs ho fun x db hx howner hdb => ?_
  split
  · exact .of_error (.refl db)
  · let m : Message :=
      { x with subject := edited x.subject e.subject, content := edited x.content e.content }
    have hmem : x ∈ h.messages := (Holdings.mem_of_find? hx).1
    refine (Primary.saveContent_ends (m := m) hdb (Holdings.mem_ids.mpr ⟨x, hmem, rfl⟩) ?_).bind
      (fun _ db' hdb' => .of_ok ⟨⟨x, hx, howner, .rewritten _ _⟩, hdb'⟩) (fun _ _ he => he.1)
    intro y hy hid
    rw [Holdings.eq_of_id ho.ids hy hmem hid]

theorem Operation.Concerns.of_some {op : Operation} (hop : op.subject? = some id) :
    op.Concerns id :=
  fun _ hi => Option.some.inj (hop.symm.trans hi)

/-- An edit of one message, which is to be refreshed. -/
theorem edit_begins {op : Operation} {a : Action σ Message} (hone : op.Concerns id)
    (ha : Ends (a room)
      (fun m mid => EditOf h caller id h.labels m ∧ Wrote caller h [.alter m] room mid)
      (fun _ mid => Rests h room mid)) :
    Begins caller h op (fun _ => [.refresh id]) a room := by
  refine begins_of_ends (ha.mono (fun m mid hm => ⟨[.alter m], hm.2, ?_⟩) fun _ _ he => he)
  rw [← hm.1.id_eq]
  refine .altered op [m] (List.forall_mem_singleton.mpr ?_)
  rw [hm.1.id_eq]
  exact hone

theorem delete_begins (hs : room.primary.rows.Shows h) (ho : h.Orderly) :
    Begins caller h (.delete id) (fun _ => [.refresh id]) (onPrimary (Primary.deleteOwn id caller))
      room := by
  refine begins_of_ends ((onPrimary_ends _ (Primary.deleteOwn_ends id caller hs ho)).mono ?_ ?_)
  · rintro _ _ ⟨db, ⟨hown, hs', hl⟩, rfl⟩
    exact ⟨[.discard id], wrote_primary (fun _ => ⟨hown, trivial⟩) hs' hl, .removed id⟩
  · rintro _ _ ⟨db, ⟨hs', hl, -⟩, rfl⟩
    exact ⟨ahead_primary hl, hs'⟩

theorem EditOf.ownerId {labels : List Label} {m : Message} (he : EditOf h caller id labels m) :
    m.ownerId = caller := by
  obtain ⟨x, -, howner, hedit⟩ := he.found
  exact hedit.ownerId.trans howner

/-- A change of tags owes a refresh if anything has changed, and may be followed by one anyway. -/
theorem Tagged.owed {op : Operation} {u : Update} {tasks : List Task} (hone : op.Concerns id)
    (htasks : tasks = [.refresh id] ∨ (u.changed = false ∧ tasks = []))
    (ht : Tagged h caller id room mid u) :
    ∃ acts, Wrote caller h acts room mid ∧ Owed caller h room.backlog.arrears op acts tasks := by
  cases ht with
  | same hchanged hfound howner hrest =>
    have hown : Owns h caller id := owns_of_find? hfound howner
    refine ⟨[], hrest.wrote, ?_⟩
    rcases htasks with rfl | ⟨-, rfl⟩
    · exact .refreshed op [id] (List.forall_mem_singleton.mpr ⟨hown, hone⟩)
    · exact .refreshed op [] (List.forall_mem_nil _)
  | altered hchanged hedit hw =>
    obtain rfl := htasks.resolve_right fun h => by simp [hchanged] at h
    rw [← hedit.id_eq] at hone ⊢
    exact ⟨_, hw, .altered op [u.message] (List.forall_mem_singleton.mpr hone)⟩
  | labelled l hchanged howner hcarried hedit hw =>
    obtain rfl := htasks.resolve_right fun h => by simp [hchanged] at h
    rw [← hedit.id_eq] at hone ⊢
    exact ⟨_, hw, .labelled op l u.message howner hedit.ownerId hcarried hone⟩

theorem Untagged.lapsed {op : Operation} (hu : Untagged h caller room mid) :
    ∃ acts, Wrote caller h acts room mid ∧ Lapsed caller h room.primary.Sound op acts [] := by
  cases hu with
  | rest hrest => exact ⟨[], hrest.wrote, .refused op⟩
  | stopped l hsound hw => exact ⟨_, hw, .stopped op l hsound⟩

/-- What is left to do after a change of tags. -/
def Update.tasks (id : String) (u : Update) : List Task :=
  if u.changed then [.refresh id] else []

theorem Update.tasks_cases (id : String) (u : Update) :
    u.tasks id = [.refresh id] ∨ (u.changed = false ∧ u.tasks id = []) := by
  cases hchanged : u.changed <;> simp [tasks, hchanged]

theorem addTag_begins {op : Operation} (hs : room.primary.rows.Shows h) (ho : h.Orderly)
    (hone : op.Concerns id) (text : String) :
    Begins caller h op (Update.tasks id) (addTag id caller text) room :=
  (addTag_ends hs ho).mono (fun u _ hu => hu.1.owed hone (u.tasks_cases id))
    fun _ _ hu => hu.lapsed

theorem removeTag_begins {op : Operation} (hs : room.primary.rows.Shows h) (ho : h.Orderly)
    (hone : op.Concerns id) (text : String) :
    Begins caller h op (Update.tasks id) (removeTag id caller text) room :=
  begins_of_ends ((removeTag_ends hs ho).mono (fun u _ hu => hu.owed hone (u.tasks_cases id))
    fun _ _ hrest => hrest)

theorem finishes_update (id : String) (u : Update) :
    Finishes (u.tasks id) (· = u) (do if u.changed then refreshQuietly id
                                      return u : Action σ Update) := by
  unfold Update.tasks
  split
  · exact finishes_refresh id u
  · exact finishes_pure u

theorem changeLabel_does (hs : room.primary.rows.Shows h) (ho : h.Orderly) (c : LabelChange) :
    Does caller h (.changeLabel id c) (changeLabel caller id c) room := by
  have hone : (Operation.changeLabel id c).Concerns id := .of_some rfl
  refine .after_ofExcept hs fun text => ?_
  cases c.action with
  | add => exact (addTag_begins hs ho hone text).does (finishes_update id)
  | remove => exact (removeTag_begins hs ho hone text).does (finishes_update id)

theorem flipSpam_begins (hs : room.primary.rows.Shows h) (ho : h.Orderly) :
    Begins caller h (.flipSpam id) (fun _ => [.refresh id]) (flipSpam id caller) room :=
  begins_of_ends ((flipSpam_ends hs ho).mono (fun _ _ hu => hu.owed (.of_some rfl) (.inl rfl))
    fun _ _ hrest => hrest)

theorem Operation.Concerns.of_none {op : Operation} (hop : op.subject? = none) :
    op.Concerns id := by
  intro i hi
  rw [hop] at hi
  cases hi

/-- Edits of several messages, each of which is to be refreshed. -/
theorem edits_begin {op : Operation} {a : Action σ (List Message)} (hnone : op.subject? = none)
    (ha : Ends (a room) (fun ms mid => Wrote caller h (ms.map .alter) room mid)
      (fun _ mid => Rests h room mid)) :
    Begins caller h op (fun ms => ms.map fun m => .refresh m.id) a room :=
  begins_of_ends (ha.mono (fun ms _ hw => ⟨_, hw, .altered op ms fun _ _ => .of_none hnone⟩)
    fun _ _ hrest => hrest)

theorem markUnread_does (hs : room.primary.rows.Shows h) (ho : h.Orderly) (ids : List String) :
    Does caller h (.markUnread ids) (markUnread caller ids) room := by
  unfold markUnread
  split
  · exact .of_error (Rests.refl hs).lapsed
  · exact (edits_begin rfl (setReadMany_ends hs ho ids false)).does fun ms =>
      finishes_refreshAll ms ms.length

theorem sweepTrash_begins (hs : room.primary.rows.Shows h) (ho : h.Orderly) :
    Begins caller h .clearTrash (fun ids => [.sweep ids]) (sweepTrash caller) room := by
  refine begins_of_ends ((sweepTrash_ends hs ho).mono (fun ids _ hids => ?_) fun _ _ he => he.1)
  obtain ⟨rfl, hw⟩ := hids
  exact ⟨_, hw, .swept⟩

/-- How many messages the replica had depends on the replica. -/
theorem finishes_sweep (ids : List String) :
    Finishes [.sweep ids] (·.count = ids.length) (do
      let removed := match ← attempt (onReplica (Replica.deleteMessages ids)) with
        | .ok n => n
        | .error _ => 0
      ids.forM resolve
      return ⟨ids.length, removed⟩ : Action σ Sweep) := by
  intro room
  refine (attempt_done _).bind (fun r mid hmid => ?_) fun _ _ he => he
  subst hmid
  exact (resolveAll_ends ids).bind (fun _ _ hdone => .of_ok ⟨rfl, hdone⟩) fun _ _ he => he

theorem enterLabel_begins {op : Operation} (hs : room.primary.rows.Shows h)
    (hnone : op.subject? = none) (text : String) :
    Begins caller h op (fun l => [.putLabel l]) (enterLabel caller text) room :=
  begins_of_ends ((enterLabel_ends hs).mono
    (fun l _ hl => ⟨_, hl.2.2, .enteredLabel op l hnone⟩) fun _ _ hrest => hrest)

theorem finishes_putLabel (l : Label) : Finishes [.putLabel l] (· = l) (do
    discard (attempt (onReplica (Replica.putLabel l)))
    return l : Action σ Label) :=
  (finishes_pure l).inPassing fun _ => rfl

theorem createLabel_does (hs : room.primary.rows.Shows h) (name : Option String) :
    Does caller h (.createLabel name) (createLabel caller name) room :=
  .after_ofExcept hs fun text => (enterLabel_begins hs rfl text).does finishes_putLabel

/-- The tasks that the renaming of a label leaves. -/
def renameTasks (h : Holdings) (l : Label) (name : String) : List Task :=
  .putLabel { l with name := name } ::
    (Primary.affected h l (·.insert (.custom name))).map fun m => .refresh m.id

theorem renameLabel_ends (hs : room.primary.rows.Shows h) (ho : h.Orderly) (name : Option String) :
    Ends (renameLabel caller id name room)
      (fun r room' => ∃ text l n mid, required "name" name = .ok text ∧
        Primary.Renames h caller id text l n ∧ r = { l with name := n } ∧
        Wrote caller h [.renameLabel l n] room mid ∧ room' = mid.done (renameTasks h l n))
      (fun _ mid => Rests h room mid ∧ (room.primary.Sound → ∀ text l n,
        required "name" name = .ok text → ¬ Primary.Renames h caller id text l n)) := by
  unfold renameLabel
  cases htext : required "name" name with
  | error e => exact .of_error ⟨.refl hs, fun _ _ _ _ hok => (by cases hok)⟩
  | ok text =>
  refine Ends.bind (Q := fun t mid => t = text ∧ mid = room) (F := fun _ _ => False)
    (.of_ok ⟨rfl, rfl⟩) (fun _ _ hread => ?_) fun _ _ he => he.elim
  obtain ⟨rfl, rfl⟩ := hread
  refine (renameTag_ends hs ho).bind (fun r mid hr => ?_) (fun _ _ he => ⟨he.1, fun hd => ?_⟩)
  · obtain ⟨l, n, hren, rfl, hw⟩ := hr
    refine (Ends.discard (T := fun _ room' => room' = mid.done [.putLabel { l with name := n }])
      (attempt_done (onReplica (Replica.putLabel { l with name := n })))).bind
      (fun _ mid' hmid' => ?_) (fun _ _ he => he.elim)
    subst hmid'
    refine (refreshAll_ends (Primary.affected h l (·.insert (.custom n)))).bind
      (fun _ room' hroom' => ?_) (fun _ _ he => he.elim)
    exact .of_ok ⟨_, l, n, mid, rfl, hren, rfl, hw, hroom'⟩
  · intro text' l n htext' hren
    obtain rfl := Except.ok.inj htext'
    exact he.2 hd l n hren

theorem renameTag_begins (hs : room.primary.rows.Shows h) (ho : h.Orderly) (name : Option String)
    (text : String) :
    Begins caller h (.renameLabel id name)
      (fun r => .putLabel r.1 :: r.2.map fun m => .refresh m.id) (renameTag id caller text) room := by
  refine begins_of_ends ((renameTag_ends hs ho).mono (fun r _ hr => ?_) fun _ _ he => he.1)
  obtain ⟨l, n, hren, rfl, hw⟩ := hr
  obtain rfl := hren.id_eq
  exact ⟨_, hw, .renamedLabel l n name⟩

theorem finishes_renaming (l : Label) (ms : List Message) :
    Finishes (.putLabel l :: ms.map fun m => .refresh m.id) (· = l) (do
      discard (attempt (onReplica (Replica.putLabel l)))
      refreshAll ms
      return l : Action σ Label) :=
  (finishes_refreshAll ms l).inPassing fun _ => rfl

theorem renameLabel_does (hs : room.primary.rows.Shows h) (ho : h.Orderly) (name : Option String) :
    Does caller h (.renameLabel id name) (renameLabel caller id name) room :=
  .after_ofExcept hs fun text =>
    (renameTag_begins hs ho name text).does fun r => finishes_renaming r.1 r.2

theorem deleteTag_begins (hs : room.primary.rows.Shows h) (ho : h.Orderly) :
    Begins caller h (.deleteLabel id)
      (fun r => .deleteLabel r.1.id :: r.2.map fun m => .refresh m.id) (deleteTag id caller)
      room := by
  refine begins_of_ends ((deleteTag_ends hs ho).mono (fun r _ hr => ?_) fun _ _ hrest => hrest)
  obtain ⟨l, rfl, rfl, hw⟩ := hr
  exact ⟨_, hw, .discardedLabel l⟩

theorem finishes_deletion (l : Label) (ms : List Message) :
    Finishes (.deleteLabel l.id :: ms.map fun m => .refresh m.id) (· = l) (do
      discard (attempt (onReplica (Replica.deleteLabel l.id)))
      refreshAll ms
      return l : Action σ Label) :=
  (finishes_refreshAll ms l).inPassing fun _ => rfl

theorem folderOfText_ends (hs : room.primary.rows.Shows h) (text : String) :
    Ends (folderOfText caller text room) (fun _ mid => Rests h room mid)
      (fun _ mid => Rests h room mid) := by
  refine Ends.bind (Q := fun _ mid => Rests h room mid)
    (Ends.ofExcept (fun _ _ => .refl hs) fun _ _ => .refl hs) (fun f mid hmid => ?_)
    (fun _ _ hrest => hrest)
  split
  · refine Ends.map (Ends.bind (looking_ends hmid.shows (Primary.looks_select _))
      (fun _ mid' hmid' => .of_ok (hmid.trans hmid')) fun _ _ hrest => hmid.trans hrest)
  · exact .of_ok hmid

theorem list_ends (hs : room.primary.rows.Shows h) (folder : Option String) :
    Ends (list caller folder room) (fun _ mid => Rests h room mid)
      (fun _ mid => Rests h room mid) := by
  refine (folderOfText_ends hs _).bind (fun f mid hmid => ?_) (fun _ _ hrest => hrest)
  exact (looking_ends hmid.shows (Primary.looks_messagesIn caller f)).mono
    (fun _ _ hrest => hmid.trans hrest) fun _ _ hrest => hmid.trans hrest

theorem search_ends (hs : room.primary.rows.Shows h) (query : String) :
    Ends (search caller query room) (fun _ mid => Rests h room mid)
      (fun _ mid => Rests h room mid) := by
  refine Ends.bind (Q := fun _ mid => Rests h room mid)
    (Ends.ofExcept (fun _ _ => .refl hs) fun _ _ => .refl hs) (fun text mid hmid => ?_)
    (fun _ _ hrest => hrest)
  exact (looking_ends hmid.shows (Primary.looks_search caller text none)).mono
    (fun _ _ hrest => hmid.trans hrest) fun _ _ hrest => hmid.trans hrest

theorem searchIn_ends (hs : room.primary.rows.Shows h) (folder query : String) :
    Ends (searchIn caller folder query room) (fun _ mid => Rests h room mid)
      (fun _ mid => Rests h room mid) := by
  refine Ends.bind (Q := fun _ mid => Rests h room mid)
    (Ends.ofExcept (fun _ _ => .refl hs) fun _ _ => .refl hs) (fun text mid hmid => ?_)
    (fun _ _ hrest => hrest)
  refine (folderOfText_ends hmid.shows _).bind (fun f mid' hmid' => ?_)
    (fun _ _ hrest => hmid.trans hrest)
  have hrest : Rests h room mid' := hmid.trans hmid'
  exact (looking_ends hrest.shows (Primary.looks_search caller text (some f))).mono
    (fun _ _ hrest' => hrest.trans hrest') fun _ _ hrest' => hrest.trans hrest'

/-- The refreshes of all messages of an owner. -/
def mailboxTasks (h : Holdings) (owner : String) : List Task :=
  (h.mailbox owner).map fun m => .refresh m.id

/-- What the replica lists for an owner is refreshed once more if the store does not have it. -/
def staleTasks (h : Holdings) (owner : String) (held : List String) : List Task :=
  (held.filter fun id => !((h.mailbox owner).map Message.id).contains id).map .refresh

theorem synchronize_ends (hs : room.primary.rows.Shows h) (ho : h.Orderly) :
    Ends (synchronize caller room)
      (fun _ room' => ∃ mid held listed, Rests h room mid ∧
        onReplica (Replica.idsOf caller) (mid.done (mailboxTasks h caller)) = .ok held listed ∧
        room' = mid.done (mailboxTasks h caller ++ .list caller :: staleTasks h caller held))
      (fun _ room' => ∃ mid, Rests h room mid ∧
        (room' = mid ∨ room' = mid.done (mailboxTasks h caller ++ [.list caller]))) := by
  have hmailbox : Ends (onPrimary (Primary.messagesOf caller) room)
      (fun ms mid => ms = h.mailbox caller ∧ Rests h room mid) (fun _ mid => Rests h room mid) :=
    (reading_ends (E := fun _ => True) hs ((Primary.messagesOf_ends hs ho).mono (fun _ _ hr => hr)
      fun _ _ he => ⟨trivial, he.1⟩)).mono (fun _ _ hr => hr) fun _ _ he => he.2
  refine hmailbox.bind (fun ms mid hms => ?_) (fun _ mid hrest => ⟨mid, hrest, .inl rfl⟩)
  obtain ⟨rfl, hrest⟩ := hms
  have hmap : mailboxTasks h caller = ((h.mailbox caller).map Message.id).map .refresh :=
    (List.map_map).symm
  refine (mapM_attempt_ends (t := .refresh) (fun _ _ => rfl) _).bind (fun kept room₁ h₁ => ?_)
    (fun _ _ he => he.elim)
  rw [← hmap] at h₁
  subst h₁
  have hlist : Ends (onReplica (Replica.idsOf caller) (mid.done (mailboxTasks h caller)))
      (fun held listed =>
        onReplica (Replica.idsOf caller) (mid.done (mailboxTasks h caller)) = .ok held listed ∧
        listed = mid.done (mailboxTasks h caller ++ [.list caller]))
      (fun _ listed => listed = mid.done (mailboxTasks h caller ++ [.list caller])) := by
    refine ⟨fun held listed hr => ⟨hr, ?_⟩, fun e listed hr => ?_⟩
    all_goals
      rw [done_append, done_cons, run, hr]
      rfl
  refine hlist.bind (fun held listed h₂ => ?_) (fun _ _ h₂ => ⟨mid, hrest, .inr h₂⟩)
  obtain ⟨hheld, rfl⟩ := h₂
  refine (mapM_attempt_ends (t := .refresh) (fun _ _ => rfl) _).bind (fun dropped room₃ h₃ => ?_)
    (fun _ _ he => he.elim)
  refine .of_ok ⟨mid, held, _, hrest, hheld, ?_⟩
  rw [h₃, ← done_append, List.append_assoc]
  rfl

theorem synchronize_does (hs : room.primary.rows.Shows h) (ho : h.Orderly) :
    Does caller h .synchronize (synchronize caller) room := by
  refine (synchronize_ends hs ho).mono ?_ ?_
  · rintro _ _ ⟨mid, held, _, hrest, -, rfl⟩
    exact ⟨[], _, mid, hrest.wrote, .synchronized _, rfl⟩
  · rintro _ _ ⟨mid, hrest, rfl | rfl⟩
    · exact hrest.lapsed
    · exact ⟨[], _, mid, hrest.wrote, .unlisted, rfl⟩

/-- Every entry of the backlog is retried once. -/
theorem retryPending_ends (room : Mailroom σ) :
    Ends (retryPending room)
      (fun _ room' => room' = room.done (room.backlog.arrears.map .retry)) (fun _ _ => False) := by
  refine Ends.bind (Q := fun r mid => r = room ∧ mid = room) (F := fun _ _ => False)
    (.of_ok ⟨rfl, rfl⟩) (fun r mid hr => ?_) (fun _ _ he => he)
  obtain ⟨rfl, rfl⟩ := hr
  refine (mapM_attempt_ends (t := .retry) (fun _ _ => rfl) _).bind (fun results room' hroom' => ?_)
    (fun _ _ he => he)
  exact .of_ok hroom'

theorem retryPending_does (hs : room.primary.rows.Shows h) :
    Does caller h .retryPending retryPending room :=
  (retryPending_ends room).mono
    (fun _ _ hroom' => ⟨[], _, room, (Rests.refl hs).wrote, .retried, hroom'⟩)
    fun _ _ he => he.elim

theorem call_does (hs : room.primary.rows.Shows h) (verb : Blacklist.Verb) (url : String)
    {op : Operation} : Does caller h op (call verb url) room :=
  does_look (call_ends hs verb url)

/-- What an operation may do to the mailroom. -/
theorem perform_does (room : Mailroom σ) (caller : String) (hs : room.primary.rows.Shows h)
    (ho : h.Orderly) (op : Operation) : Does caller h op (perform caller op) room := by
  have hedit {op : Operation} {id : String} {a : Action σ Message}
      (ha : Ends (a room)
        (fun m mid => EditOf h caller id h.labels m ∧ Wrote caller h [.alter m] room mid)
        (fun _ mid => Rests h room mid)) (hone : op.Concerns id) :
      Does caller h op (thenRefresh id a) room :=
    (edit_begins hone ha).does (finishes_refresh id)
  cases op with
  | send c withdrawn => exact does_map (send_does hs c withdrawn)
  | saveDraft c => exact does_map (saveDraft_does hs c)
  | editDraft id e =>
    exact does_map ((edit_begins (.of_some rfl) (changeDraft_ends hs ho e)).does
      fun m => finishes_refresh id m)
  | find id =>
    refine does_map (does_look ?_)
    exact (ownMessage_rests hs ho).mono (fun _ _ hr => hr.2.2) fun _ _ he => he
  | list folder => exact does_map (does_look (list_ends hs folder))
  | listSpam => exact does_map (does_look (looking_ends hs (Primary.looks_messagesIn caller .spam)))
  | delete id => exact does_map ((delete_begins hs ho).does fun _ => finishes_refreshQuietly id)
  | changeLabel id c => exact does_map (changeLabel_does hs ho c)
  | flipSpam id => exact does_map ((flipSpam_begins hs ho).does (finishes_refresh id))
  | flipStar id => exact does_map (hedit (flipStar_ends hs ho) (.of_some rfl))
  | flipArchive id => exact does_map (hedit (flipArchive_ends hs ho) (.of_some rfl))
  | flipTrash id => exact does_map (hedit (flipTrash_ends hs ho) (.of_some rfl))
  | markRead id read => exact does_map (hedit (setRead_ends hs ho read) (.of_some rfl))
  | markAllRead =>
    exact does_map ((edits_begin rfl (setAllRead_ends hs ho)).does fun ms =>
      finishes_refreshAll ms ms.length)
  | markUnread ids => exact does_map (markUnread_does hs ho ids)
  | clearTrash => exact does_map ((sweepTrash_begins hs ho).does finishes_sweep)
  | search query => exact does_map (does_look (search_ends hs query))
  | searchIn folder query => exact does_map (does_look (searchIn_ends hs folder query))
  | labels => exact does_map (does_look (looking_ends hs (Primary.looks_select _)))
  | findLabel id => exact does_map (does_look (looking_ends hs (Primary.looks_ownLabel id caller)))
  | createLabel name => exact does_map (createLabel_does hs name)
  | renameLabel id name => exact does_map (renameLabel_does hs ho name)
  | deleteLabel id =>
    exact does_map ((deleteTag_begins hs ho).does fun r => finishes_deletion r.1 r.2)
  | blacklist url =>
    exact does_map (.after_ofExcept hs fun url => call_does hs .add url)
  | unblacklist url => exact does_map (call_does hs .remove url)
  | isBlacklisted url => exact does_map (call_does hs .lookup url)
  | synchronize => exact does_map (synchronize_does hs ho)
  | pending => exact does_map (does_look (.of_ok (.refl hs)))
  | retryPending => exact does_map (retryPending_does hs)

end LabelMail.Mailroom
