import LabelMail.Mailroom.Operation
import LabelMail.Proofs.Primary.Labelling
import LabelMail.Proofs.ScreeningFrame

/-!
The first half of an operation, which works on the primary store. It leaves the replica and the
backlog alone, and what it writes is a series of acts on the holdings.
-/
namespace LabelMail.Mailroom

variable {σ α : Type}

/-- A later state of the mailroom in which replica and backlog are the same. -/
structure Ahead (room room' : Mailroom σ) : Prop where
  primary : room.primary.Later room'.primary
  replica : room'.replica = room.replica
  backlog : room'.backlog = room.backlog
  keeping : room'.keeping = room.keeping
  rules : room'.rules = room.rules
  now : room'.now = room.now
  idAt : room'.idAt = room.idAt
  drawn : room.drawn ≤ room'.drawn

theorem Ahead.refl (room : Mailroom σ) : room.Ahead room :=
  ⟨.refl _, rfl, rfl, rfl, rfl, rfl, rfl, Nat.le_refl _⟩

theorem Ahead.trans {room room' room'' : Mailroom σ} (h : room.Ahead room')
    (h' : room'.Ahead room'') : room.Ahead room'' where
  primary := h.primary.trans h'.primary
  replica := h'.replica.trans h.replica
  backlog := h'.backlog.trans h.backlog
  keeping := h'.keeping.trans h.keeping
  rules := h'.rules.trans h.rules
  now := h'.now.trans h.now
  idAt := h'.idAt.trans h.idAt
  drawn := Nat.le_trans h.drawn h'.drawn

theorem Ahead.sound {room room' : Mailroom σ} (h : room.Ahead room')
    (hd : room.primary.Sound) : room'.primary.Sound :=
  hd.later h.primary

/-- The id was drawn between the two states. -/
def DrawnSince (room room' : Mailroom σ) (id : String) : Prop :=
  ∃ n, room.drawn ≤ n ∧ n < room'.drawn ∧ room.idAt n = id

theorem DrawnSince.weaken {room₀ room room' room₁ : Mailroom σ} {id : String}
    (h₀ : room₀.Ahead room) (h₁ : room'.Ahead room₁) (h : DrawnSince room room' id) :
    DrawnSince room₀ room₁ id := by
  obtain ⟨n, hlow, hhigh, hid⟩ := h
  exact ⟨n, Nat.le_trans h₀.drawn hlow, Nat.lt_of_lt_of_le hhigh h₁.drawn, by rw [← hid, h₀.idAt]⟩

/-- The primary store shows the same holdings as before. -/
structure Rests (h : Holdings) (room room' : Mailroom σ) : Prop extends room.Ahead room' where
  shows : room'.primary.rows.Shows h

/-- The acts were performed on the primary store. -/
structure Wrote (caller : String) (h : Holdings) (acts : List Act) (room room' : Mailroom σ) :
    Prop extends room.Ahead room' where
  legal : h.Legal caller (DrawnSince room room') acts
  shows : room'.primary.rows.Shows (h.after acts)

end Mailroom

namespace Holdings

variable {h : Holdings} {caller : String} {fresh fresh' : String → Prop} {a : Act}
variable {acts : List Act}

theorem Fits.mono (hf : ∀ id, fresh id → fresh' id) (ha : h.Fits caller fresh a) :
    h.Fits caller fresh' a := by
  cases a with
  | enter m => exact ⟨hf _ ha.1, ha.2⟩
  | enterLabel l => exact ⟨ha.1, hf _ ha.2.1, ha.2.2⟩
  | alter m => exact ha
  | discard id => exact ha
  | renameLabel l name => exact ha
  | discardLabel l => exact ha

theorem Legal.mono (hf : ∀ id, fresh id → fresh' id) (ha : h.Legal caller fresh acts) :
    h.Legal caller fresh' acts := by
  induction acts generalizing h with
  | nil => trivial
  | cons a acts ih => exact ⟨ha.1.mono hf, ih ha.2⟩

end Holdings

namespace Mailroom

variable {room room' room'' : Mailroom σ} {h : Holdings} {caller : String} {acts acts' : List Act}

theorem Rests.refl (hs : room.primary.rows.Shows h) : Rests h room room := ⟨.refl room, hs⟩

theorem Rests.trans (hr : Rests h room room') (hr' : Rests h room' room'') : Rests h room room'' :=
  ⟨hr.toAhead.trans hr'.toAhead, hr'.shows⟩

theorem Rests.wrote (hr : Rests h room room') : Wrote caller h [] room room' :=
  ⟨hr.toAhead, trivial, hr.shows⟩

theorem Wrote.trans (hw : Wrote caller h acts room room')
    (hw' : Wrote caller (h.after acts) acts' room' room'') :
    Wrote caller h (acts ++ acts') room room'' where
  toAhead := hw.toAhead.trans hw'.toAhead
  legal := Holdings.legal_append.mpr
    ⟨hw.legal.mono fun _ hid => hid.weaken (.refl room) hw'.toAhead,
      hw'.legal.mono fun _ hid => hid.weaken hw.toAhead (.refl room'')⟩
  shows := by
    rw [Holdings.after_append]
    exact hw'.shows

theorem Rests.then (hr : Rests h room room') (hw : Wrote caller h acts room' room'') :
    Wrote caller h acts room room'' :=
  hr.wrote.trans hw

theorem onPrimary_ends (room : Mailroom σ) {q : Primary.Query α} {Q : α → Primary.Store → Prop}
    {E : Failure → Primary.Store → Prop} (hq : Ends (q room.primary) Q E) :
    Ends (onPrimary q room) (fun a room' => ∃ db, Q a db ∧ room' = { room with primary := db })
      (fun e room' => ∃ db, E e db ∧ room' = { room with primary := db }) := by
  unfold onPrimary
  split
  · next a db hr => exact .of_ok ⟨db, hq.ok a db hr, rfl⟩
  · next e db hr => exact .of_error ⟨db, hq.error e db hr, rfl⟩

theorem ahead_primary {db : Primary.Store} (hl : room.primary.Later db) :
    room.Ahead { room with primary := db } :=
  ⟨hl, rfl, rfl, rfl, rfl, rfl, rfl, Nat.le_refl _⟩

theorem rests_primary {db : Primary.Store} (hs : room.primary.rows.Shows h)
    (hi : room.primary.Idle db) : Rests h room { room with primary := db } :=
  ⟨ahead_primary hi.toLater, hs.idle hi⟩

/-- A query that only reads, as an action. -/
theorem reading_ends {q : Primary.Query α} {P : α → Prop} {E : Failure → Prop}
    (hs : room.primary.rows.Shows h)
    (hq : Ends (q room.primary) (fun a db => P a ∧ room.primary.Idle db)
      (fun e db => E e ∧ room.primary.Idle db)) :
    Ends (onPrimary q room) (fun a room' => P a ∧ Rests h room room')
      (fun e room' => E e ∧ Rests h room room') := by
  refine (onPrimary_ends _ hq).mono ?_ ?_
  · rintro a _ ⟨db, ⟨hP, hi⟩, rfl⟩
    exact ⟨hP, rests_primary hs hi⟩
  · rintro e _ ⟨db, ⟨hE, hi⟩, rfl⟩
    exact ⟨hE, rests_primary hs hi⟩

theorem looking_ends {q : Primary.Query α} (hs : room.primary.rows.Shows h)
    (hq : Primary.Looks q) :
    Ends (onPrimary q room) (fun _ room' => Rests h room room')
      (fun _ room' => Rests h room room') :=
  (reading_ends (P := fun _ => True) (E := fun _ => True) hs
    ((hq room.primary).mono (fun _ _ hi => ⟨trivial, hi⟩) fun _ _ hi => ⟨trivial, hi⟩)).mono
    (fun _ _ hr => hr.2) fun _ _ hr => hr.2

/-- A call reaches no further than the blacklist. -/
theorem rests_ask {start : Mailroom σ} (c : Blacklist.Call) (hr : Rests h start room) :
    Rests h start (ask c room).2 := by
  unfold ask
  split
  · have hask := Primary.ask_ends hr.shows room.now c
    split
    · next b db hb =>
      obtain ⟨hs, hl⟩ := hask.ok b db hb
      exact hr.trans ⟨ahead_primary hl, hs⟩
    · next e db he =>
      obtain ⟨hs, hl⟩ := hask.error e db he
      exact hr.trans ⟨ahead_primary hl, hs⟩
  · exact hr.trans ⟨⟨.refl _, rfl, rfl, rfl, rfl, rfl, rfl, Nat.le_refl _⟩, hr.shows⟩

theorem keeping_ask (c : Blacklist.Call) (room : Mailroom σ) :
    (ask c room).2.keeping = room.keeping := by
  unfold ask
  split
  · split <;> rfl
  · rfl

/-- A call ends as it is answered. -/
theorem call_answered {verb : Blacklist.Verb} {url : String} {Q : Bool → Mailroom σ → Prop}
    {E : Failure → Mailroom σ → Prop}
    (hok : ∀ b, (ask ⟨verb, url⟩ room).1.answer = .ok b → Q b (ask ⟨verb, url⟩ room).2)
    (herror : ∀ e, (ask ⟨verb, url⟩ room).1.answer = .error e → E e (ask ⟨verb, url⟩ room).2) :
    Ends (call verb url room) Q E := by
  unfold call
  split
  · next b _ _ _ hask =>
    rw [hask] at hok
    exact .of_ok (hok b rfl)
  · next e _ _ _ hask =>
    rw [hask] at herror
    exact .of_error (herror e rfl)

/-- What a call leaves behind, however it is answered. -/
theorem call_leaves {I : Mailroom σ → Prop} {verb : Blacklist.Verb} {url : String}
    (hi : I (ask ⟨verb, url⟩ room).2) :
    Ends (call verb url room) (fun _ room' => I room') (fun _ room' => I room') :=
  call_answered (fun _ _ => hi) fun _ _ => hi

theorem call_ends (hs : room.primary.rows.Shows h) (verb : Blacklist.Verb) (url : String) :
    Ends (call verb url room) (fun _ room' => Rests h room room')
      (fun _ room' => Rests h room room') :=
  call_leaves (rests_ask _ (.refl hs))

section Screening

variable {f : Blacklist.Oracle (Mailroom σ) → Screening.Rules → Mailroom σ →
  Except Failure α × Mailroom σ}

/-- A screening ends as it says. -/
theorem screening_answered {Q : α → Mailroom σ → Prop} {E : Failure → Mailroom σ → Prop}
    (hok : ∀ a, (f ask room.rules room).1 = .ok a → Q a (f ask room.rules room).2)
    (herror : ∀ e, (f ask room.rules room).1 = .error e → E e (f ask room.rules room).2) :
    Ends (screening f room) Q E := by
  unfold screening
  split
  · next a _ hf =>
    rw [hf] at hok
    exact .of_ok (hok a rfl)
  · next e _ hf =>
    rw [hf] at herror
    exact .of_error (herror e rfl)

/-- What a screening leaves behind, whatever it says. -/
theorem screening_leaves {I : Mailroom σ → Prop} (hi : I (f ask room.rules room).2) :
    Ends (screening f room) (fun _ room' => I room') (fun _ room' => I room') :=
  screening_answered (fun _ _ => hi) fun _ _ => hi

/-- A screening is known by what it says of a message whose calls all leave the holdings alone. -/
theorem screening_ends {P : α → Prop} (hP : ∀ a, (f ask room.rules room).1 = .ok a → P a)
    (hr : Rests h room (f ask room.rules room).2) :
    Ends (screening f room) (fun a room' => P a ∧ Rests h room room')
      (fun _ room' => Rests h room room') :=
  screening_answered (fun a ha => ⟨hP a ha, hr⟩) fun _ _ => hr

end Screening

/-- Acts that need no new id, performed by a query. -/
theorem wrote_primary {db : Primary.Store} (hlegal : ∀ fresh, h.Legal caller fresh acts)
    (hs : db.rows.Shows (h.after acts)) (hl : room.primary.Later db) :
    Wrote caller h acts room { room with primary := db } :=
  ⟨ahead_primary hl, hlegal _, hs⟩

end Mailroom

end LabelMail
