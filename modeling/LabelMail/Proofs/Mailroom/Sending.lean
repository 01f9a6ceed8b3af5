import LabelMail.Proofs.Mailroom.Runs

/-!
Sending mail as a whole. Until both copies are stored nothing is written: the directory is read and
the blacklist is asked, and whatever fails on the way leaves the rows as they were. The two copies
are stored together, and what follows in the replica never fails.
-/
namespace LabelMail.Mailroom

open Request (Compose)

variable {σ : Type} {room mid room' start : Mailroom σ} {caller : String}

/-- What becomes of a blacklist that is kept elsewhere and only ever asked whether addresses are
listed. -/
inductive Consulted (keeping : Keeping σ) : σ → σ → Prop
  | refl (s : σ) : Consulted keeping s s
  | lookup {s t : σ} {ask : Blacklist.Oracle σ} (url : String) (hask : keeping = .elsewhere ask)
      (h : Consulted keeping s t) : Consulted keeping s (ask ⟨.lookup, url⟩ t).2

/-- So far the directory was read and the blacklist asked. -/
structure Consults (room room' : Mailroom σ) : Prop where
  primary : room.primary.Idle room'.primary
  replica : room'.replica = room.replica
  backlog : room'.backlog = room.backlog
  keeping : room'.keeping = room.keeping
  outside : Consulted room.keeping room.outside room'.outside
  rules : room'.rules = room.rules
  now : room'.now = room.now
  idAt : room'.idAt = room.idAt
  drawn : room'.drawn = room.drawn

theorem Consulted.trans {keeping : Keeping σ} {s t u : σ} (h : Consulted keeping s t)
    (h' : Consulted keeping t u) : Consulted keeping s u := by
  induction h' with
  | refl => exact h
  | lookup url hask _ ih => exact .lookup url hask ih

theorem Consults.refl (room : Mailroom σ) : Consults room room :=
  ⟨.refl _, rfl, rfl, rfl, .refl _, rfl, rfl, rfl, rfl⟩

theorem Consults.trans (h : Consults start room) (h' : Consults room room') :
    Consults start room' where
  primary := h.primary.trans h'.primary
  replica := h'.replica.trans h.replica
  backlog := h'.backlog.trans h.backlog
  keeping := h'.keeping.trans h.keeping
  outside := h.outside.trans (h.keeping ▸ h'.outside)
  rules := h'.rules.trans h.rules
  now := h'.now.trans h.now
  idAt := h'.idAt.trans h.idAt
  drawn := h'.drawn.trans h.drawn

theorem consults_lookup (url : String) (h : Consults start room) :
    Consults start (ask ⟨.lookup, url⟩ room).2 := by
  unfold ask
  split
  · have hask := Primary.looks_lookup room.now url room.primary
    split
    · next b db hb =>
      exact h.trans ⟨hask.ok b db hb, rfl, rfl, rfl, .refl _, rfl, rfl, rfl, rfl⟩
    · next e db he =>
      exact h.trans ⟨hask.error e db he, rfl, rfl, rfl, .refl _, rfl, rfl, rfl, rfl⟩
  · next ask hkeeping =>
    exact h.trans
      ⟨.refl _, rfl, rfl, rfl, .lookup url hkeeping (.refl _), rfl, rfl, rfl, rfl⟩

/-- The primary store was looked at. -/
def Looked (room room' : Mailroom σ) : Prop :=
  ∃ db, room.primary.Idle db ∧ room' = { room with primary := db }

theorem Looked.trans (h : Looked start room) (h' : Looked room room') : Looked start room' := by
  obtain ⟨db, hi, rfl⟩ := h
  obtain ⟨db', hi', rfl⟩ := h'
  exact ⟨db', hi.trans hi', rfl⟩

theorem Looked.consults (h : Looked room room') : Consults room room' := by
  obtain ⟨db, hi, rfl⟩ := h
  exact ⟨hi, rfl, rfl, rfl, .refl _, rfl, rfl, rfl, rfl⟩

theorem person_looked (id missing : String) :
    Ends (person id missing room) (fun u mid => u.id = id ∧ Looked room mid)
      (fun _ mid => Looked room mid) := by
  refine (onPrimary_ends room (Database.select_ends _)).bind (fun r mid hmid => ?_) ?_
  · obtain ⟨db, ⟨hr, hi⟩, rfl⟩ := hmid
    cases r with
    | none => exact .of_error ⟨db, hi, rfl⟩
    | some u =>
      have hid : u.id = id := by simpa using List.find?_some hr.symm
      exact .of_ok ⟨hid, db, hi, rfl⟩
  · intro _ mid hmid
    obtain ⟨db, ⟨hi, -⟩, rfl⟩ := hmid
    exact ⟨db, hi, rfl⟩

/-- What the screening of a new message decided, in the state in which it was made. -/
structure Screened (subject content : String) (withdrawn : Bool) (tags : TagSet)
    (room : Mailroom σ) : Prop where
  decided : (Screening.classify ask room.rules subject content withdrawn room).tags = .ok tags
  standing : (Screening.classify ask room.rules subject content withdrawn room).withdrawn = false

theorem screen_consults (subject content : String) (withdrawn : Bool) :
    Ends (screen subject content withdrawn room)
      (fun tags mid => Screened subject content withdrawn tags room ∧ Consults room mid)
      (fun _ mid => Consults room mid) := by
  have hstate : Consults room
      (Screening.classify ask room.rules subject content withdrawn room).state :=
    Screening.classify_keeps (fun url _ => consults_lookup url) (.refl room)
  unfold screen screening
  dsimp only
  cases hv : (Screening.classify ask room.rules subject content withdrawn room).tags with
  | error e => exact .of_error hstate
  | ok tags =>
    cases hw : (Screening.classify ask room.rules subject content withdrawn room).withdrawn with
    | true => exact .of_error hstate
    | false => exact .of_ok ⟨⟨hv, hw⟩, hstate⟩

/-- Nothing came of the request. Ids may be used up. -/
structure Undone (room room' : Mailroom σ) : Prop where
  rows : room'.primary.rows = room.primary.rows
  replica : room'.replica = room.replica
  backlog : room'.backlog = room.backlog
  keeping : room'.keeping = room.keeping
  outside : Consulted room.keeping room.outside room'.outside

theorem Consults.undone (h : Consults room room') : Undone room room' :=
  ⟨h.primary.rows, h.replica, h.backlog, h.keeping, h.outside⟩

theorem Consults.then_undone (h : Consults start room) (h' : Undone room room') :
    Undone start room' where
  rows := h'.rows.trans h.primary.rows
  replica := h'.replica.trans h.replica
  backlog := h'.backlog.trans h.backlog
  keeping := h'.keeping.trans h.keeping
  outside := h.outside.trans (h.keeping ▸ h'.outside)

/-- The two copies of what was sent: alike but for id, owner and tags, and new to the store. -/
structure Pair (caller : String) (room : Mailroom σ) (d : Delivery) : Prop where
  alike : d.senderCopy = { d.recipientCopy with
    id := d.senderCopy.id, ownerId := caller, tags := .ofList [.sent] }
  sender : d.recipientCopy.senderId = caller
  owner : d.recipientCopy.ownerId = d.recipientCopy.recipientId
  timestamp : d.recipientCopy.timestamp = .ofMillis room.now
  unread : d.recipientCopy.read = false
  unstarred : d.recipientCopy.starred = false
  recipientId : d.recipientCopy.id = room.idAt room.drawn
  senderId : d.senderCopy.id = room.idAt (room.drawn + 1)
  distinct : d.senderCopy.id ≠ d.recipientCopy.id
  senderNew : d.senderCopy.id ∉ room.primary.rows.messages.map (·.id)
  recipientNew : d.recipientCopy.id ∉ room.primary.rows.messages.map (·.id)

/-- Both copies are stored, and nothing is done for the replica yet. -/
structure Posted (room : Mailroom σ) (d : Delivery) (room' : Mailroom σ) : Prop
    extends room.Ahead room' where
  rows : room'.primary.rows = { room.primary.rows with
    messages := room.primary.rows.messages ++
      [.ofMessage d.senderCopy, .ofMessage d.recipientCopy] }
  outside : Consulted room.keeping room.outside room'.outside

theorem deliver_ends {src dest : User} {subject content : String} {tags : TagSet}
    (hsrc : src.id = caller) :
    Ends (deliver src dest subject content tags room)
      (fun d room' => Pair caller room d ∧ d.recipientCopy.recipientId = dest.id ∧
        d.recipientCopy.subject = subject ∧ d.recipientCopy.content = content ∧
        d.recipientCopy.tags = tags ∧ ∃ mid, Posted room d mid ∧
          room' = mid.done [.refresh d.senderCopy.id, .refresh d.recipientCopy.id])
      (fun _ room' => Undone room room') := by
  subst hsrc
  let m : Message :=
    { id := room.idAt room.drawn, senderId := src.id, senderName := src.displayName,
      recipientId := dest.id, recipientName := dest.displayName, recipientEmail := dest.email,
      subject, content, timestamp := .ofMillis room.now, ownerId := dest.id, read := false,
      starred := false, tags }
  let copy : Message :=
    { m with id := room.idAt (room.drawn + 1), ownerId := src.id, tags := .ofList [.sent] }
  refine Ends.bind (Q := fun x mid => x = m ∧ mid = room.drawing 1) (F := fun _ _ => False)
    (.of_ok ⟨rfl, rfl⟩) (fun x mid hx => ?_) (fun _ _ he => he.elim)
  obtain ⟨rfl, rfl⟩ := hx
  refine (onPrimary_ends (room.drawing 2) (Primary.insertPair_rows copy m)).bind
    (fun _ mid hmid => ?_) fun _ mid hmid => ?_
  · obtain ⟨db, ⟨hcopy, hm, hne, hrows, hl⟩, rfl⟩ := hmid
    refine (refreshAll_ends [copy, m]).bind (fun _ room' hroom' => ?_) (fun _ _ he => he.elim)
    refine .of_ok ⟨⟨rfl, rfl, rfl, rfl, rfl, rfl, rfl, rfl, hne, hcopy, hm⟩, rfl, rfl, rfl, rfl,
      { room.drawing 2 with primary := db }, ⟨?_, hrows, .refl _⟩, hroom'⟩
    exact (ahead_drawing room 2).trans (ahead_primary hl)
  · obtain ⟨db, hi, rfl⟩ := hmid
    exact ⟨hi.rows, rfl, rfl, rfl, .refl _⟩

theorem Pair.of_consults {d : Delivery} (hc : Consults room mid) (h : Pair caller mid d) :
    Pair caller room d where
  alike := h.alike
  sender := h.sender
  owner := h.owner
  timestamp := by rw [h.timestamp, hc.now]
  unread := h.unread
  unstarred := h.unstarred
  recipientId := by rw [h.recipientId, hc.idAt, hc.drawn]
  senderId := by rw [h.senderId, hc.idAt, hc.drawn]
  distinct := h.distinct
  senderNew := by rw [← hc.primary.rows]; exact h.senderNew
  recipientNew := by rw [← hc.primary.rows]; exact h.recipientNew

theorem Consults.ahead (h : Consults room room') : room.Ahead room' :=
  ⟨h.primary.toLater, h.replica, h.backlog, h.keeping, h.rules, h.now, h.idAt, h.drawn.ge⟩

theorem Posted.of_consults {d : Delivery} (hc : Consults room mid) (h : Posted mid d room') :
    Posted room d room' where
  toAhead := hc.ahead.trans h.toAhead
  rows := by rw [h.rows, hc.primary.rows]
  outside := hc.outside.trans (hc.keeping ▸ h.outside)

/-- What was sent is what the request says, and the screening has placed the recipient's copy. -/
structure Answers (c : Compose) (withdrawn : Bool) (room : Mailroom σ) (d : Delivery) : Prop where
  recipient : required "to" c.recipient = .ok d.recipientCopy.recipientId
  subject : required "subject" c.subject = .ok d.recipientCopy.subject
  content : required "content" c.content = .ok d.recipientCopy.content
  screened : ∃ mid, Looked room mid ∧
    Screened d.recipientCopy.subject d.recipientCopy.content withdrawn d.recipientCopy.tags mid

theorem send_ends (room : Mailroom σ) (caller : String) (c : Compose) (withdrawn : Bool) :
    Ends (send caller c withdrawn room)
      (fun d room' => Answers c withdrawn room d ∧ Pair caller room d ∧ ∃ mid, Posted room d mid ∧
        room' = mid.done [.refresh d.senderCopy.id, .refresh d.recipientCopy.id])
      (fun _ room' => Undone room room') := by
  have hnothing : Undone room room := (Consults.refl room).undone
  refine .after_ofExcept (fun name hname => ?_) fun _ => hnothing
  refine .after_ofExcept (fun subject hsubject => ?_) fun _ => hnothing
  refine .after_ofExcept (fun content hcontent => ?_) fun _ => hnothing
  refine (person_looked caller _).bind (fun src room₁ h₁ => ?_) fun _ _ h => h.consults.undone
  obtain ⟨hsrc, h₁⟩ := h₁
  refine (person_looked name _).bind (fun dest room₂ h₂ => ?_)
    fun _ _ h => (h₁.trans h).consults.undone
  obtain ⟨hdest, h₂⟩ := h₂
  have h₂ := h₁.trans h₂
  refine (screen_consults subject content withdrawn).bind (fun tags room₃ h₃ => ?_)
    fun _ _ h => (h₂.consults.trans h).undone
  obtain ⟨hscreened, h₃⟩ := h₃
  have h₃ := h₂.consults.trans h₃
  refine (deliver_ends hsrc).mono (fun d room' hd => ?_) fun _ _ h => h₃.then_undone h
  obtain ⟨hpair, hrecipient, rfl, rfl, rfl, mid, hposted, hdone⟩ := hd
  refine ⟨⟨?_, hsubject, hcontent, room₂, h₂, hscreened⟩, hpair.of_consults h₃, mid,
    hposted.of_consults h₃, hdone⟩
  rw [hname, hrecipient, hdest]

/-- The recipient's copy is new mail, in the inbox or in spam. -/
theorem Pair.recipient_new {d : Delivery} (h : Pair caller room d)
    (htags : d.recipientCopy.tags = .ofList [.inbox] ∨ d.recipientCopy.tags = .ofList [.spam]) :
    d.recipientCopy.New caller where
  exact := by rw [h.timestamp, Calendar.Instant.ofMillis_toMillis_ofMillis]
  unread := h.unread
  unstarred := h.unstarred
  sender := h.sender
  placed := .inr ⟨h.owner, htags⟩

theorem Pair.sender_new {d : Delivery} (h : Pair caller room d) : d.senderCopy.New caller := by
  rw [h.alike]
  constructor
  · show Calendar.Instant.ofMillis d.recipientCopy.timestamp.toMillis = d.recipientCopy.timestamp
    rw [h.timestamp, Calendar.Instant.ofMillis_toMillis_ofMillis]
  · exact h.unread
  · exact h.unstarred
  · exact h.sender
  · exact .inl ⟨rfl, .inl rfl⟩

/-- A request leaves everything as it was, or else adds the two copies and touches no other row.
What is read from the new rows is what was sent. -/
theorem send_all_or_nothing (room : Mailroom σ) (caller : String) (c : Compose)
    (withdrawn : Bool) :
    Ends (send caller c withdrawn room)
      (fun d room' => Answers c withdrawn room d ∧ Pair caller room d ∧
        (d.recipientCopy.tags = .ofList [.inbox] ∨ d.recipientCopy.tags = .ofList [.spam]) ∧
        room'.primary.rows = { room.primary.rows with
          messages := room.primary.rows.messages ++
            [.ofMessage d.senderCopy, .ofMessage d.recipientCopy] } ∧
        room'.holdings.messages =
          room.holdings.messages ++ [d.senderCopy, d.recipientCopy] ∧
        Consulted room.keeping room.outside room'.outside)
      (fun _ room' => Undone room room') := by
  refine (send_ends room caller c withdrawn).mono (fun d room' hd => ?_) fun _ _ he => he
  obtain ⟨hanswers, hpair, mid, hposted, rfl⟩ := hd
  have htrails : mid.Trails (mid.done _) :=
    trails_done mid [.refresh d.senderCopy.id, .refresh d.recipientCopy.id]
  obtain ⟨_, -, hscreened⟩ := hanswers.screened
  have htags := Screening.classify_tags hscreened.decided
  have hrows := htrails.primary.rows.trans hposted.rows
  refine ⟨hanswers, hpair, htags, hrows, ?_, ?_⟩
  · have hsender := hpair.sender_new.storable.stored_message
    have hrecipient := (hpair.recipient_new htags).storable.stored_message
    rw [holdings, hrows, Primary.Rows.holdings, List.filterMap_append]
    simp [holdings, Primary.Rows.holdings, hsender, hrecipient, Except.toOption]
  · rw [htrails.outside]
    exact hposted.outside

/-- Alice writes to Bob, and both copies are there. -/
theorem send_all_or_nothing_sample :
    ∃ d room', send "alice" ⟨some "bob", some "Lunch", some "At noon?"⟩ false sample = .ok d room' ∧
      Pair "alice" sample d ∧
      room'.primary.rows.messages = [.ofMessage d.senderCopy, .ofMessage d.recipientCopy] ∧
      room'.holdings.messages = [d.senderCopy, d.recipientCopy] := by
  have hends := send_all_or_nothing sample "alice" ⟨some "bob", some "Lunch", some "At noon?"⟩ false
  cases hr : send "alice" ⟨some "bob", some "Lunch", some "At noon?"⟩ false sample with
  | ok d room' =>
    obtain ⟨-, hpair, -, hrows, hmessages, -⟩ := hends.ok d room' hr
    exact ⟨d, room', rfl, hpair, congrArg Primary.Rows.messages hrows, hmessages⟩
  | error e room' =>
    have hsent : (match send "alice" ⟨some "bob", some "Lunch", some "At noon?"⟩ false sample with
      | .ok _ _ => true
      | .error _ _ => false) = true := by decide +kernel
    rw [hr] at hsent
    cases hsent

end LabelMail.Mailroom
