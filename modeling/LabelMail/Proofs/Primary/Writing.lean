import LabelMail.Proofs.Primary.Reading

/-!
What the queries of the primary store that write make of its holdings. A query that fails has left
the rows as they were.
-/
namespace LabelMail.Primary

open Database Text

variable {db : Store} {h : Holdings} {m x : Message} {ms : List Message}
variable {id owner : String} {ids : List String}

theorem Rows.Shows.hasMessage {rows : Rows} (hs : rows.Shows h) :
    hasMessage rows id = true ↔ id ∈ h.ids := by
  simp only [Primary.hasMessage, hs.messages, List.any_map, List.any_eq_true, Function.comp_apply,
    messageRow_id, beq_iff_eq, Holdings.mem_ids]

theorem insertMessage_ends (m : Message) (hs : db.rows.Shows h) :
    Ends (insertMessage m db)
      (fun _ db' => m.id ∉ h.ids ∧ db'.rows.Shows (h.apply (.enter m)) ∧ db.Later db')
      (fun _ db' => db.Idle db' ∧ (db.Sound → m.id ∈ h.ids)) := by
  refine (statement_ends _ _ _).mono (fun _ db' hok => ?_)
    (fun _ db' herr => ⟨herr.1, fun hd => ?_⟩)
  · obtain ⟨hrows, hl⟩ := hok
    split at hrows
    · cases hrows
    · next hnew =>
      obtain ⟨-, hrows⟩ := Prod.mk.inj (Except.ok.inj hrows)
      refine ⟨fun hid => hnew (hs.hasMessage.mpr hid), ?_, hl⟩
      rw [← hrows]
      exact ⟨by simp [Holdings.apply, hs.messages], hs.labels⟩
  · obtain ⟨refusal, hrefused⟩ := herr.2 hd
    split at hrefused
    · next hold => exact hs.hasMessage.mp hold
    · cases hrefused

theorem insertPair_ends (m second : Message) (hs : db.rows.Shows h) :
    Ends (insertPair m second db)
      (fun _ db' => m.id ∉ h.ids ∧ second.id ∉ (h.apply (.enter m)).ids ∧
        db'.rows.Shows (h.after [.enter m, .enter second]) ∧ db.Later db')
      (fun _ db' => db.Idle db' ∧
        (db.Sound → m.id ∈ h.ids ∨ second.id ∈ (h.apply (.enter m)).ids)) := by
  let Q (_ : Unit) (rows : Rows) : Prop := m.id ∉ h.ids ∧
    second.id ∉ (h.apply (.enter m)).ids ∧ rows.Shows (h.after [.enter m, .enter second])
  refine (transaction_ends (Q := Q) fun db₁ hi => ?_).mono
    (fun _ _ h => ⟨h.1.1, h.1.2.1, h.1.2.2, h.2⟩) (fun _ _ h => h)
  refine (insertMessage_ends m (hs.idle hi)).bind (fun _ db₂ h₂ => ?_)
    (fun _ _ he => ⟨he.1.toLater, fun hd => .inl (he.2 hd)⟩)
  refine (insertMessage_ends second h₂.2.1).mono (fun _ db₃ h₃ => ?_) (fun _ db₃ he => ?_)
  · exact ⟨⟨h₂.1, h₃.1, h₃.2.1⟩, h₂.2.2.trans h₃.2.2⟩
  · exact ⟨h₂.2.2.trans he.1.toLater, fun hd => .inr (he.2 (hd.later h₂.2.2))⟩

theorem insertMessage_rows (m : Message) :
    Ends (insertMessage m db)
      (fun _ db' => m.id ∉ db.rows.messages.map (·.id) ∧
        db'.rows = { db.rows with messages := db.rows.messages ++ [.ofMessage m] } ∧ db.Later db')
      (fun _ db' => db.Idle db') := by
  refine (statement_ends _ _ _).mono (fun _ db' hok => ?_) fun _ _ herr => herr.1
  obtain ⟨hrows, hl⟩ := hok
  split at hrows
  · cases hrows
  · next hfree =>
    obtain ⟨-, hrows⟩ := Prod.mk.inj (Except.ok.inj hrows)
    refine ⟨fun hid => hfree ?_, hrows.symm, hl⟩
    simpa [hasMessage] using hid

theorem insertPair_rows (first second : Message) :
    Ends (insertPair first second db)
      (fun _ db' => first.id ∉ db.rows.messages.map (·.id) ∧
        second.id ∉ db.rows.messages.map (·.id) ∧ first.id ≠ second.id ∧
        db'.rows = { db.rows with
          messages := db.rows.messages ++ [.ofMessage first, .ofMessage second] } ∧ db.Later db')
      (fun _ db' => db.Idle db') := by
  let Q (_ : Unit) (rows : Rows) : Prop := first.id ∉ db.rows.messages.map (·.id) ∧
    second.id ∉ db.rows.messages.map (·.id) ∧ first.id ≠ second.id ∧
    rows = { db.rows with
      messages := db.rows.messages ++ [.ofMessage first, .ofMessage second] }
  refine (transaction_ends (Q := Q) (R := True) fun db₁ hi => ?_).mono
    (fun _ _ h => ⟨h.1.1, h.1.2.1, h.1.2.2.1, h.1.2.2.2, h.2⟩) (fun _ _ h => h.1)
  refine (insertMessage_rows first).bind (fun _ db₂ h₂ => ?_)
    (fun _ _ hidle => ⟨hidle.toLater, fun _ => trivial⟩)
  obtain ⟨hfirst, hrows₂, hl₂⟩ := h₂
  rw [hi.rows] at hfirst hrows₂
  refine (insertMessage_rows second).mono (fun _ db₃ h₃ => ?_)
    (fun _ _ hidle => ⟨hl₂.trans hidle.toLater, fun _ => trivial⟩)
  obtain ⟨hsecond, hrows₃, hl₃⟩ := h₃
  rw [hrows₂, List.map_append, List.mem_append, not_or] at hsecond
  refine ⟨⟨hfirst, hsecond.1, fun heq => hsecond.2 ?_, ?_⟩, hl₂.trans hl₃⟩
  · simp [messageRow_id, heq]
  · rw [hrows₃, hrows₂]
    simp

/-- A change that makes the row of `m` out of each row with its id puts `m` in their place. -/
theorem changeRow_ends {g : MessageRow → MessageRow} (hs : db.rows.Shows h)
    (hg : ∀ x ∈ h.messages, x.id = m.id → g (.ofMessage x) = .ofMessage m) :
    Ends (changeRow m.id g db)
      (fun n db' => (n = 0 → m.id ∉ h.ids) ∧ db'.rows.Shows (h.put m) ∧ db.Later db')
      (fun _ db' => db.Idle db' ∧ ¬ db.Sound) := by
  refine (modifyRows_ends _ _).mono (fun n db' hok => ?_) (fun _ _ he => he)
  obtain ⟨hrows, hl⟩ := hok
  obtain ⟨hn, hrows⟩ := Prod.mk.inj hrows
  refine ⟨fun hzero hid => ?_, ?_, hl⟩
  · obtain ⟨x, hx, hxid⟩ := Holdings.mem_ids.mp hid
    rw [← hn, List.countP_eq_zero] at hzero
    refine hzero (.ofMessage x) ?_ (by simp [messageRow_id, hxid])
    rw [hs.messages]
    exact List.mem_map_of_mem hx
  · rw [← hrows]
    refine ⟨?_, hs.labels⟩
    simp only [Holdings.put, hs.messages, List.map_map]
    refine List.map_congr_left fun x hx => ?_
    by_cases hxid : x.id = m.id
    · simp [messageRow_id, hxid, hg x hx hxid]
    · simp [messageRow_id, hxid]

/-- `m` is `x` with other tags and flags. -/
def IsRetagged (x m : Message) : Prop :=
  { x with tags := m.tags, read := m.read, starred := m.starred } = m

/-- `m` takes the place of none but messages that it is a retagging of. -/
def CanRetag (h : Holdings) (m : Message) : Prop :=
  ∀ x ∈ h.messages, x.id = m.id → IsRetagged x m

theorem IsRetagged.sibling {m' : Message} (hm : IsRetagged x m) (hm' : IsRetagged x m') :
    IsRetagged m m' := by
  unfold IsRetagged at *
  rw [← hm]
  exact hm'

theorem canRetag_put {m' : Message} (hm : CanRetag h m) (hm' : CanRetag h m') :
    CanRetag (h.put m) m' := by
  intro x hx hid
  obtain ⟨y, hy, rfl⟩ := List.mem_map.mp hx
  by_cases hyid : y.id = m.id
  · rw [if_pos hyid] at hid ⊢
    exact (hm y hy hyid).sibling (hm' y hy (hyid.trans hid))
  · rw [if_neg hyid] at hid ⊢
    exact hm' y hy hid

theorem saveTags_ends (hs : db.rows.Shows h) (hm : CanRetag h m) :
    Ends (saveTags m db) (fun _ db' => db'.rows.Shows (h.put m) ∧ db.Later db')
      (fun _ db' => db.Idle db' ∧ ¬ db.Sound) := by
  refine Ends.discard ((changeRow_ends hs fun x hx hid => ?_).mono (fun _ _ h => h.2)
    (fun _ _ h => h))
  exact congrArg MessageRow.ofMessage (hm x hx hid)

/-- Several messages put in their places, one after the other. -/
def puts (h : Holdings) (ms : List Message) : Holdings :=
  ms.foldl Holdings.put h

@[simp] theorem labels_puts : (puts h ms).labels = h.labels := by
  induction ms generalizing h with
  | nil => rfl
  | cons m ms ih => exact ih

/-- Of messages that differ in their ids each ends up in its place. -/
theorem messages_puts (hms : ∀ m ∈ ms, ∀ m' ∈ ms, m.id = m'.id → m = m') :
    (puts h ms).messages = h.messages.map fun x => (ms.find? (·.id == x.id)).getD x := by
  induction ms generalizing h with
  | nil => simp [puts]
  | cons m ms ih =>
    have hrest := ih (h := h.put m) fun a ha b hb =>
      hms a (List.mem_cons_of_mem m ha) b (List.mem_cons_of_mem m hb)
    change (puts (h.put m) ms).messages = _
    rw [hrest]
    simp only [Holdings.put, List.map_map]
    refine List.map_congr_left fun x _ => ?_
    by_cases hx : x.id = m.id
    · simp only [Function.comp_apply, if_pos hx]
      rw [List.find?_cons_of_pos (by simpa using hx.symm), Option.getD_some]
      cases hfind : ms.find? (·.id == m.id) with
      | none => rfl
      | some m' =>
        have hid : m'.id = m.id := by simpa using List.find?_some hfind
        exact hms m' (List.mem_cons_of_mem m (List.mem_of_find?_eq_some hfind)) m
          List.mem_cons_self hid
    · simp only [Function.comp_apply, if_neg hx]
      rw [List.find?_cons_of_neg (by simpa using Ne.symm hx)]

theorem forM_saveTags_ends (hs : db.rows.Shows h) (hms : ∀ m ∈ ms, CanRetag h m) :
    Ends (ms.forM saveTags db) (fun _ db' => db'.rows.Shows (puts h ms) ∧ db.Later db')
      (fun _ db' => db.Later db' ∧ ¬ db.Sound) := by
  induction ms generalizing db h with
  | nil => exact .of_ok ⟨hs, Later.refl db⟩
  | cons m ms ih =>
    have hm : CanRetag h m := hms m List.mem_cons_self
    refine (saveTags_ends hs hm).bind (fun _ db₁ h₁ => ?_) (fun _ _ he => ⟨he.1.toLater, he.2⟩)
    have hrest : ∀ m' ∈ ms, CanRetag (h.put m) m' := fun m' hm' =>
      canRetag_put hm (hms m' (List.mem_cons_of_mem m hm'))
    refine (ih h₁.1 hrest).mono (fun _ _ h₂ => ⟨h₂.1, h₁.2.trans h₂.2⟩) (fun _ _ he => ?_)
    exact ⟨h₁.2.trans he.1, fun hd => he.2 (hd.later h₁.2)⟩

theorem saveAllTags_ends (hs : db.rows.Shows h) (hms : ∀ m ∈ ms, CanRetag h m) :
    Ends (saveAllTags ms db) (fun _ db' => db'.rows.Shows (puts h ms) ∧ db.Later db')
      (fun _ db' => db.Idle db' ∧ ¬ db.Sound) := by
  refine transaction_ends (Q := fun _ rows => Rows.Shows rows (puts h ms)) (R := False)
    fun db₁ hi => ?_
  exact forM_saveTags_ends (hs.idle hi) hms

theorem saveContent_ends (hs : db.rows.Shows h) (hid : m.id ∈ h.ids)
    (hm : ∀ x ∈ h.messages, x.id = m.id →
      { x with subject := m.subject, content := m.content, timestamp := m.timestamp } = m) :
    Ends (saveContent m db) (fun _ db' => db'.rows.Shows (h.put m) ∧ db.Later db')
      (fun _ db' => db.Idle db' ∧ ¬ db.Sound) := by
  refine (changeRow_ends hs fun x hx hid => congrArg MessageRow.ofMessage (hm x hx hid)).bind
    (fun n db₁ h₁ => ?_) (fun _ _ he => he)
  rw [if_neg fun hn => h₁.1 hn hid]
  exact .of_ok h₁.2

theorem deleteOwn_ends (id owner : String) (hs : db.rows.Shows h) (ho : h.Orderly) :
    Ends (deleteOwn id owner db)
      (fun _ db' => (∃ x ∈ h.messages, x.id = id ∧ x.ownerId = owner) ∧
        db'.rows.Shows (h.apply (.discard id)) ∧ db.Later db')
      (fun _ db' => db'.rows.Shows h ∧ db.Later db' ∧
        (db.Sound → ∀ x ∈ h.messages, ¬ (x.id = id ∧ x.ownerId = owner))) := by
  refine (modifyRows_ends _ _).bind (fun n db₁ h₁ => ?_)
    (fun _ _ he => ⟨hs.idle he.1, he.1.toLater, fun hd => absurd hd he.2⟩)
  obtain ⟨hrows, hl⟩ := h₁
  obtain ⟨hn, hrows⟩ := Prod.mk.inj hrows
  have hzero : n = 0 ↔ ∀ x ∈ h.messages, ¬ (x.id = id ∧ x.ownerId = owner) := by
    rw [← hn, List.countP_eq_zero, hs.messages]
    simp [MessageRow.ofMessage, Row.ofMessage]
  by_cases hx : ∀ x ∈ h.messages, ¬ (x.id = id ∧ x.ownerId = owner)
  · rw [if_pos (hzero.mpr hx)]
    refine .of_error ⟨?_, hl, fun _ => hx⟩
    rw [← hrows]
    refine ⟨?_, hs.labels⟩
    rw [← hs.messages, List.filter_eq_self, hs.messages]
    intro r hr
    obtain ⟨x, hxm, rfl⟩ := List.mem_map.mp hr
    simpa [MessageRow.ofMessage, Row.ofMessage, imp_iff_not_or] using hx x hxm
  · rw [if_neg fun h => hx (hzero.mp h)]
    push Not at hx
    obtain ⟨x, hxm, hxid, hxowner⟩ := hx
    refine .of_ok ⟨⟨x, hxm, hxid, hxowner⟩, ?_, hl⟩
    rw [← hrows]
    refine ⟨?_, hs.labels⟩
    -- the owner need not be looked at, for no other message has this id
    rw [hs.messages, List.filter_map]
    refine congrArg _ (List.filter_congr fun y hy => ?_)
    by_cases hyid : y.id = id
    · obtain rfl := Holdings.eq_of_id ho.ids hy hxm (hyid.trans hxid.symm)
      simp [hyid, MessageRow.ofMessage, Row.ofMessage, hxowner]
    · have hyid' : (y.id == id) = false := by simpa using hyid
      simp [messageRow_id, bne, hyid']

/-- The message is the owner's and in the trash. -/
def Trashed (h : Holdings) (owner id : String) : Prop :=
  ∃ m ∈ h.messages, m.id = id ∧ m.ownerId = owner ∧ .trash ∈ m.tags

theorem deleteIfTrashed_ends (hs : db.rows.Shows h) (ho : h.Orderly) (hid : Trashed h owner id) :
    Ends (deleteIfTrashed owner id db)
      (fun r db' => r = some id ∧ db'.rows.Shows (h.apply (.discard id)) ∧ db.Later db')
      (fun _ db' => db.Idle db' ∧ ¬ db.Sound) := by
  obtain ⟨m, hm, hmid, howner, htrash⟩ := hid
  refine (select_ends _).bind (fun r db₁ h₁ => ?_) (fun _ _ he => he)
  obtain ⟨rfl, hi⟩ := h₁
  rw [hs.find?]
  have hfind : (h.messages.find? fun x => (MessageRow.ofMessage x).id == id &&
      (MessageRow.ofMessage x).ownerId == owner) = some m := by
    cases hf : h.messages.find? fun x => (MessageRow.ofMessage x).id == id &&
        (MessageRow.ofMessage x).ownerId == owner with
    | none =>
      refine absurd (List.find?_eq_none.mp hf m hm) ?_
      simp [MessageRow.ofMessage, Row.ofMessage, hmid, howner]
    | some x =>
      have hx : x.id = id ∧ x.ownerId = owner := by
        simpa [MessageRow.ofMessage, Row.ofMessage] using List.find?_some hf
      exact congrArg some (Holdings.eq_of_id ho.ids (List.mem_of_find?_eq_some hf) hm
        (hx.1.trans hmid.symm))
  rw [hfind]
  refine (readRow_ends (ho.storable m hm)).bind (fun x db₂ hx => ?_) (fun _ _ he => he.elim)
  obtain ⟨rfl, rfl⟩ := hx
  rw [if_pos htrash]
  refine (modifyRows_ends _ _).bind (fun _ db₃ h₃ => ?_)
    (fun _ _ he => ⟨hi.trans he.1, fun hd => he.2 (hd.later hi.toLater)⟩)
  obtain ⟨hrows, hl⟩ := h₃
  obtain ⟨-, hrows⟩ := Prod.mk.inj hrows
  refine .of_ok ⟨congrArg some hmid, ?_, hi.toLater.trans hl⟩
  rw [← hrows, hi.rows]
  exact ⟨by rw [hs.messages, List.filter_map]; rfl, hs.labels⟩

theorem Trashed.discard {other : String} (hid : Trashed h owner id) (hne : id ≠ other) :
    Trashed (h.apply (.discard other)) owner id := by
  obtain ⟨m, hm, hmid, hrest⟩ := hid
  exact ⟨m, List.mem_filter.mpr ⟨hm, by simpa [hmid] using hne⟩, hmid, hrest⟩

theorem mapM_deleteIfTrashed_ends (hs : db.rows.Shows h) (ho : h.Orderly) (hnodup : ids.Nodup)
    (hids : ∀ id ∈ ids, Trashed h owner id) :
    Ends (ids.mapM (deleteIfTrashed owner) db)
      (fun r db' => r = ids.map some ∧ db'.rows.Shows (h.after (ids.map .discard)) ∧ db.Later db')
      (fun _ db' => db.Later db' ∧ ¬ db.Sound) := by
  induction ids generalizing db h with
  | nil => exact .of_ok ⟨rfl, hs, Later.refl db⟩
  | cons id ids ih =>
    obtain ⟨hid, hnodup⟩ := List.nodup_cons.mp hnodup
    rw [List.mapM_cons]
    refine (deleteIfTrashed_ends hs ho (hids id List.mem_cons_self)).bind (fun r db₁ h₁ => ?_)
      (fun _ _ he => ⟨he.1.toLater, he.2⟩)
    obtain ⟨rfl, hs₁, hl₁⟩ := h₁
    have hids₁ : ∀ j ∈ ids, Trashed (h.apply (.discard id)) owner j := fun j hj =>
      (hids j (List.mem_cons_of_mem id hj)).discard fun heq => hid (heq ▸ hj)
    refine (ih hs₁ ho.discard hnodup hids₁).bind (fun rs db₂ h₂ => ?_)
      (fun _ _ he => ⟨hl₁.trans he.1, fun hd => he.2 (hd.later hl₁)⟩)
    obtain ⟨rfl, hs₂, hl₂⟩ := h₂
    exact .of_ok ⟨rfl, hs₂, hl₁.trans hl₂⟩

/-- Of messages that are all in the trash none is left out. -/
theorem deleteTrashed_ends (hs : db.rows.Shows h) (ho : h.Orderly) (hnodup : ids.Nodup)
    (hids : ∀ id ∈ ids, Trashed h owner id) :
    Ends (deleteTrashed owner ids db)
      (fun r db' => r = ids ∧ db'.rows.Shows (h.after (ids.map .discard)) ∧ db.Later db')
      (fun _ db' => db.Idle db' ∧ ¬ db.Sound) := by
  let Q (r : List String) (rows : Rows) : Prop := r = ids ∧ rows.Shows (h.after (ids.map .discard))
  refine (transaction_ends (Q := Q) (R := False) fun db₁ hi => ?_).mono
    (fun _ _ h => ⟨h.1.1, h.1.2, h.2⟩) (fun _ _ h => h)
  refine (mapM_deleteIfTrashed_ends (hs.idle hi) ho hnodup hids).bind (fun r db₂ h₂ => ?_)
    (fun _ _ he => he)
  obtain ⟨rfl, hs₂, hl₂⟩ := h₂
  have hall : (ids.map some).reduceOption = ids := List.filterMap_map.trans List.filterMap_some
  exact .of_ok ⟨⟨hall, hs₂⟩, hl₂⟩

end LabelMail.Primary
