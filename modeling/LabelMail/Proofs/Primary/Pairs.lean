import LabelMail.Proofs.Agreement
import LabelMail.Proofs.StatementPairs

/-!
The queries of the primary store in two stores that agree on what one owner has. A query on behalf
of this owner returns the same from both, or fails in both for the same reason, and what it writes
leaves them in agreement. Reads are told apart from writes by what both stores show afterwards.
-/
namespace LabelMail.Primary

open Database Text

/-- The rows of two stores that agree on one owner, with the holdings that each of them shows. -/
structure Abreast (owner : String) (h h' : Holdings) (rows rows' : Rows) : Prop
    extends rows.SameFor owner rows' where
  shows : rows.Shows h
  shows' : rows'.Shows h'

variable {α : Type} {db db' : Store} {h h' : Holdings} {rows rows' : Rows} {owner id : String}
variable {name text : String} {m : Message} {l : Label} {f : MessageRow → MessageRow}

theorem Abreast.holdings (ha : Abreast owner h h' rows rows') (ho : h.Orderly) (ho' : h'.Orderly) :
    h.SameFor owner h' :=
  ha.toSameFor.holdings ha.shows ha.shows' ho ho'

theorem Abreast.rowsOf (ha : Abreast owner h h' rows rows') (ho : h.Orderly) (ho' : h'.Orderly) :
    rowsOf owner rows = rowsOf owner rows' := by
  rw [ha.shows.rowsOf, ha.shows'.rowsOf, (ha.holdings ho ho').mailbox ho ho']

section Reading

variable (hp : Paired (Abreast owner h h') db db') (ho : h.Orderly) (ho' : h'.Orderly)
include hp

theorem findUser_same (id : String) :
    Same (Paired (Abreast owner h h')) (findUser id) (findUser id) db db' :=
  hp.select (by rw [hp.rows.users])

theorem discard_select_same (f : Rows → α) :
    Same (Paired (Abreast owner h h')) (discard (select f : Query α)) (discard (select f))
      db db' :=
  Alike.map (.of_ends ((select_ends f).mono (fun _ _ hs => hs) fun _ _ he => he.2 hp.sound)
    ((select_ends f).mono (fun _ _ hs => hs) fun _ _ he => he.2 hp.sound')
    fun _ _ _ _ hs ht => ⟨rfl, hp.idle hs.2 ht.2⟩)

theorem readRows_same (l : List MessageRow) :
    Same (Paired (Abreast owner h h'))
      (l.mapM fun r => (MonadExcept.ofExcept r.message : Query Message))
      (l.mapM fun r => MonadExcept.ofExcept r.message) db db' :=
  .mapM (fun r _ _ hst => .ofExcept r.message hst) l hp

/-- A call to the blacklist reads and writes what both stores have in common. -/
theorem onListings_same {writes : List ListingRow → List Write}
    {f : List ListingRow → α × List ListingRow} :
    Same (Paired (Abreast owner h h')) (onListings writes f) (onListings writes f) db db' := by
  refine hp.statement ?_
  rw [hp.rows.blacklist]
  cases db.rows.blacklist with
  | none => exact .inl ⟨.broken, rfl, rfl, hp.rows⟩
  | some table =>
    refine .inr ⟨_, _, _, rfl, rfl, ⟨hp.rows.users, rfl, hp.rows.messages, hp.rows.labels⟩, ?_, ?_⟩
    · exact ⟨hp.rows.shows.messages, hp.rows.shows.labels⟩
    · exact ⟨hp.rows.shows'.messages, hp.rows.shows'.labels⟩

theorem ask_same (now : Int) (c : Blacklist.Call) :
    Same (Paired (Abreast owner h h')) (ask now c) (ask now c) db db' := by
  unfold ask
  cases Url.accepted c.url with
  | error e => exact .throw e hp
  | ok url =>
    unfold askTable
    cases c.verb with
    | lookup => exact onListings_same hp
    | add => exact onListings_same hp
    | remove => exact onListings_same hp

include ho ho'

/-- A message of another owner's is not found, just as one that is not there. -/
theorem ownMessage_same (id : String) :
    Alike (fun m s m' t => (m = m' ∧ h.find? id = some m ∧ m.ownerId = owner) ∧
        Paired (Abreast owner h h') s t) (Paired (Abreast owner h h'))
      (ownMessage id owner db) (ownMessage id owner db') := by
  have hsame : h.SameFor owner h' := hp.rows.holdings ho ho'
  refine .of_specs (ownMessage_ends hp.rows.shows ho) (ownMessage_ends hp.rows.shows' ho')
    (fun m s m' t hs ht => ?_) (fun e s e' t hs ht => ?_) (fun m s e t hs ht => ?_)
    fun e s m t hs ht => ?_
  · have hfound : h'.find? id = some m := hsame.find? ho' hs.1 hs.2.1
    exact ⟨⟨Option.some.inj (hfound.symm.trans ht.1), hs.1, hs.2.1⟩, hp.idle hs.2.2 ht.2.2⟩
  · rw [(hs.2 hp.sound).1, (ht.2 hp.sound').1]
    exact ⟨rfl, hp.idle hs.1 ht.1⟩
  · exact (ht.2 hp.sound').2 m (hsame.find? ho' hs.1 hs.2.1) hs.2.1
  · exact (hs.2 hp.sound).2 m (hsame.symm.find? ho ht.1 ht.2.1) ht.2.1

theorem messagesOf_same :
    Same (Paired (Abreast owner h h')) (messagesOf owner) (messagesOf owner) db db' :=
  (hp.select (hp.rows.rowsOf ho ho')).bind (fun l _ _ hst => readRows_same hst l) fun _ _ h => h

theorem messagesIn_same (f : Folder) :
    Same (Paired (Abreast owner h h')) (messagesIn owner f) (messagesIn owner f) db db' :=
  (messagesOf_same hp ho ho').bind (fun _ _ _ hst => .pure _ hst) fun _ _ h => h

theorem search_same (query : String) (f : Option Folder) :
    Same (Paired (Abreast owner h h')) (search owner query f) (search owner query f) db db' := by
  refine Same.bind (R := Paired (Abreast owner h h')) (hp.statement ?_) (fun l s t hst => ?_)
    fun _ _ h => h
  · dsimp only
    rw [hp.rows.rowsOf ho ho']
    split
    · exact .inl ⟨.broken, rfl, rfl, hp.rows⟩
    · exact .inr ⟨_, _, _, rfl, rfl, hp.rows⟩
  · refine (readRows_same hst l).bind (fun ms s t hst => ?_) fun _ _ h => h
    cases f with
    | none => exact .pure _ hst
    | some f => exact .pure _ hst

theorem labelsOf_same :
    Same (Paired (Abreast owner h h')) (labelsOf owner) (labelsOf owner) db db' := by
  refine hp.select ?_
  rw [hp.rows.shows.labels, hp.rows.shows'.labels]
  exact (hp.rows.holdings ho ho').labelListing ho ho'

theorem findLabel_same (name : String) :
    Alike (fun l s l' t => (l = l' ∧ l = h.findLabel? owner name) ∧
        Paired (Abreast owner h h') s t) (Paired (Abreast owner h h'))
      (findLabel owner name db) (findLabel owner name db') := by
  refine .of_ends ((findLabel_ends hp.rows.shows).mono (fun _ _ hs => hs)
    fun _ _ he => he.2 hp.sound) ((findLabel_ends hp.rows.shows').mono (fun _ _ hs => hs)
    fun _ _ he => he.2 hp.sound') fun l s l' t hs ht => ?_
  have hsame : h.SameFor owner h' := hp.rows.holdings ho ho'
  exact ⟨⟨by rw [hs.1, ht.1, hsame.findLabel? ho], hs.1⟩, hp.idle hs.2 ht.2⟩

theorem ownLabel_same (id : String) :
    Alike (fun l s l' t => (l = l' ∧ (l ∈ h.labels ∧ l ∈ h'.labels) ∧ l.id = id ∧
        l.ownerId = owner) ∧ Paired (Abreast owner h h') s t) (Paired (Abreast owner h h'))
      (ownLabel id owner db) (ownLabel id owner db') := by
  have hsame : h.SameFor owner h' := hp.rows.holdings ho ho'
  have hselect : Same (Paired (Abreast owner h h'))
      (select fun rows => rows.labels.find? fun l => l.id == id && l.ownerId == owner)
      (select fun rows => rows.labels.find? fun l => l.id == id && l.ownerId == owner) db db' := by
    refine hp.select ?_
    rw [hp.rows.shows.labels, hp.rows.shows'.labels]
    exact hsame.ownLabel? ho
  have hends : Same (Paired (Abreast owner h h')) (ownLabel id owner) (ownLabel id owner) db db' :=
    hselect.bind (fun found s t hst => match found with
      | some l => .pure l hst
      | none => .throw _ hst) fun _ _ h => h
  refine (Alike.both hends (ownLabel_ends hp.rows.shows) (ownLabel_ends hp.rows.shows')).mono
    (fun l s l' t hl => ?_) fun _ _ he => he.1
  obtain ⟨⟨rfl, hst⟩, ⟨hmem, hid, howner, -⟩, hmem', -⟩ := hl
  exact ⟨⟨rfl, ⟨hmem, hmem'⟩, hid, howner⟩, hst⟩

theorem trashedIds_same :
    Same (Paired (Abreast owner h h')) (trashedIds owner) (trashedIds owner) db db' :=
  (messagesOf_same hp ho ho').bind (fun _ _ _ hst => .pure _ hst) fun _ _ h => h

end Reading

theorem Abreast.weaken (hp : Paired (Abreast owner h h') db db') :
    Paired (Rows.SameFor owner) db db' :=
  hp.mono fun _ _ ha => ha.toSameFor

section Writing

/-- A name that no other label of the owner has is free for the label. -/
theorem not_repeated {labels : List Label} (hnodup : (labels.map Label.id).Nodup)
    (hl : l ∈ labels) (hfree : ∀ k ∈ labels, k.ownerId = l.ownerId →
      sameName k.name name = true → k.id = l.id) :
    ((renameRow l.id name labels).any fun j =>
      j.id == l.id && (renameRow l.id name labels).any fun k => k.id != l.id && clashes k j) =
      false := by
  refine List.any_eq_false.mpr fun j hj hrepeated => ?_
  rw [Bool.and_eq_true, beq_iff_eq, List.any_eq_true] at hrepeated
  obtain ⟨hjid, k, hk, hclash⟩ := hrepeated
  rw [Bool.and_eq_true, bne_iff_ne, clashes_eq_true] at hclash
  obtain ⟨hkid, howner, hname⟩ := hclash
  obtain ⟨j₀, hj₀, rfl⟩ := List.mem_map.mp hj
  obtain ⟨k₀, hk₀, rfl⟩ := List.mem_map.mp hk
  have hj₀id : j₀.id = l.id := by
    by_contra hne
    exact hne (by rwa [if_neg hne] at hjid)
  have hk₀id : k₀.id ≠ l.id := fun heq => hkid (by rw [if_pos heq, heq])
  obtain rfl := List.inj_on_of_nodup_map hnodup hj₀ hl hj₀id
  rw [if_pos rfl, if_neg hk₀id] at howner hname
  exact hk₀id (hfree k₀ hk₀ howner hname)

/-- A change of rows that leaves their owners. -/
theorem Rows.SameFor.changeRow (hsame : rows.SameFor owner rows')
    (hf : ∀ r, (f r).ownerId = r.ownerId) :
    Rows.SameFor owner
      { rows with messages := rows.messages.map fun r => if r.id = id then f r else r }
      { rows' with messages := rows'.messages.map fun r => if r.id = id then f r else r } := by
  refine ⟨hsame.users, hsame.blacklist, hsame.messages.map fun r hr => ?_, hsame.labels⟩
  split at hr
  · exact (hf r).symm.trans hr
  · exact hr

theorem Rows.SameFor.addMessages (hsame : rows.SameFor owner rows') (new : List MessageRow) :
    Rows.SameFor owner { rows with messages := rows.messages ++ new }
      { rows' with messages := rows'.messages ++ new } :=
  ⟨hsame.users, hsame.blacklist, hsame.messages.append (.refl _ new), hsame.labels⟩

theorem Rows.SameFor.renameRow (hsame : rows.SameFor owner rows') :
    Rows.SameFor owner { rows with labels := renameRow id name rows.labels }
      { rows' with labels := Primary.renameRow id name rows'.labels } := by
  refine ⟨hsame.users, hsame.blacklist, hsame.messages, hsame.labels.map fun l hl => ?_⟩
  split at hl <;> exact hl

section Kept

variable (hp : Paired (Rows.SameFor owner) db db')
include hp

theorem changeRow_alike (hf : ∀ r, (f r).ownerId = r.ownerId) :
    Alike (fun n s n' t => (n = db.rows.messages.countP (·.id == id) ∧
        n' = db'.rows.messages.countP (·.id == id)) ∧ Paired (Rows.SameFor owner) s t)
      (Paired (Rows.SameFor owner)) (changeRow id f db) (changeRow id f db') := by
  let g (rows : Rows) : Nat × Rows := (rows.messages.countP (·.id == id),
    { rows with messages := rows.messages.map fun r => if r.id = id then f r else r })
  exact hp.modifyRows (f := g) (hp.rows.changeRow hf)

/-- How many rows a change has met is not told. -/
theorem saveTags_same (m : Message) :
    Same (Paired (Rows.SameFor owner)) (saveTags m) (saveTags m) db db' := by
  refine Alike.map (Alike.mono (changeRow_alike hp ?_) (fun _ _ _ _ hst => ⟨rfl, hst.2⟩)
    fun _ _ h => h)
  exact fun _ => rfl

theorem saveAllTags_same (ms : List Message) :
    Same (Paired (Rows.SameFor owner)) (saveAllTags ms) (saveAllTags ms) db db' :=
  hp.transaction fun _ _ hs ht => .forM (fun m _ _ hst => saveTags_same hst m) ms (hp.idle hs ht)

theorem deleteOwn_same (id : String) :
    Same (Paired (Rows.SameFor owner)) (deleteOwn id owner) (deleteOwn id owner) db db' := by
  let isTarget (r : MessageRow) : Bool := r.id == id && r.ownerId == owner
  have hmine (r : MessageRow) (hr : isTarget r = true) : r.ownerId = owner := by
    simp only [isTarget, Bool.and_eq_true, beq_iff_eq] at hr
    exact hr.2
  have hzero : db.rows.messages.countP isTarget = 0 ↔ db'.rows.messages.countP isTarget = 0 := by
    rw [List.countP_eq_zero, List.countP_eq_zero]
    exact ⟨fun h r hr hsel => h r ((hp.rows.messages r (hmine r hsel)).mpr hr) hsel,
      fun h r hr hsel => h r ((hp.rows.messages r (hmine r hsel)).mp hr) hsel⟩
  refine Alike.bind (hp.modifyRows (S := Rows.SameFor owner) ?_) (fun n s n' t hst => ?_)
    fun _ _ h => h
  · exact ⟨hp.rows.users, hp.rows.blacklist, hp.rows.messages.filter, hp.rows.labels⟩
  · obtain ⟨⟨rfl, rfl⟩, hst⟩ := hst
    by_cases hnone : db.rows.messages.countP isTarget = 0
    · rw [if_pos hnone, if_pos (hzero.mp hnone)]
      exact .error hst
    · rw [if_neg hnone, if_neg fun h => hnone (hzero.mpr h)]
      exact .ok ⟨rfl, hst⟩

theorem deleteLabelRow_same {writes : Rows → List Write} :
    Same (Paired (Rows.SameFor owner))
      (modifyRows writes fun rows => ((), { rows with labels := rows.labels.filter (·.id != id) }))
      (modifyRows writes fun rows => ((), { rows with labels := rows.labels.filter (·.id != id) }))
      db db' :=
  (hp.modifyRows (S := Rows.SameFor owner)
    ⟨hp.rows.users, hp.rows.blacklist, hp.rows.messages, hp.rows.labels.filter⟩).mono
    (fun _ _ _ _ hst => ⟨rfl, hst.2⟩) fun _ _ h => h

end Kept

section Shown

variable (hp : Paired (Abreast owner h h') db db') (ho : h.Orderly) (ho' : h'.Orderly)
include hp

theorem saveContent_same (hid : m.id ∈ h.ids) (hid' : m.id ∈ h'.ids) :
    Same (Paired (Rows.SameFor owner)) (saveContent m) (saveContent m) db db' := by
  have hcount {rows : Rows} {k : Holdings} (hs : rows.Shows k) (hk : m.id ∈ k.ids) :
      rows.messages.countP (·.id == m.id) ≠ 0 := by
    rw [Ne, List.countP_eq_zero]
    obtain ⟨r, hr, hrid⟩ := List.any_eq_true.mp (hs.hasMessage.mpr hk)
    exact fun hnone => hnone r hr hrid
  refine Alike.bind (changeRow_alike (Abreast.weaken hp) fun _ => rfl) (fun n s n' t hst => ?_)
    fun _ _ h => h
  obtain ⟨⟨rfl, rfl⟩, hst⟩ := hst
  rw [if_neg (hcount hp.rows.shows hid), if_neg (hcount hp.rows.shows' hid')]
  exact .ok ⟨rfl, hst⟩

theorem insertMessage_same (hid : m.id ∉ h.ids) (hid' : m.id ∉ h'.ids) :
    Same (Paired (Rows.SameFor owner)) (insertMessage m) (insertMessage m) db db' := by
  refine hp.statement (.inr ⟨(), _, _, if_neg ?_, if_neg ?_, hp.rows.addMessages [.ofMessage m]⟩)
  · rwa [hp.rows.shows.hasMessage]
  · rwa [hp.rows.shows'.hasMessage]

theorem insertPair_same {second : Message} (hid : m.id ∉ h.ids) (hid' : m.id ∉ h'.ids)
    (hsecond : second.id ∉ h.ids) (hsecond' : second.id ∉ h'.ids) (hne : second.id ≠ m.id) :
    Same (Paired (Rows.SameFor owner)) (insertPair m second) (insertPair m second) db db' := by
  have hfree {k : Holdings} (hk : second.id ∉ k.ids) : second.id ∉ (k.apply (.enter m)).ids := by
    rw [Holdings.mem_ids]
    rintro ⟨x, hx, hxid⟩
    rcases List.mem_append.mp hx with hx | hx
    · exact hk (Holdings.mem_ids.mpr ⟨x, hx, hxid⟩)
    · exact hne (List.mem_singleton.mp hx ▸ hxid).symm
  have hends {db : Store} {k : Holdings} (hs : db.rows.Shows k) (hsound : db.Sound)
      (hid : m.id ∉ k.ids) (hk : second.id ∉ k.ids) :
      Ends (insertPair m second db)
        (fun _ db₁ => db₁.rows = { db.rows with
          messages := db.rows.messages ++ [.ofMessage m, .ofMessage second] } ∧ db.Later db₁)
        (fun _ _ => False) :=
    ((insertPair_ends m second hs).both (insertPair_rows m second)).mono
      (fun _ _ h => ⟨h.2.2.2.2.1, h.2.2.2.2.2⟩)
      fun _ _ he => (he.1.2 hsound).elim hid (hfree hk)
  refine .of_ends (hends hp.rows.shows hp.sound hid hsecond)
    (hends hp.rows.shows' hp.sound' hid' hsecond') fun _ s _ t hs ht => ⟨rfl, ?_, ?_, ?_⟩
  · exact hp.sound.later hs.2
  · exact hp.sound'.later ht.2
  · rw [hs.1, ht.1]
    exact hp.rows.addMessages _

/-- A new label is refused in both stores or in neither, since only the owner's may clash. -/
theorem insertLabel_same (howner : l.ownerId = owner) (hid : ∀ k ∈ h.labels, k.id ≠ l.id)
    (hid' : ∀ k ∈ h'.labels, k.id ≠ l.id) :
    Same (Paired (Rows.SameFor owner)) (insertLabel l) (insertLabel l) db db' := by
  have htaken {rows : Rows} {k : Holdings} (hs : rows.Shows k) (hk : ∀ j ∈ k.labels, j.id ≠ l.id) :
      (rows.labels.any fun j => j.id == l.id || clashes j l) = rows.labels.any (clashes · l) := by
    rw [hs.labels, Bool.eq_iff_iff, List.any_eq_true, List.any_eq_true]
    refine exists_congr fun j => and_congr_right fun hj => ?_
    rw [beq_eq_false_iff_ne.mpr (hk j hj), Bool.false_or]
  have hclash : db.rows.labels.any (clashes · l) = db'.rows.labels.any (clashes · l) :=
    hp.rows.labels.any fun j hj => (clashes_eq_true.mp hj).1.trans howner
  refine hp.statement ?_
  rw [htaken hp.rows.shows hid, htaken hp.rows.shows' hid', hclash]
  split
  · exact .inl ⟨.duplicate, rfl, rfl, hp.rows.toSameFor⟩
  · refine .inr ⟨(), _, _, rfl, rfl, hp.rows.users, hp.rows.blacklist, hp.rows.messages, ?_⟩
    exact hp.rows.labels.append (.refl _ [l])

theorem updateLabel_same (hn : (h.labels.map Label.id).Nodup) (hn' : (h'.labels.map Label.id).Nodup)
    (hl : l ∈ h.labels) (hl' : l ∈ h'.labels)
    (hfree : ∀ k ∈ h.labels, k.ownerId = l.ownerId → sameName k.name name = true → k.id = l.id)
    (hfree' : ∀ k ∈ h'.labels, k.ownerId = l.ownerId → sameName k.name name = true →
      k.id = l.id) :
    Same (Paired (Rows.SameFor owner)) (updateLabel l.id name) (updateLabel l.id name) db db' := by
  refine hp.statement (.inr ⟨(), _, _, if_neg ?_, if_neg ?_, hp.rows.renameRow⟩)
  · rw [hp.rows.shows.labels, not_repeated hn hl hfree]
    exact Bool.false_ne_true
  · rw [hp.rows.shows'.labels, not_repeated hn' hl' hfree']
    exact Bool.false_ne_true

include ho ho'

theorem renameLabel_same (id text : String) :
    Same (Paired (Rows.SameFor owner)) (renameLabel id owner text) (renameLabel id owner text)
      db db' := by
  have hsame : h.SameFor owner h' := hp.rows.holdings ho ho'
  refine Same.bind (Same.ofExcept (customName text) hp) (fun name s t hst => ?_)
    fun _ _ => Abreast.weaken
  refine Alike.bind (ownLabel_same hst ho ho' id) (fun l s t' t hl => ?_) fun _ _ => Abreast.weaken
  obtain ⟨⟨rfl, ⟨hmem, hmem'⟩, rfl, rfl⟩, hst⟩ := hl
  refine Alike.bind (findLabel_same hst ho ho' name) (fun found s found' t hfound => ?_)
    fun _ _ => Abreast.weaken
  obtain ⟨⟨rfl, hfound⟩, hst⟩ := hfound
  let rest : Query (Label × List Message) := do
    let retagged := withoutTag (.custom l.name) (·.insert (.custom name)) (← messagesOf l.ownerId)
    transaction do
      updateLabel l.id name
      retagged.forM saveTags
    return ({ l with name := name }, retagged)
  -- After the check no other label of the owner has the name, in either of the stores.
  have hrest (hnone : ∀ k, found = some k → k.id = l.id) :
      Same (Paired (Rows.SameFor l.ownerId)) rest rest s t := by
    have hfree {k : Holdings} (hk : k.Orderly) (hfind : found = k.findLabel? l.ownerId name) :
        ∀ j ∈ k.labels, j.ownerId = l.ownerId → sameName j.name name = true → j.id = l.id := by
      intro j hj howner hname
      cases hlook : k.findLabel? l.ownerId name with
      | none => exact absurd (by simp [howner, hname]) (List.find?_eq_none.mp hlook j hj)
      | some x =>
        have hx := List.find?_some hlook
        simp only [Bool.and_eq_true, beq_iff_eq] at hx
        have hxj : j = x := hk.distinct j hj x (List.mem_of_find?_eq_some hlook)
          (howner.trans hx.1.symm) (sameName_trans hname (sameName_comm.mp hx.2))
        exact hxj ▸ hnone x (hfind.trans hlook)
    refine (messagesOf_same hst ho ho').bind (fun ms s t hst => ?_) fun _ _ => Abreast.weaken
    refine Same.bind (R := Paired (Rows.SameFor l.ownerId))
      ((Abreast.weaken hst).transaction fun s₁ t₁ hs ht => ?_) (fun _ s t hst => .pure _ hst)
      fun _ _ h => h
    refine (updateLabel_same (hst.idle hs ht) ho.labelIds ho'.labelIds hmem hmem'
      (hfree ho hfound) (hfree ho' (hfound.trans (hsame.findLabel? ho)))).bind
      (fun _ s t hst => ?_) fun _ _ h => h
    exact .forM (fun m _ _ hst => saveTags_same hst m) _ hst
  cases found with
  | none => exact hrest fun _ hnone => nomatch hnone
  | some other =>
    by_cases hid : other.id ≠ l.id
    · simp only [if_pos hid]
      exact Same.throw _ (Abreast.weaken hst)
    · simp only [if_neg hid]
      exact hrest fun k hk => Option.some.inj hk ▸ not_not.mp hid

theorem deleteLabel_same (id : String) :
    Same (Paired (Rows.SameFor owner)) (deleteLabel id owner) (deleteLabel id owner) db db' := by
  refine Alike.bind (ownLabel_same hp ho ho' id) (fun l s t' t hl => ?_) fun _ _ => Abreast.weaken
  obtain ⟨⟨rfl, -, rfl, rfl⟩, hst⟩ := hl
  refine (messagesOf_same hst ho ho').bind (fun ms s t hst => ?_) fun _ _ => Abreast.weaken
  refine Same.bind (R := Paired (Rows.SameFor l.ownerId))
    ((Abreast.weaken hst).transaction fun s₁ t₁ hs ht => ?_) (fun _ s t hst => .pure _ hst)
    fun _ _ h => h
  refine Same.bind (.forM (fun m _ _ hst => saveTags_same hst m) _
    ((Abreast.weaken hst).idle hs ht)) (fun _ s t hst => deleteLabelRow_same hst) fun _ _ h => h

end Shown

/-- Rows in agreement that hold no id twice. -/
structure Keyed (owner : String) (rows rows' : Rows) : Prop extends rows.SameFor owner rows' where
  nodup : (rows.messages.map (·.id)).Nodup
  nodup' : (rows'.messages.map (·.id)).Nodup

theorem deleteIfTrashed_same (hp : Paired (Keyed owner) db db') (id : String) :
    Same (Paired (Keyed owner)) (deleteIfTrashed owner id) (deleteIfTrashed owner id) db db' := by
  let isTarget (r : MessageRow) : Bool := r.id == id && r.ownerId == owner
  have htarget {r : MessageRow} (hr : isTarget r = true) : r.id = id ∧ r.ownerId = owner := by
    simpa [isTarget] using hr
  have hfind : db.rows.messages.find? isTarget = db'.rows.messages.find? isTarget :=
    hp.rows.messages.find? (fun r hr => (htarget hr).2) fun r hr x hx hrt hxt =>
      List.inj_on_of_nodup_map hp.rows.nodup hr hx ((htarget hrt).1.trans (htarget hxt).1.symm)
  refine Same.bind (hp.select hfind) (fun found s t hst => ?_) fun _ _ h => h
  cases found with
  | none => exact .pure none hst
  | some row =>
    refine Same.bind (Same.ofExcept row.message hst) (fun m s t hst => ?_) fun _ _ h => h
    split
    · refine Alike.bind (hst.modifyRows (S := Keyed owner) ⟨?_, ?_, ?_⟩)
        (fun _ s _ t hst => Same.pure (some m.id) hst.2) fun _ _ h => h
      · exact ⟨hst.rows.users, hst.rows.blacklist, hst.rows.messages.filter, hst.rows.labels⟩
      · exact hst.rows.nodup.sublist (List.filter_sublist.map _)
      · exact hst.rows.nodup'.sublist (List.filter_sublist.map _)
    · exact .pure none hst

theorem deleteTrashed_same (hp : Paired (Abreast owner h h') db db') (ho : h.Orderly)
    (ho' : h'.Orderly) (ids : List String) :
    Same (Paired (Rows.SameFor owner)) (deleteTrashed owner ids) (deleteTrashed owner ids)
      db db' := by
  have hnodup {rows : Rows} {k : Holdings} (hs : rows.Shows k) (hk : k.Orderly) :
      (rows.messages.map (·.id)).Nodup := by
    rw [hs.messages, List.map_map]
    exact hk.ids
  have hkeyed : Paired (Keyed owner) db db' :=
    hp.mono fun _ _ ha => ⟨ha.toSameFor, hnodup ha.shows ho, hnodup ha.shows' ho'⟩
  have hdelete : Same (Paired (Keyed owner)) (deleteTrashed owner ids) (deleteTrashed owner ids)
      db db' := by
    refine hkeyed.transaction fun s t hs ht => ?_
    exact Same.bind (.mapM (fun id _ _ hst => deleteIfTrashed_same hst id) ids
      (hkeyed.idle hs ht)) (fun _ _ _ hst => .pure _ hst) fun _ _ h => h
  exact hdelete.mono fun _ _ hst => hst.mono fun _ _ hk => hk.toSameFor

end Writing

/-- Of all but the one owner the store keeps what it has. -/
theorem deleteOwn_aside (id other : String) :
    Ends (deleteOwn id other db)
      (fun _ db' => ∀ owner, other ≠ owner → db.rows.SameFor owner db'.rows)
      (fun _ db' => ∀ owner, other ≠ owner → db.rows.SameFor owner db'.rows) := by
  refine (modifyRows_ends _ _).bind (fun n db₁ h₁ => ?_) fun _ _ he => ?_
  · have hsame : ∀ owner, other ≠ owner → db.rows.SameFor owner db₁.rows := by
      intro owner hne
      rw [← (Prod.mk.inj h₁.1).2]
      refine ⟨rfl, rfl, fun r howner => ?_, .refl _ _⟩
      rw [List.mem_filter]
      exact (and_iff_left (by simp [howner, Ne.symm hne])).symm
    split
    · exact .of_error hsame
    · exact .of_ok hsame
  · rw [he.1.rows]
    exact fun owner _ => .refl owner _

end LabelMail.Primary
