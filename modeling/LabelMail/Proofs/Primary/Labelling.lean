import LabelMail.Proofs.Primary.Writing

/-!
Labels of the primary store. Renaming or deleting a label goes over the owner's messages one by one;
all of it together is one act on the holdings.
-/
namespace LabelMail.Primary

open Database Text

variable {db : Store} {h : Holdings} {m x : Message} {k l : Label}
variable {id owner name text : String} {t : Tag} {f : TagSet → TagSet}

theorem customName_eq_ok (hname : customName text = .ok name) :
    Tag.ofName text = .ok (.custom name) ∧ (Tag.custom name).Proper := by
  unfold customName at hname
  split at hname
  · next name' hof =>
    obtain rfl : name' = name := Except.ok.inj hname
    exact ⟨hof, Tag.proper_ofName hof⟩
  · cases hname
  · cases hname

theorem clashes_eq_true :
    clashes k l = true ↔ k.ownerId = l.ownerId ∧ sameName k.name l.name = true := by
  simp [clashes]

/-- Another of the owner's labels has the name. -/
def Taken (h : Holdings) (l : Label) (name : String) : Prop :=
  ∃ k ∈ h.labels, k.ownerId = l.ownerId ∧ sameName k.name name = true ∧ k.id ≠ l.id

/-- The text spells a name that the owner's label may get: no other label of the owner's has it. -/
structure Renames (h : Holdings) (owner id text : String) (l : Label) (name : String) : Prop where
  stored : l ∈ h.labels
  id_eq : l.id = id
  ownerId : l.ownerId = owner
  spells : customName text = .ok name
  free : ∀ k ∈ h.labels, k.ownerId = owner → sameName k.name name = true → k.id = l.id

theorem Renames.fits (hr : Renames h owner id text l name) (fresh : String → Prop) :
    h.Fits owner fresh (.renameLabel l name) :=
  ⟨hr.stored, hr.ownerId, (customName_eq_ok hr.spells).2, hr.free⟩

theorem Taken.not_renames (ht : Taken h l name) (hname : customName text = .ok name) (l' : Label)
    (name' : String) : ¬ Renames h l.ownerId l.id text l' name' := by
  intro hr
  obtain ⟨k, hk, howner, hsame, hid⟩ := ht
  obtain rfl : name = name' := Except.ok.inj (hname.symm.trans hr.spells)
  exact hid ((hr.free k hk howner hsame).trans hr.id_eq)

theorem insertLabel_ends (hs : db.rows.Shows h) :
    Ends (insertLabel l db)
      (fun _ db' => (∀ k ∈ h.labels, k.id ≠ l.id ∧ clashes k l = false) ∧
        db'.rows.Shows (h.apply (.enterLabel l)) ∧ db.Later db')
      (fun _ db' => db.Idle db' ∧
        (db.Sound → ∃ k ∈ h.labels, k.id = l.id ∨ clashes k l = true)) := by
  refine (statement_ends _ _ _).mono (fun _ db' hok => ?_)
    (fun _ db' herr => ⟨herr.1, fun hd => ?_⟩)
  · obtain ⟨hrows, hl⟩ := hok
    split at hrows
    · cases hrows
    · next hnew =>
      obtain ⟨-, hrows⟩ := Prod.mk.inj (Except.ok.inj hrows)
      rw [hs.labels, List.any_eq_true] at hnew
      push Not at hnew
      refine ⟨fun k hk => by simpa using hnew k hk, ?_, hl⟩
      rw [← hrows]
      exact ⟨hs.messages, by simp [Holdings.apply, hs.labels]⟩
  · obtain ⟨refusal, hrefused⟩ := herr.2 hd
    split at hrefused
    · next hold =>
      rw [hs.labels, List.any_eq_true] at hold
      simpa using hold
    · cases hrefused

theorem puts_withLabels {labels : List Label} {ms : List Message} :
    puts { h with labels := labels } ms = { puts h ms with labels := labels } := by
  induction ms generalizing h with
  | nil => rfl
  | cons m ms ih => exact ih (h := h.put m)

/-- The messages that are given other tags, and what takes their places. -/
theorem puts_withoutTag (hnodup : h.ids.Nodup) :
    (puts h (withoutTag t f (h.mailbox owner))).messages = h.retag owner t f := by
  have hmem {m : Message} : m ∈ withoutTag t f (h.mailbox owner) ↔
      ∃ x ∈ h.messages, x.ownerId = owner ∧ t ∈ x.tags ∧ x.withTags (f (x.tags.erase t)) = m := by
    simp [withoutTag, and_assoc]
  rw [messages_puts]
  · refine List.map_congr_left fun x hx => ?_
    cases hfind : (withoutTag t f (h.mailbox owner)).find? (·.id == x.id) with
    | none =>
      refine (if_neg fun hcase => ?_).symm
      refine List.find?_eq_none.mp hfind _ (hmem.mpr ⟨x, hx, hcase.1, hcase.2, rfl⟩) ?_
      simp [Message.withTags]
    | some m =>
      have hid : m.id = x.id := by simpa using List.find?_some hfind
      obtain ⟨y, hy, howner, ht, rfl⟩ := hmem.mp (List.mem_of_find?_eq_some hfind)
      obtain rfl := Holdings.eq_of_id hnodup hy hx hid
      rw [if_pos ⟨howner, ht⟩, Option.getD_some]
  · intro m hm m' hm' hid
    obtain ⟨x, hx, -, -, rfl⟩ := hmem.mp hm
    obtain ⟨y, hy, -, -, rfl⟩ := hmem.mp hm'
    rw [Holdings.eq_of_id hnodup hx hy hid]

theorem canRetag_withoutTag (hnodup : h.ids.Nodup) (hm : m ∈ withoutTag t f (h.mailbox owner)) :
    CanRetag h m := by
  obtain ⟨x, hx, rfl⟩ := List.mem_map.mp hm
  have hxm : x ∈ h.messages := (Holdings.mem_mailbox.mp (List.mem_filter.mp hx).1).1
  intro y hy hid
  obtain rfl := Holdings.eq_of_id hnodup hy hxm hid
  rfl

/-- A label that was not renamed was there before. -/
theorem mem_renameRow_of_ne {labels : List Label} (hid : k.id ≠ id) :
    k ∈ renameRow id name labels ↔ k ∈ labels := by
  constructor
  · intro hk
    obtain ⟨j, hj, rfl⟩ := List.mem_map.mp hk
    by_cases hjid : j.id = id
    · rw [if_pos hjid] at hid
      exact absurd hjid hid
    · rwa [if_neg hjid]
  · exact fun hk => List.mem_map.mpr ⟨k, hk, if_neg hid⟩

theorem updateLabel_ends (hs : db.rows.Shows h) (ho : h.Orderly) (hl : l ∈ h.labels) :
    Ends (updateLabel l.id name db)
      (fun _ db' => (∀ k ∈ h.labels, k.ownerId = l.ownerId → sameName k.name name = true →
          k.id = l.id) ∧
        db'.rows.Shows { h with labels := renameRow l.id name h.labels } ∧ db.Later db')
      (fun _ db' => db.Idle db' ∧ (db.Sound → Taken h l name)) := by
  refine (statement_ends _ _ _).mono (fun _ db' hok => ?_)
    (fun _ db' herr => ⟨herr.1, fun hd => ?_⟩)
  · obtain ⟨hrows, hlater⟩ := hok
    dsimp only at hrows
    rw [hs.labels] at hrows
    split at hrows
    · cases hrows
    · next hfree =>
      obtain ⟨-, hrows⟩ := Prod.mk.inj (Except.ok.inj hrows)
      refine ⟨fun k hk howner hsame => ?_, ?_, hlater⟩
      · by_contra hid
        have hl' : { l with name := name } ∈ renameRow l.id name h.labels :=
          List.mem_map.mpr ⟨l, hl, if_pos rfl⟩
        refine hfree (List.any_eq_true.mpr ⟨_, hl', ?_⟩)
        rw [Bool.and_eq_true, List.any_eq_true]
        refine ⟨by simp, k, (mem_renameRow_of_ne hid).mpr hk, ?_⟩
        rw [Bool.and_eq_true, clashes_eq_true]
        exact ⟨by simpa using hid, howner, hsame⟩
      · rw [← hrows]
        exact ⟨hs.messages, rfl⟩
  · obtain ⟨refusal, hrefused⟩ := herr.2 hd
    dsimp only at hrefused
    rw [hs.labels] at hrefused
    split at hrefused
    · next hrepeated =>
      obtain ⟨j, hj, hclash⟩ := List.any_eq_true.mp hrepeated
      rw [Bool.and_eq_true, beq_iff_eq, List.any_eq_true] at hclash
      obtain ⟨hjid, k, hk, hkj⟩ := hclash
      rw [Bool.and_eq_true, bne_iff_ne, clashes_eq_true] at hkj
      obtain ⟨hkid, howner, hsame⟩ := hkj
      obtain ⟨i, hi, rfl⟩ := List.mem_map.mp hj
      have hil : i.id = l.id := by
        by_contra hne
        rw [if_neg hne] at hjid
        exact hne hjid
      obtain rfl := ho.eq_of_labelId hi hl hil
      rw [if_pos rfl] at howner hsame
      exact ⟨k, (mem_renameRow_of_ne hkid).mp hk, howner, hsame, hkid⟩
    · cases hrefused

/-- The messages that a renaming or a deletion of the label changes, as they are afterwards. -/
def affected (h : Holdings) (l : Label) (f : TagSet → TagSet) : List Message :=
  withoutTag (.custom l.name) f (h.mailbox l.ownerId)

/-- The part of a renaming that writes. -/
theorem renameOwn_ends (hs : db.rows.Shows h) (ho : h.Orderly) (hl : l ∈ h.labels)
    (hname : customName text = .ok name) :
    Ends ((do
        let retagged :=
          withoutTag (.custom l.name) (·.insert (.custom name)) (← messagesOf l.ownerId)
        transaction do
          updateLabel l.id name
          retagged.forM saveTags
        return ({ l with name := name }, retagged) : Query (Label × List Message)) db)
      (fun r db' => Renames h l.ownerId l.id text l name ∧
        r = ({ l with name := name }, affected h l (·.insert (.custom name))) ∧
        db'.rows.Shows (h.apply (.renameLabel l name)) ∧ db.Later db')
      (fun _ db' => db.Idle db' ∧ (db.Sound → Taken h l name)) := by
  refine (messagesOf_ends hs ho).bind (fun ms db₁ h₁ => ?_)
    (fun _ _ he => ⟨he.1, fun hd => absurd hd he.2⟩)
  obtain ⟨rfl, hi₁⟩ := h₁
  let Q (_ : Unit) (rows : Rows) : Prop := Renames h l.ownerId l.id text l name ∧
    rows.Shows (h.apply (.renameLabel l name))
  refine (transaction_ends (Q := Q) (R := Taken h l name) fun db₂ hi₂ => ?_).bind
    (fun _ db₃ h₃ => ?_)
    (fun _ _ he => ⟨hi₁.trans he.1, fun hd => he.2 (hd.later hi₁.toLater)⟩)
  · have hs₂ : db₂.rows.Shows h := hs.idle (hi₁.trans hi₂)
    refine (updateLabel_ends hs₂ ho hl).bind (fun _ db₃ h₃ => ?_)
      (fun _ _ he => ⟨he.1.toLater, he.2⟩)
    obtain ⟨hfree, hs₃, hl₃⟩ := h₃
    refine (forM_saveTags_ends hs₃ fun m hm => ?_).mono (fun _ db₄ h₄ => ?_)
      (fun _ _ he => ⟨hl₃.trans he.1, fun hd => absurd (hd.later hl₃) he.2⟩)
    · exact canRetag_withoutTag (h := h) ho.ids hm
    · refine ⟨⟨⟨hl, rfl, rfl, hname, hfree⟩, ?_⟩, hl₃.trans h₄.2⟩
      rw [puts_withLabels] at h₄
      exact ⟨h₄.1.messages.trans (congrArg _ (puts_withoutTag ho.ids)), h₄.1.labels⟩
  · exact .of_ok ⟨h₃.1.1, rfl, h₃.1.2, hi₁.toLater.trans h₃.2⟩

theorem renameLabel_ends (hs : db.rows.Shows h) (ho : h.Orderly) :
    Ends (renameLabel id owner text db)
      (fun r db' => ∃ l name, Renames h owner id text l name ∧
        r = ({ l with name := name }, affected h l (·.insert (.custom name))) ∧
        db'.rows.Shows (h.apply (.renameLabel l name)) ∧ db.Later db')
      (fun _ db' => db.Idle db' ∧ (db.Sound → ∀ l name, ¬ Renames h owner id text l name)) := by
  unfold renameLabel
  cases hname : customName text with
  | error e =>
    refine .of_error ⟨.refl db, fun _ l name hr => ?_⟩
    rw [hr.spells] at hname
    cases hname
  | ok name =>
  refine Ends.bind (Q := fun n s => name = n ∧ s = db) (F := fun _ s => db.Idle s ∧
    (db.Sound → ∀ l name, ¬ Renames h owner id text l name)) (.of_ok ⟨rfl, rfl⟩)
    (fun _ s hn => ?_) (fun _ _ h => h)
  obtain ⟨rfl, rfl⟩ := hn
  refine (ownLabel_ends hs).bind (fun l db₁ h₁ => ?_)
    (fun _ _ he => ⟨he.1, fun hd l name hr => he.2 hd l hr.stored ⟨hr.id_eq, hr.ownerId⟩⟩)
  obtain ⟨hl, rfl, rfl, hi₁⟩ := h₁
  refine (findLabel_ends (hs.idle hi₁)).bind (fun other db₂ h₂ => ?_)
    (fun _ _ he => ⟨hi₁.trans he.1, fun hd => absurd (hd.later hi₁.toLater) he.2⟩)
  obtain ⟨hother, hi₂⟩ := h₂
  have hi : s.Idle db₂ := hi₁.trans hi₂
  -- a label of that name is checked for here and once more by the statement itself
  have hrest := (renameOwn_ends (hs.idle hi) ho hl hname).mono
    (fun r db' hr => (⟨l, name, hr.1, hr.2.1, hr.2.2.1, hi.toLater.trans hr.2.2.2⟩ :
      ∃ l' name', Renames h l.ownerId l.id text l' name' ∧
        r = ({ l' with name := name' }, affected h l' (·.insert (.custom name'))) ∧
        db'.rows.Shows (h.apply (.renameLabel l' name')) ∧ s.Later db'))
    (fun _ db' he => (⟨hi.trans he.1, fun hd =>
        (he.2 (hd.later hi.toLater)).not_renames hname⟩ :
      s.Idle db' ∧ (s.Sound → ∀ l' name', ¬ Renames h l.ownerId l.id text l' name')))
  cases other with
  | none => exact hrest
  | some other =>
    by_cases hid : other.id ≠ l.id
    · have hfound := List.find?_some hother.symm
      rw [Bool.and_eq_true, beq_iff_eq] at hfound
      have htaken : Taken h l name :=
        ⟨other, List.mem_of_find?_eq_some hother.symm, hfound.1, hfound.2, hid⟩
      simp only [if_pos hid]
      exact .of_error ⟨hi, fun _ => htaken.not_renames hname⟩
    · simp only [if_neg hid]
      exact hrest

theorem deleteLabel_ends (fresh : String → Prop) (hs : db.rows.Shows h) (ho : h.Orderly) :
    Ends (deleteLabel id owner db)
      (fun r db' => ∃ l, l.id = id ∧ h.Fits owner fresh (.discardLabel l) ∧
        r = (l, affected h l fun s => s) ∧
        db'.rows.Shows (h.apply (.discardLabel l)) ∧ db.Later db')
      (fun _ db' => db.Idle db') := by
  refine (ownLabel_ends hs).bind (fun l db₁ h₁ => ?_) (fun _ _ he => he.1)
  obtain ⟨hl, rfl, rfl, hi₁⟩ := h₁
  refine (messagesOf_ends (hs.idle hi₁) ho).bind (fun ms db₂ h₂ => ?_)
    (fun _ _ he => hi₁.trans he.1)
  obtain ⟨rfl, hi₂⟩ := h₂
  have hi : db.Idle db₂ := hi₁.trans hi₂
  refine (transaction_ends (Q := fun _ rows => Rows.Shows rows (h.apply (.discardLabel l)))
    (R := True) fun db₃ hi₃ => ?_).bind (fun _ db₅ h₅ => ?_) (fun _ _ he => hi.trans he.1)
  · refine (forM_saveTags_ends (hs.idle (hi.trans hi₃)) fun m hm => ?_).bind (fun _ db₄ h₄ => ?_)
      (fun _ _ he => ⟨he.1, fun _ => trivial⟩)
    · exact canRetag_withoutTag ho.ids hm
    · refine (modifyRows_ends _ _).mono (fun _ db₅ h₅ => ?_)
        (fun _ _ he => ⟨h₄.2.trans he.1.toLater, fun _ => trivial⟩)
      obtain ⟨-, hrows⟩ := Prod.mk.inj h₅.1
      refine ⟨?_, h₄.2.trans h₅.2⟩
      rw [← hrows]
      refine ⟨?_, ?_⟩
      · exact h₄.1.messages.trans (congrArg _ (puts_withoutTag ho.ids))
      · exact congrArg _ (h₄.1.labels.trans labels_puts)
  · exact .of_ok ⟨l, rfl, ⟨hl, rfl⟩, rfl, h₅.1, hi.toLater.trans h₅.2⟩

end LabelMail.Primary
