import LabelMail.Proofs.Mailroom.Tagging

/-!
Labels and the tags that use them as acts. A label is entered when its tag is used for the first
time; renaming or deleting one is a single act.
-/
namespace LabelMail.Mailroom

open Primary (customName)

variable {σ : Type} {room : Mailroom σ} {h : Holdings} {caller id owner name text : String}
variable {m x : Message} {l : Label} {tags : TagSet}

theorem enterLabel_ends (hs : room.primary.rows.Shows h) :
    Ends (enterLabel caller text room)
      (fun l mid => customName text = .ok l.name ∧ l.ownerId = caller ∧
        Wrote caller h [.enterLabel l] room mid)
      (fun _ mid => Rests h room mid) := by
  unfold enterLabel
  cases hname : customName text with
  | error e => exact .of_error (.refl hs)
  | ok name =>
  refine Ends.bind (Q := fun n s => name = n ∧ s = room) (F := fun _ s => Rests h room s)
    (.of_ok ⟨rfl, rfl⟩) (fun _ s hn => ?_) (fun _ _ he => he)
  obtain ⟨rfl, rfl⟩ := hn
  refine (looking_ends hs (Primary.looks_select _)).bind (fun found mid hmid => ?_)
    (fun _ _ he => he)
  cases found with
  | some l => exact .of_error hmid
  | none =>
    let l : Label := ⟨mid.idAt mid.drawn, caller, name⟩
    let drawn : Mailroom σ := { mid with drawn := mid.drawn + 1 }
    have hdrawn : mid.Ahead drawn := ⟨.refl _, rfl, rfl, rfl, rfl, rfl, rfl, Nat.le_succ _⟩
    refine (onPrimary_ends drawn (Primary.insertLabel_ends (l := l) hmid.shows)).bind
      (fun _ room' hr => ?_) ?_
    · obtain ⟨db, ⟨hfree, hs', hl⟩, rfl⟩ := hr
      have hahead : drawn.Ahead { drawn with primary := db } := ahead_primary hl
      refine .of_ok ⟨rfl, rfl, hmid.then ⟨hdrawn.trans hahead, ⟨?_, trivial⟩, hs'⟩⟩
      refine ⟨rfl, ⟨mid.drawn, Nat.le_refl _, Nat.lt_succ_self _, rfl⟩, fun k hk => (hfree k hk).1,
        (Primary.customName_eq_ok hname).2, fun k hk howner => ?_⟩
      have hclash := (hfree k hk).2
      rw [← Bool.not_eq_true, Primary.clashes_eq_true] at hclash
      rw [← Bool.not_eq_true]
      exact fun hsame => hclash ⟨howner, hsame⟩
    · rintro _ _ ⟨db, ⟨hi, -⟩, rfl⟩
      exact hmid.trans ⟨hdrawn.trans (ahead_primary hi.toLater), hmid.shows.idle hi⟩

/-- The label of a spelled tag is there already, or it is entered under the tag's very name. -/
theorem ensureLabel_ends (hs : room.primary.rows.Shows h)
    (ht : Spelled h caller (.custom name)) :
    Ends (ensureLabel caller name room)
      (fun l mid => (Message.HasLabel h.labels caller (.custom name) ∧ Rests h room mid) ∨
        (l.name = name ∧ l.ownerId = caller ∧ Wrote caller h [.enterLabel l] room mid))
      (fun _ mid => Rests h room mid) := by
  have hcustom : customName name = .ok name := by
    unfold customName
    rw [show Tag.ofName name = .ok (.custom name) from ht.proper]
  refine (findLabel_rests hs).bind (fun r mid hr => ?_) (fun _ _ he => he.1)
  obtain ⟨rfl, hmid⟩ := hr
  cases hfind : h.findLabel? caller name with
  | some l =>
    refine .of_ok <| .inl ⟨(ht.known name rfl).resolve_right fun hnone => ?_, hmid⟩
    rw [hnone] at hfind
    cases hfind
  | none =>
    refine (attempt_ends (enterLabel_ends hmid.shows)).bind (fun r mid' hr => ?_)
      (fun _ _ he => he.elim)
    rcases hr with ⟨l, rfl, hname, howner, hw⟩ | ⟨e, rfl, hmid'⟩
    · rw [hcustom] at hname
      exact .of_ok <| .inr ⟨(Except.ok.inj hname).symm, howner, hmid.then hw⟩
    · have hrest : Rests h room mid' := hmid.trans hmid'
      cases e with
      | conflict why =>
        refine (findLabel_rests hrest.shows).bind (fun r mid'' hr => ?_)
          (fun _ _ he => hrest.trans he.1)
        obtain ⟨rfl, hmid''⟩ := hr
        rw [hfind]
        exact .of_error (hrest.trans hmid'')
      | _ => exact .of_error hrest

theorem retag_ends (hs : room.primary.rows.Shows h) (ho : h.Orderly) (hx : h.find? id = some x)
    (howner : x.ownerId = caller) (hedit : x.Edit h.labels (x.withTags tags).withFlagsOfTags) :
    Ends (retag x tags room)
      (fun m mid => m = (x.withTags tags).withFlagsOfTags ∧ EditOf h caller id h.labels m ∧
        Wrote caller h [.alter m] room mid)
      (fun _ mid => Rests h room mid ∧ ¬ room.primary.Sound) := by
  let m := (x.withTags tags).withFlagsOfTags
  have he : EditOf h caller id h.labels m := ⟨x, hx, howner, hedit⟩
  refine (onPrimary_ends _ (Primary.saveTags_ends (m := m) hs (canRetag_of_find? ho hx rfl))).bind
    (fun _ room' hr => ?_) ?_
  · obtain ⟨db, ⟨hs', hl⟩, rfl⟩ := hr
    exact .of_ok ⟨rfl, he, wrote_primary he.legal hs' hl⟩
  · rintro _ _ ⟨db, ⟨hi, hsound⟩, rfl⟩
    exact ⟨rests_primary hs hi, hsound⟩

/-- What has become of a message whose tags were to be changed. -/
inductive Tagged (h : Holdings) (caller id : String) (room mid : Mailroom σ) (u : Update) : Prop
  | same (hchanged : u.changed = false) (hfound : h.find? id = some u.message)
      (howner : u.message.ownerId = caller) (hrest : Rests h room mid)
  | altered (hchanged : u.changed = true) (hedit : EditOf h caller id h.labels u.message)
      (hw : Wrote caller h [.alter u.message] room mid)
  | labelled (l : Label) (hchanged : u.changed = true) (howner : l.ownerId = caller)
      (hcarried : .custom l.name ∈ u.message.tags)
      (hedit : EditOf h caller id (h.labels ++ [l]) u.message)
      (hw : Wrote caller h [.enterLabel l, .alter u.message] room mid)

theorem retagSpam_ends (hs : room.primary.rows.Shows h) (ho : h.Orderly) (hx : h.find? id = some x)
    (howner : x.ownerId = caller) {t : Screening.Toggled}
    (hedit : x.Edit h.labels (x.withTags t.tags).withFlagsOfTags) :
    Ends (retagSpam x t room) (fun u mid => Tagged h caller id room mid u)
      (fun _ mid => Rests h room mid) := by
  refine (retag_ends hs ho hx howner hedit).bind (fun m mid hm => ?_) (fun _ _ he => he.1)
  exact .of_ok (.altered rfl hm.2.1 hm.2.2)

theorem Tagged.after_rest {mid mid' : Mailroom σ} {u : Update} (hrest : Rests h room mid)
    (ht : Tagged h caller id mid mid' u) : Tagged h caller id room mid' u := by
  cases ht with
  | same hchanged hfound howner hrest' => exact .same hchanged hfound howner (hrest.trans hrest')
  | altered hchanged hedit hw => exact .altered hchanged hedit (hrest.then hw)
  | labelled l hchanged howner hcarried hedit hw =>
    exact .labelled l hchanged howner hcarried hedit (hrest.then hw)

theorem condemn_ends (hs : room.primary.rows.Shows h) (ho : h.Orderly) (hx : h.find? id = some x)
    (howner : x.ownerId = caller) :
    Ends (condemn x room) (fun u mid => Tagged h caller id room mid u)
      (fun _ mid => Rests h room mid) := by
  have hscreen : Ends (screening (fun ask rules => Screening.condemn ask rules x) room)
      (fun t mid => t.tags = x.tags.intoSpam.1 ∧ Rests h room mid)
      (fun _ mid => Rests h room mid) :=
    screening_ends (f := fun ask rules => Screening.condemn ask rules x)
      (fun _ ht => Screening.condemn_tags ht)
      (Screening.condemn_keeps (fun _ _ => rests_ask _) (.refl hs))
  refine hscreen.bind (fun t mid ht => ?_) (fun _ _ he => he)
  obtain ⟨htags, hmid⟩ := ht
  have hedit : x.Edit h.labels (x.withTags t.tags).withFlagsOfTags := htags ▸ .condemned
  exact (retagSpam_ends hmid.shows ho hx howner hedit).mono (fun _ _ hu => hu.after_rest hmid)
    fun _ _ he => hmid.trans he

theorem acquit_ends (hs : room.primary.rows.Shows h) (ho : h.Orderly) (hx : h.find? id = some x)
    (howner : x.ownerId = caller) :
    Ends (acquit x room) (fun u mid => Tagged h caller id room mid u)
      (fun _ mid => Rests h room mid) := by
  have hkeeps : Rests h room (Screening.acquit ask room.rules x room).2 :=
    Screening.acquit_keeps (fun _ _ _ => rests_ask _) (.refl hs)
  refine Ends.bind (Q := fun t mid => t.tags = x.tags.outOfSpam.1 ∧ Rests h room mid) ?_
    (fun t mid ht => ?_) fun _ _ he => he
  · unfold screening
    exact .of_ok ⟨rfl, hkeeps⟩
  obtain ⟨htags, hmid⟩ := ht
  have hedit : x.Edit h.labels (x.withTags t.tags).withFlagsOfTags := htags ▸ .untagged .spam
  exact (retagSpam_ends hmid.shows ho hx howner hedit).mono (fun _ _ hu => hu.after_rest hmid)
    fun _ _ he => hmid.trans he

/-- A message that was found is taken out of spam if it is there and marked as spam if not. -/
theorem flipFound_eq (m : Message) :
    (screening (fun ask rules => Screening.flipSpam ask rules m) >>= retagSpam m :
      Action σ Update) = if m.tags.isSpam then acquit m else condemn m := by
  unfold Screening.flipSpam
  by_cases hspam : m.tags.isSpam = true
  · simp only [if_pos hspam]
    rfl
  · simp only [if_neg hspam]
    rfl

theorem flipSpam_ends (hs : room.primary.rows.Shows h) (ho : h.Orderly) :
    Ends (flipSpam id caller room) (fun u mid => Tagged h caller id room mid u)
      (fun _ mid => Rests h room mid) := by
  refine (ownMessage_rests hs ho).bind (fun x mid hx => ?_) (fun _ _ he => he)
  obtain ⟨hx, howner, hmid⟩ := hx
  have hflip : Ends ((if x.tags.isSpam then acquit x else condemn x) mid)
      (fun u mid' => Tagged h caller id mid mid' u) (fun _ mid' => Rests h mid mid') := by
    split
    · exact acquit_ends hmid.shows ho hx howner
    · exact condemn_ends hmid.shows ho hx howner
  rw [← flipFound_eq] at hflip
  exact hflip.mono (fun _ _ hu => hu.after_rest hmid) fun _ _ he => hmid.trans he

/-- The failure of a tagging has written nothing, or else a label for a tag that could not be stored
on an unsound database. -/
inductive Untagged (h : Holdings) (caller : String) (room mid : Mailroom σ) : Prop
  | rest (hrest : Rests h room mid)
  | stopped (l : Label) (hsound : ¬ room.primary.Sound)
      (hw : Wrote caller h [.enterLabel l] room mid)

/-- The message carries a tag that the text stands for, unless that is the tag for spam. -/
def Carries (h : Holdings) (owner text : String) (m : Message) : Prop :=
  ∃ t, Named h owner text t ∧ (t ≠ .spam → t ∈ m.tags)

/-- What adding a tag makes of a message: the rules allow it, and the flags follow the tags if they
change. -/
structure Adds (h : Holdings) (id : String) (t : Tag) (x : Message) (u : Update) : Prop where
  found : h.find? id = some x
  allowed : x.tags.add t = .ok (x.tags.insert t, u.changed)
  message : u.message = if u.changed then (x.withTags (x.tags.insert t)).withFlagsOfTags else x

theorem Adds.mem_tags {t : Tag} {u : Update} (ha : Adds h id t x u) (hspam : t ≠ .spam) :
    t ∈ u.message.tags := by
  obtain ⟨-, hchanged, -⟩ := TagSet.add_eq_ok hspam ha.allowed
  rw [ha.message]
  split
  · exact TagSet.mem_insert.mpr (.inl rfl)
  · next hsame => simpa [hsame] using hchanged.symm

/-- The tag that the text stands for was added, unless it is that for spam. -/
def AddsTag (h : Holdings) (caller id text : String) (u : Update) : Prop :=
  ∃ t, Named h caller text t ∧ (t ≠ .spam → ∃ x, Adds h id t x u)

theorem AddsTag.carries {u : Update} (ha : AddsTag h caller id text u) :
    Carries h caller text u.message := by
  obtain ⟨t, hnamed, hadds⟩ := ha
  refine ⟨t, hnamed, fun hspam => ?_⟩
  obtain ⟨x, hx⟩ := hadds hspam
  exact hx.mem_tags hspam

theorem addTag_adds (hs : room.primary.rows.Shows h) (ho : h.Orderly) :
    Ends (addTag id caller text room)
      (fun u mid => Tagged h caller id room mid u ∧ AddsTag h caller id text u)
      (fun _ mid => Untagged h caller room mid) := by
  refine (tagOfText_ends hs ho).bind (fun t mid₁ ht => ?_) (fun _ _ he => .rest he)
  obtain ⟨hnamed, hrest₁⟩ := ht
  refine (ownMessage_rests hrest₁.shows ho).bind (fun x mid hx => ?_)
    (fun _ _ he => .rest (hrest₁.trans he))
  obtain ⟨hx, howner, hrest₂⟩ := hx
  have hrest : Rests h room mid := hrest₁.trans hrest₂
  split
  · next hspam =>
    have hadds {u : Update} : AddsTag h caller id text u :=
      ⟨t, hnamed, fun hne => absurd hspam hne⟩
    split
    · exact .of_ok ⟨.same rfl hx howner hrest, hadds⟩
    · exact (condemn_ends hrest.shows ho hx howner).mono
        (fun _ _ hu => ⟨hu.after_rest hrest, hadds⟩) fun _ _ he => .rest (hrest.trans he)
  · next hspam =>
    cases hadd : x.tags.add t with
    | error e => exact .of_error (.rest hrest)
    | ok r =>
    obtain ⟨tags, changed⟩ := r
    refine Ends.bind (Q := fun r s => r = (tags, changed) ∧ s = mid) (F := fun _ _ => False)
      (.of_ok ⟨rfl, rfl⟩) (fun _ _ hr => ?_) (fun _ _ he => he.elim)
    obtain ⟨rfl, rfl⟩ := hr
    obtain ⟨rfl, -, -⟩ := TagSet.add_eq_ok hspam hadd
    cases changed with
    | false => exact .of_ok ⟨.same rfl hx howner hrest, t, hnamed, fun _ => ⟨x, hx, hadd, rfl⟩⟩
    | true =>
    have hadds : AddsTag h caller id text
        ⟨(x.withTags (x.tags.insert t)).withFlagsOfTags, true, []⟩ :=
      ⟨t, hnamed, fun _ => ⟨x, hx, hadd, rfl⟩⟩
    have hstore {mid' : Mailroom σ} (hrest' : Rests h room mid')
        (hlabel : Message.HasLabel h.labels x.ownerId t) :
        Ends ((do return ⟨← retag x (x.tags.insert t), true, []⟩ : Action σ Update) mid')
          (fun u mid'' => Tagged h caller id room mid'' u ∧ AddsTag h caller id text u)
          (fun _ mid'' => Untagged h caller room mid'') := by
      refine (retag_ends hrest'.shows ho hx howner (.tagged hspam hnamed.proper hlabel hadd)).bind
        (fun m mid'' hm => ?_) (fun _ _ he => .rest (hrest'.trans he.1))
      obtain ⟨rfl, hedit, hw⟩ := hm
      exact .of_ok ⟨.altered rfl hedit (hrest'.then hw), hadds⟩
    cases t with
    | custom name =>
      refine (Ends.discard (T := fun _ mid' =>
        (Message.HasLabel h.labels caller (.custom name) ∧ Rests h room mid') ∨
          ∃ l : Label, l.name = name ∧ l.ownerId = caller ∧
            Wrote caller h [.enterLabel l] room mid')
        ((ensureLabel_ends hrest.shows hnamed.toSpelled).mono (fun l mid' hl => ?_)
          (fun _ _ he => hrest.trans he))).bind (fun _ mid' hl => ?_) (fun _ _ he => .rest he)
      · rcases hl with ⟨hlabel, hrest'⟩ | ⟨hname, hown, hw⟩
        · exact .inl ⟨hlabel, hrest.trans hrest'⟩
        · exact .inr ⟨l, hname, hown, hrest.then hw⟩
      · rcases hl with ⟨hlabel, hrest'⟩ | ⟨l, rfl, hown, hw⟩
        · exact hstore hrest' (howner ▸ hlabel)
        · have ho' : (h.apply (.enterLabel l)).Orderly := ho.after hw.legal
          have hlabel : Message.HasLabel (h.labels ++ [l]) x.ownerId (.custom l.name) :=
            fun n hn => ⟨l, by simp, by rw [hown, howner], Tag.custom.inj hn⟩
          refine (retag_ends hw.shows ho' hx howner
            (.tagged hspam hnamed.proper hlabel hadd)).bind (fun m mid'' hm => ?_)
            (fun _ _ he => .stopped l (fun hd => he.2 (hw.sound hd)) ?_)
          · obtain ⟨rfl, hedit, hw'⟩ := hm
            refine .of_ok ⟨.labelled l rfl hown ?_ ⟨hedit.found⟩ (hw.trans hw'), hadds⟩
            exact TagSet.mem_insert.mpr (.inl rfl)
          · exact hw.trans he.1.wrote
    | _ => exact hstore hrest (Message.hasLabel_of_mem_reserved (by decide))

theorem addTag_ends (hs : room.primary.rows.Shows h) (ho : h.Orderly) :
    Ends (addTag id caller text room)
      (fun u mid => Tagged h caller id room mid u ∧ Carries h caller text u.message)
      (fun _ mid => Untagged h caller room mid) :=
  (addTag_adds hs ho).mono (fun _ _ hu => ⟨hu.1, hu.2.carries⟩) fun _ _ he => he

theorem removeTag_ends (hs : room.primary.rows.Shows h) (ho : h.Orderly) :
    Ends (removeTag id caller text room) (fun u mid => Tagged h caller id room mid u)
      (fun _ mid => Rests h room mid) := by
  refine (tagOfText_ends hs ho).bind (fun t mid₁ ht => ?_) (fun _ _ he => he)
  obtain ⟨-, hrest₁⟩ := ht
  refine (ownMessage_rests hrest₁.shows ho).bind (fun x mid hx => ?_)
    (fun _ _ he => hrest₁.trans he)
  obtain ⟨hx, howner, hrest₂⟩ := hx
  have hrest : Rests h room mid := hrest₁.trans hrest₂
  split
  · split
    · exact (acquit_ends hrest.shows ho hx howner).mono (fun _ _ hu => hu.after_rest hrest)
        fun _ _ he => hrest.trans he
    · exact .of_ok (.same rfl hx howner hrest)
  · rcases hremove : x.tags.remove t with ⟨tags, changed⟩
    have htags : tags = x.tags.erase t := (congrArg Prod.fst hremove).symm
    cases changed with
    | false => exact .of_ok (.same rfl hx howner hrest)
    | true =>
      have hedit : x.Edit h.labels (x.withTags tags).withFlagsOfTags := htags ▸ .untagged t
      refine (retag_ends hrest.shows ho hx howner hedit).bind (fun m mid' hm => ?_)
        (fun _ _ he => hrest.trans he.1)
      exact .of_ok (.altered rfl hm.2.1 (hrest.then hm.2.2))

theorem renameTag_ends (hs : room.primary.rows.Shows h) (ho : h.Orderly) :
    Ends (renameTag id caller text room)
      (fun r mid => ∃ l name, Primary.Renames h caller id text l name ∧
        r = ({ l with name := name }, Primary.affected h l (·.insert (.custom name))) ∧
        Wrote caller h [.renameLabel l name] room mid)
      (fun _ mid => Rests h room mid ∧
        (room.primary.Sound → ∀ l name, ¬ Primary.Renames h caller id text l name)) := by
  have hquery : Ends ((do discard (Primary.idsOf caller); Primary.renameLabel id caller text :
        Primary.Query (Label × List Message)) room.primary)
      (fun r db => ∃ l name, Primary.Renames h caller id text l name ∧
        r = ({ l with name := name }, Primary.affected h l (·.insert (.custom name))) ∧
        db.rows.Shows (h.apply (.renameLabel l name)) ∧ room.primary.Later db)
      (fun _ db => room.primary.Idle db ∧
        (room.primary.Sound → ∀ l name, ¬ Primary.Renames h caller id text l name)) := by
    refine (Ends.discard (T := fun _ db => room.primary.Idle db)
      ((Database.select_ends _).mono (fun _ _ h => h.2) fun _ _ h => h)).bind (fun _ db hi => ?_)
      (fun _ _ he => ⟨he.1, fun hd => absurd hd he.2⟩)
    refine (Primary.renameLabel_ends (hs.idle hi) ho).mono ?_
      (fun _ _ he => ⟨hi.trans he.1, fun hd => he.2 (hd.later hi.toLater)⟩)
    rintro r db' ⟨l, name, hren, hr, hs', hl⟩
    exact ⟨l, name, hren, hr, hs', hi.toLater.trans hl⟩
  refine (onPrimary_ends _ hquery).mono ?_ ?_
  · rintro r _ ⟨db, ⟨l, name, hren, hr, hs', hl⟩, rfl⟩
    exact ⟨l, name, hren, hr, wrote_primary (fun fresh => ⟨hren.fits fresh, trivial⟩) hs' hl⟩
  · rintro _ _ ⟨db, ⟨hi, hnot⟩, rfl⟩
    exact ⟨rests_primary hs hi, hnot⟩

theorem deleteTag_ends (hs : room.primary.rows.Shows h) (ho : h.Orderly) :
    Ends (deleteTag id caller room)
      (fun r mid => ∃ l, l.id = id ∧ r = (l, Primary.affected h l fun s => s) ∧
        Wrote caller h [.discardLabel l] room mid)
      (fun _ mid => Rests h room mid) := by
  have hquery : Ends ((do discard (Primary.idsOf caller); Primary.deleteLabel id caller :
        Primary.Query (Label × List Message)) room.primary)
      (fun r db => ∃ l, l.id = id ∧ (∀ fresh, h.Fits caller fresh (.discardLabel l)) ∧
        r = (l, Primary.affected h l fun s => s) ∧
        db.rows.Shows (h.apply (.discardLabel l)) ∧ room.primary.Later db)
      (fun _ db => room.primary.Idle db) := by
    refine (Ends.discard (T := fun _ db => room.primary.Idle db)
      (Primary.looks_select _ room.primary)).bind (fun _ db hi => ?_) (fun _ _ he => he)
    refine (Primary.deleteLabel_ends (fun _ => False) (hs.idle hi) ho).mono ?_
      (fun _ _ he => hi.trans he)
    rintro r db' ⟨l, hid, hfits, hr, hs', hl⟩
    exact ⟨l, hid, fun _ => hfits, hr, hs', hi.toLater.trans hl⟩
  refine (onPrimary_ends _ hquery).mono ?_ ?_
  · rintro r _ ⟨db, ⟨l, hid, hfits, hr, hs', hl⟩, rfl⟩
    exact ⟨l, hid, hr, wrote_primary (fun fresh => ⟨hfits fresh, trivial⟩) hs' hl⟩
  · rintro _ _ ⟨db, hi, rfl⟩
    exact rests_primary hs hi

theorem legal_discard {ids : List String} (hnodup : ids.Nodup)
    (hids : ∀ id ∈ ids, Primary.Trashed h caller id) (fresh : String → Prop) :
    h.Legal caller fresh (ids.map .discard) := by
  induction ids generalizing h with
  | nil => trivial
  | cons id ids ih =>
    obtain ⟨hid, hnodup⟩ := List.nodup_cons.mp hnodup
    obtain ⟨m, hm, hmid, howner, -⟩ := hids id List.mem_cons_self
    refine ⟨⟨m, hm, hmid, howner⟩, ih hnodup fun j hj => ?_⟩
    exact (hids j (List.mem_cons_of_mem id hj)).discard fun heq => hid (heq ▸ hj)

/-- The ids of what lies in the owner's trash, newest first. -/
def trash (h : Holdings) (owner : String) : List String :=
  ((h.mailbox owner).filter fun m => decide (.trash ∈ m.tags)).map Message.id

theorem mem_trash : id ∈ trash h owner ↔ Primary.Trashed h owner id := by
  simp [trash, Primary.Trashed, and_comm, and_left_comm, and_assoc]

theorem nodup_trash (ho : h.Orderly) : (trash h owner).Nodup :=
  (Holdings.nodup_mailbox ho.ids owner).sublist (List.filter_sublist.map _)

theorem sweepTrash_ends (hs : room.primary.rows.Shows h) (ho : h.Orderly) :
    Ends (sweepTrash caller room)
      (fun ids mid => ids = trash h caller ∧ Wrote caller h (ids.map .discard) room mid)
      (fun _ mid => Rests h room mid ∧ ¬ room.primary.Sound) := by
  have hids : ∀ id ∈ trash h caller, Primary.Trashed h caller id := fun _ hid => mem_trash.mp hid
  have hquery : Ends ((do Primary.deleteTrashed caller (← Primary.trashedIds caller) :
        Primary.Query (List String)) room.primary)
      (fun ids db => ids = trash h caller ∧
        db.rows.Shows (h.after ((trash h caller).map .discard)) ∧ room.primary.Later db)
      (fun _ db => room.primary.Idle db ∧ ¬ room.primary.Sound) := by
    refine (Primary.trashedIds_ends hs ho).bind (fun ids db hr => ?_) (fun _ _ he => he)
    obtain ⟨rfl, hi⟩ := hr
    exact (Primary.deleteTrashed_ends (hs.idle hi) ho (nodup_trash ho) hids).mono
      (fun _ _ hr => ⟨hr.1, hr.2.1, hi.toLater.trans hr.2.2⟩)
      fun _ _ he => ⟨hi.trans he.1, fun hd => he.2 (hd.later hi.toLater)⟩
  refine (onPrimary_ends _ hquery).mono ?_ ?_
  · rintro _ _ ⟨db, ⟨rfl, hs', hl⟩, rfl⟩
    exact ⟨rfl, wrote_primary (legal_discard (nodup_trash ho) hids) hs' hl⟩
  · rintro _ _ ⟨db, ⟨hi, hsound⟩, rfl⟩
    exact ⟨rests_primary hs hi, hsound⟩

end LabelMail.Mailroom
