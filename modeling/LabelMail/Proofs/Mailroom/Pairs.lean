import LabelMail.Proofs.ActionPairs
import LabelMail.Proofs.Mailroom.Following
import LabelMail.Proofs.Primary.Pairs

/-!
The first halves of operations in two mailrooms that agree on what the caller has. They return the
same or fail for the same reason, and the primary stores agree afterwards. As long as nothing is
written, the holdings of both are known as well.
-/
namespace LabelMail.Mailroom

open Database (Paired)
open Primary (Abreast)
open Request (Compose DraftEdit)

variable {σ α β : Type}

/-- The mailrooms are alike but for their stores, and `R` relates the rows of the primary ones. -/
structure Level (R : Primary.Rows → Primary.Rows → Prop) (room room' : Mailroom σ) : Prop where
  primary : Paired R room.primary room'.primary
  keeping : room'.keeping = room.keeping
  outside : room'.outside = room.outside
  rules : room'.rules = room.rules
  now : room'.now = room.now
  idAt : room'.idAt = room.idAt
  drawn : room'.drawn = room.drawn

/-- The primary stores agree on one owner. -/
abbrev Written (owner : String) : Mailroom σ → Mailroom σ → Prop :=
  Level (Primary.Rows.SameFor owner)

/-- The ids that are still to be drawn are new to the holdings. -/
structure Unused (h : Holdings) (room : Mailroom σ) : Prop where
  messages : ∀ n, room.drawn ≤ n → room.idAt n ∉ h.ids
  labels : ∀ n, room.drawn ≤ n → ∀ l ∈ h.labels, l.id ≠ room.idAt n

/-- The primary stores agree on one owner, and they still show the holdings from the beginning. -/
structure Unwritten (owner : String) (h h' : Holdings) (room room' : Mailroom σ) : Prop
    extends Level (Abreast owner h h') room room' where
  orderly : h.Orderly
  orderly' : h'.Orderly
  unused : Unused h room
  unused' : Unused h' room'
  supply : Supply room.idAt

variable {R S : Primary.Rows → Primary.Rows → Prop} {room room' mid mid' : Mailroom σ}
variable {h h' : Holdings} {owner id : String} {m : Message} {tags : TagSet}

theorem onPrimary_alike {q : Primary.Query α} {q' : Primary.Query β}
    {Q : α → Primary.Store → β → Primary.Store → Prop} {E : Primary.Store → Primary.Store → Prop}
    (hq : Alike Q E (q room.primary) (q' room'.primary)) :
    Alike (fun a s b t => ∃ db db', s = { room with primary := db } ∧
        t = { room' with primary := db' } ∧ Q a db b db')
      (fun s t => ∃ db db', s = { room with primary := db } ∧ t = { room' with primary := db' } ∧
        E db db') (onPrimary q room) (onPrimary q' room') := by
  unfold onPrimary
  generalize q room.primary = r at hq
  generalize q' room'.primary = r' at hq
  cases hq with
  | ok hQ => exact .ok ⟨_, _, rfl, rfl, hQ⟩
  | error hE => exact .error ⟨_, _, rfl, rfl, hE⟩

theorem Level.withPrimary (hl : Level R room room') {db db' : Primary.Store}
    (hp : Paired S db db') :
    Level S { room with primary := db } { room' with primary := db' } :=
  ⟨hp, hl.keeping, hl.outside, hl.rules, hl.now, hl.idAt, hl.drawn⟩

theorem Level.writing {q : Primary.Query α} (hl : Level R room room')
    (hq : Same (Paired S) q q room.primary room'.primary) :
    Same (Level S) (onPrimary q) (onPrimary q) room room' := by
  refine (onPrimary_alike hq).mono ?_ ?_
  · rintro a _ b _ ⟨db, db', rfl, rfl, hab, hp⟩
    exact ⟨hab, hl.withPrimary hp⟩
  · rintro _ _ ⟨db, db', rfl, rfl, hp⟩
    exact hl.withPrimary hp

/-- Tasks leave two mailrooms alike. -/
theorem Level.trails (hl : Level R room room') (ht : room.Trails mid) (ht' : room'.Trails mid') :
    Level R mid mid' where
  primary := hl.primary.idle ht.primary ht'.primary
  keeping := ht'.keeping.trans (hl.keeping.trans ht.keeping.symm)
  outside := ht'.outside.trans (hl.outside.trans ht.outside.symm)
  rules := ht'.rules.trans (hl.rules.trans ht.rules.symm)
  now := ht'.now.trans (hl.now.trans ht.now.symm)
  idAt := ht'.idAt.trans (hl.idAt.trans ht.idAt.symm)
  drawn := ht'.drawn.trans (hl.drawn.trans ht.drawn.symm)

/-- Mailrooms that are alike after their tasks were alike before. -/
theorem Level.before (hl : Level R mid mid') (ht : room.Trails mid) (ht' : room'.Trails mid')
    (hs : room.primary.Sound) (hs' : room'.primary.Sound) : Level R room room' where
  primary := by
    refine ⟨hs, hs', ?_⟩
    rw [← ht.primary.rows, ← ht'.primary.rows]
    exact hl.primary.rows
  keeping := ht'.keeping.symm.trans (hl.keeping.trans ht.keeping)
  outside := ht'.outside.symm.trans (hl.outside.trans ht.outside)
  rules := ht'.rules.symm.trans (hl.rules.trans ht.rules)
  now := ht'.now.symm.trans (hl.now.trans ht.now)
  idAt := ht'.idAt.symm.trans (hl.idAt.trans ht.idAt)
  drawn := ht'.drawn.symm.trans (hl.drawn.trans ht.drawn)

theorem refreshAll_same (hl : Level R room room') (ms : List Message) :
    Same (Level R) (refreshAll ms) (refreshAll ms) room room' := by
  refine .of_ends (refreshAll_ends ms) (refreshAll_ends ms) ?_
  rintro _ _ _ _ rfl rfl
  exact ⟨rfl, hl.trails (trails_done _ _) (trails_done _ _)⟩

theorem refreshQuietly_same (hl : Level R room room') (id : String) :
    Same (Level R) (refreshQuietly id) (refreshQuietly id) room room' := by
  refine .of_ends (refreshQuietly_ends id) (refreshQuietly_ends id) ?_
  rintro _ _ _ _ rfl rfl
  exact ⟨rfl, hl.trails (trails_done _ _) (trails_done _ _)⟩

theorem Level.weaken (hl : Level (Abreast owner h h') room room') : Written owner room room' :=
  ⟨Abreast.weaken hl.primary, hl.keeping, hl.outside, hl.rules, hl.now, hl.idAt, hl.drawn⟩

namespace Unwritten

theorem weaken (hu : Unwritten owner h h' room room') : Written owner room room' :=
  hu.toLevel.weaken

theorem withPrimary (hu : Unwritten owner h h' room room') {db db' : Primary.Store}
    (hp : Paired (Abreast owner h h') db db') :
    Unwritten owner h h' { room with primary := db } { room' with primary := db' } :=
  ⟨hu.toLevel.withPrimary hp, hu.orderly, hu.orderly', ⟨hu.unused.messages, hu.unused.labels⟩,
    ⟨hu.unused'.messages, hu.unused'.labels⟩, hu.supply⟩

/-- A query that writes nothing, as an action. -/
theorem reading {q : Primary.Query α} {Q : α → α → Prop} (hu : Unwritten owner h h' room room')
    (hq : Alike (fun a s b t => Q a b ∧ Paired (Abreast owner h h') s t)
      (Paired (Abreast owner h h')) (q room.primary) (q room'.primary)) :
    Alike (fun a s b t => Q a b ∧ Unwritten owner h h' s t) (Unwritten owner h h')
      (onPrimary q room) (onPrimary q room') := by
  refine (onPrimary_alike hq).mono ?_ ?_
  · rintro a _ b _ ⟨db, db', rfl, rfl, hab, hp⟩
    exact ⟨hab, hu.withPrimary hp⟩
  · rintro _ _ ⟨db, db', rfl, rfl, hp⟩
    exact hu.withPrimary hp

theorem of_rests (hu : Unwritten owner h h' room room') (hw : Written owner mid mid')
    (hrest : Rests h room mid) (hrest' : Rests h' room' mid') :
    Unwritten owner h h' mid mid' where
  primary := ⟨hw.primary.sound, hw.primary.sound', hw.primary.rows, hrest.shows, hrest'.shows⟩
  keeping := hw.keeping
  outside := hw.outside
  rules := hw.rules
  now := hw.now
  idAt := hw.idAt
  drawn := hw.drawn
  orderly := hu.orderly
  orderly' := hu.orderly'
  unused := by
    refine ⟨fun n hn => ?_, fun n hn => ?_⟩
    · rw [hrest.idAt]
      exact hu.unused.messages n (Nat.le_trans hrest.drawn hn)
    · rw [hrest.idAt]
      exact hu.unused.labels n (Nat.le_trans hrest.drawn hn)
  unused' := by
    refine ⟨fun n hn => ?_, fun n hn => ?_⟩
    · rw [hrest'.idAt]
      exact hu.unused'.messages n (Nat.le_trans hrest'.drawn hn)
    · rw [hrest'.idAt]
      exact hu.unused'.labels n (Nat.le_trans hrest'.drawn hn)
  supply := by
    rw [hrest.idAt]
    exact hu.supply

theorem drawing (hu : Unwritten owner h h' room room') (n : Nat) :
    Unwritten owner h h' (room.drawing n) (room'.drawing n) where
  primary := hu.primary
  keeping := hu.keeping
  outside := hu.outside
  rules := hu.rules
  now := hu.now
  idAt := hu.idAt
  drawn := congrArg (· + n) hu.drawn
  orderly := hu.orderly
  orderly' := hu.orderly'
  unused := ⟨fun k hk => hu.unused.messages k (Nat.le_trans (Nat.le_add_right _ _) hk),
    fun k hk => hu.unused.labels k (Nat.le_trans (Nat.le_add_right _ _) hk)⟩
  unused' := ⟨fun k hk => hu.unused'.messages k (Nat.le_trans (Nat.le_add_right _ _) hk),
    fun k hk => hu.unused'.labels k (Nat.le_trans (Nat.le_add_right _ _) hk)⟩
  supply := hu.supply

end Unwritten

theorem Level.eq (hl : Level R room room') :
    room' = { room with
      primary := room'.primary, replica := room'.replica, backlog := room'.backlog } := by
  rw [← hl.keeping, ← hl.outside, ← hl.rules, ← hl.now, ← hl.idAt, ← hl.drawn]

theorem Level.ask (hl : Level R room room') {c : Blacklist.Call}
    (hask : Same (Paired R) (Primary.ask room.now c) (Primary.ask room.now c) room.primary
      room'.primary) :
    (ask c room).1 = (ask c room').1 ∧ Level R (ask c room).2 (ask c room').2 := by
  rw [hl.eq]
  unfold Mailroom.ask
  dsimp only
  cases room.keeping with
  | own =>
    dsimp only
    unfold Same at hask
    generalize Primary.ask room.now c room.primary = r at hask
    generalize Primary.ask room.now c room'.primary = r' at hask
    cases hask with
    | ok hab =>
      obtain ⟨rfl, hp⟩ := hab
      exact ⟨rfl, hp, rfl, rfl, rfl, rfl, rfl, rfl⟩
    | error hp => exact ⟨rfl, hp, rfl, rfl, rfl, rfl, rfl, rfl⟩
  | elsewhere ask => exact ⟨rfl, hl.primary, rfl, rfl, rfl, rfl, rfl, rfl⟩

theorem ask_unwritten :
    Screening.Parallel (ask : Blacklist.Oracle (Mailroom σ)) (Unwritten owner h h') := by
  intro c s t hst
  obtain ⟨hreply, hlevel⟩ := hst.toLevel.ask (Primary.ask_same hst.primary s.now c)
  have hrest : Rests h s (ask c s).2 := rests_ask c (.refl hst.primary.rows.shows)
  have hrest' : Rests h' t (ask c t).2 := rests_ask c (.refl hst.primary.rows.shows')
  exact ⟨hreply, hst.of_rests hlevel.weaken hrest hrest'⟩

section Looking

variable (hu : Unwritten owner h h' room room')
include hu

theorem person_same (id missing : String) :
    Same (Unwritten owner h h') (person id missing) (person id missing) room room' := by
  refine Same.bind (hu.reading (Primary.findUser_same hu.primary id)) (fun found s t hst => ?_)
    fun _ _ h => h
  cases found with
  | none => exact .throw _ hst
  | some u => exact .pure u hst

theorem screen_same (subject content : String) (withdrawn : Bool) :
    Same (Unwritten owner h h') (screen subject content withdrawn)
      (screen subject content withdrawn) room room' := by
  refine screening_same hu.rules ?_
  obtain ⟨htags, hwithdrawn, hstate⟩ :=
    Screening.classify_parallel ask_unwritten hu room.rules subject content withdrawn
  exact ⟨by simp only [htags, hwithdrawn], hstate⟩

theorem spelling_same (name : String) :
    Same (Unwritten owner h h') (spelling owner name) (spelling owner name) room room' := by
  refine Alike.bind (hu.reading (Primary.findLabel_same hu.primary hu.orderly hu.orderly' name))
    (fun l s l' t hl => ?_) fun _ _ h => h
  obtain ⟨⟨rfl, -⟩, hst⟩ := hl
  exact .ok ⟨rfl, hst⟩

theorem tagOfText_same (text : String) :
    Same (Unwritten owner h h') (tagOfText owner text) (tagOfText owner text) room room' := by
  refine (Same.ofExcept _ hu).bind (fun t s s' hst => ?_) fun _ _ h => h
  cases t with
  | custom name => exact (spelling_same hst name).map Tag.custom
  | _ => exact .pure _ hst

theorem folderOfText_same (text : String) :
    Same (Unwritten owner h h') (folderOfText owner text) (folderOfText owner text) room room' := by
  refine (Same.ofExcept _ hu).bind (fun f s s' hst => ?_) fun _ _ h => h
  cases f with
  | custom name => exact (spelling_same hst name).map Folder.custom
  | _ => exact .pure _ hst

theorem ownMessage_looked (id : String) :
    Alike (fun m s m' t => (m = m' ∧ h.find? id = some m ∧ m.ownerId = owner) ∧
        Unwritten owner h h' s t) (Unwritten owner h h')
      (onPrimary (Primary.ownMessage id owner) room)
      (onPrimary (Primary.ownMessage id owner) room') :=
  hu.reading (Primary.ownMessage_same hu.primary hu.orderly hu.orderly' id)

theorem find_same (id : String) :
    Same (Unwritten owner h h') (onPrimary (Primary.ownMessage id owner))
      (onPrimary (Primary.ownMessage id owner)) room room' :=
  Alike.mono (ownMessage_looked hu id) (fun _ _ _ _ hm => ⟨hm.1.1, hm.2⟩) fun _ _ h => h

theorem messagesIn_looked (f : Folder) :
    Same (Unwritten owner h h') (onPrimary (Primary.messagesIn owner f))
      (onPrimary (Primary.messagesIn owner f)) room room' :=
  hu.reading (Primary.messagesIn_same hu.primary hu.orderly hu.orderly' f)

theorem list_same (folder : Option String) :
    Same (Unwritten owner h h') (list owner folder) (list owner folder) room room' :=
  (folderOfText_same hu _).bind (fun f _ _ hst => messagesIn_looked hst f) fun _ _ h => h

theorem search_looked (query : String) (f : Option Folder) :
    Same (Unwritten owner h h') (onPrimary (Primary.search owner query f))
      (onPrimary (Primary.search owner query f)) room room' :=
  hu.reading (Primary.search_same hu.primary hu.orderly hu.orderly' query f)

theorem search_same (query : String) :
    Same (Unwritten owner h h') (search owner query) (search owner query) room room' :=
  (Same.ofExcept _ hu).bind (fun text _ _ hst => search_looked hst text none) fun _ _ h => h

theorem searchIn_same (folder query : String) :
    Same (Unwritten owner h h') (searchIn owner folder query) (searchIn owner folder query)
      room room' :=
  (Same.ofExcept _ hu).bind (fun text _ _ hst => (folderOfText_same hst folder).bind
    (fun f _ _ hst => search_looked hst text (some f)) fun _ _ h => h) fun _ _ h => h

theorem labels_same :
    Same (Unwritten owner h h') (onPrimary (Primary.labelsOf owner))
      (onPrimary (Primary.labelsOf owner)) room room' :=
  hu.reading (Primary.labelsOf_same hu.primary hu.orderly hu.orderly')

theorem findLabel_same (id : String) :
    Same (Unwritten owner h h') (onPrimary (Primary.ownLabel id owner))
      (onPrimary (Primary.ownLabel id owner)) room room' :=
  Alike.mono (hu.reading (Primary.ownLabel_same hu.primary hu.orderly hu.orderly' id))
    (fun _ _ _ _ hl => ⟨hl.1.1, hl.2⟩) fun _ _ h => h

theorem readChange_same (read : Bool) (id : String) :
    Same (Unwritten owner h h') (readChange owner read id) (readChange owner read id)
      room room' := by
  refine (attempt_same (find_same hu id)).bind (fun r s t hst => ?_) fun _ _ h => h
  cases r with
  | ok m => exact .pure _ hst
  | error e =>
    cases e with
    | notFound what => exact .pure none hst
    | _ => exact .throw _ hst

theorem newMessage_same (src dest : User) (subject content ownerId : String) (tags : TagSet) :
    Alike (fun m s m' t => (m = m' ∧ m.id = room.idAt room.drawn ∧ m.ownerId = ownerId) ∧
        s = room.drawing 1 ∧ t = room'.drawing 1) (fun _ _ => False)
      (newMessage src dest subject content ownerId tags room)
      (newMessage src dest subject content ownerId tags room') := by
  refine .ok ⟨⟨?_, rfl, rfl⟩, rfl, rfl⟩
  rw [hu.idAt, hu.drawn, hu.now]

end Looking

section Writing

theorem retag_same (hw : Written owner room room') (m : Message) (tags : TagSet) :
    Same (Written owner) (retag m tags) (retag m tags) room room' :=
  (hw.writing (Primary.saveTags_same hw.primary _)).bind (fun _ _ _ hst => .pure _ hst)
    fun _ _ h => h

theorem retagSpam_same (hw : Written owner room room') (m : Message) (t : Screening.Toggled) :
    Same (Written owner) (retagSpam m t) (retagSpam m t) room room' :=
  (retag_same hw m t.tags).bind (fun _ _ _ hst => .pure _ hst) fun _ _ h => h

variable (hu : Unwritten owner h h' room room')
include hu

theorem enterLabel_same (text : String) :
    Alike (fun l s l' t => l = l' ∧ Written owner s t) (Unwritten owner h h')
      (enterLabel owner text room) (enterLabel owner text room') := by
  have hends : Same (Written owner) (enterLabel owner text) (enterLabel owner text) room room' := by
    refine (Same.ofExcept _ hu).bind (fun name s t hst => ?_) fun _ _ => Unwritten.weaken
    refine Alike.bind
      (hst.reading (Primary.findLabel_same hst.primary hst.orderly hst.orderly' name))
      (fun found s found' t hfound => ?_) fun _ _ => Unwritten.weaken
    obtain ⟨⟨rfl, -⟩, hst⟩ := hfound
    split
    · exact .error hst.weaken
    · have hlabel : (⟨t.idAt t.drawn, owner, name⟩ : Label) = ⟨s.idAt s.drawn, owner, name⟩ := by
        rw [hst.idAt, hst.drawn]
      have hfree : ∀ k ∈ h.labels, k.id ≠ s.idAt s.drawn := hst.unused.labels _ (Nat.le_refl _)
      have hfree' : ∀ k ∈ h'.labels, k.id ≠ s.idAt s.drawn := by
        rw [← hst.idAt, ← hst.drawn]
        exact hst.unused'.labels _ (Nat.le_refl _)
      have hinsert := (hst.drawing 1).toLevel.writing
        (Primary.insertLabel_same (l := ⟨s.idAt s.drawn, owner, name⟩) (hst.drawing 1).primary rfl
          hfree hfree')
      have hrest : Same (Written owner) (do
          onPrimary (Primary.insertLabel ⟨s.idAt s.drawn, owner, name⟩)
          return ⟨s.idAt s.drawn, owner, name⟩ : Action σ Label) (do
          onPrimary (Primary.insertLabel ⟨s.idAt s.drawn, owner, name⟩)
          return ⟨s.idAt s.drawn, owner, name⟩) (s.drawing 1) (t.drawing 1) :=
        hinsert.bind (fun _ _ _ hst => .pure _ hst) fun _ _ h => h
      refine Alike.bind (Q := fun i s₁ i' t₁ => (i = s.idAt s.drawn ∧ i' = s.idAt s.drawn) ∧
          s₁ = s.drawing 1 ∧ t₁ = t.drawing 1) (E := fun _ _ => False) (.ok ⟨⟨rfl, ?_⟩, rfl, rfl⟩)
        (fun i s₁ i' t₁ hi => ?_) fun _ _ h => h.elim
      · rw [hst.idAt, hst.drawn]
      · obtain ⟨⟨rfl, rfl⟩, rfl, rfl⟩ := hi
        exact hrest
  refine (Alike.both hends (enterLabel_ends hu.primary.rows.shows)
    (enterLabel_ends hu.primary.rows.shows')).mono (fun _ _ _ _ hl => hl.1) fun s t he => ?_
  obtain ⟨hw, -, hrest, hrest'⟩ := he
  exact hu.of_rests hw hrest hrest'

theorem ensureLabel_same (name : String) :
    Same (Written owner) (ensureLabel owner name) (ensureLabel owner name) room room' := by
  have hfind {s t : Mailroom σ} (hst : Unwritten owner h h' s t) :=
    hst.reading (Primary.findLabel_same hst.primary hst.orderly hst.orderly' name)
  refine Alike.bind (hfind hu) (fun found s found' t hfound => ?_) fun _ _ => Unwritten.weaken
  obtain ⟨⟨rfl, -⟩, hst⟩ := hfound
  cases found with
  | some l => exact .ok ⟨rfl, hst.weaken⟩
  | none =>
    refine Alike.bind (attempt_alike (S := Written owner) (enterLabel_same hst name))
      (fun r s r' t hr => ?_) fun _ _ h => h
    rcases hr with ⟨l, l', rfl, rfl, rfl, hst⟩ | ⟨e, rfl, rfl, hst⟩
    · exact .ok ⟨rfl, hst⟩
    · cases e with
      | conflict why =>
        refine Alike.bind (hfind hst) (fun found s found' t hfound => ?_)
          fun _ _ => Unwritten.weaken
        obtain ⟨⟨rfl, -⟩, hst⟩ := hfound
        cases found with
        | some l => exact .ok ⟨rfl, hst.weaken⟩
        | none => exact .error hst.weaken
      | _ => exact .error hst.weaken

theorem condemn_same (m : Message) :
    Same (Written owner) (condemn m) (condemn m) room room' :=
  Same.bind (screening_same hu.rules (Screening.condemn_parallel ask_unwritten hu room.rules m))
    (fun t _ _ hst => retagSpam_same hst.weaken m t) fun _ _ => Unwritten.weaken

theorem acquit_same (m : Message) :
    Same (Written owner) (acquit m) (acquit m) room room' := by
  obtain ⟨htoggled, hstate⟩ := Screening.acquit_parallel ask_unwritten hu room.rules m
  exact Same.bind (screening_same hu.rules ⟨congrArg Except.ok htoggled, hstate⟩)
    (fun t _ _ hst => retagSpam_same hst.weaken m t) fun _ _ => Unwritten.weaken

theorem flipSpam_same (id : String) :
    Same (Written owner) (flipSpam id owner) (flipSpam id owner) room room' :=
  (find_same hu id).bind (fun m _ _ hst => Same.bind
    (screening_same hst.rules (Screening.flipSpam_parallel ask_unwritten hst _ m))
    (fun t _ _ hst => retagSpam_same hst.weaken m t) fun _ _ => Unwritten.weaken)
    fun _ _ => Unwritten.weaken

theorem addTag_same (id text : String) :
    Same (Written owner) (addTag id owner text) (addTag id owner text) room room' := by
  refine (tagOfText_same hu text).bind (fun t s s' hs => ?_) fun _ _ => Unwritten.weaken
  refine (find_same hs id).bind (fun m s s' hs => ?_) fun _ _ => Unwritten.weaken
  have hstore (tags : TagSet) {s s' : Mailroom σ} (hs : Written owner s s') :
      Same (Written owner) (do return ⟨← retag m tags, true, []⟩ : Action σ Update)
        (do return ⟨← retag m tags, true, []⟩) s s' :=
    (retag_same hs m tags).bind (fun _ _ _ hst => .pure _ hst) fun _ _ h => h
  split
  · split
    · exact .pure _ hs.weaken
    · exact condemn_same hs m
  · refine (Same.ofExcept _ hs).bind (fun r s s' hs => ?_) fun _ _ => Unwritten.weaken
    obtain ⟨tags, changed⟩ := r
    cases changed with
    | false => exact .pure _ hs.weaken
    | true =>
      cases t with
      | custom name =>
        exact (ensureLabel_same hs name).discard.bind (fun _ _ _ hst => hstore tags hst)
          fun _ _ h => h
      | _ => exact hstore tags hs.weaken

theorem removeTag_same (id text : String) :
    Same (Written owner) (removeTag id owner text) (removeTag id owner text) room room' := by
  refine (tagOfText_same hu text).bind (fun t s s' hs => ?_) fun _ _ => Unwritten.weaken
  refine (find_same hs id).bind (fun m s s' hs => ?_) fun _ _ => Unwritten.weaken
  split
  · split
    · exact acquit_same hs m
    · exact .pure _ hs.weaken
  · rcases m.tags.remove t with ⟨tags, changed⟩
    cases changed with
    | false => exact .pure _ hs.weaken
    | true =>
      exact (retag_same hs.weaken m tags).bind (fun _ _ _ hst => .pure _ hst) fun _ _ h => h

/-- A query that starts from a message of the owner's and stores what it makes of it. -/
theorem changeOwn_same {f : Message → Primary.Query Message}
    (hf : ∀ m db db', m.id ∈ h.ids → m.id ∈ h'.ids → Paired (Abreast owner h h') db db' →
      Same (Paired (Primary.Rows.SameFor owner)) (f m) (f m) db db') :
    Same (Written owner) (onPrimary (Primary.ownMessage id owner >>= f))
      (onPrimary (Primary.ownMessage id owner >>= f)) room room' := by
  have hsame : h.SameFor owner h' := hu.primary.rows.holdings hu.orderly hu.orderly'
  refine hu.toLevel.writing (Alike.bind
    (Primary.ownMessage_same hu.primary hu.orderly hu.orderly' id)
    (fun m s m' t hm => ?_) fun _ _ => Abreast.weaken)
  obtain ⟨⟨rfl, hfind, howner⟩, hst⟩ := hm
  have hmem : m ∈ h.messages := (Holdings.mem_of_find? hfind).1
  exact hf m s t (Holdings.mem_ids.mpr ⟨m, hmem, rfl⟩)
    (Holdings.mem_ids.mpr ⟨m, (hsame.messages m howner).mp hmem, rfl⟩) hst

theorem flipStar_same (id : String) :
    Same (Written owner) (flipStar id owner) (flipStar id owner) room room' :=
  changeOwn_same hu fun _ _ _ _ _ hst => (Primary.saveTags_same (Abreast.weaken hst) _).bind
    (fun _ _ _ hst => .pure _ hst) fun _ _ h => h

theorem flipArchive_same (id : String) :
    Same (Written owner) (flipArchive id owner) (flipArchive id owner) room room' :=
  changeOwn_same hu fun _ _ _ _ _ hst => (Same.ofExcept _ (Abreast.weaken hst)).bind
    (fun _ _ _ hst => (Primary.saveTags_same hst _).bind (fun _ _ _ hst => .pure _ hst)
      fun _ _ h => h) fun _ _ h => h

theorem flipTrash_same (id : String) :
    Same (Written owner) (flipTrash id owner) (flipTrash id owner) room room' :=
  changeOwn_same hu fun _ _ _ _ _ hst => (Primary.saveTags_same (Abreast.weaken hst) _).bind
    (fun _ _ _ hst => .pure _ hst) fun _ _ h => h

theorem setRead_same (id : String) (read : Bool) :
    Same (Written owner) (setRead id owner read) (setRead id owner read) room room' := by
  refine changeOwn_same hu fun m db db' _ _ hst => ?_
  rcases m.setRead read with ⟨m, changed⟩
  cases changed with
  | true =>
    exact (Primary.saveTags_same (Abreast.weaken hst) m).bind (fun _ _ _ hst => .pure _ hst)
      fun _ _ h => h
  | false => exact .pure _ (Abreast.weaken hst)

theorem changeDraft_same (id : String) (e : DraftEdit) :
    Same (Written owner) (changeDraft owner id e) (changeDraft owner id e) room room' := by
  refine changeOwn_same hu fun m db db' hid hid' hst => ?_
  split
  · exact .error (Abreast.weaken hst)
  · let draft : Message :=
      { m with subject := edited m.subject e.subject, content := edited m.content e.content }
    exact Same.bind (Primary.saveContent_same (m := draft) hst hid hid')
      (fun _ _ _ hst => .pure draft hst) fun _ _ h => h

theorem delete_same (id : String) :
    Same (Written owner) (onPrimary (Primary.deleteOwn id owner))
      (onPrimary (Primary.deleteOwn id owner)) room room' :=
  hu.toLevel.writing (Primary.deleteOwn_same (Abreast.weaken hu.primary) id)

theorem setReadMany_same (ids : List String) (read : Bool) :
    Same (Written owner) (setReadMany owner ids read) (setReadMany owner ids read) room room' :=
  (Same.mapM (fun id _ _ hst => readChange_same hst read id) ids hu).bind
    (fun _ _ _ hst => Same.bind
      (hst.toLevel.writing (Primary.saveAllTags_same (Abreast.weaken hst.primary) _))
      (fun _ _ _ hst => .pure _ hst) fun _ _ h => h) fun _ _ => Unwritten.weaken

theorem setAllRead_same :
    Same (Written owner) (setAllRead owner) (setAllRead owner) room room' :=
  Same.bind (hu.reading (Primary.messagesOf_same hu.primary hu.orderly hu.orderly'))
    (fun ms _ _ hst => setReadMany_same hst (ms.map Message.id) true) fun _ _ => Unwritten.weaken

theorem renameTag_same (id text : String) :
    Same (Written owner) (renameTag id owner text) (renameTag id owner text) room room' :=
  hu.toLevel.writing ((Primary.discard_select_same hu.primary _).bind
    (fun _ _ _ hst => Primary.renameLabel_same hst hu.orderly hu.orderly' id text)
    fun _ _ => Abreast.weaken)

theorem deleteTag_same (id : String) :
    Same (Written owner) (deleteTag id owner) (deleteTag id owner) room room' :=
  hu.toLevel.writing ((Primary.discard_select_same hu.primary _).bind
    (fun _ _ _ hst => Primary.deleteLabel_same hst hu.orderly hu.orderly' id)
    fun _ _ => Abreast.weaken)

/-- Both copies get the next ids of the supply, which are new in both mailrooms. -/
theorem deliver_same (src dest : User) (subject content : String) (tags : TagSet) :
    Same (Written owner) (deliver src dest subject content tags)
      (deliver src dest subject content tags) room room' := by
  refine Alike.bind (newMessage_same hu src dest subject content dest.id tags)
    (fun m s m' t hm => ?_) fun _ _ he => he.elim
  obtain ⟨⟨rfl, hid, -⟩, rfl, rfl⟩ := hm
  let copy : Message :=
    { m with id := room.idAt (room.drawn + 1), ownerId := src.id, tags := .ofList [.sent] }
  have hu₂ : Unwritten owner h h' (room.drawing 2) (room'.drawing 2) := hu.drawing 2
  have hfirst : m.id ∉ h.ids := hid ▸ hu.unused.messages _ (Nat.le_refl _)
  have hfirst' : m.id ∉ h'.ids := by
    rw [hid, ← hu.idAt, ← hu.drawn]
    exact hu.unused'.messages _ (Nat.le_refl _)
  have hsecond : copy.id ∉ h.ids := hu.unused.messages _ (Nat.le_succ _)
  have hsecond' : copy.id ∉ h'.ids := by
    change room.idAt (room.drawn + 1) ∉ h'.ids
    rw [← hu.idAt, ← hu.drawn]
    exact hu.unused'.messages _ (Nat.le_succ _)
  have hne : m.id ≠ copy.id := fun heq =>
    Nat.succ_ne_self room.drawn (hu.supply.injective (hid.symm.trans heq)).symm
  have hrest : Same (Written owner) (do
      onPrimary (Primary.insertPair copy m)
      refreshAll [copy, m]
      return ⟨copy, m⟩ : Action σ Delivery) (do
      onPrimary (Primary.insertPair copy m)
      refreshAll [copy, m]
      return ⟨copy, m⟩) (room.drawing 2) (room'.drawing 2) :=
    (hu₂.toLevel.writing (Primary.insertPair_same hu₂.primary hsecond hsecond' hfirst hfirst'
      hne)).bind (fun _ _ _ hst => (refreshAll_same hst _).bind (fun _ _ _ hst => .pure _ hst)
        fun _ _ h => h) fun _ _ h => h
  refine Alike.bind (Q := fun i s i' t => (i = room.idAt (room.drawn + 1) ∧ i' = i) ∧
      s = room.drawing 2 ∧ t = room'.drawing 2) (E := fun _ _ => False) (.ok ⟨⟨rfl, ?_⟩, rfl, rfl⟩)
    (fun i s i' t hi => ?_) fun _ _ he => he.elim
  · change room'.idAt (room'.drawn + 1) = room.idAt (room.drawn + 1)
    rw [hu.idAt, hu.drawn]
  · obtain ⟨⟨rfl, rfl⟩, rfl, rfl⟩ := hi
    exact hrest

theorem send_same (c : Compose) (withdrawn : Bool) :
    Same (Written owner) (send owner c withdrawn) (send owner c withdrawn) room room' := by
  refine (Same.ofExcept _ hu).bind (fun name s t hst => ?_) fun _ _ => Unwritten.weaken
  refine (Same.ofExcept _ hst).bind (fun subject s t hst => ?_) fun _ _ => Unwritten.weaken
  refine (Same.ofExcept _ hst).bind (fun content s t hst => ?_) fun _ _ => Unwritten.weaken
  refine (person_same hst owner _).bind (fun src s t hst => ?_) fun _ _ => Unwritten.weaken
  refine (person_same hst name _).bind (fun dest s t hst => ?_) fun _ _ => Unwritten.weaken
  exact (screen_same hst subject content withdrawn).bind
    (fun tags _ _ hst => deliver_same hst src dest subject content tags) fun _ _ => Unwritten.weaken

theorem saveDraft_same (c : Compose) :
    Same (Written owner) (saveDraft owner c) (saveDraft owner c) room room' := by
  unfold saveDraft
  split
  · exact .throw _ hu.weaken
  · refine (Same.ofExcept _ hu).bind (fun name s t hst => ?_) fun _ _ => Unwritten.weaken
    refine (person_same hst owner _).bind (fun src s t hst => ?_) fun _ _ => Unwritten.weaken
    refine (person_same hst name _).bind (fun dest s t hst => ?_) fun _ _ => Unwritten.weaken
    refine Alike.bind (newMessage_same hst _ _ _ _ _ _) (fun m s' m' t' hm => ?_)
      fun _ _ he => he.elim
    obtain ⟨⟨rfl, hid, -⟩, rfl, rfl⟩ := hm
    have hnew : m.id ∉ h.ids := hid ▸ hst.unused.messages _ (Nat.le_refl _)
    have hnew' : m.id ∉ h'.ids := by
      rw [hid, ← hst.idAt, ← hst.drawn]
      exact hst.unused'.messages _ (Nat.le_refl _)
    exact Same.bind ((hst.drawing 1).toLevel.writing
      (Primary.insertMessage_same (hst.drawing 1).primary hnew hnew'))
      (fun _ _ _ hst => (refreshQuietly_same hst m.id).bind (fun _ _ _ hst => .pure m hst)
        fun _ _ h => h) fun _ _ h => h

theorem sweepTrash_same :
    Same (Written owner) (sweepTrash owner) (sweepTrash owner) room room' :=
  hu.toLevel.writing ((Primary.trashedIds_same hu.primary hu.orderly hu.orderly').bind
    (fun ids _ _ hst => Primary.deleteTrashed_same hst hu.orderly hu.orderly' ids)
    fun _ _ => Abreast.weaken)

end Writing

end LabelMail.Mailroom
