import LabelMail.Proofs.Addresses
import LabelMail.Proofs.Mailroom.Sparing
import LabelMail.Proofs.Primary.Listings

/-!
What stays on the blacklist that the primary store keeps itself. An address that is listed stays so
until a call removes it or a message that contains it is taken out of spam; no other operation
touches the blacklist except to add to it.
-/
namespace LabelMail.Mailroom

open Request (Compose DraftEdit LabelChange)

variable {σ α β : Type} {room mid room' : Mailroom σ} {url other : String}

/-- The primary store keeps the blacklist itself and has the address on it. -/
structure Lists (url : String) (room : Mailroom σ) : Prop where
  own : room.keeping = .own
  listed : room.primary.rows.Lists url

/-- An action after which the address is still listed. -/
def Keeps (url : String) (a : Action σ α) : Prop :=
  ∀ room, Lists url room → Ends (a room) (fun _ room' => Lists url room')
    (fun _ room' => Lists url room')

theorem SparedTables.lists (h : SparedTables room room') (hl : Lists url room) :
    Lists url room' := by
  obtain ⟨table, htable, hlisted⟩ := hl.listed
  exact ⟨h.keeping.trans hl.own, table, h.primary.blacklist.trans htable, hlisted⟩

theorem Trails.lists (h : room.Trails room') (hl : Lists url room) : Lists url room' :=
  h.spared.lists hl

theorem Sparing.keeps {a : Action σ α} (ha : Sparing a) : Keeps url a := fun room hl =>
  (ha room).mono (fun _ _ h => h.lists hl) fun _ _ h => h.lists hl

theorem Keeps.bind {a : Action σ α} {f : α → Action σ β} (ha : Keeps url a)
    (hf : ∀ x, Keeps url (f x)) : Keeps url (a >>= f) := fun room hl =>
  Ends.bind (ha room hl) (fun x mid hmid => hf x mid hmid) fun _ _ h => h

/-- What the store's own blacklist answers, at once, and what it is then. -/
theorem ask_own {c : Blacklist.Call} {Q : Bool → Primary.Store → Prop}
    {E : Failure → Primary.Store → Prop} (hown : room.keeping = .own)
    (h : Ends (Primary.ask room.now c room.primary) Q E) :
    ∃ answer db, ask c room = (.atOnce answer, { room with primary := db }) ∧
      (∀ b, answer = .ok b → Q b db) ∧ ∀ e, answer = .error e → E e db := by
  unfold ask
  rw [hown]
  cases hr : Primary.ask room.now c room.primary with
  | ok b db =>
    refine ⟨.ok b, db, rfl, fun b' hb => ?_, fun _ he => by cases he⟩
    cases hb
    exact h.ok b db hr
  | error e db =>
    refine ⟨.error e, db, rfl, fun _ hb => (by cases hb), fun e' he => ?_⟩
    cases he
    exact h.error e db hr

theorem Lists.of_ask {c : Blacklist.Call} (hl : Lists url room)
    (h : Ends (Primary.ask room.now c room.primary) (fun _ db => db.rows.Lists url)
      (fun _ db => db.rows.Lists url)) : Lists url (ask c room).2 := by
  obtain ⟨answer, db, hask, hok, herror⟩ := ask_own hl.own h
  rw [hask]
  cases answer with
  | ok b => exact ⟨hl.own, hok b rfl⟩
  | error e => exact ⟨hl.own, herror e rfl⟩

theorem Lists.add (hl : Lists url room) : Lists url (ask ⟨.add, other⟩ room).2 :=
  hl.of_ask hl.listed.add

theorem Lists.remove (hl : Lists url room) (hother : Url.accepted other ≠ .ok url) :
    Lists url (ask ⟨.remove, other⟩ room).2 :=
  hl.of_ask (hl.listed.remove hother)

theorem Lists.lookup (hl : Lists url room) : Lists url (ask ⟨.lookup, other⟩ room).2 := by
  refine hl.of_ask ((Primary.looks_lookup room.now other room.primary).mono ?_ ?_)
  all_goals
    intro _ db hi
    exact hi.rows ▸ hl.listed

theorem keeps_screening {f : Blacklist.Oracle (Mailroom σ) → Screening.Rules → Mailroom σ →
      Except Failure α × Mailroom σ}
    (hf : ∀ room, Lists url room → Lists url (f ask room.rules room).2) :
    Keeps url (screening f) := fun room hl =>
  screening_leaves (hf room hl)

theorem keeps_condemn (m : Message) : Keeps url (condemn m : Action σ Update) := by
  have hscreen : Keeps url
      (screening fun ask rules => Screening.condemn ask rules m : Action σ Screening.Toggled) :=
    keeps_screening fun _ hl => Screening.condemn_keeps (fun _ _ h => h.add) hl
  exact hscreen.bind fun t => (sparing_retagSpam m t).keeps

/-- The removal of other addresses. -/
theorem lists_of_remove {urls : List String} (hurl : ∀ u ∈ urls, Url.accepted u ≠ .ok url) :
    ∀ u ∈ urls, ∀ room : Mailroom σ, Lists url room → Lists url (ask ⟨.remove, u⟩ room).2 :=
  fun u hu _ hl => hl.remove (hurl u hu)

theorem not_accepted {text : String} (h : url ∉ Url.inText text) :
    ∀ u ∈ Url.inText text, Url.accepted u ≠ .ok url := by
  intro u hu haccepted
  rw [Url.accepted_of_mem_inText hu] at haccepted
  exact h (Except.ok.inj haccepted ▸ hu)

theorem keeps_acquit {m : Message} (hm : url ∉ Url.inText m.text) :
    Keeps url (acquit m : Action σ Update) := by
  refine Keeps.bind (keeps_screening fun room hl => ?_) fun t => (sparing_retagSpam m t).keeps
  exact Screening.acquit_keeps (lists_of_remove (not_accepted hm)) hl

theorem keeps_addTag (id owner text : String) :
    Keeps url (addTag id owner text : Action σ Update) := by
  refine (sparing_tagOfText owner text).keeps.bind fun t =>
    (sparing_looking (Primary.looks_ownMessage id owner)).keeps.bind fun m => ?_
  split
  · split
    · exact (sparing_pure _).keeps
    · exact keeps_condemn m
  · exact (sparing_tagWith m t owner).keeps

/-- The message of that id is the caller's, lies in spam and contains the address. -/
def InSpam (h : Holdings) (caller id url : String) : Prop :=
  ∃ m, h.find? id = some m ∧ m.ownerId = caller ∧ .spam ∈ m.tags ∧ url ∈ Url.inText m.text

variable {h : Holdings} {caller id : String}

theorem flipSpam_lists (hs : room.primary.rows.Shows h) (ho : h.Orderly) (hl : Lists url room)
    (hapart : ¬ InSpam h caller id url) :
    Ends (flipSpam id caller room) (fun _ room' => Lists url room')
      (fun _ room' => Lists url room') := by
  refine ((ownMessage_rests hs ho).both
    ((sparing_looking (Primary.looks_ownMessage id caller)).keeps room hl)).bind
    (fun m mid hm => ?_) fun _ _ h => h.2
  obtain ⟨⟨hfind, howner, -⟩, hmid⟩ := hm
  have hscreen : Keeps url
      (screening fun ask rules => Screening.flipSpam ask rules m : Action σ Screening.Toggled) := by
    refine keeps_screening fun _ hl => Screening.flipSpam_keeps (fun _ _ h => h.add)
      (fun hspam => lists_of_remove (not_accepted fun hurl => ?_)) hl
    exact hapart ⟨m, hfind, howner, TagSet.isSpam_eq_true.mp hspam, hurl⟩
  exact (hscreen.bind fun t => (sparing_retagSpam m t).keeps) mid hmid

/-- Only a text that names spam is read as the tag of that name. -/
theorem tagOfText_spam (owner text : String) :
    Ends (tagOfText owner text room)
      (fun t _ => t = .spam → Tag.ofName text = .ok .spam) (fun _ _ => True) := by
  unfold tagOfText
  cases hname : Tag.ofName text with
  | error e => exact .of_error trivial
  | ok t =>
    cases t with
    | custom name =>
      refine Ends.bind (Q := fun t mid => t = .custom name ∧ mid = room)
        (.of_ok ⟨rfl, rfl⟩) (fun t mid ht => ?_) fun _ _ h => h
      obtain ⟨rfl, rfl⟩ := ht
      have hlook : Ends (spelling owner name mid) (fun _ _ => True) (fun _ _ => True) :=
        ⟨fun _ _ _ => trivial, fun _ _ _ => trivial⟩
      exact Ends.map (hlook.mono (fun _ _ _ hspam => by cases hspam) fun _ _ h => h)
    | _ => exact .of_ok fun hspam => by cases hspam <;> rfl

theorem removeTag_lists {text : String} (hs : room.primary.rows.Shows h) (ho : h.Orderly)
    (hl : Lists url room) (hapart : Tag.ofName text = .ok .spam → ¬ InSpam h caller id url) :
    Ends (removeTag id caller text room) (fun _ room' => Lists url room')
      (fun _ room' => Lists url room') := by
  refine (((tagOfText_ends hs ho).both (tagOfText_spam caller text)).both
    ((sparing_tagOfText caller text).keeps room hl)).bind (fun t mid ht => ?_) fun _ _ h => h.2
  obtain ⟨⟨⟨-, hrest⟩, hspam⟩, hmid⟩ := ht
  refine ((ownMessage_rests hrest.shows ho).both
    ((sparing_looking (Primary.looks_ownMessage id caller)).keeps mid hmid)).bind
    (fun m mid' hm => ?_) fun _ _ h => h.2
  obtain ⟨⟨hfind, howner, -⟩, hmid'⟩ := hm
  split
  · next htag =>
    split
    · next hisSpam =>
      refine keeps_acquit (fun hurl => ?_) mid' hmid'
      exact hapart (hspam htag) ⟨m, hfind, howner, TagSet.isSpam_eq_true.mp hisSpam, hurl⟩
    · exact .of_ok hmid'
  · exact (sparing_untag m t).keeps mid' hmid'

theorem required_eq_ok {field text : String} {value : Option String}
    (h : required field value = .ok text) :
    ∃ s, value = some s ∧ text = Text.trim s := by
  unfold required at h
  cases value with
  | none => cases h
  | some s =>
    dsimp only [Option.map_some] at h
    split at h
    · cases h
    · exact ⟨s, rfl, (Except.ok.inj h).symm⟩

theorem changeLabel_lists (hs : room.primary.rows.Shows h) (ho : h.Orderly) (hl : Lists url room)
    (c : LabelChange) (hapart : c.action = .remove →
      (∃ label, c.label = some label ∧ Tag.ofName label = .ok .spam) → ¬ InSpam h caller id url) :
    Ends (changeLabel caller id c room) (fun _ room' => Lists url room')
      (fun _ room' => Lists url room') := by
  refine .after_ofExcept (fun text htext => ?_) fun _ => hl
  cases haction : c.action with
  | add =>
    exact ((keeps_addTag id caller text).bind fun u => (sparing_finish id u).keeps) room hl
  | remove =>
    refine (removeTag_lists hs ho hl fun hspam => hapart haction ?_).bind
      (fun u mid hmid => (sparing_finish id u).keeps mid hmid) fun _ _ h => h
    obtain ⟨label, hlabel, rfl⟩ := required_eq_ok htext
    refine ⟨label, hlabel, ?_⟩
    rwa [Tag.ofName, Text.trim_trim] at hspam

/-- The call takes the address from the blacklist, directly or by taking a message out of spam that
contains it. -/
def Unlists (url : String) (room : Mailroom σ) (e : Event) : Prop :=
  match e.operation with
  | .unblacklist other => Url.accepted other = .ok url
  | .flipSpam id => InSpam room.holdings e.caller id url
  | .changeLabel id c => c.action = .remove ∧
      (∃ label, c.label = some label ∧ Tag.ofName label = .ok .spam) ∧
      InSpam room.holdings e.caller id url
  | _ => False

theorem Lists.step (ho : room.Orderly) (hl : Lists url room) {e : Event}
    (he : ¬ Unlists url room e) : Lists url (room.step e) := by
  obtain ⟨caller, now, op⟩ := e
  have hl : Lists url (room.atTime now) := ⟨hl.own, hl.listed⟩
  have hs : (room.atTime now).primary.rows.Shows room.holdings := ho.shows
  have hends : Ends (perform caller op (room.atTime now)) (fun _ room' => Lists url room')
      (fun _ room' => Lists url room') := by
    by_cases hop : op.MayList
    · cases op with
      | changeLabel id c =>
        refine Ends.map (changeLabel_lists hs ho.holdings hl c fun hremove hspam hin => ?_)
        exact he ⟨hremove, hspam, hin⟩
      | flipSpam id =>
        refine Ends.map ((flipSpam_lists hs ho.holdings hl he).bind (fun u mid hmid => ?_)
          fun _ _ h => h)
        exact (sparing_refreshed id u).keeps mid hmid
      | blacklist url' =>
        exact Ends.map (.after_ofExcept (fun _ _ => call_leaves hl.add) fun _ => hl)
      | unblacklist other => exact Ends.map (call_leaves (hl.remove he))
      | _ => exact absurd hop id
    · exact (perform_sparing caller hop).keeps _ hl
  obtain ⟨hok, herror⟩ := step_of_ends (e := ⟨caller, now, op⟩) hends
  cases ho : room.outcome ⟨caller, now, op⟩ with
  | some o => exact hok o ho
  | none => exact (herror ho).elim fun _ h => h

/-- A listed address stays listed over a run that never takes it from the blacklist. -/
theorem Lists.after (ho : room.Orderly) (hl : Lists url room) {events : List Event}
    (he : ∀ before e later, events = before ++ e :: later → ¬ Unlists url (room.after before) e) :
    Lists url (room.after events) := by
  induction events generalizing room with
  | nil => exact hl
  | cons e events ih =>
    refine ih (ho.step e) (hl.step ho (he [] e events rfl)) fun before e' later heq => ?_
    exact he (e :: before) e' later (by rw [heq, List.cons_append])

end LabelMail.Mailroom
