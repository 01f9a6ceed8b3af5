import LabelMail.Proofs.Addresses
import LabelMail.Proofs.Mailroom.Intact
import LabelMail.Proofs.Mailroom.Labelling
import LabelMail.Proofs.Primary.Sparing
import LabelMail.Proofs.SpamMarking

/-!
Messages that the mailroom marks as spam or takes out of it. What the screening found for a message
is stored and returned if anything is, and the addresses are listed or gone as the screening says.
Where nothing is stored, the message could not be looked up, its listing broke off, or the database
refused its new tags.
-/
namespace LabelMail

namespace Blacklist

variable {τ τ' : Type} {ask : Oracle τ} {ask' : Oracle τ'} {listed : τ → List String}
variable {listed' : τ' → List String} {a : Asked τ} {a' : Asked τ'}

/-- A call that is handed on to another blacklist is heeded if it is heeded there. -/
theorem Asked.Heeded.handed_on (h : a.Heeded ask listed) (hcall : a'.call = a.call)
    (hleft : a'.left = a.left) (hreply : a'.reply ask' = a.reply ask)
    (hbefore : listed' a'.state = listed a.state)
    (hafter : listed' (a'.after ask') = listed (a.after ask)) : a'.Heeded ask' listed' := by
  have hresult : a'.result ask' = a.result ask := by
    rw [result, result, hreply, hleft]
  have hthrough : a'.Through ask' ↔ a.Through ask := by
    rw [Through, Through, hresult]
  constructor
  · intro b hb
    rw [hcall, hbefore]
    exact h.answer b (hresult ▸ hb)
  · intro hgone u
    rw [hcall, hbefore, hafter]
    exact h.done (hthrough.mp hgone) u
  · intro hnot u
    rw [hbefore, hafter]
    exact h.spared (fun hgone => hnot (hthrough.mpr hgone)) u

end Blacklist

namespace Screening

open Blacklist

variable {τ : Type} {ask : Oracle τ} {listed : τ → List String} {rules : Rules} {m : Message}
variable {s r r' : τ} {t : Toggled}

theorem Marked.of_same (h : Marked ask listed rules m s r t) (hsame : listed r' = listed r) :
    Marked ask listed rules m s r' t :=
  { h with grown := fun u => by rw [hsame, h.grown] }

theorem Unmarked.of_same (h : Unmarked ask listed rules m s r t) (hsame : listed r' = listed r) :
    Unmarked ask listed rules m s r' t :=
  { h with left := fun u => by rw [hsame, h.left] }

end Screening

/-- A blacklist that is kept elsewhere heeds its calls; that of the store does anyway. -/
def Keeping.Heedful {σ : Type} (keeping : Keeping σ) (elsewhere : σ → List String) : Prop :=
  ∀ ask, keeping = .elsewhere ask → ∀ a : Blacklist.Asked σ, a.Heeded ask elsewhere

namespace Mailroom

open Blacklist Screening

variable {σ : Type} {elsewhere : σ → List String} {start room mid room' : Mailroom σ}
variable {h : Holdings} {m x : Message} {t : Toggled} {u : Update} {id owner text : String}

/-- The addresses on the blacklist, wherever it is kept. -/
def listedUrls (elsewhere : σ → List String) (room : Mailroom σ) : List String :=
  match room.keeping with
  | .own => Primary.listedUrls room.primary
  | .elsewhere _ => elsewhere room.outside

theorem ask_own_eq (c : Blacklist.Call) (hown : room.keeping = .own) :
    ask c room = ((Primary.asOracle room.now c room.primary).1,
      { room with primary := (Primary.asOracle room.now c room.primary).2 }) := by
  unfold ask Primary.asOracle
  rw [hown]
  cases Primary.ask room.now c room.primary <;> rfl

theorem ask_elsewhere_eq {other : Oracle σ} (c : Blacklist.Call)
    (helsewhere : room.keeping = .elsewhere other) :
    ask c room = ((other c room.outside).1,
      { room with outside := (other c room.outside).2 }) := by
  unfold ask
  rw [helsewhere]

/-- The mailroom heeds the calls for addresses in order. -/
theorem ask_heeded {a : Asked (Mailroom σ)} (hheedful : a.state.keeping.Heedful elsewhere)
    (hurl : Url.accepted a.call.url = .ok a.call.url) : a.Heeded ask (listedUrls elsewhere) := by
  obtain ⟨c, left, room⟩ := a
  dsimp only at hheedful hurl
  cases hkeeping : room.keeping with
  | own =>
    let here : Asked Primary.Store := ⟨c, left, room.primary⟩
    have hhere : here.Heeded (Primary.asOracle room.now) Primary.listedUrls :=
      Primary.asOracle_heeds hurl
    have hasked := ask_own_eq c hkeeping
    refine hhere.handed_on rfl rfl ?_ ?_ ?_
    · rw [Asked.reply, hasked, Asked.reply]
    · rw [listedUrls, hkeeping]
    · rw [Asked.after, hasked, listedUrls, Asked.after]
      simp only [hkeeping, here]
  | elsewhere other =>
    let there : Asked σ := ⟨c, left, room.outside⟩
    have hthere : there.Heeded other elsewhere := hheedful other hkeeping there
    have hasked := ask_elsewhere_eq c hkeeping
    refine hthere.handed_on rfl rfl ?_ ?_ ?_
    · rw [Asked.reply, hasked, Asked.reply]
    · rw [listedUrls, hkeeping]
    · rw [Asked.after, hasked, listedUrls, Asked.after]
      simp only [hkeeping, there]

theorem heeds_markings (room : Mailroom σ) (hheedful : room.keeping.Heedful elsewhere) :
    ∀ a ∈ markings ask room.rules m room, a.Heeded ask (listedUrls elsewhere) := by
  intro a ha
  obtain ⟨hurl, hkeeping⟩ := mem_listings (I := fun r => r.keeping = room.keeping)
    (fun c s hs => (keeping_ask c s).trans hs) rfl ha
  exact ask_heeded (hkeeping ▸ hheedful) (Url.accepted_of_mem_inText hurl)

theorem heeds_unmarkings (room : Mailroom σ) (hheedful : room.keeping.Heedful elsewhere) :
    ∀ a ∈ unmarkings ask room.rules m room, a.Heeded ask (listedUrls elsewhere) := by
  intro a ha
  obtain ⟨hurl, hkeeping⟩ := mem_removals (I := fun r => r.keeping = room.keeping)
    (fun c s hs => (keeping_ask c s).trans hs) rfl ha
  exact ask_heeded (hkeeping ▸ hheedful) (Url.accepted_of_mem_inText hurl)

/-- What the screening found for a message is stored in its place and returned. -/
structure Retags (room : Mailroom σ) (m : Message) (t : Toggled) (u : Update)
    (room' : Mailroom σ) : Prop where
  message : u.message = (m.withTags t.tags).withFlagsOfTags
  changed : u.changed = true
  effects : u.effects = t.effects
  holdings : room'.holdings = room.holdings.put u.message

/-- The owner's message of that id. -/
def Has (room : Mailroom σ) (owner id : String) (m : Message) : Prop :=
  room.holdings.find? id = some m ∧ m.ownerId = owner

/-- After a look into the store the message was marked as spam and is stored so. -/
def Condemns (room : Mailroom σ) (elsewhere : σ → List String) (m : Message) (u : Update)
    (room' : Mailroom σ) : Prop :=
  ∃ t before, Looked room before ∧
    Marked ask (listedUrls elsewhere) room.rules m before room' t ∧ Retags room m t u room'

/-- After a look into the store the message was taken out of spam and is stored so. -/
def Acquits (room : Mailroom σ) (elsewhere : σ → List String) (m : Message) (u : Update)
    (room' : Mailroom σ) : Prop :=
  ∃ t before, Looked room before ∧
    Unmarked ask (listedUrls elsewhere) room.rules m before room' t ∧ Retags room m t u room'

/-- The message is where it is to go, and the store was only looked at. -/
def Stays (room : Mailroom σ) (m : Message) (u : Update) (room' : Mailroom σ) : Prop :=
  u = ⟨m, false, []⟩ ∧ Looked room room'

/-- Why a message did not get into spam or out of it, and what has become of the blacklist. -/
inductive Fails (room : Mailroom σ) (elsewhere : σ → List String) (owner id : String)
    (e : Failure) (room' : Mailroom σ) : Prop
  | looking (hlooked : Looked room room')
  | listing {m : Message} {before : Mailroom σ} {k : Nat} (hhas : Has room owner id m)
      (hlooked : Looked room before)
      (hbroken : BrokenOff ask (listedUrls elsewhere) (lateListing room.rules.budget)
        (Url.inText m.text) (markings ask room.rules m before) before room' e k)
  | storing {m : Message} {before : Mailroom σ} {t : Toggled} (hhas : Has room owner id m)
      (hlooked : Looked room before)
      (hdone : Marked ask (listedUrls elsewhere) room.rules m before room' t ∨
        Unmarked ask (listedUrls elsewhere) room.rules m before room' t)
      (hunsound : ¬ room.primary.Sound)

theorem ownMessage_has (ho : room.Orderly) :
    Ends (onPrimary (Primary.ownMessage id owner) room)
      (fun m mid => Has room owner id m ∧ Looked room mid) (fun _ mid => Looked room mid) := by
  refine (onPrimary_ends room (Primary.ownMessage_ends ho.shows ho.holdings)).mono ?_ ?_
  · rintro m _ ⟨db, ⟨hfound, howner, hi⟩, rfl⟩
    exact ⟨⟨hfound, howner⟩, db, hi, rfl⟩
  · rintro _ _ ⟨db, ⟨hi, -⟩, rfl⟩
    exact ⟨db, hi, rfl⟩

/-- One statement stores the tags, and the blacklist is not touched any more. -/
theorem retagSpam_stores (elsewhere : σ → List String) (ho : room.Orderly)
    (hhas : Has room owner id m) (hrest : Rests room.holdings room mid)
    (hedit : m.Edit room.holdings.labels (m.withTags t.tags).withFlagsOfTags) :
    Ends (retagSpam m t mid)
      (fun u room' => Retags room m t u room' ∧
        listedUrls elsewhere room' = listedUrls elsewhere mid)
      (fun _ room' => listedUrls elsewhere room' = listedUrls elsewhere mid ∧
        ¬ room.primary.Sound) := by
  obtain ⟨hfound, -⟩ := hhas
  let m' := (m.withTags t.tags).withFlagsOfTags
  have hsave := (Primary.saveTags_ends (m := m') hrest.shows
    (canRetag_of_find? ho.holdings hfound rfl)).both (Primary.sparing_saveTags m' mid.primary)
  have hlisted {db : Primary.Store} (hsame : db.rows.blacklist = mid.primary.rows.blacklist) :
      listedUrls elsewhere { mid with primary := db } = listedUrls elsewhere mid := by
    unfold listedUrls Primary.listedUrls
    rw [hsame]
  have hretag : Ends (retag m t.tags mid)
      (fun r room' => r = m' ∧ room'.holdings = room.holdings.put m' ∧
        listedUrls elsewhere room' = listedUrls elsewhere mid)
      (fun _ room' => listedUrls elsewhere room' = listedUrls elsewhere mid ∧
        ¬ room.primary.Sound) := by
    refine (onPrimary_ends mid hsave).bind (fun _ room' hr => ?_) ?_
    · obtain ⟨db, ⟨⟨hs, -⟩, hspared⟩, rfl⟩ := hr
      have hfits : room.holdings.Fits m.ownerId (fun _ => True) (.alter m') :=
        ⟨m, (Holdings.mem_of_find? hfound).1, rfl, hedit⟩
      exact .of_ok ⟨rfl, holdings_eq hs (ho.holdings.alter hfits), hlisted hspared.blacklist⟩
    · rintro _ _ ⟨db, ⟨⟨-, hunsound⟩, hspared⟩, rfl⟩
      exact ⟨hlisted hspared.blacklist, fun hsound => hunsound (hrest.sound hsound)⟩
  refine hretag.bind (fun r room' hr => ?_) fun _ _ he => he
  obtain ⟨rfl, hholdings, hsame⟩ := hr
  exact .of_ok ⟨⟨rfl, rfl, rfl, hholdings⟩, hsame⟩

/-- Marking a message that was just looked up. -/
theorem condemn_changes (ho : room.Orderly) (hheedful : room.keeping.Heedful elsewhere)
    (hhas : Has room owner id m) (hlooked : Looked room mid) :
    Ends (condemn m mid) (fun u room' => Condemns room elsewhere m u room')
      (fun e room' => Fails room elsewhere owner id e room') := by
  obtain ⟨db, hi, rfl⟩ := hlooked
  let mid : Mailroom σ := { room with primary := db }
  have hlooked : Looked room mid := ⟨db, hi, rfl⟩
  have hcourse := condemn_course (heeds_markings (m := m) mid hheedful)
  have hrest : Rests room.holdings room (Screening.condemn ask mid.rules m mid).2 :=
    Screening.condemn_keeps (fun _ _ => rests_ask _) (rests_primary ho.shows hi)
  refine (screening_answered (Q := fun t after => Rests room.holdings room after ∧
    t.tags = m.tags.intoSpam.1 ∧ Marked ask (listedUrls elsewhere) room.rules m mid after t)
    (E := fun e after => Fails room elsewhere owner id e after) (fun t ht => ?_)
    (fun e he => ?_)).bind (fun t after ht => ?_) fun _ _ he => he
  · rcases hcourse with ⟨t', ht', hmarked⟩ | ⟨e, k, he, -⟩
    · obtain rfl : t = t' := Except.ok.inj (ht.symm.trans ht')
      exact ⟨hrest, Screening.condemn_tags ht, hmarked⟩
    · cases ht.symm.trans he
  · rcases hcourse with ⟨t, ht, -⟩ | ⟨e', k, he', hbroken⟩
    · cases he.symm.trans ht
    · obtain rfl : e = e' := Except.error.inj (he.symm.trans he')
      exact .listing hhas hlooked hbroken
  · obtain ⟨hafter, htags, hmarked⟩ := ht
    refine (retagSpam_stores elsewhere ho hhas hafter (htags ▸ .condemned)).mono ?_ ?_
    · exact fun u room' hu => ⟨t, _, hlooked, hmarked.of_same hu.2, hu.1⟩
    · exact fun e room' he =>
        .storing hhas hlooked (.inl (hmarked.of_same he.1)) he.2

/-- Taking a message out of spam never stops before its tags are to be stored. -/
theorem acquit_eq (m : Message) (room : Mailroom σ) :
    acquit m room = retagSpam m (Screening.acquit ask room.rules m room).1
      (Screening.acquit ask room.rules m room).2 := by
  unfold acquit screening
  simp only [bind, EStateM.bind]

/-- Taking a message out of spam that was just looked up. -/
theorem acquit_changes (ho : room.Orderly) (hheedful : room.keeping.Heedful elsewhere)
    (hhas : Has room owner id m) (hlooked : Looked room mid) :
    Ends (acquit m mid) (fun u room' => Acquits room elsewhere m u room')
      (fun e room' => Fails room elsewhere owner id e room') := by
  obtain ⟨db, hi, rfl⟩ := hlooked
  let mid : Mailroom σ := { room with primary := db }
  have hlooked : Looked room mid := ⟨db, hi, rfl⟩
  have hunmarked := acquit_course (heeds_unmarkings (m := m) mid hheedful)
  have hrest : Rests room.holdings room (Screening.acquit ask mid.rules m mid).2 :=
    Screening.acquit_keeps (fun _ _ _ => rests_ask _) (rests_primary ho.shows hi)
  rw [acquit_eq]
  refine (retagSpam_stores elsewhere ho hhas hrest (.untagged .spam)).mono ?_ ?_
  · exact fun u room' hu => ⟨_, mid, hlooked, hunmarked.of_same hu.2, hu.1⟩
  · exact fun e room' he => .storing hhas hlooked (.inr (hunmarked.of_same he.1)) he.2

/-- What is done to the owner's message as soon as it was found. -/
theorem found_changes {f : Message → Action σ Update} {P : Message → Update → Mailroom σ → Prop}
    (ho : room.Orderly)
    (hf : ∀ m mid, Has room owner id m → Looked room mid →
      Ends (f m mid) (P m) (fun e room' => Fails room elsewhere owner id e room')) :
    Ends ((onPrimary (Primary.ownMessage id owner) >>= f) room)
      (fun u room' => ∃ m, Has room owner id m ∧ P m u room')
      (fun e room' => Fails room elsewhere owner id e room') := by
  refine (ownMessage_has ho).bind (fun m mid hm => ?_) fun _ _ he => .looking he
  obtain ⟨hhas, hlooked⟩ := hm
  exact (hf m mid hhas hlooked).mono (fun u room' hu => ⟨m, hhas, hu⟩) fun _ _ he => he

theorem flipSpam_changes (ho : room.Orderly) (hheedful : room.keeping.Heedful elsewhere) :
    Ends (flipSpam id owner room)
      (fun u room' => ∃ m, Has room owner id m ∧
        if m.tags.isSpam then Acquits room elsewhere m u room'
        else Condemns room elsewhere m u room')
      (fun e room' => Fails room elsewhere owner id e room') := by
  refine found_changes ho fun m mid hhas hlooked => ?_
  have hflip : Ends ((if m.tags.isSpam then acquit m else condemn m) mid)
      (fun u room' => if m.tags.isSpam then Acquits room elsewhere m u room'
        else Condemns room elsewhere m u room')
      (fun e room' => Fails room elsewhere owner id e room') := by
    by_cases hspam : m.tags.isSpam = true
    · simp only [if_pos hspam]
      exact acquit_changes ho hheedful hhas hlooked
    · simp only [if_neg hspam]
      exact condemn_changes ho hheedful hhas hlooked
  rw [← flipFound_eq] at hflip
  exact hflip

/-- A text for the tag of spam is read without a look at the labels. -/
theorem tagOfText_of_spam (htext : Tag.ofName text = .ok .spam) :
    Ends (tagOfText owner text room) (fun t mid => t = .spam ∧ mid = room) (fun _ _ => False) := by
  unfold tagOfText
  rw [htext]
  exact .of_ok ⟨rfl, rfl⟩

theorem addTag_changes (ho : room.Orderly) (hheedful : room.keeping.Heedful elsewhere)
    (htext : Tag.ofName text = .ok .spam) :
    Ends (addTag id owner text room)
      (fun u room' => ∃ m, Has room owner id m ∧
        if m.tags.isSpam then Stays room m u room' else Condemns room elsewhere m u room')
      (fun e room' => Fails room elsewhere owner id e room') := by
  refine (tagOfText_of_spam htext).bind (fun t mid ht => ?_) fun _ _ he => he.elim
  obtain ⟨rfl, rfl⟩ := ht
  refine found_changes ho fun m mid hhas hlooked => ?_
  rw [if_pos rfl]
  by_cases hspam : m.tags.isSpam = true
  · simp only [if_pos hspam]
    exact .of_ok ⟨rfl, hlooked⟩
  · simp only [if_neg hspam]
    exact condemn_changes ho hheedful hhas hlooked

theorem removeTag_changes (ho : room.Orderly) (hheedful : room.keeping.Heedful elsewhere)
    (htext : Tag.ofName text = .ok .spam) :
    Ends (removeTag id owner text room)
      (fun u room' => ∃ m, Has room owner id m ∧
        if m.tags.isSpam then Acquits room elsewhere m u room' else Stays room m u room')
      (fun e room' => Fails room elsewhere owner id e room') := by
  refine (tagOfText_of_spam htext).bind (fun t mid ht => ?_) fun _ _ he => he.elim
  obtain ⟨rfl, rfl⟩ := ht
  refine found_changes ho fun m mid hhas hlooked => ?_
  rw [if_pos rfl]
  by_cases hspam : m.tags.isSpam = true
  · simp only [if_pos hspam]
    exact acquit_changes ho hheedful hhas hlooked
  · simp only [if_neg hspam]
    exact .of_ok ⟨rfl, hlooked⟩

end Mailroom

namespace Screening

open Blacklist Relation
open Mailroom (Action FailsIntact Update)

variable {τ : Type}

/-- Marking lists all addresses of the message or breaks off with those before a call that did not
go through, and a marking that succeeds after attempts in vain ends like one that was not
interrupted. Unmarking succeeds and removes the addresses whose calls went through. When it is done
to a message of the primary store, and for whatever reason fails, the store has the messages that it
had; when it succeeds, the message is stored and returned with its new tags, the flags that go with
them and what is said of its addresses. -/
theorem marking_and_unmarking {σ : Type} (ask : Oracle τ) (listed : τ → List String)
    (rules : Rules) (m : Message) (s r : τ)
    (hmark : ∀ a ∈ markings ask rules m s, a.Heeded ask listed)
    (hunmark : ∀ a ∈ unmarkings ask rules m r, a.Heeded ask listed) :
    let urls := Url.inText m.text
    let marked := condemn ask rules m s
    let unmarked := acquit ask rules m r
    urls.Nodup ∧
    (condemn (recording ask) rules m (s, [])).2 = (marked.2, written ask (markings ask rules m s)) ∧
    (acquit (recording ask) rules m (r, [])).2 =
      (unmarked.2, written ask (unmarkings ask rules m r)) ∧
    ((∃ t, marked.1 = .ok t) ↔ ∀ a ∈ markings ask rules m s, a.Through ask) ∧
    (∀ t, marked.1 = .ok t → Marked ask listed rules m s marked.2 t) ∧
    (∀ e, marked.1 = .error e → ∃ k, BrokenOff ask listed (lateListing rules.budget) urls
      (markings ask rules m s) s marked.2 e k) ∧
    (∀ left last fresh after t t', ReflTransGen (Vain ask listed rules m) s left →
      Succeeds ask listed rules m left last t → (∀ u, u ∈ listed fresh ↔ u ∈ listed s) →
      Succeeds ask listed rules m fresh after t' →
      t.tags = t'.tags ∧ t.spam = t'.spam ∧ ∀ u, u ∈ listed last ↔ u ∈ listed after) ∧
    Unmarked ask listed rules m r unmarked.2 unmarked.1 ∧
    (m.tags.isSpam → flipSpam ask rules m r = (.ok unmarked.1, unmarked.2)) ∧
    (¬ m.tags.isSpam → flipSpam ask rules m s = marked) ∧
    (∀ id owner text : String,
      FailsIntact (Mailroom.flipSpam id owner : Action σ Update) ∧
      FailsIntact (Mailroom.addTag id owner text : Action σ Update) ∧
      FailsIntact (Mailroom.removeTag id owner text : Action σ Update)) ∧
    ∀ (room : Mailroom σ) (elsewhere : σ → List String), room.Orderly →
      room.keeping.Heedful elsewhere → ∀ id owner : String,
      Ends (Mailroom.flipSpam id owner room)
        (fun u room' => ∃ m, room.Has owner id m ∧
          if m.tags.isSpam then room.Acquits elsewhere m u room'
          else room.Condemns elsewhere m u room')
        (fun e room' => room.Fails elsewhere owner id e room') ∧
      ∀ text : String, Tag.ofName text = .ok .spam →
        Ends (Mailroom.addTag id owner text room)
          (fun u room' => ∃ m, room.Has owner id m ∧
            if m.tags.isSpam then room.Stays m u room' else room.Condemns elsewhere m u room')
          (fun e room' => room.Fails elsewhere owner id e room') ∧
        Ends (Mailroom.removeTag id owner text room)
          (fun u room' => ∃ m, room.Has owner id m ∧
            if m.tags.isSpam then room.Acquits elsewhere m u room' else room.Stays m u room')
          (fun e room' => room.Fails elsewhere owner id e room') := by
  intro urls marked unmarked
  refine ⟨nodup_distinct _, condemn_recording ask rules m s, acquit_recording ask rules m r,
    condemn_ok_iff hmark, fun t ht => ?_, fun e he => ?_, ?_, acquit_course hunmark,
    fun hspam => ?_, fun hspam => ?_, fun id owner text => ?_,
    fun room elsewhere ho hheedful id owner => ⟨?_, fun text htext => ⟨?_, ?_⟩⟩⟩
  · exact Succeeds.marked ⟨hmark, Prod.ext ht rfl⟩
  · rcases condemn_course hmark with ⟨t, ht, -⟩ | ⟨e', k, he', hbroken⟩
    · cases he.symm.trans ht
    · obtain rfl : e' = e := Except.error.inj (he'.symm.trans he)
      exact ⟨k, hbroken⟩
  · exact fun left last fresh after t t' hvain hretried hsame honce =>
      Succeeds.alike hvain hretried hsame honce
  · rw [flipSpam, if_pos hspam]
  · rw [flipSpam, if_neg hspam]
  · exact ⟨Mailroom.failsIntact_flipSpam id owner, Mailroom.failsIntact_addTag id owner text,
      Mailroom.failsIntact_removeTag id owner text⟩
  · exact Mailroom.flipSpam_changes ho hheedful
  · exact Mailroom.addTag_changes ho hheedful htext
  · exact Mailroom.removeTag_changes ho hheedful htext

/-- A mailroom in which Bob has a message with an address. -/
def offered : Mailroom Unit :=
  Mailroom.sample.after
    [⟨"alice", 0, .send ⟨some "bob", some "Offer", some "see http://a.example"⟩ false⟩]

/-- The call for the second address is left without an answer. After that passed, the marking is
tried again. What is marked in a mailroom is stored. -/
theorem marking_and_unmarking_after_hanging :
    let m : Message := ⟨"m", "a", "Ann", "b", "Bob", "bob@example", "Offer",
      "see http://a.example and http://b.example", .epoch, "b", false, true,
      .ofList [.inbox, .starred]⟩
    let ask := Simulated.ask
    let rules : Rules := ⟨.failClosed, 100⟩
    let s : Simulated := ⟨[], [], [], ["http://b.example"], [], false, false, []⟩
    let left : Simulated := { (condemn ask rules m s).2 with hanging := [] }
    let fresh : Simulated := { s with hanging := [] }
    (condemn ask rules m s).1 = .error (lateListing 100) ∧
    (condemn ask rules m s).2.urls = ["http://a.example"] ∧
    (∃ k, BrokenOff ask Simulated.urls (lateListing 100) (Url.inText m.text)
      (markings ask rules m s) s (condemn ask rules m s).2 (lateListing 100) k) ∧
    (condemn ask rules m left).1 = .ok ⟨.ofList [.starred, .spam], true,
      [.alreadyPresent "http://a.example", .added "http://b.example"]⟩ ∧
    (∀ u, u ∈ (condemn ask rules m left).2.urls ↔ u ∈ (condemn ask rules m fresh).2.urls) ∧
    (acquit ask rules m s).1.effects =
      [.notFound "http://a.example", .failed "http://b.example" "timed out"] ∧
    ∃ u room', Mailroom.flipSpam "u" "bob" offered = .ok u room' ∧ u.message.tags.isSpam = true ∧
      u.effects = [.added "http://a.example"] ∧
      room'.holdings = offered.holdings.put u.message := by
  intro m ask rules s left fresh
  have hheeded : ∀ calls : List (Asked Simulated), ∀ a ∈ calls, a.Heeded ask Simulated.urls :=
    fun _ a _ => Simulated.heeds a
  have hurls : Url.inText m.text = ["http://a.example", "http://b.example"] := by decide +kernel
  have htags : m.tags.intoSpam.1 = .ofList [.starred, .spam] := by decide +kernel
  clear_value m
  obtain ⟨-, -, -, -, -, hbroken, hretry, -, -, -, -, hroom⟩ :=
    marking_and_unmarking (σ := Unit) ask Simulated.urls rules m s s (hheeded _) (hheeded _)
  have hfirst : condemn ask rules m s = (.error (lateListing 100),
      { s with
        urls := ["http://a.example"]
        calls := [⟨.add, "http://a.example"⟩, ⟨.add, "http://b.example"⟩] }) := by
    simp only [condemn, hurls]
    rfl
  have hfailed : (condemn ask rules m s).1 = .error (lateListing 100) := congrArg Prod.fst hfirst
  have hended : (condemn ask rules m left).1 = .ok ⟨.ofList [.starred, .spam], true,
      [.alreadyPresent "http://a.example", .added "http://b.example"]⟩ := by
    simp only [left, hfirst]
    simp only [condemn, hurls, htags]
    rfl
  obtain ⟨t', honce⟩ : ∃ t', (condemn ask rules m fresh).1 = .ok t' := by
    simp only [condemn, hurls]
    exact ⟨_, rfl⟩
  have hvain : Vain ask Simulated.urls rules m s left :=
    ⟨hheeded _, ⟨_, hfailed⟩, fun _ => Iff.rfl⟩
  obtain ⟨-, -, hsame⟩ := hretry left _ fresh _ _ t' (.single hvain)
    ⟨hheeded _, Prod.ext hended rfl⟩ (fun _ => Iff.rfl) ⟨hheeded _, Prod.ext honce rfl⟩
  have hstored : ∃ u room', Mailroom.flipSpam "u" "bob" offered = .ok u room' ∧
      u.message.tags.isSpam = true ∧ u.effects = [.added "http://a.example"] ∧
      room'.holdings = offered.holdings.put u.message := by
    have hvacant : Mailroom.sample.Vacant := ⟨rfl, rfl⟩
    have ho : offered.Orderly := hvacant.orderly.after _
    have hown : offered.keeping = .own := (hvacant.orderly.fixed_after _).keeping
    have hheedful : offered.keeping.Heedful fun _ => [] := by
      intro ask hask
      cases hown.symm.trans hask
    have hmarked : ((Mailroom.flipSpam "u" "bob").run' offered).map
        (fun u => (u.message.tags.isSpam, u.effects)) =
        some (true, [.added "http://a.example"]) := by decide +kernel
    obtain ⟨u, hrun, hsays⟩ := Option.map_eq_some_iff.mp hmarked
    obtain ⟨hspam, heffects⟩ := Prod.mk.inj hsays
    obtain ⟨room', hflip⟩ := ok_of_run' hrun
    obtain ⟨x, -, hends⟩ := (hroom offered _ ho hheedful "u" "bob").1.ok u room' hflip
    have hholdings : room'.holdings = offered.holdings.put u.message := by
      split at hends
      · obtain ⟨t, before, -, -, hretags⟩ := hends
        exact hretags.holdings
      · obtain ⟨t, before, -, -, hretags⟩ := hends
        exact hretags.holdings
    exact ⟨u, room', hflip, hspam, heffects, hholdings⟩
  refine ⟨hfailed, ?_, hbroken _ hfailed, hended, hsame, ?_, hstored⟩
  · rw [hfirst]
  · simp only [acquit, hurls]
    rfl

end Screening

end LabelMail
