import LabelMail.Proofs.LabelNames
import LabelMail.Proofs.Mailroom.Following
import LabelMail.Proofs.Mailroom.Listings
import LabelMail.Proofs.Mailroom.Telling
import LabelMail.Proofs.NameOrder

/-!
Labels and the listings of their names. A text is read as a tag where a label is put on a message,
and as a folder where a listing is asked for. Both ways end at the owner's label of the name, in
whatever letters the text has it, so that a message is listed under the names of its tags. The tag
for read messages is the exception: its folder is the one of an owner's tag that has the same name.
-/
namespace LabelMail

open Text (sameName)

namespace Tag

variable {text : String}

/-- The tags with a folder that anything in the mailbox may lie in. -/
def IsPlain (t : Tag) : Prop :=
  t ≠ inbox ∧ t ≠ sent ∧ t ≠ drafts ∧ t ≠ spam

theorem trim_not_empty {t : Tag} (h : ofName text = .ok t) : (Text.trim text).isEmpty = false := by
  unfold ofName at h
  dsimp only at h
  split at h
  · cases h
  · next hne => simpa using hne

theorem ofName_trim (text : String) : ofName (Text.trim text) = ofName text := by
  simp only [ofName, Text.trim_trim]

end Tag

namespace Message

/-- The message carries a custom tag that the collation does not tell from the name. -/
def CarriesName (m : Message) (name : String) : Prop :=
  ∃ n, .custom n ∈ m.tags ∧ sameName n name = true

/-- What a message must carry to be listed in the folder of a plain tag. -/
def ListedAs (m : Message) : Tag → Prop
  | .read => m.CarriesName "read"
  | .custom name => m.CarriesName name
  | t => t ∈ m.tags

end Message

namespace Holdings

variable {h : Holdings} {l : Label} {m : Message} {owner name : String} {t : Tag}

/-- The folder as the owner spells it. -/
def spelledFolder (h : Holdings) (owner : String) : Folder → Folder
  | .custom name => .custom (h.spelled owner name)
  | f => f

theorem sameName_spelled (h : Holdings) (owner name : String) :
    sameName (h.spelled owner name) name = true := by
  unfold spelled
  cases hl : h.findLabel? owner name with
  | none => exact Text.sameName_self name
  | some l =>
    have hfound := List.find?_some hl
    rw [Bool.and_eq_true] at hfound
    exact hfound.2

/-- A label gives its spelling to every name that the collation does not tell from its own. -/
theorem Orderly.spelled_eq (ho : h.Orderly) (hl : l ∈ h.labels)
    (hsame : sameName l.name name = true) : h.spelled l.ownerId name = l.name := by
  unfold spelled
  cases hfind : h.findLabel? l.ownerId name with
  | none =>
    have hmatch : (l.ownerId == l.ownerId && sameName l.name name) = true := by simp [hsame]
    exact absurd hmatch (by simpa using List.find?_eq_none.mp hfind l hl)
  | some k =>
    have hk := List.find?_some hfind
    rw [Bool.and_eq_true, beq_iff_eq] at hk
    have hkl : sameName k.name l.name = true :=
      Text.sameName_trans hk.2 (Text.sameName_comm.mp hsame)
    rw [ho.distinct k (List.mem_of_find?_eq_some hfind) l hl hk.1 hkl]
    rfl

/-- A stored message carries a name just if it carries the owner's spelling of the name. -/
theorem Orderly.mem_spelled_iff (ho : h.Orderly) (hm : m ∈ h.messages) :
    .custom (h.spelled m.ownerId name) ∈ m.tags ↔ m.CarriesName name := by
  constructor
  · intro ht
    exact ⟨h.spelled m.ownerId name, ht, h.sameName_spelled m.ownerId name⟩
  · rintro ⟨n, ht, hsame⟩
    obtain ⟨l, hl, howner, rfl⟩ := ho.labelled m hm _ ht n rfl
    rwa [← howner, ho.spelled_eq hl hsame]

theorem Orderly.holds_iff (ho : h.Orderly) (hm : m ∈ h.messages) (hplain : t.IsPlain)
    (htrash : .trash ∈ m.tags → t = .trash) :
    (h.spelledFolder m.ownerId (Folder.ofTag t)).holds m m.ownerId = true ↔ m.ListedAs t := by
  obtain ⟨hinbox, hsent, hdrafts, hspam⟩ := hplain
  have hcustom (name : String) (htrash : .trash ∉ m.tags) :
      (Folder.custom (h.spelled m.ownerId name)).holds m m.ownerId = true ↔ m.CarriesName name := by
    rw [← ho.mem_spelled_iff hm]
    simp [Folder.holds, Folder.tag, htrash]
  have hout (hne : t ≠ .trash) : .trash ∉ m.tags := fun h => hne (htrash h)
  cases t with
  | inbox => exact absurd rfl hinbox
  | sent => exact absurd rfl hsent
  | drafts => exact absurd rfl hdrafts
  | spam => exact absurd rfl hspam
  | trash => simp [spelledFolder, Folder.ofTag, Folder.holds, Message.ListedAs]
  | archive =>
    have hout : .trash ∉ m.tags := hout Tag.noConfusion
    simp [spelledFolder, Folder.ofTag, Folder.holds, Folder.tag, Message.ListedAs, hout]
  | starred =>
    have hout : .trash ∉ m.tags := hout Tag.noConfusion
    simp [spelledFolder, Folder.ofTag, Folder.holds, Folder.tag, Message.ListedAs, hout]
  | read => exact hcustom "read" (hout Tag.noConfusion)
  | custom name => exact hcustom name (hout Tag.noConfusion)

end Holdings

namespace Mailroom

variable {σ : Type} {room : Mailroom σ} {h : Holdings} {caller id text other : String}
variable {f : Folder} {t : Tag} {u : Update}

theorem folderOfText_named (hs : room.primary.rows.Shows h) (hf : Folder.ofName text = .ok f) :
    Ends (folderOfText caller text room)
      (fun g mid => g = h.spelledFolder caller f ∧ Rests h room mid)
      (fun _ _ => ¬ room.primary.Sound) := by
  unfold folderOfText
  rw [hf]
  cases f with
  | custom name =>
    refine Ends.map ((spelling_ends hs).mono (fun n mid hn => ?_) fun _ _ he => he.2)
    obtain ⟨rfl, hrest⟩ := hn
    exact ⟨rfl, hrest⟩
  | _ => exact .of_ok ⟨rfl, .refl hs⟩

/-- The listing of a name shows what lies in the folder as the caller spells it. -/
theorem list_named (hs : room.primary.rows.Shows h) (ho : h.Orderly)
    (ht : Tag.ofName text = .ok t) :
    Ends (list caller (some text) room)
      (fun ms _ => ms = (h.mailbox caller).filter
        ((h.spelledFolder caller (Folder.ofTag t)).holds · caller))
      (fun _ _ => ¬ room.primary.Sound) := by
  have hname : ((Option.map Text.trim (some text)).filter fun n => !n.isEmpty).getD
      Folder.inbox.name = Text.trim text := by
    simp [Option.filter, Tag.trim_not_empty ht]
  have hf : Folder.ofName (Text.trim text) = .ok (Folder.ofTag t) := by
    rw [Folder.ofName, Tag.ofName_trim, ht]
    rfl
  unfold list
  rw [hname]
  refine (folderOfText_named hs hf).bind (fun g mid hg => ?_) fun _ _ he => he
  obtain ⟨rfl, hrest⟩ := hg
  refine (onPrimary_ends mid (Primary.messagesIn_ends hrest.shows ho _)).mono ?_ ?_
  · rintro ms _ ⟨db, ⟨hms, -⟩, rfl⟩
    exact hms
  · rintro _ _ ⟨db, ⟨-, hsound⟩, rfl⟩
    exact fun hd => hsound (hrest.sound hd)

/-- The second text is the first, or it spells the same custom name with other letters in lower or
upper case. -/
inductive Respells (text : String) : String → Prop
  | self : Respells text text
  | recased {other name name' : String} (hname : Tag.ofName text = .ok (.custom name))
      (hname' : Tag.ofName other = .ok (.custom name'))
      (hletters : Text.folded name' = Text.folded name) : Respells text other

/-- A message that carries a tag is listed under every spelling of it, except that for the tag of
read messages it takes an owner's tag of that name. -/
theorem Respells.listed_iff {m : Message} (hother : Respells text other)
    (ht : Tag.ofName text = .ok t) (hcarries : Carries h caller text m) (hspam : t ≠ .spam) :
    ∃ t', Tag.ofName other = .ok t' ∧ (t.IsPlain → t'.IsPlain) ∧ (t' = .trash ↔ t = .trash) ∧
      (m.ListedAs t' ↔ (t = .read → m.CarriesName "read")) := by
  obtain ⟨s, hnamed, hs⟩ := hcarries
  obtain ⟨t₀, ht₀, rfl⟩ := hnamed.spells
  obtain rfl : t = t₀ := Except.ok.inj (ht.symm.trans ht₀)
  have hcustom {name name' : String} (hname : t = .custom name)
      (hsame : sameName name name' = true) : m.CarriesName name' := by
    subst hname
    exact ⟨h.spelled caller name, hs Tag.noConfusion,
      Text.sameName_trans (h.sameName_spelled caller name) hsame⟩
  cases hother with
  | self =>
    refine ⟨t, ht, id, Iff.rfl, ?_⟩
    cases t with
    | read => simp [Message.ListedAs]
    | custom name => simp [Message.ListedAs, hcustom rfl (Text.sameName_self name)]
    | spam => exact absurd rfl hspam
    | _ =>
      have hmem := hs Tag.noConfusion
      simpa [Message.ListedAs, Holdings.spelledTag] using hmem
  | @recased _ name name' hname hname' hletters =>
    obtain rfl : t = .custom name := Except.ok.inj (ht.symm.trans hname)
    have hsame : sameName name name' = true := Text.sameName_of_folded hletters.symm
    refine ⟨.custom name', hname', fun _ => ?_, by simp, ?_⟩
    · exact ⟨Tag.noConfusion, Tag.noConfusion, Tag.noConfusion, Tag.noConfusion⟩
    · simp [Message.ListedAs, hcustom rfl hsame]

theorem carries_trim {m : Message} (hcarries : Carries h caller (Text.trim text) m) :
    Carries h caller text m := by
  obtain ⟨t, hnamed, ht⟩ := hcarries
  obtain ⟨t₀, ht₀, hspelled⟩ := hnamed.spells
  rw [Tag.ofName_trim] at ht₀
  exact ⟨t, ⟨hnamed.toSpelled, t₀, ht₀, hspelled⟩, ht⟩

theorem changeLabel_carries (hs : room.primary.rows.Shows h) (ho : h.Orderly) :
    Ends (changeLabel caller id ⟨some text, .add⟩ room)
      (fun u _ => u.message.ownerId = caller ∧ Carries h caller text u.message)
      (fun _ _ => True) := by
  refine Ends.after_ofExcept (fun s hs' => ?_) fun _ => trivial
  refine (addTag_ends hs ho).bind (fun u mid hu => ?_) fun _ _ _ => trivial
  obtain ⟨htagged, hcarries⟩ := hu
  have howner : u.message.ownerId = caller := by
    cases htagged with
    | same hchanged hfound howner hrest => exact howner
    | altered hchanged hedit hw => exact hedit.ownerId
    | labelled l hchanged howner hcarried hedit hw => exact hedit.ownerId
  refine (finishes_update id u mid).mono (fun v _ hv => ?_) fun _ _ _ => trivial
  obtain ⟨rfl, -⟩ := hv
  obtain ⟨_, htext, rfl⟩ := required_eq_ok hs'
  obtain rfl := Option.some.inj htext
  exact ⟨howner, carries_trim hcarries⟩

/-- What a listing shows, if the store does not fail. -/
theorem Orderly.outcome_list (ho : room.Orderly) (ht : Tag.ofName text = .ok t) (caller : String)
    (now : Int) :
    (room.primary.Sound →
      ∃ ms, room.outcome ⟨caller, now, .list (some text)⟩ = some (.messages ms)) ∧
    ∀ ms, room.outcome ⟨caller, now, .list (some text)⟩ = some (.messages ms) →
      ms = (room.holdings.mailbox caller).filter
        ((room.holdings.spelledFolder caller (Folder.ofTag t)).holds · caller) := by
  have hlist : Ends (perform caller (.list (some text)) (room.atTime now))
      (fun o _ => ∃ ms, o = .messages ms ∧ ms = (room.holdings.mailbox caller).filter
        ((room.holdings.spelledFolder caller (Folder.ofTag t)).holds · caller))
      (fun _ _ => ¬ room.primary.Sound) := by
    have hs : (room.atTime now).primary.rows.Shows room.holdings := ho.shows
    refine Ends.map ((list_named hs ho.holdings ht).mono (fun ms _ hms => ?_) fun _ _ he => he)
    exact ⟨ms, rfl, hms⟩
  have hsteps := step_of_ends (e := ⟨caller, now, .list (some text)⟩) hlist
  constructor
  · intro hsound
    cases hout : room.outcome ⟨caller, now, .list (some text)⟩ with
    | none =>
      obtain ⟨f, hf⟩ := hsteps.2 hout
      exact absurd hsound hf
    | some o =>
      obtain ⟨ms, rfl, -⟩ := hsteps.1 o hout
      exact ⟨ms, rfl⟩
  · intro ms hout
    obtain ⟨ms', hms, hshown⟩ := hsteps.1 _ hout
    obtain rfl := Outcome.messages.inj hms
    exact hshown

/-- A message that was given a label is listed under the label's name and under every spelling of a
custom name, unless it lies in the trash and the label is another. Only the label for read messages
does not show it, except by an owner's label that is named alike. -/
theorem labelled_is_listed (room : Mailroom σ) (hv : room.Vacant) (events : List Event)
    {caller id text other : String} {now : Int} {t : Tag} {u : Update}
    (ht : Tag.ofName text = .ok t) (hplain : t.IsPlain)
    (hadd : (room.after events).outcome ⟨caller, now, .changeLabel id ⟨some text, .add⟩⟩ =
      some (.update u))
    (htrash : .trash ∈ u.message.tags → t = .trash) (hother : Respells text other) (later : Int) :
    let labelled := (room.after events).step ⟨caller, now, .changeLabel id ⟨some text, .add⟩⟩
    (labelled.primary.Sound →
      ∃ ms, labelled.outcome ⟨caller, later, .list (some other)⟩ = some (.messages ms)) ∧
    ∀ ms, labelled.outcome ⟨caller, later, .list (some other)⟩ = some (.messages ms) →
      (u.message ∈ ms ↔ (t = .read → u.message.CarriesName "read")) := by
  intro labelled
  have ho : (room.after events).Orderly := hv.orderly.after events
  have ho' : labelled.Orderly := ho.step _
  have hstored : u.message ∈ labelled.holdings.messages :=
    ho.tells_step hadd (List.mem_singleton.mpr rfl)
  obtain ⟨howner, hcarries⟩ : u.message.ownerId = caller ∧
      Carries (room.after events).holdings caller text u.message := by
    have hs : ((room.after events).atTime now).primary.rows.Shows (room.after events).holdings :=
      ho.shows
    have hends : Ends (perform caller (.changeLabel id ⟨some text, .add⟩)
          ((room.after events).atTime now))
        (fun o _ => ∀ v, o = .update v → v.message.ownerId = caller ∧
          Carries (room.after events).holdings caller text v.message) (fun _ _ => True) := by
      refine Ends.map ((changeLabel_carries hs ho.holdings).mono (fun v _ hv => ?_)
        fun _ _ _ => trivial)
      intro v' hv'
      obtain rfl := Outcome.update.inj hv'
      exact hv
    have hsteps := step_of_ends (e := ⟨caller, now, .changeLabel id ⟨some text, .add⟩⟩) hends
    exact hsteps.1 _ hadd u rfl
  obtain ⟨t', ht', hplain', hsame, hlisted⟩ := hother.listed_iff ht hcarries hplain.2.2.2
  obtain ⟨hreturns, hshows⟩ := ho'.outcome_list ht' caller later
  refine ⟨hreturns, fun ms hms => ?_⟩
  rw [hshows ms hms, List.mem_filter, Holdings.mem_mailbox, ← hlisted]
  rw [← howner, ← ho'.holdings.holds_iff hstored (hplain' hplain) fun h => hsame.mpr (htrash h)]
  simp [hstored]

def delivered : List Event :=
  [⟨"alice", 0, .send ⟨some "bob", some "s", some "c"⟩ false⟩]

/-- Bob's copy of the delivery with one more tag. -/
def deliveryWith (t : Tag) (read : Bool) : Message where
  id := "u"
  senderId := "alice"
  senderName := "Alice"
  recipientId := "bob"
  recipientName := "Bob"
  recipientEmail := "bob@mail"
  subject := "s"
  content := "c"
  timestamp := .ofMillis 0
  ownerId := "bob"
  read := read
  starred := false
  tags := .ofList [.inbox, t]

/-- Bob's label for what he has read does not show him the message that he gave it. -/
theorem read_label_not_listed :
    sample.Vacant ∧ Tag.ofName "read" = .ok .read ∧ Tag.read.IsPlain ∧
    (sample.after delivered).outcome ⟨"bob", 0, .changeLabel "u" ⟨some "read", .add⟩⟩ =
      some (.update ⟨deliveryWith .read true, true, []⟩) ∧
    .trash ∉ (deliveryWith .read true).tags ∧
    ((sample.after delivered).step ⟨"bob", 0, .changeLabel "u" ⟨some "read", .add⟩⟩).outcome
      ⟨"bob", 0, .list (some "read")⟩ = some (.messages []) := by
  refine ⟨⟨rfl, rfl⟩, rfl, ?_, ?_, ?_, ?_⟩
  · exact ⟨Tag.noConfusion, Tag.noConfusion, Tag.noConfusion, Tag.noConfusion⟩
  all_goals decide +kernel

theorem labelled_is_listed_recased :
    sample.Vacant ∧ Tag.ofName "Deals" = .ok (.custom "Deals") ∧ (Tag.custom "Deals").IsPlain ∧
    (sample.after delivered).outcome ⟨"bob", 0, .changeLabel "u" ⟨some "Deals", .add⟩⟩ =
      some (.update ⟨deliveryWith (.custom "Deals") false, true, []⟩) ∧
    Respells "Deals" "DEALS" ∧
    ∃ ms, ((sample.after delivered).step
        ⟨"bob", 0, .changeLabel "u" ⟨some "Deals", .add⟩⟩).outcome
      ⟨"bob", 0, .list (some "DEALS")⟩ = some (.messages ms) ∧
      deliveryWith (.custom "Deals") false ∈ ms := by
  have hv : sample.Vacant := ⟨rfl, rfl⟩
  have ht : Tag.ofName "Deals" = .ok (.custom "Deals") := rfl
  have hplain : (Tag.custom "Deals").IsPlain :=
    ⟨Tag.noConfusion, Tag.noConfusion, Tag.noConfusion, Tag.noConfusion⟩
  have hadd : (sample.after delivered).outcome ⟨"bob", 0, .changeLabel "u" ⟨some "Deals", .add⟩⟩ =
      some (.update ⟨deliveryWith (.custom "Deals") false, true, []⟩) := by decide +kernel
  have hother : Respells "Deals" "DEALS" := .recased rfl rfl (by decide)
  have htrash : .trash ∉ (deliveryWith (.custom "Deals") false).tags := by decide
  obtain ⟨hreturns, hshows⟩ := labelled_is_listed sample hv delivered ht hplain hadd
    (fun h => absurd h htrash) hother 0
  obtain ⟨ms, hms⟩ := hreturns (by
    rw [← after_concat]
    exact (sound_sample _).1)
  exact ⟨hv, ht, hplain, hadd, hother, ms, hms, (hshows ms hms).mpr Tag.noConfusion⟩

end Mailroom

end LabelMail
