import LabelMail.Proofs.ListingByName

/-!
The folder that a message is reported in, against the folders that list it. The report goes by the
tags alone, with the strongest first, whereas spam only lists what came in, and the sent mail and
the drafts only what the owner wrote. Tags of either kind can be put on any message, so a message is
reported in one of these three folders without being listed there when it went the other way.
Every other message is listed where it is reported.
-/
namespace LabelMail

namespace TagSet

variable {s : TagSet} {f : Folder}

/-- The message has the folder's tag, and none that is stronger. -/
structure ReportedIn (s : TagSet) (f : Folder) : Prop where
  carried : f.tag ∈ s
  strongest : ∀ t ∈ deciding.takeWhile (· != f.tag), t ∉ s
  ranked : f.tag ∈ deciding ∨ ∃ name, f = .custom name

/-- What comes before the first occurrence comes before any. -/
theorem mem_of_mem_takeWhile {t u : Tag} {before after : List Tag}
    (hu : u ∈ (before ++ t :: after).takeWhile (· != t)) : u ∈ before := by
  induction before with
  | nil => simp at hu
  | cons v before ih =>
    rw [List.cons_append, List.takeWhile_cons] at hu
    split at hu
    · rcases List.mem_cons.mp hu with rfl | hu
      · exact List.mem_cons_self
      · exact List.mem_cons_of_mem v (ih hu)
    · cases hu

theorem tag_ofTag {t : Tag} (ht : t ∈ deciding) : (Folder.ofTag t).tag = t := by
  revert t
  decide

theorem ofTag_tag (f : Folder) : Folder.ofTag f.tag = f := by
  cases f <;> rfl

theorem reportedIn_of_mainFolder? (h : s.mainFolder? = some f) : s.ReportedIn f := by
  unfold mainFolder? at h
  split at h
  · next t hfind =>
    obtain rfl := Option.some.inj h
    have hdeciding : t ∈ deciding := List.mem_of_find?_eq_some hfind
    obtain ⟨ht, before, after, hsplit, hweaker⟩ := List.find?_eq_some_iff_append.mp hfind
    refine ⟨?_, fun u hu => ?_, .inl ?_⟩
    · rw [tag_ofTag hdeciding]
      simpa using ht
    · -- the tags that come before the one that is found are the stronger ones
      rw [tag_ofTag hdeciding, hsplit] at hu
      simpa using hweaker u (mem_of_mem_takeWhile hu)
    · rwa [tag_ofTag hdeciding]
  · next hfind =>
    obtain ⟨name, hname, rfl⟩ := Option.map_eq_some_iff.mp h
    refine ⟨mem_customNames.mp (List.mem_of_mem_head? hname), fun u hu => ?_, .inr ⟨name, rfl⟩⟩
    simpa using List.find?_eq_none.mp hfind u ((List.takeWhile_sublist _).subset hu)

end TagSet

namespace Message

variable {m : Message} {f : Folder}

/-- The folder lists mail of one direction, and the message did not go this way. -/
def Astray (m : Message) : Folder → Prop
  | .spam => m.recipientId ≠ m.ownerId
  | .sent | .drafts => m.senderId ≠ m.ownerId
  | _ => False

def OwnedByParty (m : Message) : Prop :=
  m.senderId = m.ownerId ∨ m.recipientId = m.ownerId

theorem OwnedByParty.of_envelope {m' : Message} (hm : m.OwnedByParty)
    (h : m'.envelope = m.envelope) : m'.OwnedByParty := by
  have hsender : m'.senderId = m.senderId := congrArg Row.senderId h
  have hrecipient : m'.recipientId = m.recipientId := congrArg Row.recipientId h
  have howner : m'.ownerId = m.ownerId := congrArg Row.ownerId h
  rwa [OwnedByParty, hsender, hrecipient, howner]

/-- A message lies in the folder that it is reported in unless it went the wrong way for it. -/
theorem holds_iff_of_reportedIn (h : m.tags.ReportedIn f) :
    f.holds m m.ownerId = true ↔ ¬ m.Astray f := by
  have hcarried : f.tag ∈ m.tags := h.carried
  have hweaker (t : Tag) (ht : t ∈ TagSet.deciding.takeWhile (· != f.tag)) : t ∉ m.tags :=
    h.strongest t ht
  cases f with
  | trash | spam | drafts =>
    rw [Folder.tag] at hcarried
    simp [Folder.holds, Astray, hcarried]
  | sent | archive =>
    have htrash : .trash ∉ m.tags := hweaker .trash (by decide)
    rw [Folder.tag] at hcarried
    simp [Folder.holds, Folder.tag, Astray, hcarried, htrash]
  | inbox =>
    have htrash : .trash ∉ m.tags := hweaker .trash (by decide)
    have hspam : .spam ∉ m.tags := hweaker .spam (by decide)
    have harchive : .archive ∉ m.tags := hweaker .archive (by decide)
    rw [Folder.tag] at hcarried
    simp [Folder.holds, Astray, hcarried, htrash, hspam, harchive]
  | starred => simpa [Folder.tag, TagSet.deciding] using h.ranked
  | custom name =>
    have htrash : .trash ∉ m.tags := hweaker .trash (by simp [TagSet.deciding, Folder.tag])
    rw [Folder.tag] at hcarried
    simp [Folder.holds, Folder.tag, Astray, hcarried, htrash]

end Message

namespace Holdings

variable {h : Holdings} {a : Act} {caller : String} {fresh : String → Prop}

/-- Whoever owns a message has sent or received it. -/
def OwnedByParties (h : Holdings) : Prop :=
  ∀ m ∈ h.messages, m.OwnedByParty

theorem OwnedByParties.apply (hparties : h.OwnedByParties) (hfits : h.Fits caller fresh a) :
    (h.apply a).OwnedByParties := by
  intro m hm
  cases hfits.arises hm with
  | kept hm => exact hparties m hm
  | entered hid hnew =>
    rcases hnew.placed with ⟨howner, -⟩ | ⟨howner, -⟩
    · exact .inl (hnew.sender.trans howner.symm)
    · exact .inr howner.symm
  | edited hx hedit => exact (hparties _ hx).of_envelope hedit.envelope
  | renamed hx => exact (hparties _ hx).of_envelope rfl
  | stripped hx => exact (hparties _ hx).of_envelope rfl

/-- A folder of the name of one of the owner's labels is spelled like the label. -/
theorem Orderly.spelledFolder_eq {f : Folder} {m : Message} (ho : h.Orderly) (hm : m ∈ h.messages)
    (hf : f.tag ∈ m.tags) : h.spelledFolder m.ownerId f = f := by
  cases f with
  | custom name =>
    obtain ⟨l, hl, howner, hname⟩ := ho.labelled m hm _ hf name rfl
    have hsame : Text.sameName l.name name = true := hname ▸ Text.sameName_self name
    rw [spelledFolder, ← howner, ho.spelled_eq hl hsame, hname]
  | _ => rfl

end Holdings

namespace Mailroom

variable {σ : Type} {room : Mailroom σ}

theorem Vacant.ownedByParties_after (hv : room.Vacant) (events : List Event) :
    (room.after events).holdings.OwnedByParties := by
  refine hv.orderly.kept_after (fun _ _ _ _ hparties hfits => hparties.apply hfits) ?_ events
  intro m hm
  rw [hv.holdings] at hm
  cases hm

/-- Along every run a message is found in the folder that it is reported in, both by the rule for
the folder and in the listing that its owner asks for by name, unless it is reported in spam, the
sent mail or the drafts and went the other way only. -/
theorem listed_where_reported_iff (room : Mailroom σ) (hv : room.Vacant) (events : List Event)
    {m : Message} {f : Folder} (hm : m ∈ (room.after events).holdings.messages)
    (hf : m.tags.mainFolder? = some f) (now : Int) :
    m.OwnedByParty ∧ (f.holds m m.ownerId = true ↔ ¬ m.Astray f) ∧
    ((room.after events).primary.Sound →
      ∃ ms, (room.after events).outcome ⟨m.ownerId, now, .list (some f.name)⟩ =
        some (.messages ms)) ∧
    ∀ ms, (room.after events).outcome ⟨m.ownerId, now, .list (some f.name)⟩ =
      some (.messages ms) → (m ∈ ms ↔ ¬ m.Astray f) := by
  have ho : (room.after events).Orderly := hv.orderly.after events
  have hreported : m.tags.ReportedIn f := TagSet.reportedIn_of_mainFolder? hf
  have hname : Tag.ofName f.name = .ok f.tag :=
    (ho.holdings.storable m hm).proper f.tag hreported.carried
  have hholds : f.holds m m.ownerId = true ↔ ¬ m.Astray f :=
    Message.holds_iff_of_reportedIn hreported
  obtain ⟨hreturns, hshows⟩ := ho.outcome_list hname m.ownerId now
  refine ⟨hv.ownedByParties_after events m hm, hholds, hreturns, fun ms hms => ?_⟩
  have hspelled : (room.after events).holdings.spelledFolder m.ownerId (Folder.ofTag f.tag) = f := by
    rw [TagSet.ofTag_tag]
    exact ho.holdings.spelledFolder_eq hm hreported.carried
  rw [hshows ms hms, hspelled, List.mem_filter, Holdings.mem_mailbox, ← hholds]
  simp [hm]

/-- Alice marks her copy of what she sent as spam, and Bob gives his the label of the sent mail. -/
def crossed : List Event :=
  delivered ++ [⟨"alice", 0, .flipSpam "uu"⟩,
    ⟨"bob", 0, .changeLabel "u" ⟨some "sent", .add⟩⟩]

/-- Neither of them finds the copy in the folder that it is reported in. -/
theorem reported_where_not_listed :
    sample.Vacant ∧
    (∃ m ∈ (sample.after crossed).holdings.messages, m.ownerId = "alice" ∧
      m.tags.mainFolder? = some .spam ∧ Folder.spam.holds m "alice" = false) ∧
    (sample.after crossed).outcome ⟨"alice", 0, .list (some "spam")⟩ = some (.messages []) ∧
    (∃ m ∈ (sample.after crossed).holdings.messages, m.ownerId = "bob" ∧
      m.tags.mainFolder? = some .sent ∧ Folder.sent.holds m "bob" = false) ∧
    (sample.after crossed).outcome ⟨"bob", 0, .list (some "sent")⟩ = some (.messages []) := by
  refine ⟨⟨rfl, rfl⟩, ?_⟩
  decide +kernel

/-- A message that has nothing but Bob's own label is reported and listed under it. -/
theorem listed_where_reported_iff_labelled :
    let labelled := delivered ++ [⟨"bob", 0, .changeLabel "u" ⟨some "Deals", .add⟩⟩,
      ⟨"bob", 0, .changeLabel "u" ⟨some "inbox", .remove⟩⟩]
    sample.Vacant ∧ ∃ m ∈ (sample.after labelled).holdings.messages, m.ownerId = "bob" ∧
      m.tags.mainFolder? = some (.custom "Deals") ∧
      ∃ ms, (sample.after labelled).outcome ⟨"bob", 0, .list (some "Deals")⟩ =
        some (.messages ms) ∧ m ∈ ms := by
  intro labelled
  have hv : sample.Vacant := ⟨rfl, rfl⟩
  obtain ⟨m, hm, howner, hf⟩ : ∃ m ∈ (sample.after labelled).holdings.messages,
      m.ownerId = "bob" ∧ m.tags.mainFolder? = some (.custom "Deals") := by decide +kernel
  obtain ⟨-, -, hreturns, hshows⟩ := listed_where_reported_iff sample hv labelled hm hf 0
  obtain ⟨ms, hms⟩ := hreturns (sound_sample labelled).1
  rw [← howner]
  exact ⟨hv, m, hm, rfl, hf, ms, hms, (hshows ms hms).mpr fun h => h⟩

end Mailroom

end LabelMail
