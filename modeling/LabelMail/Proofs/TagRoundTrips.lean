import LabelMail.Proofs.Flags
import LabelMail.Proofs.ListingByName

/-!
Adding a tag and taking it away again. The tag is looked up among the spellings of the owner's
labels, of which the first use of a custom tag makes one, and the flags follow the tags. What the
second call looks up is the tag that the first one added, so that the message is again what it was.
-/
namespace LabelMail

namespace TagSet

/-- What the rules allowed once they allow again, and then nothing changes. -/
theorem add_again {s tags : TagSet} {t : Tag} {b : Bool} (hspam : t ≠ .spam)
    (h : s.add t = .ok (tags, b)) : tags.add t = .ok (tags, false) := by
  obtain ⟨rfl, -, hallowed⟩ := add_eq_ok hspam h
  have hsame : (s.insert t).isSpam = s.isSpam := by simp [isSpam, hspam.symm]
  have hfree : ¬ (t.isFolderLike && s.isSpam) = true := by simpa [isSpam] using hallowed
  have hmem : t ∈ s.insert t := mem_insert.mpr (.inl rfl)
  rw [add, if_neg hspam, hsame, if_neg hfree, insert_eq_self hmem]
  simp [hmem]

end TagSet

namespace Message

variable {m : Message} {t : Tag}

theorem FlagsMatch.withFlagsOfTags_eq (hm : m.FlagsMatch) : m.withFlagsOfTags = m := by
  have hstarred : decide (Tag.starred ∈ m.tags) = m.starred := by
    rw [Bool.eq_iff_iff, decide_eq_true_iff, hm.starred]
  have hread : decide (Tag.read ∈ m.tags) = m.read := by
    rw [Bool.eq_iff_iff, decide_eq_true_iff, hm.read]
  rw [withFlagsOfTags, hstarred, hread]

/-- The message without the tag and with the flags that its other tags say. -/
def without (m : Message) (t : Tag) : Message :=
  (m.withTags (m.tags.erase t)).withFlagsOfTags

theorem FlagsMatch.without_eq_self (hm : m.FlagsMatch) (ht : t ∉ m.tags) : m.without t = m := by
  rw [without, TagSet.erase_eq_self ht]
  exact hm.withFlagsOfTags_eq

theorem FlagsMatch.without_inserted (hm : m.FlagsMatch) (ht : t ∉ m.tags) :
    ((m.withTags (m.tags.insert t)).withFlagsOfTags).without t = m := by
  have htags : (m.tags.insert t).erase t = m.tags := TagSet.erase_insert ht
  change (m.withTags ((m.tags.insert t).erase t)).withFlagsOfTags = m
  rw [htags]
  exact hm.withFlagsOfTags_eq

end Message

namespace Holdings

variable {h h' : Holdings} {m : Message} {t : Tag}

/-- A spelling that a stored message carries is the owner's from then on. -/
theorem Orderly.spelledTag_eq (ho' : h'.Orderly) (hm : m ∈ h'.messages)
    (ht : h.spelledTag m.ownerId t ∈ m.tags) :
    h'.spelledTag m.ownerId t = h.spelledTag m.ownerId t := by
  cases t with
  | custom name =>
    obtain ⟨l, hl, howner, hname⟩ := ho'.labelled m hm _ ht _ rfl
    have hsame : Text.sameName l.name name = true := hname ▸ h.sameName_spelled m.ownerId name
    rw [spelledTag, ← howner, ho'.spelled_eq hl hsame, hname, howner, spelledTag]
  | _ => rfl

end Holdings

namespace Mailroom

variable {σ : Type} {room mid : Mailroom σ} {h h' : Holdings} {owner id text : String} {t : Tag}
variable {x : Message} {u : Update}

/-- What a text names depends on the labels. -/
theorem Named.of_labels (ht : Named h owner text t) (hlabels : h.labels = h'.labels) :
    Named h' owner text t := by
  obtain ⟨messages, labels⟩ := h
  obtain ⟨messages', labels'⟩ := h'
  subst hlabels
  exact ⟨⟨ht.proper, ht.known⟩, ht.spells⟩

/-- A text that names a tag which the message carries adds nothing. -/
theorem addTag_carried (hs : room.primary.rows.Shows h) (ho : h.Orderly)
    (hsound : room.primary.Sound) (ht : tagOfText owner text room = .ok t mid) (hspam : t ≠ .spam)
    (hx : h.find? id = some x) (howner : x.ownerId = owner)
    (hadd : x.tags.add t = .ok (x.tags, false)) :
    Ends (addTag id owner text room) (fun u mid => u.changed = false ∧ Rests h room mid)
      (fun _ _ => False) := by
  have hrest : Rests h room mid := ((tagOfText_ends hs ho).ok t mid ht).2
  refine Ends.bind (Q := fun r s => r = t ∧ s = mid) (F := fun _ _ => False) ?_
    (fun r s hr => ?_) fun _ _ he => he
  · rw [ht]
    exact .of_ok ⟨rfl, rfl⟩
  obtain ⟨rfl, rfl⟩ := hr
  refine (ownMessage_found hrest.shows ho (hrest.sound hsound) hx howner).bind
    (fun m s' hm => ?_) fun _ _ he => he
  obtain ⟨rfl, hrest'⟩ := hm
  rw [if_neg hspam, hadd]
  exact .of_ok ⟨rfl, hrest.trans hrest'⟩

/-- Removing a tag says whether the message carried it. -/
theorem removeTag_named (hs : room.primary.rows.Shows h) (ho : h.Orderly)
    (hsound : room.primary.Sound) (ht : tagOfText owner text room = .ok t mid) (hspam : t ≠ .spam)
    (hx : h.find? id = some x) (howner : x.ownerId = owner) (hmatch : x.FlagsMatch) :
    Ends (removeTag id owner text room)
      (fun u mid => u.changed = decide (t ∈ x.tags) ∧ u.message = x.without t ∧
        Rests (h.put (x.without t)) room mid)
      (fun _ _ => False) := by
  have hrest : Rests h room mid := ((tagOfText_ends hs ho).ok t mid ht).2
  refine Ends.bind (Q := fun r s => r = t ∧ s = mid) (F := fun _ _ => False) ?_
    (fun r s hr => ?_) fun _ _ he => he
  · rw [ht]
    exact .of_ok ⟨rfl, rfl⟩
  obtain ⟨rfl, rfl⟩ := hr
  refine (ownMessage_found hrest.shows ho (hrest.sound hsound) hx howner).bind
    (fun m s' hm => ?_) fun _ _ he => he
  obtain ⟨rfl, hrest'⟩ := hm
  have hrest : Rests h room s' := hrest.trans hrest'
  rw [if_neg hspam]
  by_cases hmem : r ∈ m.tags
  · simp only [TagSet.remove, hmem, decide_true, if_true]
    refine (retag_ends hrest.shows ho hx howner (.untagged r)).bind (fun m' s'' hm' => ?_)
      fun _ _ he => he.2 (hrest.sound hsound)
    obtain ⟨rfl, -, hw⟩ := hm'
    exact .of_ok ⟨rfl, rfl, hrest.toAhead.trans hw.toAhead, hw.shows⟩
  · simp only [TagSet.remove, hmem, decide_false, Bool.false_eq_true, if_false]
    refine .of_ok ⟨rfl, (hmatch.without_eq_self hmem).symm, ?_⟩
    rw [hmatch.without_eq_self hmem, Holdings.put_eq_self ho.ids (Holdings.mem_of_find? hx).1]
    exact hrest

/-- Adding a tag leaves orderly holdings with the returned message, which carries the tag that the
text then names, and apart from a new label they differ from the holdings before in no more. -/
structure Added (h h' : Holdings) (owner id text : String) (t : Tag) (x : Message) (u : Update) :
    Prop where
  orderly : h'.Orderly
  adds : Adds h id t x u
  owned : u.message.ownerId = owner
  stored : h'.find? id = some u.message
  messages : h'.messages = (h.put u.message).messages
  named : ∀ t', Named h' owner text t' → t' = t
  same : u.changed = false → h' = h

/-- Two texts name the same tag of the owner's. -/
def NameOneTag (room : Mailroom σ) (owner text text' : String) : Prop :=
  ∃ t mid mid', tagOfText owner text room = .ok t mid ∧ tagOfText owner text' room = .ok t mid'

theorem Tagged.performed (ht : Tagged h owner id room mid u) (ho : h.Orderly) :
    ∃ acts, Wrote owner h acts room mid ∧ (h.after acts).messages = (h.put u.message).messages ∧
      (u.changed = false → acts = []) ∧ u.message.id = id ∧ u.message.ownerId = owner := by
  cases ht with
  | same hchanged hfound howner hrest =>
    obtain ⟨hmem, hid⟩ := Holdings.mem_of_find? hfound
    refine ⟨[], hrest.wrote, ?_, fun _ => rfl, hid, howner⟩
    rw [Holdings.put_eq_self ho.ids hmem]
    rfl
  | altered hchanged hedit hw =>
    refine ⟨_, hw, rfl, fun h => ?_, hedit.id_eq, hedit.ownerId⟩
    rw [hchanged] at h
    cases h
  | labelled l hchanged howner hcarried hedit hw =>
    refine ⟨_, hw, rfl, fun h => ?_, hedit.id_eq, hedit.ownerId⟩
    rw [hchanged] at h
    cases h

theorem addTag_added (hs : room.primary.rows.Shows h) (ho : h.Orderly)
    (hspam : Tag.ofName text ≠ .ok .spam) :
    Ends (addTag id owner text room)
      (fun u mid => ∃ h' t x, t ≠ .spam ∧ Added h h' owner id text t x u ∧
        mid.primary.rows.Shows h' ∧ room.Ahead mid)
      (fun _ mid => room.primary.Sound → Rests h room mid) := by
  refine (addTag_adds hs ho).mono (fun u mid hu => ?_) fun _ mid hu hsound => ?_
  · obtain ⟨htagged, t, hnamed, hadds⟩ := hu
    obtain ⟨t₀, hof, ht⟩ := hnamed.spells
    have hne : t ≠ .spam := by
      rw [ht]
      cases t₀ with
      | spam => exact absurd hof hspam
      | _ => exact Tag.noConfusion
    obtain ⟨x, hadds⟩ := hadds hne
    obtain ⟨acts, hw, hmessages, hsame, hid, howner⟩ := htagged.performed ho
    have ho' : (h.after acts).Orderly := ho.after hw.legal
    have hmem : u.message ∈ (h.after acts).messages := by
      rw [hmessages, Holdings.mem_put]
      · exact .inl rfl
      · obtain ⟨hx, hxid⟩ := Holdings.mem_of_find? hadds.found
        exact Holdings.mem_ids.mpr ⟨x, hx, hxid.trans hid.symm⟩
    refine ⟨h.after acts, t, x, hne, ⟨ho', hadds, howner, ?_, hmessages, fun t' ht' => ?_, ?_⟩,
      hw.shows, hw.toAhead⟩
    · rw [← hid]
      exact Holdings.find?_of_mem ho'.ids hmem
    · obtain ⟨t₁, hof', rfl⟩ := ht'.spells
      obtain rfl : t₀ = t₁ := Except.ok.inj (hof.symm.trans hof')
      subst ht howner
      exact ho'.spelledTag_eq hmem (hadds.mem_tags hne)
    · intro hchanged
      rw [hsame hchanged]
      rfl
  · cases hu with
    | rest hrest => exact hrest
    | stopped l hunsound => exact absurd hsound hunsound

theorem Added.tags (ha : Added h h' owner id text t x u) (hspam : t ≠ .spam) :
    u.message.tags = x.tags.insert t := by
  rw [ha.adds.message]
  split
  · rfl
  · next hsame =>
    have hmem : t ∈ u.message.tags := ha.adds.mem_tags hspam
    rw [ha.adds.message, if_neg hsame] at hmem
    exact (TagSet.insert_eq_self hmem).symm

theorem Added.not_mem (ha : Added h h' owner id text t x u) (hspam : t ≠ .spam)
    (hchanged : u.changed = true) : t ∉ x.tags := by
  have hadded := (TagSet.add_eq_ok hspam ha.adds.allowed).2.1
  simpa [hchanged] using hadded.symm

/-- Without the tag that was new to it, the message is what it was. -/
theorem Added.without_eq (ha : Added h h' owner id text t x u) (hspam : t ≠ .spam)
    (hmatch : h.FlagsMatch) (hchanged : u.changed = true) : u.message.without t = x := by
  have hmem : x ∈ h.messages := (Holdings.mem_of_find? ha.adds.found).1
  rw [ha.adds.message, if_pos hchanged]
  exact (hmatch x hmem).without_inserted (ha.not_mem hspam hchanged)

/-- With the message in its place again, all messages are what they were. -/
theorem Added.messages_put (ho : h.Orderly) (ha : Added h h' owner id text t x u)
    (hid : u.message.id = x.id) : (h'.put x).messages = h.messages := by
  have hmem : x ∈ h.messages := (Holdings.mem_of_find? ha.adds.found).1
  calc (h'.put x).messages
      = ((h.put u.message).put x).messages := by rw [Holdings.put, ha.messages]; rfl
    _ = h.messages := by rw [Holdings.put_put hid, Holdings.put_eq_self ho.ids hmem]

theorem NameOneTag.named {text' : String} (htexts : NameOneTag room owner text text')
    (hs : room.primary.rows.Shows h) (ho : h.Orderly)
    (hnamed : ∀ t', Named h owner text t' → t' = t) :
    ∃ mid, tagOfText owner text' room = .ok t mid := by
  obtain ⟨t', mid, mid', ht, ht'⟩ := htexts
  obtain rfl := hnamed t' ((tagOfText_ends hs ho).ok t' mid ht).1
  exact ⟨mid', ht'⟩

/-- The second of two removals finds nothing to remove. -/
theorem removeTag_again (hs : room.primary.rows.Shows h) (ho : h.Orderly)
    (hsound : room.primary.Sound) (hnamed : ∀ t', Named h owner text t' → t' = t)
    (hspam : t ≠ .spam) (hx : h.find? id = some x) (howner : x.ownerId = owner)
    (hmatch : x.FlagsMatch) (hmem : t ∉ x.tags) {text' : String}
    (htexts : NameOneTag room owner text text') :
    Ends (removeTag id owner text' room)
      (fun u again => u.changed = false ∧ again.primary.rows.Shows h) (fun _ _ => False) := by
  obtain ⟨mid, ht⟩ := htexts.named hs ho hnamed
  refine (removeTag_named hs ho hsound ht hspam hx howner hmatch).mono (fun u again hu => ?_)
    fun _ _ he => he
  obtain ⟨hchanged, -, hrest⟩ := hu
  refine ⟨by simpa [hmem] using hchanged, ?_⟩
  have hx' : x ∈ h.messages := (Holdings.mem_of_find? hx).1
  rw [hmatch.without_eq_self hmem, Holdings.put_eq_self ho.ids hx'] at hrest
  exact hrest.shows

/-- In every state that a run leaves, and as long as the database does not fail from then on: what a
text other than one for spam adds to a message is taken away again by every text that names the same
tag afterwards, and the messages are what they were. What was added is not added a second time, and
what was removed is not removed a second time. -/
theorem tag_round_trip (room : Mailroom σ) (hv : room.Vacant) (events : List Event)
    (hsound : (room.after events).primary.Sound) (id owner text : String)
    (hspam : Tag.ofName text ≠ .ok .spam) :
    let before := room.after events
    Ends (addTag id owner text before)
      (fun u added =>
        (u.changed = false → added.holdings = before.holdings) ∧
        ∀ text', NameOneTag added owner text text' →
          Ends (addTag id owner text' added)
            (fun u' again => u'.changed = false ∧ again.holdings = added.holdings)
            (fun _ _ => False) ∧
          (u.changed = true → Ends (removeTag id owner text' added)
            (fun u' removed => u'.changed = true ∧
              before.holdings.find? id = some u'.message ∧
              removed.holdings = ⟨before.holdings.messages, added.holdings.labels⟩ ∧
              ∀ text'', NameOneTag removed owner text text'' →
                Ends (removeTag id owner text'' removed)
                  (fun u'' again => u''.changed = false ∧ again.holdings = removed.holdings)
                  (fun _ _ => False))
            (fun _ _ => False)))
      (fun _ mid => mid.holdings = before.holdings) := by
  intro before
  have ho : before.Orderly := hv.orderly.after events
  have hflags : before.holdings.FlagsMatch := hv.flagsMatch_after events
  refine (addTag_added ho.shows ho.holdings hspam).mono (fun u added hu => ?_) fun _ mid hrest => ?_
  swap
  · exact holdings_eq (hrest hsound).shows ho.holdings
  obtain ⟨h', t, x, hne, ha, hs', hahead⟩ := hu
  have ho' : h'.Orderly := ha.orderly
  have hsound' : added.primary.Sound := hahead.sound hsound
  have hadded : added.holdings = h' := holdings_eq hs' ho'
  have hmem : t ∈ u.message.tags := ha.adds.mem_tags hne
  have hmatch : u.message.FlagsMatch := by
    rw [ha.adds.message]
    split
    · exact Message.flagsMatch_withFlagsOfTags _
    · exact hflags x (Holdings.mem_of_find? ha.adds.found).1
  refine ⟨fun hchanged => hadded.trans (ha.same hchanged), fun text' htexts => ⟨?_, ?_⟩⟩
  · obtain ⟨mid, ht⟩ := htexts.named hs' ho' ha.named
    have hadd : u.message.tags.add t = .ok (u.message.tags, false) := by
      rw [ha.tags hne]
      exact TagSet.add_again hne ha.adds.allowed
    refine (addTag_carried hs' ho' hsound' ht hne ha.stored ha.owned hadd).mono
      (fun u' again hu' => ⟨hu'.1, ?_⟩) fun _ _ he => he
    rw [hadded]
    exact holdings_eq hu'.2.shows ho'
  · intro hchanged
    obtain ⟨mid, ht⟩ := htexts.named hs' ho' ha.named
    refine (removeTag_named hs' ho' hsound' ht hne ha.stored ha.owned hmatch).mono
      (fun u' removed hu' => ?_) fun _ _ he => he
    obtain ⟨hchanged', hmessage, hrest⟩ := hu'
    have hwithout : u.message.without t = x := ha.without_eq hne hflags hchanged
    have hfits : h'.Fits owner (fun _ => True) (.alter (u.message.without t)) :=
      ⟨u.message, (Holdings.mem_of_find? ha.stored).1, ha.owned, .untagged t⟩
    have ho'' : (h'.put x).Orderly := hwithout ▸ ho'.alter hfits
    have hid : u.message.id = x.id := by
      rw [← hwithout]
      rfl
    have howner : x.ownerId = owner := by
      rw [← hwithout]
      exact ha.owned
    have hmessages : (h'.put x).messages = before.holdings.messages :=
      ha.messages_put ho.holdings hid
    have hx : (h'.put x).find? id = some x := by
      rw [Holdings.find?, hmessages]
      exact ha.adds.found
    rw [hwithout] at hmessage hrest
    have hremoved : removed.holdings = h'.put x := holdings_eq hrest.shows ho''
    refine ⟨by simpa [hmem] using hchanged', hmessage ▸ ha.adds.found, ?_, fun text'' htexts' => ?_⟩
    · rw [hremoved, hadded, ← hmessages]
      rfl
    · refine (removeTag_again hrest.shows ho'' (hrest.sound hsound')
        (fun t' ht' => ha.named t' (ht'.of_labels rfl)) hne hx howner
        (hflags x (Holdings.mem_of_find? ha.adds.found).1) (ha.not_mem hne hchanged)
        htexts').mono (fun u'' again hu'' => ⟨hu''.1, ?_⟩) fun _ _ he => he
      rw [hremoved]
      exact holdings_eq hu''.2 ho''

/-- The first use of a name makes a label, which other letters then name. -/
theorem tag_round_trip_recased :
    sample.Vacant ∧ (sample.after delivered).primary.Sound ∧ Tag.ofName "Work" ≠ .ok .spam ∧
    ∃ u added, addTag "u" "bob" "Work" (sample.after delivered) = .ok u added ∧
      u.changed = true ∧ NameOneTag added "bob" "Work" " WORK " ∧
      ∃ u' removed, removeTag "u" "bob" " WORK " added = .ok u' removed ∧ u'.changed = true ∧
        (sample.after delivered).holdings.find? "u" = some u'.message := by
  have hv : sample.Vacant := ⟨rfl, rfl⟩
  have hsound : (sample.after delivered).primary.Sound := (sound_sample delivered).1
  have hspam : Tag.ofName "Work" ≠ .ok .spam := by decide +kernel
  refine ⟨hv, hsound, hspam, ?_⟩
  obtain ⟨htrip, -⟩ := tag_round_trip sample hv delivered hsound "u" "bob" "Work" hspam
  let added : Mailroom Unit := state (addTag "u" "bob" "Work" (sample.after delivered))
  have hadded : ((addTag "u" "bob" "Work").run' (sample.after delivered)).map Update.changed =
      some true := by decide +kernel
  have hwork : (tagOfText "bob" "Work").run' added = some (.custom "Work") := by decide +kernel
  have hcapitals : (tagOfText "bob" " WORK ").run' added = some (.custom "Work") := by
    decide +kernel
  obtain ⟨u, hrun, hchanged⟩ := Option.map_eq_some_iff.mp hadded
  obtain ⟨mid, hadd⟩ := ok_of_run' hrun
  obtain rfl : added = mid := congrArg state hadd
  obtain ⟨s, hs⟩ := ok_of_run' hwork
  obtain ⟨s', hs'⟩ := ok_of_run' hcapitals
  have hname : NameOneTag added "bob" "Work" " WORK " := ⟨_, s, s', hs, hs'⟩
  refine ⟨u, added, hadd, hchanged, hname, ?_⟩
  have hremove := ((htrip u added hadd).2 " WORK " hname).2 hchanged
  cases hr : removeTag "u" "bob" " WORK " added with
  | error e mid => exact (hremove.error e mid hr).elim
  | ok u' removed =>
    obtain ⟨hchanged', hmessage, -, -⟩ := hremove.ok u' removed hr
    exact ⟨u', removed, rfl, hchanged', hmessage⟩

end Mailroom

end LabelMail
