import LabelMail.Proofs.Mailroom.Telling

/-!
Flags and tags. Whether a message is starred or read is stored twice, as a flag and as a tag. Some
changes set both, others take the flags from the tags, and the rest touch neither of the two tags,
so that flags and tags say the same of every message that is ever stored or returned.
-/
namespace LabelMail

namespace TagSet

variable {s tags : TagSet} {t u : Tag} {b : Bool}

theorem mem_restoreInbox_iff (hu : u ≠ .inbox) : u ∈ s.restoreInbox ↔ u ∈ s := by
  unfold restoreInbox
  split
  · rfl
  · simp [hu]

/-- Moving a message into the trash or back touches no tags but those of the trash and the inbox. -/
theorem mem_flipTrash_iff (hinbox : u ≠ .inbox) (htrash : u ≠ .trash) :
    u ∈ s.flipTrash.1 ↔ u ∈ s := by
  unfold flipTrash
  split
  · simp [mem_restoreInbox_iff hinbox, htrash]
  · simp [hinbox, htrash]

theorem mem_flipArchive_iff (hflip : s.flipArchive = .ok (tags, b)) (hinbox : u ≠ .inbox)
    (harchive : u ≠ .archive) : u ∈ tags ↔ u ∈ s := by
  unfold flipArchive at hflip
  split at hflip
  · obtain ⟨rfl, -⟩ := Prod.mk.inj (Except.ok.inj hflip)
    simp [mem_restoreInbox_iff hinbox, harchive]
  · split at hflip
    · cases hflip
    · obtain ⟨rfl, -⟩ := Prod.mk.inj (Except.ok.inj hflip)
      simp [hinbox, harchive]

end TagSet

namespace Message

/-- The flags say the same as the tags. -/
structure FlagsMatch (m : Message) : Prop where
  starred : m.starred = true ↔ .starred ∈ m.tags
  read : m.read = true ↔ .read ∈ m.tags

variable {labels : List Label} {m m' : Message} {tags : TagSet} {t u : Tag} {b : Bool}
variable {caller : String}

theorem mem_setTag_self : t ∈ setTag b t tags ↔ b = true := by
  cases b <;> simp [setTag]

theorem mem_setTag_of_ne (hu : u ≠ t) : u ∈ setTag b t tags ↔ u ∈ tags := by
  cases b <;> simp [setTag, hu]

theorem flagsMatch_withFlagsOfTags (m : Message) : m.withFlagsOfTags.FlagsMatch :=
  ⟨decide_eq_true_iff, decide_eq_true_iff⟩

/-- Tags may change without the flags if the two tags that have flags do not. -/
theorem FlagsMatch.withTags (hm : m.FlagsMatch) (hstarred : .starred ∈ tags ↔ .starred ∈ m.tags)
    (hread : .read ∈ tags ↔ .read ∈ m.tags) : (m.withTags tags).FlagsMatch :=
  ⟨hm.starred.trans hstarred.symm, hm.read.trans hread.symm⟩

theorem FlagsMatch.flipStar (hm : m.FlagsMatch) : m.flipStar.FlagsMatch where
  starred := mem_setTag_self.symm
  read := hm.read.trans (mem_setTag_of_ne (by decide)).symm

theorem FlagsMatch.setRead (hm : m.FlagsMatch) (b : Bool) : (m.setRead b).1.FlagsMatch where
  starred := hm.starred.trans (mem_setTag_of_ne (by decide)).symm
  read := mem_setTag_self.symm

theorem New.flagsMatch (h : m.New caller) : m.FlagsMatch := by
  have hplain : .starred ∉ m.tags ∧ .read ∉ m.tags := by
    rcases h.placed with ⟨-, htags | htags⟩ | ⟨-, htags | htags⟩
    all_goals
      rw [htags]
      decide
  constructor
  · simp [h.unstarred, hplain.1]
  · simp [h.unread, hplain.2]

theorem Edit.flagsMatch (h : m.Edit labels m') (hm : m.FlagsMatch) : m'.FlagsMatch := by
  cases h with
  | tagged hspam hproper hlabel hadd => exact flagsMatch_withFlagsOfTags _
  | untagged t => exact flagsMatch_withFlagsOfTags _
  | condemned => exact flagsMatch_withFlagsOfTags _
  | starred => exact hm.flipStar
  | archived hflip =>
    apply hm.withTags
    · exact TagSet.mem_flipArchive_iff hflip (by decide) (by decide)
    · exact TagSet.mem_flipArchive_iff hflip (by decide) (by decide)
  | trashed =>
    apply hm.withTags
    · exact TagSet.mem_flipTrash_iff (by decide) (by decide)
    · exact TagSet.mem_flipTrash_iff (by decide) (by decide)
  | read b => exact hm.setRead b
  | rewritten subject content => exact ⟨hm.starred, hm.read⟩

end Message

namespace Holdings

variable {h : Holdings} {a : Act} {caller : String} {fresh : String → Prop}

def FlagsMatch (h : Holdings) : Prop :=
  ∀ m ∈ h.messages, m.FlagsMatch

/-- A label's tag is never one of the two that have flags. -/
theorem FlagsMatch.apply (hmatch : h.FlagsMatch) (hfits : h.Fits caller fresh a) :
    (h.apply a).FlagsMatch := by
  intro m hm
  cases hfits.arises hm with
  | kept hm => exact hmatch m hm
  | entered hid hnew => exact hnew.flagsMatch
  | edited hx hedit => exact hedit.flagsMatch (hmatch _ hx)
  | renamed hx => exact (hmatch _ hx).withTags (by simp) (by simp)
  | stripped hx => exact (hmatch _ hx).withTags (by simp) (by simp)

end Holdings

namespace Mailroom

variable {σ : Type} {room : Mailroom σ}

theorem Vacant.flagsMatch_after (hv : room.Vacant) (events : List Event) :
    (room.after events).holdings.FlagsMatch := by
  refine hv.orderly.kept_after (fun _ _ _ _ hmatch hfits => hmatch.apply hfits) ?_ events
  intro m hm
  rw [holdings, Primary.Rows.holdings, hv.messages] at hm
  cases hm

/-- Flags and tags agree along every run, whatever fails: every stored row can be read and its
flags are those that its tags say, and what a call returns is stored in the same way. -/
theorem flags_agree_with_tags (room : Mailroom σ) (hv : room.Vacant) (events : List Event) :
    (∀ row ∈ (room.after events).primary.rows.messages, ∃ m, row.message = .ok m ∧
      (row.starred = true ↔ .starred ∈ m.tags) ∧ (row.read = true ↔ .read ∈ m.tags)) ∧
    ∀ e o, (room.after events).outcome e = some o → ∀ m ∈ o.told,
      m ∈ ((room.after events).step e).holdings.messages ∧
      (m.starred = true ↔ .starred ∈ m.tags) ∧ (m.read = true ↔ .read ∈ m.tags) := by
  have ho : (room.after events).Orderly := hv.orderly.after events
  constructor
  · intro row hrow
    rw [ho.shows.messages] at hrow
    obtain ⟨m, hm, rfl⟩ := List.mem_map.mp hrow
    have hmatch : m.FlagsMatch := hv.flagsMatch_after events m hm
    exact ⟨m, (ho.holdings.storable m hm).stored_message, hmatch.starred, hmatch.read⟩
  · intro e o hout m hm
    have hstored : m ∈ ((room.after events).step e).holdings.messages := ho.tells_step hout hm
    have hmatch : m.FlagsMatch := by
      rw [← after_concat] at hstored
      exact hv.flagsMatch_after (events ++ [e]) m hstored
    exact ⟨hstored, hmatch.starred, hmatch.read⟩

/-- A delivery that gets its star by the flag and is marked as read by the tag. -/
def flaggedBothWays : List Event :=
  [⟨"alice", 0, .send ⟨some "bob", some "s", some "c"⟩ false⟩,
    ⟨"bob", 0, .flipStar "u"⟩,
    ⟨"bob", 0, .changeLabel "u" ⟨some "read", .add⟩⟩]

theorem flags_agree_with_tags_sample :
    sample.Vacant ∧
    (∃ row ∈ (sample.after flaggedBothWays).primary.rows.messages, row.starred = true ∧
      row.read = true ∧ ∃ m, row.message = .ok m ∧ .starred ∈ m.tags ∧ .read ∈ m.tags) ∧
    ∃ o, (sample.after flaggedBothWays).outcome ⟨"bob", 0, .flipTrash "u"⟩ = some o ∧
      ∃ m ∈ o.told, m.starred = true ∧ .starred ∈ m.tags := by
  have hv : sample.Vacant := ⟨rfl, rfl⟩
  obtain ⟨hrows, htold⟩ := flags_agree_with_tags sample hv flaggedBothWays
  refine ⟨hv, ?_, ?_⟩
  · obtain ⟨row, hrow, hstarred, hread⟩ :
        ∃ row ∈ (sample.after flaggedBothWays).primary.rows.messages,
          row.starred = true ∧ row.read = true := by decide +kernel
    obtain ⟨m, hm, hstarred', hread'⟩ := hrows row hrow
    exact ⟨row, hrow, hstarred, hread, m, hm, hstarred'.mp hstarred, hread'.mp hread⟩
  · have hout : ((sample.after flaggedBothWays).outcome ⟨"bob", 0, .flipTrash "u"⟩).any
        (fun o => o.told.any (·.starred)) = true := by decide +kernel
    obtain ⟨o, hout, hm⟩ := (Option.any_eq_true _ _).mp hout
    obtain ⟨m, hm, hstarred⟩ := List.any_eq_true.mp hm
    obtain ⟨-, hstarred', -⟩ := htold _ o hout m hm
    exact ⟨o, hout, m, hm, hstarred, hstarred'.mp hstarred⟩

end Mailroom

end LabelMail
