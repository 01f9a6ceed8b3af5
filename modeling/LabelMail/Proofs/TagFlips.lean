import LabelMail.Proofs.Flags
import LabelMail.Proofs.StoredTags

/-!
Into the archive or the trash and back. Both moves are one rule for two tags: a message leaves the
inbox for the place, and on the way back it returns to the inbox only if nothing else places it. So
the second move does not always undo the first one, but what it may miss is the tag of the inbox and
no other. Main statement: two moves in a row give a set back just if it has the tag for the inbox
exactly where the second move leaves it.
-/
namespace LabelMail.TagSet

open Tag (inbox sent drafts spam archive trash)

variable {s tags : TagSet} {t u : Tag} {b : Bool}

/-- Puts the message where the tag places it, or takes it away from there. -/
def move (s : TagSet) (t : Tag) : TagSet :=
  if t ∈ s then (s.erase t).restoreInbox else (s.erase inbox).insert t

/-- No tag puts the message somewhere else than into the inbox. -/
def Unplaced (s : TagSet) : Prop := ∀ t ∈ s, t.isPlacement = false

theorem flipTrash_eq_move (s : TagSet) : s.flipTrash.1 = s.move trash := by
  unfold flipTrash move
  split <;> rfl

theorem eq_move_of_flipArchive (hflip : s.flipArchive = .ok (tags, b)) : tags = s.move archive := by
  unfold flipArchive at hflip
  unfold move
  split at hflip
  · next harchive =>
    rw [if_pos harchive]
    exact (Prod.mk.inj (Except.ok.inj hflip)).1.symm
  · next harchive =>
    split at hflip
    · cases hflip
    · rw [if_neg harchive]
      exact (Prod.mk.inj (Except.ok.inj hflip)).1.symm

theorem restoreInbox_of_unplaced (hs : s.Unplaced) : s.restoreInbox = s.insert inbox := by
  unfold restoreInbox
  rw [if_neg]
  intro hany
  obtain ⟨t, ht, hplaces⟩ := List.any_eq_true.mp hany
  rw [hs t ht] at hplaces
  cases hplaces

theorem restoreInbox_of_placed (hs : ¬ s.Unplaced) : s.restoreInbox = s := by
  unfold restoreInbox
  rw [if_pos]
  rw [Unplaced] at hs
  push Not at hs
  obtain ⟨t, ht, hplaces⟩ := hs
  exact List.any_eq_true.mpr ⟨t, ht, by simpa using hplaces⟩

theorem unplaced_erase_inbox : (s.erase inbox).Unplaced ↔ s.Unplaced := by
  constructor
  · intro hs t ht
    by_cases hinbox : t = inbox
    · rw [hinbox]
      rfl
    · exact hs t (mem_erase.mpr ⟨ht, hinbox⟩)
  · exact fun hs t ht => hs t (mem_erase.mp ht).1

theorem erase_eq_self_iff : s.erase t = s ↔ t ∉ s := by
  refine ⟨fun h ht => ?_, erase_eq_self⟩
  rw [← h] at ht
  exact (mem_erase.mp ht).2 rfl

theorem insert_eq_self_iff : s.insert t = s ↔ t ∈ s :=
  ⟨fun h => h ▸ mem_insert.mpr (.inl rfl), insert_eq_self⟩

theorem erase_insert_self : (s.erase t).insert t = s.insert t := by
  ext u
  rw [mem_insert, mem_erase, mem_insert]
  tauto

theorem mem_move (hu : u ≠ inbox) (hut : u ≠ t) : u ∈ s.move t ↔ u ∈ s := by
  unfold move
  split
  · simp [mem_restoreInbox_iff hu, hut]
  · simp [hu, hut]

theorem not_mem_restoreInbox_erase (hne : t ≠ inbox) : t ∉ (s.erase t).restoreInbox := by
  rw [mem_restoreInbox_iff hne, mem_erase]
  exact fun h => h.2 rfl

/-- A message that was away comes back without the tag for the inbox. -/
theorem move_move_of_mem (ht : t ∈ s) (hne : t ≠ inbox) : (s.move t).move t = s.erase inbox := by
  have haway : t ∉ (s.erase t).restoreInbox := not_mem_restoreInbox_erase hne
  have hmoved : s.move t = (s.erase t).restoreInbox := if_pos ht
  rw [hmoved, move, if_neg haway]
  -- whether or not the first move gave the inbox back, the second one takes it away
  ext u
  by_cases hu : u = inbox
  · simp [hu, hne.symm]
  · by_cases hut : u = t
    · simp [hut, ht, hne]
    · simp [mem_restoreInbox_iff hu, hu, hut]

/-- A message that was not there comes back with the tag for the inbox just if nothing else places
it. -/
theorem move_move_of_not_mem (ht : t ∉ s) : (s.move t).move t = (s.erase inbox).restoreInbox := by
  have haway : t ∉ s.erase inbox := fun h => ht (mem_erase.mp h).1
  have hmoved : s.move t = (s.erase inbox).insert t := if_neg ht
  have hthere : t ∈ (s.erase inbox).insert t := mem_insert.mpr (.inl rfl)
  rw [hmoved, move, if_pos hthere, erase_insert haway]

theorem move_move_eq_self_iff (hne : t ≠ inbox) :
    (s.move t).move t = s ↔ (t ∈ s ∧ inbox ∉ s) ∨ (t ∉ s ∧ (inbox ∈ s ↔ s.Unplaced)) := by
  by_cases ht : t ∈ s
  · rw [move_move_of_mem ht hne, erase_eq_self_iff]
    simp [ht]
  · rw [move_move_of_not_mem ht]
    by_cases hs : s.Unplaced
    · rw [restoreInbox_of_unplaced (unplaced_erase_inbox.mpr hs), erase_insert_self,
        insert_eq_self_iff]
      simp [ht, hs]
    · rw [restoreInbox_of_placed (unplaced_erase_inbox.not.mpr hs), erase_eq_self_iff]
      simp [ht, hs]

theorem mem_move_move (hne : t ≠ inbox) (hu : u ≠ inbox) : u ∈ (s.move t).move t ↔ u ∈ s := by
  by_cases ht : t ∈ s
  · rw [move_move_of_mem ht hne]
    simp [hu]
  · rw [move_move_of_not_mem ht, mem_restoreInbox_iff hu]
    simp [hu]

theorem unplaced_iff :
    s.Unplaced ↔ sent ∉ s ∧ drafts ∉ s ∧ spam ∉ s ∧ archive ∉ s ∧ trash ∉ s := by
  constructor
  · intro hs
    refine ⟨fun h => ?_, fun h => ?_, fun h => ?_, fun h => ?_, fun h => ?_⟩
    all_goals cases hs _ h
  · rintro ⟨hsent, hdrafts, hspam, harchive, htrash⟩ t ht
    cases t with
    | sent => exact absurd ht hsent
    | drafts => exact absurd ht hdrafts
    | spam => exact absurd ht hspam
    | archive => exact absurd ht harchive
    | trash => exact absurd ht htrash
    | inbox | starred | read | custom name => rfl

/-- Only out of spam the archive is refused. -/
theorem flipArchive_eq_error_iff {e : Failure} :
    s.flipArchive = .error e ↔ (archive ∉ s ∧ spam ∈ s) ∧
      e = .conflict "message is marked as spam; unmark it before archiving" := by
  unfold flipArchive
  split
  · next harchive => simp [harchive]
  · next harchive =>
    split
    · next hspam =>
      rw [isSpam_eq_true] at hspam
      simp [harchive, hspam, eq_comm]
    · next hspam =>
      rw [isSpam_eq_true] at hspam
      simp [hspam]

theorem changed_flipTrash_twice (s : TagSet) :
    s.changed [.flipTrash, .flipTrash] = (s.move trash).move trash := by
  change s.flipTrash.1.flipTrash.1 = _
  rw [flipTrash_eq_move, flipTrash_eq_move]

theorem change_flipArchive_of_refused {e : Failure} (he : s.flipArchive = .error e) :
    s.change .flipArchive = s := by
  rw [change, he]
  rfl

theorem change_flipArchive (hspam : spam ∉ s) : s.change .flipArchive = s.move archive := by
  rw [change]
  cases hflip : s.flipArchive with
  | ok r => exact eq_move_of_flipArchive hflip
  | error e => exact absurd (flipArchive_eq_error_iff.mp hflip).1.2 hspam

theorem changed_flipArchive_twice (hspam : spam ∉ s) :
    s.changed [.flipArchive, .flipArchive] = (s.move archive).move archive := by
  have hspam' : spam ∉ s.move archive := (mem_move (by decide) (by decide)).not.mpr hspam
  change (s.change .flipArchive).change .flipArchive = _
  rw [change_flipArchive hspam, change_flipArchive hspam']

/-- A message that is in spam is not archived however often that is tried. -/
theorem changed_flipArchive_twice_of_spam (harchive : archive ∉ s) (hspam : spam ∈ s) :
    s.changed [.flipArchive, .flipArchive] = s := by
  have hrefused := flipArchive_eq_error_iff.mpr ⟨⟨harchive, hspam⟩, rfl⟩
  change (s.change .flipArchive).change .flipArchive = _
  rw [change_flipArchive_of_refused hrefused, change_flipArchive_of_refused hrefused]

/-- Two moves into the trash and back give the set back just if it is in the trash without the tag
for the inbox, or has that tag exactly if nothing else places it. The same holds of the archive,
but in spam both moves are refused. Whatever the set, no tag but that for the inbox is changed. -/
theorem moves_restore_iff (hs : s.SpamExcludes Tag.isFolderLike) :
    (s.changed [.flipTrash, .flipTrash] = s ↔
      (trash ∈ s ∧ inbox ∉ s) ∨
      (trash ∉ s ∧ (inbox ∈ s ↔ sent ∉ s ∧ drafts ∉ s ∧ spam ∉ s ∧ archive ∉ s))) ∧
    (s.changed [.flipArchive, .flipArchive] = s ↔
      spam ∈ s ∨ (archive ∈ s ∧ inbox ∉ s) ∨
      ((spam ∉ s ∧ archive ∉ s) ∧ (inbox ∈ s ↔ sent ∉ s ∧ drafts ∉ s ∧ trash ∉ s))) ∧
    (s.flipArchive = .error (.conflict "message is marked as spam; unmark it before archiving") ↔
      spam ∈ s) ∧
    ∀ u, u ≠ inbox → (u ∈ s.changed [.flipTrash, .flipTrash] ↔ u ∈ s) ∧
      (u ∈ s.changed [.flipArchive, .flipArchive] ↔ u ∈ s) := by
  have harchive (hspam : spam ∈ s) : archive ∉ s := fun h => by cases hs hspam archive h
  rw [changed_flipTrash_twice]
  refine ⟨?_, ?_, ?_, fun u hu => ⟨mem_move_move (by decide) hu, ?_⟩⟩
  · rw [move_move_eq_self_iff (by decide), unplaced_iff]
    tauto
  · by_cases hspam : spam ∈ s
    · rw [changed_flipArchive_twice_of_spam (harchive hspam) hspam]
      simp [hspam]
    · rw [changed_flipArchive_twice hspam, move_move_eq_self_iff (by decide), unplaced_iff]
      tauto
  · rw [flipArchive_eq_error_iff]
    simpa using harchive
  · by_cases hspam : spam ∈ s
    · rw [changed_flipArchive_twice_of_spam (harchive hspam) hspam]
    · rw [changed_flipArchive_twice hspam]
      exact mem_move_move (by decide) hu

/-- A message in the inbox that was added to the archive as well: to the trash and back it loses the
tag for the inbox, and so it does out of the archive and back. -/
theorem moves_restore_iff_doubly_placed :
    let s := ofList [inbox, archive, .custom "work"]
    s.SpamExcludes Tag.isFolderLike ∧ s.changed [.flipTrash, .flipTrash] ≠ s ∧
    s.changed [.flipArchive, .flipArchive] ≠ s ∧
    Tag.custom "work" ∈ s.changed [.flipTrash, .flipTrash] ∧
    Tag.custom "work" ∈ s.changed [.flipArchive, .flipArchive] := by
  intro s
  have hs : s.SpamExcludes Tag.isFolderLike := spamExcludes_of_not_mem (by decide)
  obtain ⟨htrash, harchive, -, hkept⟩ := moves_restore_iff hs
  have hwork := hkept (.custom "work") Tag.noConfusion
  refine ⟨hs, htrash.not.mpr (by decide), harchive.not.mpr (by decide), ?_, ?_⟩
  · exact hwork.1.mpr (by decide)
  · exact hwork.2.mpr (by decide)

end LabelMail.TagSet
