import LabelMail.Folder

/-!
The rules for changing a set of tags, as what each change does to the members. No change under the
rules puts a folder-like tag beside the one for spam.
-/
namespace LabelMail.TagSet

open Tag (spam inbox archive trash)

variable {s tags : TagSet} {t u : Tag} {b : Bool}

@[simp] theorem isSpam_eq_true : s.isSpam = true ↔ spam ∈ s := by
  simp [isSpam]

theorem erase_insert (ht : t ∉ s) : (s.insert t).erase t = s := by
  ext u
  rw [mem_erase, mem_insert]
  constructor
  · rintro ⟨rfl | hu, hne⟩
    · exact absurd rfl hne
    · exact hu
  · exact fun hu => ⟨.inr hu, fun heq => ht (heq ▸ hu)⟩

theorem insert_erase (ht : t ∈ s) : (s.erase t).insert t = s := by
  ext u
  rw [mem_insert, mem_erase]
  constructor
  · rintro (rfl | hu)
    · exact ht
    · exact hu.1
  · exact fun hu => (Decidable.em (u = t)).imp_right fun hne => ⟨hu, hne⟩

theorem erase_eq_self (ht : t ∉ s) : s.erase t = s := by
  ext u
  rw [mem_erase]
  exact ⟨And.left, fun hu => ⟨hu, fun heq => ht (heq ▸ hu)⟩⟩

theorem insert_eq_self (ht : t ∈ s) : s.insert t = s := by
  ext u
  rw [mem_insert]
  exact ⟨fun hu => hu.elim (fun heq => heq ▸ ht) id, .inr⟩

theorem length_insertSorted {l : List Tag} (ht : t ∉ l) :
    (insertSorted t l).length = l.length + 1 := by
  induction l with
  | nil => rfl
  | cons v r ih =>
    obtain ⟨hne, hr⟩ := not_or.mp fun h => ht (List.mem_cons.mpr h)
    rw [insertSorted, if_neg hne]
    split
    · rfl
    · rw [List.length_cons, ih hr, List.length_cons]

theorem size_insert (ht : t ∉ s) : (s.insert t).size = s.size + 1 :=
  length_insertSorted ht

/-- Where a tag takes the place of another, there are as many as before. -/
theorem size_exchange (ht : t ∈ s) (hu : u ∉ s.erase t) :
    ((s.erase t).insert u).size = s.size := by
  have hfree : t ∉ s.erase t := fun h => (mem_erase.mp h).2 rfl
  calc ((s.erase t).insert u).size
      = (s.erase t).size + 1 := size_insert hu
    _ = ((s.erase t).insert t).size := (size_insert hfree).symm
    _ = s.size := by rw [insert_erase ht]

theorem mem_customNames {name : String} : name ∈ s.customNames ↔ .custom name ∈ s := by
  unfold customNames
  rw [List.mem_filterMap]
  constructor
  · rintro ⟨t, ht, hname⟩
    cases t with
    | custom n =>
      obtain rfl := Option.some.inj hname
      exact ht
    | _ => cases hname
  · exact fun h => ⟨.custom name, h, rfl⟩

theorem mem_intoSpam : u ∈ s.intoSpam.1 ↔ u = spam ∨ (u ∈ s ∧ u.isFolderLike = false) := by
  simp [intoSpam]

/-- Any tag but that for spam is added as it is, unless spam forbids it. -/
theorem add_eq_ok (ht : t ≠ spam) (hadd : s.add t = .ok (tags, b)) :
    tags = s.insert t ∧ b = !decide (t ∈ s) ∧ ¬ (t.isFolderLike = true ∧ spam ∈ s) := by
  unfold add at hadd
  rw [if_neg ht] at hadd
  split at hadd
  · cases hadd
  · next hfree =>
    obtain ⟨htags, hb⟩ := Prod.mk.inj (Except.ok.inj hadd)
    refine ⟨htags.symm, hb.symm, fun hspam => hfree ?_⟩
    simp [hspam]

theorem restoreInbox_of_mem_spam (hs : spam ∈ s) : s.restoreInbox = s := by
  unfold restoreInbox
  rw [if_pos (List.any_eq_true.mpr ⟨spam, hs, rfl⟩)]

theorem mem_or_eq_inbox_of_mem_restoreInbox (hu : u ∈ s.restoreInbox) : u ∈ s ∨ u = inbox := by
  unfold restoreInbox at hu
  split at hu
  · exact .inl hu
  · exact (mem_insert.mp hu).symm

/-- Flipping takes a tag away or adds it, and otherwise only touches the tag for the inbox. -/
theorem mem_of_mem_flipTrash (hu : u ∈ s.flipTrash.1) : u ∈ s ∨ u = inbox ∨ u = trash := by
  unfold flipTrash at hu
  split at hu
  · rcases mem_or_eq_inbox_of_mem_restoreInbox hu with hu | rfl
    · exact .inl (mem_erase.mp hu).1
    · exact .inr (.inl rfl)
  · rcases mem_insert.mp hu with rfl | hu
    · exact .inr (.inr rfl)
    · exact .inl (mem_erase.mp hu).1

theorem mem_of_mem_flipArchive (hflip : s.flipArchive = .ok (tags, b)) (hu : u ∈ tags) :
    u ∈ s ∨ u = inbox ∨ u = archive := by
  unfold flipArchive at hflip
  split at hflip
  · obtain ⟨rfl, -⟩ := Prod.mk.inj (Except.ok.inj hflip)
    rcases mem_or_eq_inbox_of_mem_restoreInbox hu with hu | rfl
    · exact .inl (mem_erase.mp hu).1
    · exact .inr (.inl rfl)
  · split at hflip
    · cases hflip
    · obtain ⟨rfl, -⟩ := Prod.mk.inj (Except.ok.inj hflip)
      rcases mem_insert.mp hu with rfl | hu
      · exact .inr (.inr rfl)
      · exact .inl (mem_erase.mp hu).1

/-- Beside spam there is no tag of kind `p`. -/
def SpamExcludes (p : Tag → Bool) (s : TagSet) : Prop :=
  spam ∈ s → ∀ t ∈ s, p t = false

variable {p : Tag → Bool}

theorem SpamExcludes.of_subset (hs : s.SpamExcludes p) (hsub : ∀ u ∈ tags, u ∈ s) :
    tags.SpamExcludes p :=
  fun hspam u hu => hs (hsub spam hspam) u (hsub u hu)

theorem SpamExcludes.insert (hs : s.SpamExcludes p) (ht : t ≠ spam)
    (hfree : spam ∈ s → p t = false) : (s.insert t).SpamExcludes p := by
  intro hspam u hu
  have hspam' : spam ∈ s := (mem_insert.mp hspam).resolve_left (Ne.symm ht)
  rcases mem_insert.mp hu with rfl | hu
  · exact hfree hspam'
  · exact hs hspam' u hu

theorem spamExcludes_of_not_mem (hs : spam ∉ s) : s.SpamExcludes p := fun h => absurd h hs

theorem SpamExcludes.erase (hs : s.SpamExcludes p) : (s.erase t).SpamExcludes p :=
  hs.of_subset fun _ hu => (mem_erase.mp hu).1

theorem SpamExcludes.restoreInbox (hs : s.SpamExcludes p) : s.restoreInbox.SpamExcludes p := by
  by_cases hspam : spam ∈ s
  · rwa [restoreInbox_of_mem_spam hspam]
  · refine spamExcludes_of_not_mem fun h => ?_
    rcases mem_or_eq_inbox_of_mem_restoreInbox h with h | h
    · exact hspam h
    · cases h

theorem SpamExcludes.flipArchive (hs : s.SpamExcludes p) (hflip : s.flipArchive = .ok (tags, b)) :
    tags.SpamExcludes p := by
  unfold TagSet.flipArchive at hflip
  split at hflip
  · obtain ⟨rfl, -⟩ := Prod.mk.inj (Except.ok.inj hflip)
    exact hs.erase.restoreInbox
  · split at hflip
    · cases hflip
    · next hspam =>
      obtain ⟨rfl, -⟩ := Prod.mk.inj (Except.ok.inj hflip)
      have hnot : spam ∉ s := fun h => hspam (isSpam_eq_true.mpr h)
      refine spamExcludes_of_not_mem fun h => ?_
      simp [hnot] at h

-- The rules only look at whether a tag is folder-like, so they exclude any narrower kind as well.
variable (hp : ∀ t : Tag, t.isFolderLike = false → p t = false)

include hp

theorem SpamExcludes.add (hs : s.SpamExcludes p) (ht : t ≠ spam) (hadd : s.add t = .ok (tags, b)) :
    tags.SpamExcludes p := by
  obtain ⟨rfl, -, hfree⟩ := add_eq_ok ht hadd
  refine hs.insert ht fun hspam => hp t ?_
  simpa using fun h => hfree ⟨h, hspam⟩

theorem spamExcludes_intoSpam (s : TagSet) : s.intoSpam.1.SpamExcludes p := by
  intro _ u hu
  rcases mem_intoSpam.mp hu with rfl | hu
  · exact hp spam rfl
  · exact hp u hu.2

theorem SpamExcludes.flipTrash (hs : s.SpamExcludes p) : s.flipTrash.1.SpamExcludes p := by
  unfold TagSet.flipTrash
  split
  · exact hs.erase.restoreInbox
  · exact hs.erase.insert (by decide) fun _ => hp trash rfl

end LabelMail.TagSet
