import LabelMail.Proofs.Holdings
import LabelMail.Proofs.TagRules

/-!
What an operation may make of one message. A new message has one tag, and of a message that is there
only its text, its tags and its flags change, under the rules for tags.
-/
namespace LabelMail.Message

open Calendar (Instant)

/-- A message as the caller enters it. Of a delivery the sender owns the copy in the sent mail. -/
structure New (caller : String) (m : Message) : Prop where
  exact : Instant.ofMillis m.timestamp.toMillis = m.timestamp
  unread : m.read = false
  unstarred : m.starred = false
  sender : m.senderId = caller
  placed : (m.ownerId = caller ∧ (m.tags = .ofList [.sent] ∨ m.tags = .ofList [.drafts])) ∨
    (m.ownerId = m.recipientId ∧ (m.tags = .ofList [.inbox] ∨ m.tags = .ofList [.spam]))

/-- The owner has a label of the tag's name, if it is a custom tag. -/
def HasLabel (labels : List Label) (owner : String) (t : Tag) : Prop :=
  ∀ name, t = .custom name → ∃ l ∈ labels, l.ownerId = owner ∧ l.name = name

inductive Edit (labels : List Label) (m : Message) : Message → Prop
  | tagged {t : Tag} {tags : TagSet} {b : Bool} (hspam : t ≠ .spam) (hproper : t.Proper)
      (hlabel : HasLabel labels m.ownerId t) (hadd : m.tags.add t = .ok (tags, b)) :
      Edit labels m (m.withTags tags).withFlagsOfTags
  | untagged (t : Tag) : Edit labels m (m.withTags (m.tags.erase t)).withFlagsOfTags
  | condemned : Edit labels m (m.withTags m.tags.intoSpam.1).withFlagsOfTags
  | starred : Edit labels m m.flipStar
  | archived {tags : TagSet} {b : Bool} (hflip : m.tags.flipArchive = .ok (tags, b)) :
      Edit labels m (m.withTags tags)
  | trashed : Edit labels m (m.withTags m.tags.flipTrash.1)
  | read (b : Bool) : Edit labels m (m.setRead b).1
  | rewritten (subject content : String) :
      Edit labels m { m with subject := subject, content := content }

variable {labels : List Label} {m m' : Message} {t u : Tag} {s : TagSet} {b : Bool}
variable {owner caller : String}

theorem hasLabel_of_mem_reserved (ht : t ∈ Tag.reserved) : HasLabel labels owner t := by
  rintro name rfl
  simp [Tag.reserved] at ht

theorem mem_setTag (hu : u ∈ setTag b t s) : u ∈ s ∨ u = t := by
  unfold setTag at hu
  split at hu
  · exact (TagSet.mem_insert.mp hu).symm
  · exact .inl (TagSet.mem_erase.mp hu).1

theorem spamExcludes_setTag {p : Tag → Bool} (hs : s.SpamExcludes p) (ht : t ≠ .spam)
    (hfree : p t = false) : (setTag b t s).SpamExcludes p := by
  unfold setTag
  split
  · exact hs.insert ht fun _ => hfree
  · exact hs.erase

theorem setTag_eq_self (h : decide (t ∈ s) = b) : setTag b t s = s := by
  subst h
  unfold setTag
  ext u
  by_cases ht : t ∈ s
  · simp only [ht, decide_true, if_true, TagSet.mem_insert]
    exact ⟨fun hu => hu.elim (fun hut => hut ▸ ht) fun h => h, .inr⟩
  · simp only [ht, decide_false, Bool.false_eq_true, if_false, TagSet.mem_erase]
    exact ⟨And.left, fun hu => ⟨hu, fun hut => ht (hut ▸ hu)⟩⟩

theorem setRead_eq_self (h : (m.setRead b).2 = false) : (m.setRead b).1 = m := by
  simp only [setRead, Bool.or_eq_false_iff, bne_eq_false_iff_eq] at h
  obtain ⟨hread, htag⟩ := h
  rw [setRead, setTag_eq_self htag, ← hread]

theorem setRead_setRead (m : Message) (b : Bool) :
    ((m.setRead b).1.setRead b).1 = (m.setRead b).1 := by
  refine setRead_eq_self ?_
  cases b <;> simp [setRead, setTag]

theorem New.mem_reserved (h : m.New caller) (hu : u ∈ m.tags) : u ∈ Tag.reserved := by
  rcases h.placed with ⟨-, htags | htags⟩ | ⟨-, htags | htags⟩
  all_goals
    rw [htags, TagSet.mem_ofList, List.mem_singleton] at hu
    subst hu
    decide

theorem New.storable (h : m.New caller) : m.Storable :=
  ⟨fun _ hu => Tag.proper_of_mem_reserved (h.mem_reserved hu), h.exact⟩

theorem New.spamExcludes {p : Tag → Bool} (h : m.New caller) (hp : p .spam = false) :
    m.tags.SpamExcludes p := by
  intro hspam u hu
  rcases h.placed with ⟨-, htags | htags⟩ | ⟨-, htags | htags⟩
  all_goals
    rw [htags, TagSet.mem_ofList, List.mem_singleton] at hspam hu
    subst hu
  · cases hspam
  · cases hspam
  · cases hspam
  · exact hp

theorem Edit.envelope (h : m.Edit labels m') : m'.envelope = m.envelope := by
  cases h <;> rfl

theorem Edit.timestamp (h : m.Edit labels m') : m'.timestamp = m.timestamp := by
  cases h <;> rfl

theorem Edit.ownerId (h : m.Edit labels m') : m'.ownerId = m.ownerId := by
  cases h <;> rfl

/-- What an edit adds to the tags is the name of a label or reserved. -/
theorem Edit.mem_tags (h : m.Edit labels m') (hu : u ∈ m'.tags) :
    u ∈ m.tags ∨ (u.Proper ∧ HasLabel labels m.ownerId u) := by
  have hreserved {v : Tag} (hv : v ∈ Tag.reserved) (huv : u = v) :
      u.Proper ∧ HasLabel labels m.ownerId u := by
    subst huv
    exact ⟨Tag.proper_of_mem_reserved hv, hasLabel_of_mem_reserved hv⟩
  cases h with
  | tagged hspam hproper hlabel hadd =>
    obtain ⟨rfl, -, -⟩ := TagSet.add_eq_ok hspam hadd
    rcases TagSet.mem_insert.mp hu with rfl | hu
    · exact .inr ⟨hproper, hlabel⟩
    · exact .inl hu
  | untagged t => exact .inl (TagSet.mem_erase.mp hu).1
  | condemned =>
    rcases TagSet.mem_intoSpam.mp hu with hu | hu
    · exact .inr (hreserved (v := .spam) (by decide) hu)
    · exact .inl hu.1
  | starred =>
    rcases mem_setTag hu with hu | hu
    · exact .inl hu
    · exact .inr (hreserved (v := .starred) (by decide) hu)
  | archived hflip =>
    rcases TagSet.mem_of_mem_flipArchive hflip hu with hu | hu | hu
    · exact .inl hu
    · exact .inr (hreserved (v := .inbox) (by decide) hu)
    · exact .inr (hreserved (v := .archive) (by decide) hu)
  | trashed =>
    rcases TagSet.mem_of_mem_flipTrash hu with hu | hu | hu
    · exact .inl hu
    · exact .inr (hreserved (v := .inbox) (by decide) hu)
    · exact .inr (hreserved (v := .trash) (by decide) hu)
  | read b =>
    rcases mem_setTag hu with hu | hu
    · exact .inl hu
    · exact .inr (hreserved (v := .read) (by decide) hu)
  | rewritten subject content => exact .inl hu

theorem Edit.storable (h : m.Edit labels m') (hm : m.Storable) : m'.Storable := by
  refine ⟨fun u hu => ?_, by rw [h.timestamp]; exact hm.exact⟩
  rcases h.mem_tags hu with hu | hu
  · exact hm.proper u hu
  · exact hu.1

theorem Edit.spamExcludes {p : Tag → Bool} (hp : ∀ t : Tag, t.isFolderLike = false → p t = false)
    (h : m.Edit labels m') (hm : m.tags.SpamExcludes p) : m'.tags.SpamExcludes p := by
  cases h with
  | tagged hspam _ _ hadd => exact hm.add hp hspam hadd
  | untagged t => exact hm.erase
  | condemned => exact TagSet.spamExcludes_intoSpam hp m.tags
  | starred => exact spamExcludes_setTag hm (by decide) (hp .starred rfl)
  | archived hflip => exact hm.flipArchive hflip
  | trashed => exact hm.flipTrash hp
  | read b => exact spamExcludes_setTag hm (by decide) (hp .read rfl)
  | rewritten subject content => exact hm

end LabelMail.Message
