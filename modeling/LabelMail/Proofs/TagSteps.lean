import LabelMail.Proofs.TagFlips

/-!
The operations on a set of tags, carried out in place. Tags are then put in and taken out one after
the other, an operation may fail on the way, and its answer is put together apart from the set. Main
statement: along every series of operations, one that fails has left the set as it was, it fails
just where spam forbids it, no tag that spam excludes gets beside it, and each answer tells what
happened.
-/
namespace LabelMail.TagSet

open Tag (inbox spam trash archive)

abbrev Edit (α : Type) := EStateM Failure TagSet α

/-- Where an edit ends that a set and an answer come out of; a failure leaves the set. -/
def ending {α : Type} (s : TagSet) : Except Failure (TagSet × α) → EStateM.Result Failure TagSet α
  | .ok (s', a) => .ok a s'
  | .error e => .error e s

namespace Edit

def has (t : Tag) : Edit Bool := do
  return decide (t ∈ (← get))

/-- Puts the tag in and says whether it was missing. -/
def put (t : Tag) : Edit Bool := fun s => .ok (!decide (t ∈ s)) (s.insert t)

/-- Takes the tag out and says whether it was there. -/
def take (t : Tag) : Edit Bool := fun s => .ok (decide (t ∈ s)) (s.erase t)

def notAfter (t u : Tag) : Bool := !decide (u < t)

section Operations

-- the members of a set are met in no order that is known
variable (order : TagSet → List Tag)

def intoSpam : Edit (List Tag) := do
  let dropped := sortBy notAfter ((order (← get)).filter Tag.isFolderLike)
  dropped.forM fun t => discard (take t)
  discard (put spam)
  return dropped

def add (t : Tag) : Edit Bool := do
  if t = spam then
    let already ← has spam
    discard (intoSpam order)
    return !already
  if t.isFolderLike then
    if ← has spam then
      throw (.conflict s!"message is marked as spam; unmark it before adding `{t.name}`")
  put t

def restoreInbox : Edit Unit := do
  if (order (← get)).any Tag.isPlacement then return
  discard (put inbox)

def flipArchive : Edit Bool := do
  if ← take archive then
    restoreInbox order
    return false
  if ← has spam then
    throw (.conflict "message is marked as spam; unmark it before archiving")
  discard (take inbox)
  discard (put archive)
  return true

def flipTrash : Edit Bool := do
  if ← take trash then
    restoreInbox order
    return false
  discard (take inbox)
  discard (put trash)
  return true

end Operations

variable {order : TagSet → List Tag} {s : TagSet} {t : Tag} {l : List Tag}

theorem forM_take (l : List Tag) (s : TagSet) :
    (l.forM fun t => discard (take t)) s = .ok () (s.filter fun t => !decide (t ∈ l)) := by
  induction l generalizing s with
  | nil =>
    have hall : s.filter (fun t => !decide (t ∈ ([] : List Tag))) = s := by
      ext u
      simp
    rw [hall]
    rfl
  | cons t l ih =>
    have hrest : (s.erase t).filter (fun u => !decide (u ∈ l)) =
        s.filter fun u => !decide (u ∈ t :: l) := by
      ext u
      simp [and_assoc]
    rw [← hrest, ← ih]
    rfl

theorem pairwise_notAfter (l : List Tag) : (sortBy notAfter l).Pairwise (notAfter · ·) := by
  refine pairwise_sortBy (fun t u v htu huv => ?_) fun t u => ?_
  · simp only [notAfter, Bool.not_eq_true', decide_eq_false_iff_not] at *
    intro hvt
    rcases Tag.lt_or_eq_or_gt u v with h | rfl | h
    · exact htu (Tag.lt_trans h hvt)
    · exact htu hvt
    · exact huv h
  · simp only [notAfter, Bool.not_eq_true', decide_eq_false_iff_not, ← not_and_or]
    exact fun h => Tag.lt_irrefl t (Tag.lt_trans h.2 h.1)

/-- Sorted, the members that are met are those of the ascending list. -/
theorem sortBy_met (hmet : (order s).Perm s.toList) (p : Tag → Bool) :
    sortBy notAfter ((order s).filter p) = s.toList.filter p := by
  have hperm : (sortBy notAfter ((order s).filter p)).Perm (s.toList.filter p) :=
    (sortBy_perm _).trans (hmet.filter p)
  refine hperm.eq_of_pairwise (fun t u _ _ htu hut => ?_) (pairwise_notAfter _)
    ((s.ascending.filter p).imp fun {t u} hlt => ?_)
  · simp only [notAfter, Bool.not_eq_true', decide_eq_false_iff_not] at htu hut
    exact ((Tag.lt_or_eq_or_gt t u).resolve_left hut).resolve_right htu
  · simp only [notAfter, Bool.not_eq_true', decide_eq_false_iff_not]
    exact fun hgt => Tag.lt_irrefl t (Tag.lt_trans hlt hgt)

theorem get_run (s : TagSet) : (get : Edit TagSet) s = .ok s s := rfl

theorem has_run (t : Tag) (s : TagSet) : has t s = .ok (decide (t ∈ s)) s := rfl

theorem take_run (t : Tag) (s : TagSet) : take t s = .ok (decide (t ∈ s)) (s.erase t) := rfl

theorem intoSpam_run (hmet : (order s).Perm s.toList) :
    intoSpam order s = .ok s.intoSpam.2 s.intoSpam.1 := by
  have hkept : s.filter (fun t => !decide (t ∈ s.intoSpam.2)) =
      s.filter fun t => !t.isFolderLike := by
    ext u
    simp only [TagSet.intoSpam, mem_filter, List.mem_filter, ← mem_def]
    grind
  have htaken := forM_take s.intoSpam.2 s
  rw [hkept] at htaken
  refine (bind_of_ok (get_run s)).trans ?_
  rw [sortBy_met hmet Tag.isFolderLike]
  exact (bind_of_ok htaken).trans rfl

theorem add_run (hmet : (order s).Perm s.toList) (t : Tag) :
    add order t s = ending s (s.add t) := by
  unfold add TagSet.add
  split
  · refine (bind_of_ok (has_run spam s)).trans ?_
    exact (bind_of_ok (map_of_ok (intoSpam_run hmet))).trans rfl
  · cases t.isFolderLike with
    | false => rfl
    | true =>
      refine (bind_of_ok (has_run spam s)).trans ?_
      rw [Bool.true_and, isSpam]
      cases decide (spam ∈ s) <;> rfl

theorem restoreInbox_run (hmet : (order s).Perm s.toList) :
    restoreInbox order s = .ok () s.restoreInbox := by
  have hany : (order s).any Tag.isPlacement = s.toList.any Tag.isPlacement := hmet.any_eq
  refine (bind_of_ok (get_run s)).trans ?_
  rw [hany]
  unfold TagSet.restoreInbox
  split <;> rfl

theorem flipArchive_run (hmet : ∀ s, (order s).Perm s.toList) (s : TagSet) :
    flipArchive order s = ending s s.flipArchive := by
  refine (bind_of_ok (take_run archive s)).trans ?_
  unfold TagSet.flipArchive
  by_cases hthere : archive ∈ s
  · simp only [hthere, decide_true, if_true]
    exact (bind_of_ok (restoreInbox_run (hmet _))).trans rfl
  · simp only [hthere, decide_false, if_false]
    -- nothing was taken, so that a refusal finds the set as it was
    rw [erase_eq_self hthere]
    refine (bind_of_ok (has_run spam s)).trans ?_
    rw [isSpam]
    cases decide (spam ∈ s) <;> rfl

theorem flipTrash_run (hmet : ∀ s, (order s).Perm s.toList) (s : TagSet) :
    flipTrash order s = ending s (.ok s.flipTrash) := by
  refine (bind_of_ok (take_run trash s)).trans ?_
  unfold TagSet.flipTrash
  by_cases hthere : trash ∈ s
  · simp only [hthere, decide_true, if_true]
    exact (bind_of_ok (restoreInbox_run (hmet _))).trans rfl
  · simp only [hthere, decide_false, if_false]
    rw [erase_eq_self hthere]
    rfl

end Edit

variable {s s' : TagSet} {t : Tag} {b : Bool}

theorem pairwise_customNames (s : TagSet) : s.customNames.Pairwise (· < ·) := by
  refine s.ascending.filterMap _ fun t u hlt name hname name' hname' => ?_
  cases t <;> cases hname
  cases u <;> cases hname'
  exact (Tag.lt_def.mp hlt).resolve_left (Nat.lt_irrefl _) |>.2

/-- In ascending order the reserved tags come first, as they are declared. -/
theorem toList_eq (s : TagSet) :
    s.toList = Tag.reserved.filter (fun t => decide (t ∈ s)) ++ s.customNames.map .custom := by
  have hreserved : Tag.reserved.Pairwise (· < ·) := by decide
  have hcustom : (s.customNames.map Tag.custom).Pairwise (· < ·) := by
    refine List.pairwise_map.mpr (s.pairwise_customNames.imp fun {k n} hlt => ?_)
    exact Tag.lt_def.mpr (.inr ⟨rfl, hlt⟩)
  refine eq_of_mem_iff_of_ascending s.ascending (List.pairwise_append.mpr
    ⟨hreserved.filter _, hcustom, fun t ht u hu => ?_⟩) fun t => ?_
  · obtain ⟨name, -, rfl⟩ := List.mem_map.mp hu
    have hranks : ∀ t ∈ Tag.reserved, t.rank < 8 := by decide
    exact .inl (hranks t (List.mem_filter.mp ht).1)
  · rw [List.mem_append, List.mem_filter, decide_eq_true_iff, List.mem_map]
    simp only [mem_customNames]
    constructor
    · intro ht
      cases t with
      | custom name => exact .inr ⟨name, ht, rfl⟩
      | _ => exact .inl ⟨by decide, ht⟩
    · rintro (⟨-, ht⟩ | ⟨name, ht, rfl⟩)
      · exact ht
      · exact ht

/-- Of the tags of a set, spam takes the folder-like ones away. -/
theorem lost_intoSpam : t ∈ s ∧ t ∉ s.intoSpam.1 ↔ t ∈ s.filter Tag.isFolderLike := by
  rw [mem_intoSpam, mem_filter]
  by_cases hspam : t = spam
  · simp [hspam, Tag.isFolderLike]
  · cases t.isFolderLike <;> simp [hspam]

theorem intoSpam_eq_self (hs : s.SpamExcludes Tag.isFolderLike) (hspam : spam ∈ s) :
    s.intoSpam.1 = s := by
  ext t
  rw [mem_intoSpam]
  constructor
  · rintro (rfl | ⟨ht, -⟩)
    · exact hspam
    · exact ht
  · exact fun ht => .inr ⟨ht, hs hspam t ht⟩

theorem add_truthful (hs : s.SpamExcludes Tag.isFolderLike) (hadd : s.add t = .ok (s', b)) :
    b = decide (s' ≠ s) := by
  by_cases ht : t = spam
  · rw [add, if_pos ht] at hadd
    obtain ⟨rfl, rfl⟩ := Prod.mk.inj (Except.ok.inj hadd)
    by_cases hspam : spam ∈ s
    · simp [intoSpam_eq_self hs hspam, isSpam, hspam]
    · have hchanged : s.intoSpam.1 ≠ s := fun heq => hspam (heq ▸ mem_intoSpam.mpr (.inl rfl))
      simp [hchanged, isSpam, hspam]
  · obtain ⟨rfl, rfl, -⟩ := add_eq_ok ht hadd
    simp [insert_eq_self_iff]

theorem flipArchive_truthful (hflip : s.flipArchive = .ok (s', b)) :
    b = decide (archive ∈ s') := by
  have haway : archive ∉ (s.erase archive).restoreInbox := not_mem_restoreInbox_erase (by decide)
  unfold flipArchive at hflip
  split at hflip
  · obtain ⟨rfl, rfl⟩ := Prod.mk.inj (Except.ok.inj hflip)
    simp [haway]
  · split at hflip
    · cases hflip
    · obtain ⟨rfl, rfl⟩ := Prod.mk.inj (Except.ok.inj hflip)
      simp

theorem flipTrash_truthful (s : TagSet) : s.flipTrash.2 = decide (trash ∈ s.flipTrash.1) := by
  have haway : trash ∉ (s.erase trash).restoreInbox := not_mem_restoreInbox_erase (by decide)
  unfold flipTrash
  split
  · simp [haway]
  · simp

theorem add_error_iff : (∃ e, s.add t = .error e) ↔ t.isFolderLike = true ∧ spam ∈ s := by
  unfold add
  split
  · next ht => simp [ht, Tag.isFolderLike]
  · split
    · next h => simpa using h
    · next h => simpa using h

/-- An operation and the tag that it is given. -/
inductive Step
  | add (t : Tag)
  | remove (t : Tag)
  | intoSpam
  | outOfSpam
  | flipArchive
  | flipTrash

inductive Answer
  | flag (b : Bool)
  | dropped (tags : List Tag)
  deriving DecidableEq

variable {order : TagSet → List Tag} {a : Answer} {c : Step}

namespace Step

def edit (order : TagSet → List Tag) : Step → Edit Answer
  | add t => .flag <$> Edit.add order t
  | remove t => .flag <$> Edit.take t
  | intoSpam => .dropped <$> Edit.intoSpam order
  | outOfSpam => .flag <$> Edit.take spam
  | flipArchive => .flag <$> Edit.flipArchive order
  | flipTrash => .flag <$> Edit.flipTrash order

/-- The set and the answer that come out of the operation. -/
def apply (s : TagSet) : Step → Except Failure (TagSet × Answer)
  | add t => (s.add t).map (Prod.map id .flag)
  | remove t => .ok ((s.remove t).map id .flag)
  | intoSpam => .ok (s.intoSpam.map id .dropped)
  | outOfSpam => .ok (s.outOfSpam.map id .flag)
  | flipArchive => s.flipArchive.map (Prod.map id .flag)
  | flipTrash => .ok (s.flipTrash.map id .flag)

/-- Spam forbids the operation. -/
def Refused (s : TagSet) : Step → Prop
  | add t => t.isFolderLike = true ∧ spam ∈ s
  | flipArchive => spam ∈ s
  | remove _ | intoSpam | outOfSpam | flipTrash => False

/-- The answer tells whether the set changed, or for a flip whether the message is there now. Into
spam it lists the tags that were lost, the reserved ones in the order of their declaration and then
the owner's in the order of their bytes. -/
def Truthful (s s' : TagSet) : Step → Answer → Prop
  | add _, a | remove _, a | outOfSpam, a => a = .flag (decide (s' ≠ s))
  | flipArchive, a => a = .flag (decide (archive ∈ s'))
  | flipTrash, a => a = .flag (decide (trash ∈ s'))
  | intoSpam, a => ∃ names : List String,
      a = .dropped ((Tag.reserved.filter fun t => t ∈ s ∧ t ∉ s') ++ names.map Tag.custom) ∧
      (∀ name, name ∈ names ↔ .custom name ∈ s ∧ .custom name ∉ s') ∧
      (names.map Text.Utf8.encode).Pairwise (· < ·)

theorem map_ending {α : Type} (x : Edit α) (f : α → Answer) {v : Except Failure (TagSet × α)}
    (hx : x s = ending s v) : (f <$> x) s = ending s (v.map (Prod.map id f)) := by
  change EStateM.map f x s = _
  rw [EStateM.map, hx]
  cases v <;> rfl

/-- In place an operation ends with the set and answer that come out of it, or as it began. -/
theorem edit_run (hmet : ∀ s, (order s).Perm s.toList) (c : Step) (s : TagSet) :
    c.edit order s = ending s (c.apply s) := by
  cases c with
  | add t => exact map_ending _ _ (Edit.add_run (hmet s) t)
  | remove t => rfl
  | intoSpam => exact map_ending _ _ (v := .ok s.intoSpam) (Edit.intoSpam_run (hmet s))
  | outOfSpam => rfl
  | flipArchive => exact map_ending _ _ (Edit.flipArchive_run hmet s)
  | flipTrash => exact map_ending _ _ (Edit.flipTrash_run hmet s)

theorem intoSpam_truthful (s : TagSet) :
    intoSpam.Truthful s s.intoSpam.1 (.dropped s.intoSpam.2) := by
  refine ⟨(s.filter Tag.isFolderLike).customNames, ?_, fun name => ?_, ?_⟩
  · simp only [lost_intoSpam]
    exact congrArg Answer.dropped (toList_eq (s.filter Tag.isFolderLike))
  · rw [lost_intoSpam, mem_customNames]
  · exact List.pairwise_map.mpr ((pairwise_customNames _).imp Text.Utf8.encode_lt)

/-- What comes out of an operation comes out of the one that it stands for. -/
theorem eq_of_map {v : Except Failure (TagSet × Bool)}
    (h : v.map (Prod.map id .flag) = .ok (s', a)) : ∃ b, v = .ok (s', b) ∧ a = .flag b := by
  cases v with
  | error e => cases h
  | ok r =>
    obtain ⟨rfl, rfl⟩ := Prod.mk.inj (Except.ok.inj h)
    exact ⟨r.2, rfl, rfl⟩

theorem apply_truthful (hs : s.SpamExcludes Tag.isFolderLike) (h : c.apply s = .ok (s', a)) :
    c.Truthful s s' a := by
  cases c with
  | add t =>
    obtain ⟨b, hadd, rfl⟩ := eq_of_map h
    exact congrArg Answer.flag (add_truthful hs hadd)
  | remove t =>
    obtain ⟨rfl, rfl⟩ := Prod.mk.inj (Except.ok.inj h)
    simp [Truthful, erase_eq_self_iff]
  | intoSpam =>
    obtain ⟨rfl, rfl⟩ := Prod.mk.inj (Except.ok.inj h)
    exact intoSpam_truthful s
  | outOfSpam =>
    obtain ⟨rfl, rfl⟩ := Prod.mk.inj (Except.ok.inj h)
    simp [Truthful, isSpam, erase_eq_self_iff]
  | flipArchive =>
    obtain ⟨b, hflip, rfl⟩ := eq_of_map h
    exact congrArg Answer.flag (flipArchive_truthful hflip)
  | flipTrash =>
    obtain ⟨rfl, rfl⟩ := Prod.mk.inj (Except.ok.inj h)
    exact congrArg Answer.flag (flipTrash_truthful s)

theorem apply_spamExcludes (hs : s.SpamExcludes Tag.isFolderLike) (h : c.apply s = .ok (s', a)) :
    s'.SpamExcludes Tag.isFolderLike := by
  have hkind : ∀ t : Tag, t.isFolderLike = false → t.isFolderLike = false := fun _ => id
  cases c with
  | add t =>
    obtain ⟨b, hadd, -⟩ := eq_of_map h
    by_cases ht : t = spam
    · rw [TagSet.add, if_pos ht] at hadd
      obtain ⟨rfl, -⟩ := Prod.mk.inj (Except.ok.inj hadd)
      exact spamExcludes_intoSpam hkind s
    · exact SpamExcludes.add hkind hs ht hadd
  | flipArchive =>
    obtain ⟨b, hflip, -⟩ := eq_of_map h
    exact hs.flipArchive hflip
  | remove t =>
    obtain ⟨rfl, -⟩ := Prod.mk.inj (Except.ok.inj h)
    exact hs.erase
  | intoSpam =>
    obtain ⟨rfl, -⟩ := Prod.mk.inj (Except.ok.inj h)
    exact spamExcludes_intoSpam hkind s
  | outOfSpam =>
    obtain ⟨rfl, -⟩ := Prod.mk.inj (Except.ok.inj h)
    exact hs.erase
  | flipTrash =>
    obtain ⟨rfl, -⟩ := Prod.mk.inj (Except.ok.inj h)
    exact SpamExcludes.flipTrash hkind hs

theorem apply_error_iff (hs : s.SpamExcludes Tag.isFolderLike) :
    (∃ e, c.apply s = .error e) ↔ c.Refused s := by
  have hmap {v : Except Failure (TagSet × Bool)} :
      (∃ e, v.map (Prod.map id .flag) = (.error e : Except Failure (TagSet × Answer))) ↔
        ∃ e, v = .error e := by
    cases v <;> simp [Except.map]
  cases c with
  | add t => exact hmap.trans add_error_iff
  | flipArchive =>
    refine hmap.trans ?_
    simp only [flipArchive_eq_error_iff, exists_and_left, exists_eq, and_true, Refused]
    exact and_iff_right_of_imp fun hspam harchive => by cases hs hspam archive harchive
  | _ => simp [apply, Refused]

end Step

/-- The set after the operations, each of which may have failed. -/
def edited (order : TagSet → List Tag) (s : TagSet) (steps : List Step) : TagSet :=
  steps.foldl (fun s c =>
    match c.edit order s with
    | .ok _ s' | .error _ s' => s') s

theorem SpamExcludes.edited (hmet : ∀ s, (order s).Perm s.toList)
    (hs : s.SpamExcludes Tag.isFolderLike) (steps : List Step) :
    (s.edited order steps).SpamExcludes Tag.isFolderLike := by
  induction steps generalizing s with
  | nil => exact hs
  | cons c steps ih =>
    refine ih ?_
    dsimp only
    rw [c.edit_run hmet s]
    cases happly : c.apply s with
    | ok r => exact Step.apply_spamExcludes hs happly
    | error e => exact hs

/-- After any series of operations on a set in which spam excludes the folder-like tags, it still
does. The next operation fails just if spam forbids it, and has then left the set as it was; if it
goes through, spam goes on excluding them and the answer tells what happened. In either case it ends
as on a set that is not changed in place. -/
theorem steps_are_atomic (hmet : ∀ s, (order s).Perm s.toList)
    (hs : s.SpamExcludes Tag.isFolderLike) (steps : List Step) (c : Step) :
    let here := s.edited order steps
    here.SpamExcludes Tag.isFolderLike ∧
      ((∃ e s', c.edit order here = .error e s') ↔ c.Refused here) ∧
      (∀ e s', c.edit order here = .error e s' → s' = here ∧ c.apply here = .error e) ∧
      ∀ a s', c.edit order here = .ok a s' →
        s'.SpamExcludes Tag.isFolderLike ∧ c.Truthful here s' a ∧ c.apply here = .ok (s', a) := by
  intro here
  have hhere : here.SpamExcludes Tag.isFolderLike := hs.edited hmet steps
  have herror : (∃ e s', c.edit order here = .error e s') ↔ ∃ e, c.apply here = .error e := by
    rw [c.edit_run hmet here]
    cases c.apply here <;> simp [ending]
  refine ⟨hhere, herror.trans (Step.apply_error_iff hhere), fun e s' hrun => ?_,
    fun a s' hrun => ?_⟩
  · rw [c.edit_run hmet here] at hrun
    cases happly : c.apply here with
    | ok r =>
      rw [happly] at hrun
      cases hrun
    | error e' =>
      rw [happly] at hrun
      cases hrun
      exact ⟨rfl, rfl⟩
  · rw [c.edit_run hmet here] at hrun
    cases happly : c.apply here with
    | ok r =>
      rw [happly] at hrun
      cases hrun
      exact ⟨Step.apply_spamExcludes hhere happly, Step.apply_truthful hhere happly, rfl⟩
    | error e' =>
      rw [happly] at hrun
      cases hrun

/-- The members are met from the last to the first. -/
def backwards (s : TagSet) : List Tag := s.toList.reverse

def promoted : TagSet :=
  ofList [inbox, .starred, .custom "promotions", .custom "work"]

/-- In spam and in the trash, where one more tag that is like the inbox is refused. -/
def discarded : TagSet :=
  promoted.edited backwards [.intoSpam, .flipTrash]

theorem steps_are_atomic_promoted :
    (∀ s, (backwards s).Perm s.toList) ∧ promoted.SpamExcludes Tag.isFolderLike ∧
    Step.intoSpam.edit backwards promoted =
      .ok (.dropped [inbox, .custom "promotions"]) (ofList [spam, .starred, .custom "work"]) ∧
    discarded.toList = [spam, trash, .starred, .custom "work"] ∧
    discarded.SpamExcludes Tag.isFolderLike ∧
    ∃ e, (Step.add (.custom "updates")).edit backwards discarded = .error e discarded := by
  have hmet (s : TagSet) : (backwards s).Perm s.toList := List.reverse_perm s.toList
  have hs : promoted.SpamExcludes Tag.isFolderLike := spamExcludes_of_not_mem (by decide)
  obtain ⟨hkept, hrefused, hatomic, -⟩ :=
    steps_are_atomic hmet hs [.intoSpam, .flipTrash] (.add (.custom "updates"))
  refine ⟨hmet, hs, rfl, by decide, hkept, ?_⟩
  obtain ⟨e, s', hrun⟩ := hrefused.mpr ⟨by decide, by decide⟩
  obtain ⟨rfl, -⟩ := hatomic e s' hrun
  exact ⟨e, hrun⟩

end LabelMail.TagSet
