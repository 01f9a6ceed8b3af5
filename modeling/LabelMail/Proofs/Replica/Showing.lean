import LabelMail.Proofs.Replica.Writing

/-!
What the replica shows. Of a single message it is the copy, with its tags read off the labels, and
of a mailbox the copies of the owner's messages. A replica that is sound does show it.
-/
namespace LabelMail.Replica

variable {r : Replica} {id owner : String}

/-- In a sound replica a query succeeds. -/
theorem Leaves.succeeds {q : Query α} {Q : α → Rows → Prop} {E : Rows → Prop} (hq : Leaves r q Q E)
    (hs : r.Sound) : ∃ a r', q r = .ok a r' ∧ Q a r'.rows := by
  cases hr : q r with
  | ok a r' => exact ⟨a, r', rfl, (Ends.ok hq a r' hr).1⟩
  | error e r' => exact absurd hs (Ends.error hq e r' hr).2.2

/-- What is shown of the message of that id. -/
def Rows.shown? (R : Rows) (id : String) : Option Copy :=
  (R.messages.find? (·.id == id)).map fun row =>
    ⟨row.message (R.tagsOn id), (R.labelsOn id).map showLabel⟩

theorem Rows.message_shown? (R : Rows) (id : String) :
    (R.shown? id).map Copy.message = R.copy? id :=
  Option.map_map ..

theorem leaves_find (id : String) :
    Leaves r (find id) (fun c R => c = r.rows.shown? id ∧ R = r.rows) (· = r.rows) := by
  refine (Leaves.select _).bind fun row r₁ hrow => ?_
  obtain ⟨rfl, hrows₁⟩ := hrow
  rw [Rows.shown?]
  cases r.rows.messages.find? (·.id == id) with
  | none => exact .pure ⟨rfl, hrows₁⟩
  | some row =>
    have hlabels : Leaves r₁ (labelsOn id)
        (fun ls R => ls = (r₁.rows.labelsOn id).map showLabel ∧ R = r₁.rows) (· = r₁.rows) :=
      (Leaves.select _).bind fun ls r₂ hls => .pure ⟨by rw [hls.1], hls.2⟩
    rw [← hrows₁]
    refine hlabels.bind fun ls r₂ hls => .pure ⟨?_, hls.2⟩
    rw [hls.1, List.map_map]
    rfl

/-- A sound replica shows the copy that it has. -/
theorem find_of_copy? {m : Message} (hs : r.Sound) (hcopy : r.rows.copy? id = some m) :
    ∃ c r', find id r = .ok (some c) r' ∧ c.message = m := by
  obtain ⟨found, r', hfind, hfound, -⟩ := (leaves_find id).succeeds hs
  rw [← Rows.message_shown?] at hcopy
  obtain ⟨c, hshown, hc⟩ := Option.map_eq_some_iff.mp hcopy
  exact ⟨c, r', hshown ▸ hfound ▸ hfind, hc⟩

theorem leaves_messagesOf (owner : String) :
    Leaves r (messagesOf owner)
      (fun ms R => ms = (r.rows.ownedBy owner).map (fun row => row.message (r.rows.tagsOn row.id)) ∧
        R = r.rows) (· = r.rows) := by
  refine (Leaves.select _).bind fun mine r₁ hmine => ?_
  rw [← hmine.2]
  refine (Leaves.select _).bind fun tags r₂ htags => .pure ⟨?_, htags.2⟩
  rw [hmine.1, htags.1, hmine.2]
  refine List.map_congr_left fun row hrow => ?_
  obtain ⟨hmem, rfl⟩ := Rows.mem_ownedBy.mp hrow
  rw [Rows.tagsOf_eq hmem]

/-- Of the labels that are shown for an owner, those that are the owner's. -/
theorem leaves_labelsOf (owner : String) :
    Leaves r (labelsOf owner)
      (fun ls R => (ls.filter (·.label.ownerId == owner)).Perm
        ((r.rows.labels.filter (·.ownerId == owner)).map showLabel) ∧ R = r.rows)
      (· = r.rows) := by
  refine (Leaves.select _).bind fun visible r₁ hvisible => .pure ⟨?_, hvisible.2⟩
  obtain ⟨rfl, -⟩ := hvisible
  rw [List.filter_map]
  refine List.Perm.map showLabel ?_
  have hown : (r.rows.labels.filter fun l => l.ownerId == owner || l.ownerId == shared).filter
      (·.ownerId == owner) = r.rows.labels.filter (·.ownerId == owner) := by
    rw [List.filter_filter]
    refine List.filter_congr fun l _ => ?_
    cases l.ownerId == owner <;> rfl
  rw [← hown]
  exact ((List.filter_append_perm _ _).trans (sortBy_perm _)).filter _

end LabelMail.Replica
