import LabelMail.Proofs.Mailroom.Runs

/-!
What a message in spam does not carry. The rules for tags keep every folder-like tag away from it,
but the renaming of a label passes them by: it gives the message the new name whatever that is. So
the reserved folder-like tags never stand beside the tag for spam, and the owner's do from the first
time on that a label on a message in spam is given a name for a part of the inbox.
-/
namespace LabelMail

namespace Holdings

/-- Beside the tag for spam no message carries one of kind `p`. -/
def SpamExcludes (p : Tag → Bool) (h : Holdings) : Prop :=
  ∀ m ∈ h.messages, m.tags.SpamExcludes p

variable {p : Tag → Bool} {h : Holdings} {caller name : String} {fresh : String → Prop} {a : Act}
variable {acts : List Act} {l : Label}

/-- Every act keeps spam apart, except perhaps the renaming of a label. -/
theorem SpamExcludes.apply (hp : ∀ t : Tag, t.isFolderLike = false → p t = false)
    (hx : h.SpamExcludes p) (hfits : h.Fits caller fresh a)
    (hrename : ∀ l name, a ≠ .renameLabel l name) : (h.apply a).SpamExcludes p := by
  intro m hm
  cases hfits.arises hm with
  | kept hm => exact hx m hm
  | entered hid hnew => exact hnew.spamExcludes (hp .spam rfl)
  | edited hx' hedit => exact hedit.spamExcludes hp (hx _ hx')
  | renamed hx' => exact absurd rfl (hrename _ _)
  | stripped hx' => exact (hx _ hx').erase

theorem SpamExcludes.after (hp : ∀ t : Tag, t.isFolderLike = false → p t = false)
    (hx : h.SpamExcludes p) (hlegal : h.Legal caller fresh acts)
    (hrename : ∀ l name, .renameLabel l name ∉ acts) : (h.after acts).SpamExcludes p := by
  induction acts generalizing h with
  | nil => exact hx
  | cons a acts ih =>
    refine ih (hx.apply hp hlegal.1 fun l name ha => ?_) hlegal.2 fun l name ha => ?_
    · exact hrename l name (ha ▸ List.mem_cons_self)
    · exact hrename l name (List.mem_cons_of_mem a ha)

/-- A renaming sets spam beside the new name just if it meets a message in spam. -/
theorem spamExcludes_renameLabel_iff (hx : h.SpamExcludes p) :
    (h.apply (.renameLabel l name)).SpamExcludes p ↔
      ¬ (p (.custom name) = true ∧
        ∃ m ∈ h.messages, m.ownerId = l.ownerId ∧ .custom l.name ∈ m.tags ∧ .spam ∈ m.tags) := by
  constructor
  · rintro hafter ⟨hname, m, hm, howner, htag, hspam⟩
    have hm' := hafter _ (mem_messages_renameLabel.mpr ⟨m, hm, if_pos ⟨howner, htag⟩⟩)
    have hspam' : .spam ∈ (m.tags.erase (.custom l.name)).insert (.custom name) := by simp [hspam]
    have hfree := hm' hspam' (.custom name) (TagSet.mem_insert.mpr (.inl rfl))
    rw [hname] at hfree
    cases hfree
  · intro hfree x hx'
    obtain ⟨m, hm, rfl⟩ := mem_messages_renameLabel.mp hx'
    split
    · next hcase =>
      refine (hx m hm).erase.insert Tag.noConfusion fun hspam => ?_
      rw [← Bool.not_eq_true]
      exact fun hname => hfree ⟨hname, m, hm, hcase.1, hcase.2, (TagSet.mem_erase.mp hspam).1⟩
    · exact hx m hm

end Holdings

namespace Mailroom

variable {σ : Type} {p : Tag → Bool} {room : Mailroom σ} {h : Holdings} {caller : String}
variable {op : Operation} {acts : List Act} {tasks : List Task}

/-- The call renames a label to a name of kind `p` while a message in spam carries its tag. -/
def Breaches (p : Tag → Bool) (room : Mailroom σ) (e : Event) : Prop :=
  ∃ id text renamed room', e.operation = .renameLabel id text ∧
    perform e.caller e.operation (room.atTime e.now) = .ok (.label renamed) room' ∧
    p (.custom renamed.name) = true ∧
    ∃ l ∈ room.holdings.labels, l.id = id ∧
      ∃ m ∈ room.holdings.messages, m.ownerId = e.caller ∧ .custom l.name ∈ m.tags ∧ .spam ∈ m.tags

theorem Owed.not_renames {arrears : List Arrear} (howed : Owed caller h arrears op acts tasks)
    (hop : ∀ id text, op ≠ .renameLabel id text) (l : Label) (name : String) :
    .renameLabel l name ∉ acts := by
  cases howed with
  | renamedLabel l name text => exact absurd rfl (hop l.id text)
  | _ => simp

theorem Lapsed.not_renames {sound : Prop} (hlapsed : Lapsed caller h sound op acts tasks)
    (l : Label) (name : String) : .renameLabel l name ∉ acts := by
  cases hlapsed <;> simp

theorem spamExcludes_step_iff (hp : ∀ t : Tag, t.isFolderLike = false → p t = false)
    (ho : room.Orderly) (hx : room.holdings.SpamExcludes p) (e : Event) :
    (room.step e).holdings.SpamExcludes p ↔ ¬ room.Breaches p e := by
  by_cases hop : ∃ id text, e.operation = .renameLabel id text
  · obtain ⟨id, text, hop⟩ := hop
    have hs : (room.atTime e.now).primary.rows.Shows room.holdings := ho.shows
    have hends : Ends (perform e.caller (.renameLabel id text) (room.atTime e.now))
        (fun r room' => ∃ l n mid, l.id = id ∧ r = .label { l with name := n } ∧
          Wrote e.caller room.holdings [.renameLabel l n] (room.atTime e.now) mid ∧
          room' = mid.done (renameTasks room.holdings l n))
        (fun _ mid => Rests room.holdings (room.atTime e.now) mid) := by
      refine Ends.map ((renameLabel_ends hs ho.holdings text).mono ?_ fun _ _ he => he.1)
      rintro _ _ ⟨raw, l, n, mid, -, hren, rfl, hw⟩
      exact ⟨l, n, mid, hren.id_eq, rfl, hw⟩
    rw [← hop] at hends
    unfold step
    cases hr : perform e.caller e.operation (room.atTime e.now) with
    | ok r room' =>
      obtain ⟨l, n, mid, hid, rfl, hw, rfl⟩ := hends.ok r room' hr
      obtain ⟨hl, howner, -⟩ := hw.legal.1
      rw [state, hw.done_holdings ho.holdings]
      refine (Holdings.spamExcludes_renameLabel_iff hx).trans (not_congr ?_)
      constructor
      · rintro ⟨hn, m, hm, hmowner, htag, hspam⟩
        exact ⟨id, text, _, _, hop, hr, hn, l, hl, hid, m, hm, hmowner.trans howner, htag, hspam⟩
      · rintro ⟨id', text', renamed, room'', hop', hr', hn, l', hl', hid', m, hm, hmowner, htag,
          hspam⟩
        obtain ⟨rfl, rfl⟩ := Operation.renameLabel.inj (hop.symm.trans hop')
        obtain ⟨hrenamed, -⟩ := EStateM.Result.ok.inj (hr.symm.trans hr')
        obtain rfl := Outcome.label.inj hrenamed
        obtain rfl := ho.holdings.eq_of_labelId hl' hl (hid'.trans hid.symm)
        exact ⟨hn, m, hm, hmowner.trans howner.symm, htag, hspam⟩
    | error f room' =>
      have hrest := hends.error f room' hr
      rw [state, holdings_eq hrest.shows ho.holdings]
      refine ⟨fun _ => ?_, fun _ => hx⟩
      rintro ⟨id', text', renamed, room'', -, hr', -⟩
      rw [hr] at hr'
      cases hr'
  · obtain ⟨acts, tasks, mid, hw, howed, hdone⟩ := step_halves ho e
    have hnot : ∀ l name, .renameLabel l name ∉ acts := by
      rcases howed with howed | hlapsed
      · exact howed.not_renames fun id text h => hop ⟨id, text, h⟩
      · exact hlapsed.not_renames
    rw [hdone, hw.done_holdings ho.holdings]
    refine ⟨fun _ => ?_, fun _ => hx.after hp hw.legal hnot⟩
    rintro ⟨id, text, -, -, hop', -⟩
    exact hop ⟨id, text, hop'⟩

theorem spamExcludes_run_iff (hp : ∀ t : Tag, t.isFolderLike = false → p t = false)
    (hv : room.Vacant) (events : List Event) :
    (∀ past, past <+: events → (room.after past).holdings.SpamExcludes p) ↔
      ∀ past e, past ++ [e] <+: events → ¬ (room.after past).Breaches p e := by
  have hstart : room.holdings.SpamExcludes p := by
    intro m hm
    rw [holdings, Primary.Rows.holdings, hv.messages] at hm
    cases hm
  constructor
  · intro hall past e hpast
    have hbefore : past <+: events := (List.prefix_append past [e]).trans hpast
    have hafter := hall (past ++ [e]) hpast
    rw [after_concat] at hafter
    exact (spamExcludes_step_iff hp (hv.orderly.after past) (hall past hbefore) e).mp hafter
  · intro hnone past hpast
    induction past using List.reverseRec with
    | nil => exact hstart
    | append_singleton past e ih =>
      have hbefore : past <+: events := (List.prefix_append past [e]).trans hpast
      rw [after_concat]
      exact (spamExcludes_step_iff hp (hv.orderly.after past) (ih hbefore) e).mpr
        (hnone past e hpast)

/-- No message in spam carries one of the reserved folder-like tags. -/
def SpamApart (room : Mailroom σ) : Prop :=
  ∀ m ∈ room.holdings.messages, .spam ∈ m.tags →
    .inbox ∉ m.tags ∧ .drafts ∉ m.tags ∧ .sent ∉ m.tags ∧ .archive ∉ m.tags

/-- No message in spam carries a custom tag for a part of the inbox. -/
def SpamOutOfInbox (room : Mailroom σ) : Prop :=
  ∀ m ∈ room.holdings.messages, .spam ∈ m.tags → ∀ name ∈ Tag.inboxLike, .custom name ∉ m.tags

theorem spamApart_of_spamExcludes
    (hx : room.holdings.SpamExcludes fun t => t.isReserved && t.isFolderLike) : room.SpamApart := by
  intro m hm hspam
  refine ⟨fun h => ?_, fun h => ?_, fun h => ?_, fun h => ?_⟩
  all_goals
    have hfree := hx m hm hspam _ h
    cases hfree

theorem spamExcludes_iff_spamOutOfInbox (hapart : room.SpamApart) :
    room.holdings.SpamExcludes Tag.isFolderLike ↔ room.SpamOutOfInbox := by
  constructor
  · intro hx m hm hspam name hname htag
    have hfree := hx m hm hspam _ htag
    simp [Tag.isFolderLike, hname] at hfree
  · intro hout m hm hspam t ht
    obtain ⟨hinbox, hdrafts, hsent, harchive⟩ := hapart m hm hspam
    cases t with
    | inbox => exact absurd ht hinbox
    | drafts => exact absurd ht hdrafts
    | sent => exact absurd ht hsent
    | archive => exact absurd ht harchive
    | custom name => simpa [Tag.isFolderLike] using fun hname => hout m hm hspam name hname ht
    | _ => rfl

/-- Along every run the stored messages can be read, and none in spam carries a reserved
folder-like tag. None in spam carries a custom tag for a part of the inbox either just if no label
was given such a name while a message in spam carried its tag. -/
theorem spam_exclusion (room : Mailroom σ) (hv : room.Vacant) (events : List Event) :
    (∀ past, past <+: events → (room.after past).Orderly ∧ (room.after past).SpamApart) ∧
    ((∀ past, past <+: events → (room.after past).SpamOutOfInbox) ↔
      ∀ past e, past ++ [e] <+: events → ¬ (room.after past).Breaches Tag.isFolderLike e) := by
  have hreserved : ∀ past, past <+: events → (room.after past).SpamApart := by
    refine fun past hpast => spamApart_of_spamExcludes ?_
    refine (spamExcludes_run_iff (fun t ht => by simp [ht]) hv events).mpr ?_ past hpast
    rintro past e - ⟨id, text, renamed, room', -, -, hname, -⟩
    cases hname
  refine ⟨fun past hpast => ⟨hv.orderly.after past, hreserved past hpast⟩, ?_⟩
  rw [← spamExcludes_run_iff (fun _ ht => ht) hv events]
  refine forall_congr' fun past => forall_congr' fun hpast => ?_
  exact (spamExcludes_iff_spamOutOfInbox (hreserved past hpast)).symm

/-- A delivery that is tagged and moved into spam before the label of its tag is renamed. -/
def renamedInSpam : List Event :=
  [⟨"alice", 0, .send ⟨some "bob", some "s", some "c"⟩ false⟩,
    ⟨"bob", 0, .changeLabel "u" ⟨some "deals", .add⟩⟩,
    ⟨"bob", 0, .flipSpam "u"⟩,
    ⟨"bob", 0, .renameLabel "uuu" (some "promotions")⟩]

theorem spam_beside_promotions :
    sample.Vacant ∧ ∃ m ∈ (sample.after renamedInSpam).holdings.messages,
      .spam ∈ m.tags ∧ .custom "promotions" ∈ m.tags := by
  refine ⟨⟨rfl, rfl⟩, ?_⟩
  decide +kernel

theorem spam_exclusion_sample :
    sample.Vacant ∧ (sample.after renamedInSpam).Orderly ∧
      (sample.after renamedInSpam).SpamApart := by
  have hv : sample.Vacant := ⟨rfl, rfl⟩
  exact ⟨hv, (spam_exclusion sample hv renamedInSpam).1 renamedInSpam (List.prefix_refl _)⟩

end Mailroom

end LabelMail
