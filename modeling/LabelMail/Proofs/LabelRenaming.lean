import LabelMail.Proofs.ListingByName
import LabelMail.Proofs.Refinement
import LabelMail.Proofs.Mailroom.Recoiling
import LabelMail.Proofs.Mailroom.Syncing

/-!
Renaming a label. Its rows get the new name, and the owner's messages carry the new tag where they
carried the old one. No other label of the owner's has the new name and every custom tag has a
label, so that no two tags of a message become one, and renaming back undoes it all. In the replica
the links of a message lead to ids of labels, which stay, so that a renaming changes one name there.
-/
namespace LabelMail

open Text (sameName)

/-- The message under the new name of a label. -/
def Message.renamed (l : Label) (name : String) (m : Message) : Message :=
  if m.ownerId = l.ownerId ∧ .custom l.name ∈ m.tags
    then m.withTags ((m.tags.erase (.custom l.name)).insert (.custom name)) else m

namespace Message

variable {m : Message} {l : Label} {name : String} {t : Tag}

@[simp] theorem ofMessage_renamed : Row.ofMessage (m.renamed l name) = Row.ofMessage m := by
  unfold renamed
  split <;> rfl

@[simp] theorem id_renamed : (m.renamed l name).id = m.id :=
  congrArg Row.id (ofMessage_renamed (m := m))

@[simp] theorem ownerId_renamed : (m.renamed l name).ownerId = m.ownerId :=
  congrArg Row.ownerId (ofMessage_renamed (m := m))

theorem mem_tags_renamed_of_mem_reserved (ht : t ∈ Tag.reserved) :
    t ∈ (m.renamed l name).tags ↔ t ∈ m.tags := by
  have hne {n : String} : t ≠ .custom n := by
    rintro rfl
    simp [Tag.reserved] at ht
  unfold renamed
  split
  · simp [withTags, hne]
  · exact Iff.rfl

end Message

namespace Holdings

variable {h : Holdings} {m : Message} {l k : Label} {owner name id : String}
variable {fresh : String → Prop}

/-- The labels of a message are those of its reserved tags and the owner's that its others name. -/
theorem Orderly.mem_labelsOf_iff (ho : h.Orderly) (hm : m ∈ h.messages) :
    k ∈ h.labelsOf m ↔ (∃ t ∈ Tag.reserved, t ∈ m.tags ∧ sharedLabel t = k) ∨
      (k ∈ h.labels ∧ k.ownerId = m.ownerId ∧ .custom k.name ∈ m.tags) := by
  rw [mem_labelsOf]
  constructor
  · rintro ⟨t, ht, rfl⟩
    rcases mem_reserved_or_custom t with hres | ⟨name, rfl⟩
    · exact .inl ⟨t, hres, ht, (labelOf_reserved hres).symm⟩
    · obtain ⟨j, hj, howner, rfl⟩ := ho.labelled m hm _ ht name rfl
      rw [← howner, ho.labelOf_custom hj]
      exact .inr ⟨hj, rfl, ht⟩
  · rintro (⟨t, hres, ht, rfl⟩ | ⟨hk, howner, ht⟩)
    · exact ⟨t, ht, labelOf_reserved hres⟩
    · exact ⟨_, ht, howner ▸ ho.labelOf_custom hk⟩

/-- A message that carries the new tag beforehand carries it as the old one. -/
theorem Orderly.eq_of_carried (ho : h.Orderly) (hfits : h.Fits owner fresh (.renameLabel l name))
    (hm : m ∈ h.messages) (howner : m.ownerId = l.ownerId) (ht : .custom name ∈ m.tags) :
    name = l.name := by
  obtain ⟨hl, howns, -, hfree⟩ := hfits
  obtain ⟨k, hk, hkowner, hkname⟩ := ho.labelled m hm _ ht name rfl
  have hsame : sameName k.name name = true := hkname ▸ Text.sameName_self _
  have hkl : k = l :=
    ho.eq_of_labelId hk hl (hfree k hk (hkowner.trans (howner.trans howns)) hsame)
  exact hkname.symm.trans (congrArg Label.name hkl)

theorem Orderly.not_mem_erase (ho : h.Orderly) (hfits : h.Fits owner fresh (.renameLabel l name))
    (hm : m ∈ h.messages) (howner : m.ownerId = l.ownerId) :
    .custom name ∉ m.tags.erase (.custom l.name) := by
  intro hmem
  obtain ⟨ht, hne⟩ := TagSet.mem_erase.mp hmem
  exact hne (congrArg Tag.custom (ho.eq_of_carried hfits hm howner ht))

theorem Orderly.size_renamed (ho : h.Orderly) (hfits : h.Fits owner fresh (.renameLabel l name))
    (hm : m ∈ h.messages) : (m.renamed l name).tags.size = m.tags.size := by
  unfold Message.renamed
  split
  · next hcase => exact TagSet.size_exchange hcase.2 (ho.not_mem_erase hfits hm hcase.1)
  · rfl

/-- A message of the owner's carries the new tag where it carried the old one. -/
theorem Orderly.carries_new_iff (ho : h.Orderly)
    (hfits : h.Fits owner fresh (.renameLabel l name)) (hm : m ∈ h.messages)
    (howner : m.ownerId = l.ownerId) :
    .custom name ∈ (m.renamed l name).tags ↔ .custom l.name ∈ m.tags := by
  unfold Message.renamed
  by_cases ht : .custom l.name ∈ m.tags
  · simp [howner, ht, Message.withTags]
  · simp only [howner, ht, and_false, if_false, iff_false]
    exact fun hnew => ht (ho.eq_of_carried hfits hm howner hnew ▸ hnew)

theorem Orderly.renamed_back (ho : h.Orderly) (hfits : h.Fits owner fresh (.renameLabel l name))
    (hm : m ∈ h.messages) :
    (m.renamed l name).renamed { l with name := name } l.name = m := by
  by_cases hcase : m.ownerId = l.ownerId ∧ .custom l.name ∈ m.tags
  · have hnew := (ho.carries_new_iff hfits hm hcase.1).mpr hcase.2
    have htags : (((m.tags.erase (.custom l.name)).insert (.custom name)).erase
        (.custom name)).insert (.custom l.name) = m.tags := by
      rw [TagSet.erase_insert (ho.not_mem_erase hfits hm hcase.1), TagSet.insert_erase hcase.2]
    rw [Message.renamed, if_pos ⟨Message.ownerId_renamed.trans hcase.1, hnew⟩]
    rw [Message.renamed, if_pos hcase]
    exact congrArg m.withTags htags
  · have hsame : m.renamed l name = m := if_neg hcase
    rw [hsame]
    refine if_neg fun hback => hcase ⟨hback.1, ?_⟩
    exact (ho.carries_new_iff hfits hm hback.1).mp (hsame.symm ▸ hback.2)

/-- A message carries the tags of the same labels as before. -/
theorem Orderly.carries_iff (ho : h.Orderly) (hfits : h.Fits owner fresh (.renameLabel l name))
    (hm : m ∈ h.messages) (hk : k ∈ h.labels) (howner : k.ownerId = m.ownerId) :
    .custom (if k.id = l.id then { k with name := name } else k).name ∈ (m.renamed l name).tags ↔
      .custom k.name ∈ m.tags := by
  have ⟨hl, howns, _, hfree⟩ := hfits
  by_cases hid : k.id = l.id
  · obtain rfl := ho.eq_of_labelId hk hl hid
    rw [if_pos rfl]
    exact ho.carries_new_iff hfits hm howner.symm
  · rw [if_neg hid]
    unfold Message.renamed
    split
    · next hcase =>
      have hkl : k.ownerId = l.ownerId := howner.trans hcase.1
      have hold : Tag.custom k.name ≠ .custom l.name := fun heq => hid <| by
        rw [ho.distinct k hk l hl hkl (Tag.custom.inj heq ▸ Text.sameName_self _)]
      have hnew : Tag.custom k.name ≠ .custom name := fun heq => hid <|
        hfree k hk (hkl.trans howns) (Tag.custom.inj heq ▸ Text.sameName_self _)
      simp [Message.withTags, hold, hnew]
    · exact Iff.rfl

theorem Orderly.mem_labelsOf_renamed (ho : h.Orderly) (hapart : h.Apart)
    (hfits : h.Fits owner fresh (.renameLabel l name)) (hm : m ∈ h.messages) :
    k ∈ (h.apply (.renameLabel l name)).labelsOf (m.renamed l name) ↔
      k ∈ Primary.renameRow l.id name (h.labelsOf m) := by
  have hm' : m.renamed l name ∈ (h.apply (.renameLabel l name)).messages := List.mem_map_of_mem hm
  have hshared {t : Tag} (ht : t ∈ Tag.reserved) : (sharedLabel t).id ≠ l.id :=
    fun hid => hapart l hfits.1 t ht hid.symm
  have howner {j : Label} :
      (if j.id = l.id then { j with name := name } else j).ownerId = j.ownerId := by
    split <;> rfl
  rw [(ho.renameLabel hfits).mem_labelsOf_iff hm', Message.ownerId_renamed]
  constructor
  · rintro (⟨t, hres, ht, rfl⟩ | ⟨hk, hkowner, ht⟩)
    · refine List.mem_map.mpr ⟨sharedLabel t, (ho.mem_labelsOf_iff hm).mpr (.inl ?_),
        if_neg (hshared hres)⟩
      exact ⟨t, hres, (Message.mem_tags_renamed_of_mem_reserved hres).mp ht, rfl⟩
    · obtain ⟨j, hj, rfl⟩ := mem_labels_renameLabel.mp hk
      rw [howner] at hkowner
      refine List.mem_map.mpr ⟨j, (ho.mem_labelsOf_iff hm).mpr (.inr ⟨hj, hkowner, ?_⟩), rfl⟩
      exact (ho.carries_iff hfits hm hj hkowner).mp ht
  · intro hk
    obtain ⟨j, hj, rfl⟩ := List.mem_map.mp hk
    rcases (ho.mem_labelsOf_iff hm).mp hj with ⟨t, hres, ht, rfl⟩ | ⟨hj, hjowner, ht⟩
    · rw [if_neg (hshared hres)]
      exact .inl ⟨t, hres, (Message.mem_tags_renamed_of_mem_reserved hres).mpr ht, rfl⟩
    · refine .inr ⟨mem_labels_renameLabel.mpr ⟨j, hj, rfl⟩, howner.trans hjowner, ?_⟩
      exact (ho.carries_iff hfits hm hj hjowner).mpr ht

/-- In a table where only the label has its id, its row gets its name back. -/
theorem renameRow_back {labels : List Label} (hunique : ∀ k ∈ labels, k.id = l.id → k = l) :
    Primary.renameRow l.id l.name (Primary.renameRow l.id name labels) = labels := by
  rw [Primary.renameRow, Primary.renameRow, List.map_map]
  refine (List.map_congr_left fun k hk => ?_).trans labels.map_id
  by_cases hid : k.id = l.id
  · obtain rfl := hunique k hk hid
    simp
  · simp [hid]

/-- The act that renames the label back undoes the one that renamed it. -/
theorem Orderly.apply_back (ho : h.Orderly) (hfits : h.Fits owner fresh (.renameLabel l name)) :
    (h.apply (.renameLabel l name)).apply (.renameLabel { l with name := name } l.name) = h := by
  have hmessages : (h.messages.map (Message.renamed l name)).map
      (Message.renamed { l with name := name } l.name) = h.messages := by
    rw [List.map_map]
    exact (List.map_congr_left fun m hm => ho.renamed_back hfits hm).trans h.messages.map_id
  have hlabels : Primary.renameRow l.id l.name (Primary.renameRow l.id name h.labels) = h.labels :=
    renameRow_back fun k hk hid => ho.eq_of_labelId hk hfits.1 hid
  exact congrArg₂ Holdings.mk hmessages hlabels

end Holdings

namespace Primary

variable {h : Holdings} {l : Label} {owner id text name : String}

theorem customName_eq_ok_iff : customName text = .ok name ↔ Tag.ofName text = .ok (.custom name) :=
  ⟨fun hname => (customName_eq_ok hname).1, fun hof => by rw [customName, hof]⟩

theorem customName_trim : customName (Text.trim text) = customName text := by
  rw [customName, customName, Tag.ofName_trim]

/-- After a renaming the label may have its old name again. -/
theorem Renames.back (hr : Renames h owner id text l name) (ho : h.Orderly) :
    Renames (h.apply (.renameLabel l name)) owner id l.name { l with name := name } l.name where
  stored := Holdings.mem_labels_renameLabel.mpr ⟨l, hr.stored, if_pos rfl⟩
  id_eq := hr.id_eq
  ownerId := hr.ownerId
  spells := customName_eq_ok_iff.mpr (ho.named l hr.stored)
  free k hk howner hsame := by
    obtain ⟨j, hj, rfl⟩ := Holdings.mem_labels_renameLabel.mp hk
    by_cases hid : j.id = l.id
    · rw [if_pos hid]
      exact hid
    · rw [if_neg hid] at howner hsame ⊢
      rw [ho.distinct j hj l hr.stored (howner.trans hr.ownerId.symm) hsame]

theorem Renames.trim (hr : Renames h owner id text l name) :
    Renames h owner id (Text.trim text) l name :=
  ⟨hr.stored, hr.id_eq, hr.ownerId, customName_trim.trans hr.spells, hr.free⟩

theorem Renames.of_trim (hr : Renames h owner id (Text.trim text) l name) :
    Renames h owner id text l name :=
  ⟨hr.stored, hr.id_eq, hr.ownerId, customName_trim.symm.trans hr.spells, hr.free⟩

/-- Which label is renamed, and to what, is settled by the id and the text. -/
theorem Renames.unique {l' : Label} {name' : String} (hr : Renames h owner id text l name)
    (ho : h.Orderly) (hr' : Renames h owner id text l' name') : l = l' ∧ name = name' :=
  ⟨ho.eq_of_labelId hr.stored hr'.stored (hr.id_eq.trans hr'.id_eq.symm),
    Except.ok.inj (hr.spells.symm.trans hr'.spells)⟩

/-- A label may get any name of a custom tag that differs from its own in the case of letters
only. -/
theorem renames_of_sameName (ho : h.Orderly) (hl : l ∈ h.labels)
    (hname : customName text = .ok name) (hsame : sameName l.name name = true) :
    Renames h l.ownerId l.id text l name where
  stored := hl
  id_eq := rfl
  ownerId := rfl
  spells := hname
  free k hk howner hk' := by
    rw [ho.distinct k hk l hl howner (Text.sameName_trans hk' (Text.sameName_comm.mp hsame))]

end Primary

namespace Replica

variable {R : Rows} {h : Holdings} {m : Message} {l : Label} {owner name : String}
variable {fresh : String → Prop} {labels : List Label}

/-- A put under an id that one row has renames that row. -/
theorem putLabelRow_eq_renameRow (hnodup : (labels.map Label.id).Nodup) (hl : l ∈ labels) :
    putLabelRow { l with name := name } labels = Primary.renameRow l.id name labels := by
  induction labels with
  | nil => cases hl
  | cons k labels ih =>
    obtain ⟨hk, hnodup⟩ := List.nodup_cons.mp hnodup
    rw [putLabelRow, Primary.renameRow, List.map_cons]
    rcases List.mem_cons.mp hl with rfl | hl
    · have hrest : labels.map (fun j => if j.id = l.id then { j with name := name } else j) =
          labels := by
        refine (List.map_congr_left fun j hj => if_neg fun hid => ?_).trans labels.map_id
        exact hk (List.mem_map.mpr ⟨j, hj, hid⟩)
      rw [if_pos rfl, if_pos rfl, hrest]
    · have hne : k.id ≠ l.id := fun hid => hk (List.mem_map.mpr ⟨l, hl, hid.symm⟩)
      rw [if_neg hne, if_neg hne, ih hnodup hl]
      rfl

namespace Rows

/-- The tables with the label under its new name. -/
def renamed (l : Label) (name : String) (R : Rows) : Rows :=
  { R with labels := Primary.renameRow l.id name R.labels }

/-- What was mirrored is so under the new name, as the links lead to the same ids. -/
theorem Mirrors.renamed (hmir : R.Mirrors m (h.labelsOf m)) (ho : h.Orderly) (hapart : h.Apart)
    (hfits : h.Fits owner fresh (.renameLabel l name)) (hm : m ∈ h.messages) :
    (R.renamed l name).Mirrors (m.renamed l name)
      ((h.apply (.renameLabel l name)).labelsOf (m.renamed l name)) where
  row := by
    rw [Message.ofMessage_renamed]
    exact hmir.row
  links i := by
    have hid {j : Label} :
        (if j.id = l.id then { j with name := name } else j).id = j.id := by
      split <;> rfl
    rw [Message.id_renamed]
    refine (hmir.links i).trans ⟨?_, ?_⟩
    · rintro ⟨j, hj, rfl⟩
      exact ⟨_, (ho.mem_labelsOf_renamed hapart hfits hm).mpr (List.mem_map_of_mem hj), hid⟩
    · rintro ⟨k, hk, rfl⟩
      obtain ⟨j, hj, rfl⟩ := List.mem_map.mp ((ho.mem_labelsOf_renamed hapart hfits hm).mp hk)
      exact ⟨j, hj, hid.symm⟩
  names k hk := by
    obtain ⟨j, hj, rfl⟩ := List.mem_map.mp ((ho.mem_labelsOf_renamed hapart hfits hm).mp hk)
    obtain ⟨i, hi, hid, hname⟩ := hmir.names j hj
    refine ⟨_, List.mem_map_of_mem hi, ?_⟩
    by_cases hjid : j.id = l.id
    · rw [if_pos hjid, if_pos (hid.trans hjid)]
      exact ⟨hid, rfl⟩
    · rw [if_neg hjid, if_neg (hid ▸ hjid)]
      exact ⟨hid, hname⟩

end Rows

end Replica

namespace Mailroom

open Primary (Renames MessageRow)

variable {σ : Type} {room mid room' : Mailroom σ} {h : Holdings} {l : Label}
variable {owner id name raw : String} {fresh : String → Prop} {now : Int} {text : Option String}

theorem Turn.rows_putLabel {r r' : Replica} {b b' : Backlog}
    (hturn : Turn h r b (.putLabel l) r' b') (hs : r.Sound) :
    r'.rows = { r.rows with labels := Replica.putLabelRow l r.rows.labels } := by
  cases hturn with
  | labelPut hrows => exact hrows
  | refused hrefresh hrows hunsound => exact absurd hs hunsound

/-- The tasks of a renaming change one name in a replica that mirrors all messages. -/
theorem Tended.renamed_done (ht : Tended (h.apply (.renameLabel l name)) mid)
    (hs : mid.replica.Sound) (ho : h.Orderly) (hapart : h.Apart)
    (hfits : h.Fits owner fresh (.renameLabel l name)) (hl : l ∈ mid.replica.rows.labels)
    (hmir : ∀ m ∈ h.messages, mid.replica.rows.Mirrors m (h.labelsOf m)) :
    (mid.replica.rows.renamed l name).Unchanged
      (mid.done (renameTasks h l name)).replica.rows := by
  let put : Task := .putLabel { l with name := name }
  have hfirst : put.Fits (h.apply (.renameLabel l name)) :=
    Holdings.mem_labels_renameLabel.mpr ⟨l, hfits.1, if_pos rfl⟩
  obtain ⟨hturn, hlater⟩ := run_turns ht put
  have hrows : (mid.run put).replica.rows = mid.replica.rows.renamed l name := by
    rw [hturn.rows_putLabel hs, Replica.putLabelRow_eq_renameRow ht.kept.labelIds hl]
    rfl
  rw [renameTasks, done_cons, ← hrows]
  refine (ht.run hfirst).unchanged_synced (hs.later hlater) fun t htask => .inl ?_
  obtain ⟨m', hm', rfl⟩ := List.mem_map.mp htask
  obtain ⟨m, hm, rfl⟩ := List.mem_map.mp hm'
  have hm : m ∈ h.messages := (Holdings.mem_mailbox.mp (List.mem_filter.mp hm).1).1
  refine ⟨m.renamed l name, List.mem_map_of_mem hm, ?_, ?_⟩
  · rw [Message.id_renamed]
    rfl
  · rw [hrows]
    exact (hmir m hm).renamed ho hapart hfits hm

/-- In all tables the label has the new name, the owner's messages carry the new tag where they
carried the old one, and nothing else differs. -/
structure Renamed (l : Label) (name : String) (room room' : Mailroom σ) : Prop where
  holdings : room'.holdings = ⟨room.holdings.messages.map (Message.renamed l name),
    Primary.renameRow l.id name room.holdings.labels⟩
  sizes : ∀ m ∈ room.holdings.messages, (m.renamed l name).tags.size = m.tags.size
  store : room'.primary.rows = { room.primary.rows with
    messages := (room.holdings.messages.map (Message.renamed l name)).map MessageRow.ofMessage
    labels := Primary.renameRow l.id name room.primary.rows.labels }
  replica : (room.replica.rows.renamed l name).Unchanged room'.replica.rows
  copies : ∀ id, room'.replica.rows.copy? id =
    (room.replica.rows.copy? id).map (Message.renamed l name)
  backlog : room'.backlog = room.backlog

theorem Even.renamed (he : room.Even) (hsupply : Supply room.idAt)
    (hr : Renames room.holdings owner id raw l name)
    (hw : Wrote owner room.holdings [.renameLabel l name] (room.atTime now) mid)
    (hspared : SparedTables (room.atTime now) (mid.done (renameTasks room.holdings l name)))
    (he' : (mid.done (renameTasks room.holdings l name)).Even) :
    Renamed l name room (mid.done (renameTasks room.holdings l name)) := by
  have ho : room.holdings.Orderly := he.followed.tended.orderly
  have hfits := hr.fits fun _ => True
  have hholdings : (mid.done (renameTasks room.holdings l name)).holdings =
      ⟨room.holdings.messages.map (Message.renamed l name),
        Primary.renameRow l.id name room.holdings.labels⟩ := hw.done_holdings ho _
  have hshows := hw.done_shows (renameTasks room.holdings l name)
  refine ⟨hholdings, fun m hm => ho.size_renamed hfits hm, ?_, ?_, fun i => ?_, ?_⟩
  · calc (mid.done (renameTasks room.holdings l name)).primary.rows
        = ⟨_, _, _, _⟩ := rfl
      _ = _ := by
        rw [hshows.messages, hshows.labels, hspared.primary.users, hspared.primary.blacklist]
        rfl
  · have ht := ((he.followed.atTime now).written hsupply hw).1
    have hreplica : mid.replica = room.replica := hw.replica
    have hl : l ∈ room.replica.rows.labels := (he.agrees l.id).stored l hr.stored rfl
    have hapart : room.holdings.Apart := he.followed.tended.apart
    have hunchanged := ht.renamed_done (hreplica ▸ he.sound) ho hapart hfits (hreplica ▸ hl)
      fun m hm => hreplica ▸ he.mirrors hm
    rwa [hreplica] at hunchanged
  · rw [he'.copy?_eq, he.copy?_eq, Holdings.find?, Holdings.find?, hholdings,
      List.find?_map]
    refine congrArg (Option.map _) ?_
    refine congrArg (List.find? · _) (funext fun m => ?_)
    rw [Function.comp, Message.id_renamed]
  · rw [he'.backlog, he.backlog]

theorem required_trim {t : Tag} {field : String} (hof : Tag.ofName raw = .ok t) :
    required field (some raw) = .ok (Text.trim raw) := by
  simp [required, Tag.trim_not_empty hof]

theorem of_required_eq_ok {field value : String} (h : required field text = .ok value) :
    ∃ raw, text = some raw ∧ value = Text.trim raw := by
  cases text with
  | none => cases h
  | some raw =>
    refine ⟨raw, rfl, ?_⟩
    simp only [required, Option.map_some] at h
    split at h
    · cases h
    · exact (Except.ok.inj h).symm

/-- A call that renames goes through just if the label may get the name. -/
theorem Even.rename_ends (he : room.Even) (hsupply : Supply room.idAt) (owner id : String)
    (now : Int) (text : Option String) :
    Ends (perform owner (.renameLabel id text) (room.atTime now))
      (fun o room' => ∃ raw l name, text = some raw ∧ Renames room.holdings owner id raw l name ∧
        o = .label { l with name := name } ∧ (room'.Even → Renamed l name room room'))
      (fun _ _ => ∀ raw l name, text = some raw → ¬ Renames room.holdings owner id raw l name) := by
  have ht : Tended room.holdings (room.atTime now) := (he.followed.atTime now).tended
  refine Ends.map (((renameLabel_ends ht.shows ht.orderly text).both
    (sparing_renameLabel owner id text (room.atTime now))).mono ?_ ?_)
  · rintro _ _ ⟨⟨value, l, name, mid, hvalue, hr, rfl, hw, rfl⟩, hspared⟩
    obtain ⟨raw, rfl, rfl⟩ := of_required_eq_ok hvalue
    exact ⟨raw, l, name, rfl, hr.of_trim, rfl, he.renamed hsupply hr hw hspared⟩
  · rintro _ _ ⟨⟨-, hnot⟩, -⟩ raw l name rfl hr
    have hof : Tag.ofName raw = .ok (.custom name) := Primary.customName_eq_ok_iff.mp hr.spells
    exact hnot ht.sound _ l name (required_trim hof) hr.trim

theorem Even.renamed_step (he : room.Even) (hsupply : Supply room.idAt)
    (hr : Renames room.holdings owner id raw l name)
    (he' : (room.step ⟨owner, now, .renameLabel id (some raw)⟩).Even) :
    room.outcome ⟨owner, now, .renameLabel id (some raw)⟩ =
        some (.label { l with name := name }) ∧
      Renamed l name room (room.step ⟨owner, now, .renameLabel id (some raw)⟩) := by
  let call : Event := ⟨owner, now, .renameLabel id (some raw)⟩
  obtain ⟨hdone, hrefused⟩ :=
    step_of_ends (e := call) (he.rename_ends hsupply owner id now (some raw))
  cases houtcome : room.outcome call with
  | none =>
    obtain ⟨-, hnot⟩ := hrefused houtcome
    exact absurd hr (hnot raw l name rfl)
  | some o =>
    obtain ⟨raw', l', name', htext, hr', rfl, hrenamed⟩ := hdone o houtcome
    obtain rfl := Option.some.inj htext
    obtain ⟨rfl, rfl⟩ := hr.unique he.followed.tended.orderly hr'
    exact ⟨rfl, hrenamed he'⟩

/-- Both stores have the same tables, and the backlog is the same. -/
structure Restored (room room' : Mailroom σ) : Prop where
  store : room'.primary.rows = room.primary.rows
  replica : room.replica.rows.Unchanged room'.replica.rows
  backlog : room'.backlog = room.backlog

theorem Renamed.restored (hr : Renamed l name room mid)
    (hback : Renamed { l with name := name } l.name mid room') (he : room.Even)
    (hl : l ∈ room.holdings.labels) (hfits : room.holdings.Fits owner fresh (.renameLabel l name)) :
    Restored room room' := by
  have ho : room.holdings.Orderly := he.followed.tended.orderly
  have hrow : l ∈ room.replica.rows.labels := (he.agrees l.id).stored l hl rfl
  have hmessages : (room.holdings.messages.map (Message.renamed l name)).map
      (Message.renamed { l with name := name } l.name) = room.holdings.messages :=
    congrArg Holdings.messages (ho.apply_back hfits)
  have hlabels : Primary.renameRow l.id l.name
      (Primary.renameRow l.id name room.primary.rows.labels) = room.primary.rows.labels :=
    congrArg Holdings.labels (ho.apply_back hfits)
  have hnames : Primary.renameRow l.id l.name (mid.replica.rows.labels) =
      room.replica.rows.labels := by
    rw [hr.replica.labels]
    exact Holdings.renameRow_back fun k hk hid =>
      he.followed.tended.kept.eq_of_labelId hk hrow hid
  refine ⟨?_, ⟨?_, ?_, fun k => ?_⟩, hback.backlog.trans hr.backlog⟩
  · rw [hback.store, hr.holdings, hmessages, hr.store]
    dsimp only
    rw [hlabels, ← he.followed.tended.shows.messages]
  · exact hback.replica.messages.trans hr.replica.messages
  · exact hback.replica.labels.trans hnames
  · exact (hback.replica.links k).trans (hr.replica.links k)

/-- In every state that a run leaves in which nothing fails: a call that renames a label of the
caller's either changes nothing, or it is an exact substitution in both stores that a second call
takes back. It goes through just if the text spells the name of a custom tag that no other label of
the caller's has, so that a change of letter case alone is accepted. -/
theorem renaming_exact (room : Mailroom σ) (hb : room.Blank) (hp : room.primary.Sound)
    (hs : room.replica.Sound) (hsupply : Supply room.idAt) (events : List Event)
    (owner id : String) (text : Option String) (now now' : Int) :
    let before := room.after events
    let call : Event := ⟨owner, now, .renameLabel id text⟩
    (before.outcome call = none → Untouched before (before.step call)) ∧
    (before.outcome call ≠ none ↔
      ∃ raw l name, text = some raw ∧ Renames before.holdings owner id raw l name) ∧
    (∀ raw l name, text = some raw → l ∈ before.holdings.labels → l.id = id → l.ownerId = owner →
      Tag.ofName raw = .ok (.custom name) → sameName l.name name = true →
      before.outcome call ≠ none) ∧
    ∀ raw l name, text = some raw → Renames before.holdings owner id raw l name →
      let back : Event := ⟨owner, now', .renameLabel id (some l.name)⟩
      before.outcome call = some (.label { l with name := name }) ∧
      Renamed l name before (before.step call) ∧
      (before.step call).outcome back = some (.label l) ∧
      Restored before ((before.step call).step back) := by
  intro before call
  have he : before.Even := hb.even hp hs hsupply events
  have ho : before.holdings.Orderly := he.followed.tended.orderly
  have hsupply' : Supply before.idAt := ((hb.followed hp).after hsupply events).2.1
  obtain ⟨hdone, hrefused⟩ := step_of_ends (e := call) (he.rename_ends hsupply' owner id now text)
  have hgoes {raw : String} {l : Label} {name : String} (htext : text = some raw)
      (hr : Renames before.holdings owner id raw l name) : before.outcome call ≠ none := by
    intro hnone
    obtain ⟨-, hnot⟩ := hrefused hnone
    exact hnot raw l name htext hr
  refine ⟨fun hnone => ?_, ⟨fun hsome => ?_, ?_⟩, ?_, ?_⟩
  · have hroom : (before.atTime now).Orderly := (he.followed.atTime now).orderly
    obtain ⟨f, hf⟩ := (step_of_ends (e := call) (perform_untouched hroom
      ⟨(he.followed.atTime now).tended.sound, he.sound⟩ owner (.renameLabel id text))).2 hnone
    exact ⟨hf.rows, hf.replica, hf.backlog⟩
  · obtain ⟨o, ho⟩ := Option.ne_none_iff_exists'.mp hsome
    obtain ⟨raw, l, name, htext, hr, -⟩ := hdone o ho
    exact ⟨raw, l, name, htext, hr⟩
  · rintro ⟨raw, l, name, htext, hr⟩
    exact hgoes htext hr
  · rintro raw l name htext hl rfl rfl hof hsame
    have hname := Primary.customName_eq_ok_iff.mpr hof
    exact hgoes htext (Primary.renames_of_sameName ho hl hname hsame)
  · rintro raw l name rfl hr back
    have he' : (before.step call).Even :=
      after_concat ▸ hb.even hp hs hsupply (events ++ [call])
    have he'' : ((before.step call).step back).Even := by
      have heven := hb.even hp hs hsupply ((events ++ [call]) ++ [back])
      rwa [after_concat, after_concat] at heven
    obtain ⟨houtcome, hrenamed⟩ := he.renamed_step hsupply' hr he'
    have hfits := hr.fits fun _ => True
    have hr' : Renames (before.step call).holdings owner id l.name { l with name := name } l.name :=
      hrenamed.holdings ▸ hr.back ho
    have hsupply'' : Supply (before.step call).idAt := by
      rwa [(he.followed.orderly.fixed_step call).idAt]
    obtain ⟨houtcome', hrenamed'⟩ := he'.renamed_step hsupply'' hr' he''
    exact ⟨houtcome, hrenamed, houtcome', hrenamed.restored hrenamed' he hr.stored hfits⟩

/-- Other letters of the same name, with a blank before them. -/
theorem renaming_exact_recased :
    let before := sample.after renamedDelivery
    let l : Label := ⟨"uuu", "bob", "offers"⟩
    let after := before.step ⟨"bob", 0, .renameLabel "uuu" (some " OFFERS")⟩
    sample.Blank ∧ sample.primary.Sound ∧ sample.replica.Sound ∧ Supply sample.idAt ∧
      (∃ m ∈ before.holdings.messages, m.ownerId = "bob" ∧ .custom "offers" ∈ m.tags) ∧
      Renames before.holdings "bob" "uuu" " OFFERS" l "OFFERS" ∧ Renamed l "OFFERS" before after ∧
      Restored before (after.step ⟨"bob", 0, .renameLabel "uuu" (some "offers")⟩) := by
  intro before l after
  obtain ⟨hp, hs⟩ := sound_sample []
  have hr : Renames before.holdings "bob" "uuu" " OFFERS" l "OFFERS" := by
    refine ⟨?_, rfl, rfl, ?_, ?_⟩
    all_goals decide +kernel
  have hexact := (renaming_exact sample blank_sample hp hs supply_sample renamedDelivery "bob"
    "uuu" (some " OFFERS") 0 0).2.2.2 _ l _ rfl hr
  exact ⟨blank_sample, hp, hs, supply_sample, by decide +kernel, hr, hexact.2.1,
    hexact.2.2.2⟩

end Mailroom

end LabelMail
