import LabelMail.Proofs.Edits

/-!
Acts, the units in which operations write to the holdings of the primary store, and what holdings
keep under the acts that operations perform. In orderly holdings ids and label names are unique, the
messages can be read back from their rows, and the custom tags are those that the owner has labels
for.
-/
namespace LabelMail

open Text (sameName)

inductive Act where
  | enter (m : Message)
  | alter (m : Message)
  | discard (id : String)
  | enterLabel (l : Label)
  /-- Renames a label along with its tag on the owner's messages. -/
  | renameLabel (l : Label) (name : String)
  /-- Discards a label along with its tag on the owner's messages. -/
  | discardLabel (l : Label)

namespace Holdings

def apply (h : Holdings) : Act → Holdings
  | .enter m => { h with messages := h.messages ++ [m] }
  | .alter m => h.put m
  | .discard id => { h with messages := h.messages.filter (·.id != id) }
  | .enterLabel l => { h with labels := h.labels ++ [l] }
  | .renameLabel l name =>
    ⟨h.retag l.ownerId (.custom l.name) (·.insert (.custom name)),
      Primary.renameRow l.id name h.labels⟩
  | .discardLabel l =>
    ⟨h.retag l.ownerId (.custom l.name) (fun s => s), h.labels.filter (·.id != l.id)⟩

def after (h : Holdings) (acts : List Act) : Holdings :=
  acts.foldl apply h

/-- The act is one that an operation of the caller may perform, with new ids among `fresh`. -/
def Fits (caller : String) (fresh : String → Prop) (h : Holdings) : Act → Prop
  | .enter m => fresh m.id ∧ m.id ∉ h.ids ∧ m.New caller
  | .alter m => ∃ x ∈ h.messages, x.ownerId = caller ∧ x.Edit h.labels m
  | .discard id => ∃ x ∈ h.messages, x.id = id ∧ x.ownerId = caller
  | .enterLabel l =>
    l.ownerId = caller ∧ fresh l.id ∧ (∀ k ∈ h.labels, k.id ≠ l.id) ∧ (Tag.custom l.name).Proper ∧
      ∀ k ∈ h.labels, k.ownerId = caller → sameName k.name l.name = false
  | .renameLabel l name =>
    l ∈ h.labels ∧ l.ownerId = caller ∧ (Tag.custom name).Proper ∧
      ∀ k ∈ h.labels, k.ownerId = caller → sameName k.name name = true → k.id = l.id
  | .discardLabel l => l ∈ h.labels ∧ l.ownerId = caller

/-- Each of the acts fits what the ones before it leave. -/
def Legal (caller : String) (fresh : String → Prop) : Holdings → List Act → Prop
  | _, [] => True
  | h, a :: acts => h.Fits caller fresh a ∧ Legal caller fresh (h.apply a) acts

structure Orderly (h : Holdings) : Prop where
  ids : h.ids.Nodup
  labelIds : (h.labels.map Label.id).Nodup
  storable : ∀ m ∈ h.messages, m.Storable
  named : ∀ l ∈ h.labels, (Tag.custom l.name).Proper
  distinct : ∀ k ∈ h.labels, ∀ l ∈ h.labels, k.ownerId = l.ownerId →
    sameName k.name l.name = true → k = l
  labelled : ∀ m ∈ h.messages, ∀ t ∈ m.tags, Message.HasLabel h.labels m.ownerId t

variable {h : Holdings} {m x : Message} {a : Act} {acts : List Act} {l k : Label}
variable {owner caller name id : String} {t : Tag} {f : TagSet → TagSet} {fresh : String → Prop}

theorem after_append {acts' : List Act} : h.after (acts ++ acts') = (h.after acts).after acts' :=
  List.foldl_append

theorem legal_append {acts' : List Act} :
    h.Legal caller fresh (acts ++ acts') ↔
      h.Legal caller fresh acts ∧ (h.after acts).Legal caller fresh acts' := by
  induction acts generalizing h with
  | nil => simp [Legal, after]
  | cons a acts ih => simp only [List.cons_append, Legal, ih, and_assoc]; rfl

/-- What every act that fits keeps is kept by legal acts. -/
theorem kept_after {P : Holdings → Prop}
    (hP : ∀ h a, P h → h.Fits caller fresh a → P (h.apply a)) (hlegal : h.Legal caller fresh acts)
    (hh : P h) : P (h.after acts) := by
  induction acts generalizing h with
  | nil => exact hh
  | cons a acts ih => exact ih hlegal.2 (hP h a hh hlegal.1)

theorem mem_messages_renameLabel : x ∈ (h.apply (.renameLabel l name)).messages ↔
    ∃ m ∈ h.messages, (if m.ownerId = l.ownerId ∧ .custom l.name ∈ m.tags
      then m.withTags ((m.tags.erase (.custom l.name)).insert (.custom name)) else m) = x :=
  List.mem_map

theorem mem_messages_discardLabel : x ∈ (h.apply (.discardLabel l)).messages ↔
    ∃ m ∈ h.messages, (if m.ownerId = l.ownerId ∧ .custom l.name ∈ m.tags
      then m.withTags (m.tags.erase (.custom l.name)) else m) = x :=
  List.mem_map

/-- How a message comes to be among those that an act leaves. -/
inductive Arises (caller : String) (fresh : String → Prop) (h : Holdings) : Act → Message → Prop
  | kept {a : Act} {m : Message} (hm : m ∈ h.messages) : Arises caller fresh h a m
  | entered {m : Message} (hid : fresh m.id) (hnew : m.New caller) :
      Arises caller fresh h (.enter m) m
  | edited {x m : Message} (hx : x ∈ h.messages) (hedit : x.Edit h.labels m) :
      Arises caller fresh h (.alter m) m
  | renamed {x : Message} {l : Label} {name : String} (hx : x ∈ h.messages) :
      Arises caller fresh h (.renameLabel l name)
        (x.withTags ((x.tags.erase (.custom l.name)).insert (.custom name)))
  | stripped {x : Message} {l : Label} (hx : x ∈ h.messages) :
      Arises caller fresh h (.discardLabel l) (x.withTags (x.tags.erase (.custom l.name)))

theorem Fits.arises (hfits : h.Fits caller fresh a) (hm : m ∈ (h.apply a).messages) :
    h.Arises caller fresh a m := by
  cases a with
  | enter x =>
    rcases List.mem_append.mp hm with hm | hm
    · exact .kept hm
    · obtain rfl := List.mem_singleton.mp hm
      exact .entered hfits.1 hfits.2.2
  | alter x =>
    obtain ⟨y, hy, -, hedit⟩ := hfits
    have hid : x.id ∈ h.ids := mem_ids.mpr ⟨y, hy, congrArg Row.id hedit.envelope.symm⟩
    rcases (mem_put hid).mp hm with rfl | hm
    · exact .edited hy hedit
    · exact .kept hm.1
  | discard id => exact .kept (List.mem_filter.mp hm).1
  | enterLabel l => exact .kept hm
  | renameLabel l name =>
    obtain ⟨x, hx, rfl⟩ := mem_messages_renameLabel.mp hm
    split
    · exact .renamed hx
    · exact .kept hx
  | discardLabel l =>
    obtain ⟨x, hx, rfl⟩ := mem_messages_discardLabel.mp hm
    split
    · exact .stripped hx
    · exact .kept hx

theorem Fits.storable (hfits : h.Fits caller fresh a) (hh : ∀ m ∈ h.messages, m.Storable) :
    ∀ m ∈ (h.apply a).messages, m.Storable := by
  intro m hm
  cases hfits.arises hm with
  | kept hm => exact hh m hm
  | entered hid hnew => exact hnew.storable
  | edited hx hedit => exact hedit.storable (hh _ hx)
  | renamed hx =>
    refine ⟨fun u hu => ?_, (hh _ hx).exact⟩
    rcases TagSet.mem_insert.mp hu with rfl | hu
    · exact hfits.2.2.1
    · exact (hh _ hx).proper u (TagSet.mem_erase.mp hu).1
  | stripped hx =>
    exact ⟨fun u hu => (hh _ hx).proper u (TagSet.mem_erase.mp hu).1, (hh _ hx).exact⟩

theorem mem_labels_renameLabel : k ∈ (h.apply (.renameLabel l name)).labels ↔
    ∃ j ∈ h.labels, (if j.id = l.id then { j with name := name } else j) = k :=
  List.mem_map

theorem retag_ids : (h.retag owner t f).map Message.id = h.ids := by
  rw [retag, List.map_map]
  refine List.map_congr_left fun m _ => ?_
  by_cases hm : m.ownerId = owner ∧ t ∈ m.tags <;> simp [hm, Message.withTags]

theorem renameRow_ids :
    (Primary.renameRow id name h.labels).map Label.id = h.labels.map Label.id := by
  rw [Primary.renameRow, List.map_map]
  refine List.map_congr_left fun l _ => ?_
  by_cases hl : l.id = id <;> simp [hl]

namespace Orderly

theorem eq_of_labelId (ho : h.Orderly) (hk : k ∈ h.labels) (hl : l ∈ h.labels)
    (hid : k.id = l.id) : k = l :=
  List.inj_on_of_nodup_map ho.labelIds hk hl hid

theorem enter (ho : h.Orderly) (hfits : h.Fits caller fresh (.enter m)) :
    (h.apply (.enter m)).Orderly := by
  have hstorable := hfits.storable ho.storable
  obtain ⟨-, hid, hnew⟩ := hfits
  refine ⟨?_, ho.labelIds, hstorable, ho.named, ho.distinct, fun x hx => ?_⟩
  · have hids : (h.apply (.enter m)).ids = h.ids ++ [m.id] := List.map_append
    rw [hids, List.nodup_append_comm]
    exact List.nodup_cons.mpr ⟨hid, ho.ids⟩
  · rcases List.mem_append.mp hx with hx | hx
    · exact ho.labelled x hx
    · obtain rfl := List.mem_singleton.mp hx
      exact fun t ht => Message.hasLabel_of_mem_reserved (hnew.mem_reserved ht)

theorem alter (ho : h.Orderly) (hfits : h.Fits caller fresh (.alter m)) :
    (h.apply (.alter m)).Orderly := by
  refine ⟨by rw [apply, ids_put]; exact ho.ids, ho.labelIds, hfits.storable ho.storable, ho.named,
    ho.distinct, fun x hx t ht => ?_⟩
  cases hfits.arises hx with
  | kept hx => exact ho.labelled x hx t ht
  | edited hy hedit =>
    rw [hedit.ownerId]
    rcases hedit.mem_tags ht with ht | ht
    · exact ho.labelled _ hy t ht
    · exact ht.2

theorem discard (ho : h.Orderly) : (h.apply (.discard id)).Orderly where
  ids := ho.ids.sublist (List.filter_sublist.map _)
  labelIds := ho.labelIds
  storable m hm := ho.storable m (List.mem_filter.mp hm).1
  named := ho.named
  distinct := ho.distinct
  labelled m hm := ho.labelled m (List.mem_filter.mp hm).1

theorem enterLabel (ho : h.Orderly) (hfits : h.Fits caller fresh (.enterLabel l)) :
    (h.apply (.enterLabel l)).Orderly := by
  obtain ⟨howner, -, hid, hproper, hname⟩ := hfits
  have hsplit {k : Label} (hk : k ∈ (h.apply (.enterLabel l)).labels) : k ∈ h.labels ∨ k = l := by
    simpa [apply] using hk
  refine ⟨ho.ids, ?_, ho.storable, fun k hk => ?_, fun j hj k hk hjk hsame => ?_,
    fun m hm t ht n hn => ?_⟩
  · change ((h.labels ++ [l]).map Label.id).Nodup
    rw [List.map_append, List.nodup_append_comm]
    refine List.nodup_cons.mpr ⟨fun hmem => ?_, ho.labelIds⟩
    obtain ⟨k, hk, hkl⟩ := List.mem_map.mp hmem
    exact hid k hk hkl
  · rcases hsplit hk with hk' | hk'
    · exact ho.named k hk'
    · rw [hk']
      exact hproper
  · rcases hsplit hj with hj' | hj' <;> rcases hsplit hk with hk' | hk'
    · exact ho.distinct j hj' k hk' hjk hsame
    · rw [hk'] at hjk hsame
      rw [hname j hj' (hjk.trans howner)] at hsame
      cases hsame
    · rw [hj'] at hjk hsame
      rw [Text.sameName_comm, hname k hk' (hjk.symm.trans howner)] at hsame
      cases hsame
    · rw [hj', hk']
  · obtain ⟨k, hk, howns, hkn⟩ := ho.labelled m hm t ht n hn
    exact ⟨k, List.mem_append_left _ hk, howns, hkn⟩

/-- A custom tag that is not the one of `l` belongs to a label that `l` leaves alone. -/
theorem other_label (ho : h.Orderly) (hl : l ∈ h.labels) (hm : m ∈ h.messages) (ht : t ∈ m.tags)
    (hname : t = .custom name) (hother : ¬ (m.ownerId = l.ownerId ∧ name = l.name)) :
    ∃ k ∈ h.labels, k.id ≠ l.id ∧ k.ownerId = m.ownerId ∧ k.name = name := by
  obtain ⟨k, hk, howns, hkn⟩ := ho.labelled m hm t ht name hname
  refine ⟨k, hk, fun hid => hother ?_, howns, hkn⟩
  obtain rfl := ho.eq_of_labelId hk hl hid
  exact ⟨howns.symm, hkn.symm⟩

theorem renameLabel (ho : h.Orderly) (hfits : h.Fits caller fresh (.renameLabel l name)) :
    (h.apply (.renameLabel l name)).Orderly := by
  have hstorable := hfits.storable ho.storable
  obtain ⟨hl, howner, hproper, hname⟩ := hfits
  refine ⟨?_, ?_, hstorable, fun k hk => ?_, fun j hj k hk hjk hsame => ?_,
    fun x hx t ht n hn => ?_⟩
  · rw [Holdings.ids, Holdings.apply, retag_ids]
    exact ho.ids
  · rw [Holdings.apply, renameRow_ids]
    exact ho.labelIds
  · obtain ⟨j, hj, rfl⟩ := mem_labels_renameLabel.mp hk
    split
    · exact hproper
    · exact ho.named j hj
  · obtain ⟨j₀, hj₀, rfl⟩ := mem_labels_renameLabel.mp hj
    obtain ⟨k₀, hk₀, rfl⟩ := mem_labels_renameLabel.mp hk
    by_cases hjid : j₀.id = l.id <;> by_cases hkid : k₀.id = l.id
    · rw [ho.eq_of_labelId hj₀ hk₀ (hjid.trans hkid.symm)]
    · simp only [if_pos hjid, if_neg hkid] at hjk hsame
      obtain rfl := ho.eq_of_labelId hj₀ hl hjid
      exact absurd (hname k₀ hk₀ (hjk.symm.trans howner) (Text.sameName_comm.mp hsame)) hkid
    · simp only [if_neg hjid, if_pos hkid] at hjk hsame
      obtain rfl := ho.eq_of_labelId hk₀ hl hkid
      exact absurd (hname j₀ hj₀ (hjk.trans howner) hsame) hjid
    · simp only [if_neg hjid, if_neg hkid] at hjk hsame ⊢
      exact ho.distinct j₀ hj₀ k₀ hk₀ hjk hsame
  · obtain ⟨m, hm, rfl⟩ := mem_messages_renameLabel.mp hx
    split at ht
    · next hcase =>
      rw [if_pos hcase]
      rcases TagSet.mem_insert.mp ht with ht | ht
      · refine ⟨{ l with name := name }, mem_labels_renameLabel.mpr ⟨l, hl, if_pos rfl⟩,
          hcase.1.symm, ?_⟩
        exact Tag.custom.inj (ht.symm.trans hn)
      · obtain ⟨ht, hne⟩ := TagSet.mem_erase.mp ht
        obtain ⟨k, hk, hkl, hkn⟩ := ho.other_label hl hm ht hn fun h => hne (hn.trans (h.2 ▸ rfl))
        exact ⟨k, mem_labels_renameLabel.mpr ⟨k, hk, if_neg hkl⟩, hkn⟩
    · next hcase =>
      rw [if_neg hcase]
      obtain ⟨k, hk, hkl, hkn⟩ := ho.other_label hl hm ht hn fun h =>
        hcase ⟨h.1, by rwa [← h.2, ← hn]⟩
      exact ⟨k, mem_labels_renameLabel.mpr ⟨k, hk, if_neg hkl⟩, hkn⟩

theorem discardLabel (ho : h.Orderly) (hfits : h.Fits caller fresh (.discardLabel l)) :
    (h.apply (.discardLabel l)).Orderly := by
  have hstorable := hfits.storable ho.storable
  obtain ⟨hl, -⟩ := hfits
  refine ⟨?_, ho.labelIds.sublist (List.filter_sublist.map _), hstorable,
    fun k hk => ho.named k (List.mem_filter.mp hk).1,
    fun j hj k hk => ho.distinct j (List.mem_filter.mp hj).1 k (List.mem_filter.mp hk).1,
    fun x hx t ht n hn => ?_⟩
  · rw [Holdings.ids, Holdings.apply, retag_ids]
    exact ho.ids
  · obtain ⟨m, hm, rfl⟩ := mem_messages_discardLabel.mp hx
    split at ht
    · next hcase =>
      rw [if_pos hcase]
      obtain ⟨ht, hne⟩ := TagSet.mem_erase.mp ht
      obtain ⟨k, hk, hkl, hkn⟩ := ho.other_label hl hm ht hn fun h => hne (hn.trans (h.2 ▸ rfl))
      exact ⟨k, List.mem_filter.mpr ⟨hk, by simpa using hkl⟩, hkn⟩
    · next hcase =>
      rw [if_neg hcase]
      obtain ⟨k, hk, hkl, hkn⟩ := ho.other_label hl hm ht hn fun h =>
        hcase ⟨h.1, by rwa [← h.2, ← hn]⟩
      exact ⟨k, List.mem_filter.mpr ⟨hk, by simpa using hkl⟩, hkn⟩

theorem apply (ho : h.Orderly) (hfits : h.Fits caller fresh a) : (h.apply a).Orderly := by
  cases a with
  | enter m => exact ho.enter hfits
  | alter m => exact ho.alter hfits
  | discard id => exact ho.discard
  | enterLabel l => exact ho.enterLabel hfits
  | renameLabel l name => exact ho.renameLabel hfits
  | discardLabel l => exact ho.discardLabel hfits

theorem after (ho : h.Orderly) (hlegal : h.Legal caller fresh acts) : (h.after acts).Orderly := by
  induction acts generalizing h with
  | nil => exact ho
  | cons a acts ih => exact ih (ho.apply hlegal.1) hlegal.2

end Orderly

end Holdings

end LabelMail
