import LabelMail.Proofs.NameOrder
import LabelMail.Proofs.TagLabels

/-!
What two stores have in common for one owner. When they hold the same messages and labels of the
owner's, whatever they hold of others, then all that is read for the owner is the same in both:
the mailbox with its order, the labels with theirs, and what is found under an id or a name.
-/
namespace LabelMail

section Lists

variable {α β : Type}

/-- The lists have the same members of this kind. -/
def AgreeOn (p : α → Prop) (l l' : List α) : Prop :=
  ∀ a, p a → (a ∈ l ↔ a ∈ l')

instance [DecidableEq α] {p : α → Prop} [DecidablePred p] {l l' : List α} :
    Decidable (AgreeOn p l l') :=
  decidable_of_iff (∀ a ∈ l ++ l', p a → (a ∈ l ↔ a ∈ l')) <| by
    refine ⟨fun h a ha => ?_, fun h a _ => h a⟩
    exact ⟨fun hmem => (h a (List.mem_append_left l' hmem) ha).mp hmem,
      fun hmem => (h a (List.mem_append_right l hmem) ha).mpr hmem⟩

namespace AgreeOn

variable {p : α → Prop} {q : α → Bool} {l l' k k' : List α} {a : α}

theorem refl (p : α → Prop) (l : List α) : AgreeOn p l l := fun _ _ => Iff.rfl

theorem symm (h : AgreeOn p l l') : AgreeOn p l' l := fun a ha => (h a ha).symm

theorem trans (h : AgreeOn p l l') (h' : AgreeOn p l' k) : AgreeOn p l k :=
  fun a ha => (h a ha).trans (h' a ha)

theorem append (h : AgreeOn p l l') (hk : AgreeOn p k k') : AgreeOn p (l ++ k) (l' ++ k') := by
  intro a ha
  rw [List.mem_append, List.mem_append, h a ha, hk a ha]

theorem filter (h : AgreeOn p l l') : AgreeOn p (l.filter q) (l'.filter q) := by
  intro a ha
  rw [List.mem_filter, List.mem_filter, h a ha]

/-- A change that makes none of this kind out of others. -/
theorem map {r : β → Prop} {f : α → β} (h : AgreeOn p l l') (hf : ∀ a, r (f a) → p a) :
    AgreeOn r (l.map f) (l'.map f) := by
  intro b hb
  rw [List.mem_map, List.mem_map]
  refine exists_congr fun a => and_congr_left fun hab => h a (hf a ?_)
  rwa [hab]

theorem any (h : AgreeOn p l l') (hq : ∀ a, q a = true → p a) : l.any q = l'.any q := by
  rw [Bool.eq_iff_iff, List.any_eq_true, List.any_eq_true]
  exact exists_congr fun a => and_congr_left fun ha => h a (hq a ha)

theorem find? (h : AgreeOn p l l') (hq : ∀ a, q a = true → p a)
    (hunique : ∀ a ∈ l, ∀ b ∈ l, q a = true → q b = true → a = b) : l.find? q = l'.find? q := by
  cases hfind : l.find? q with
  | none =>
    refine (List.find?_eq_none.mpr fun a ha hqa => ?_).symm
    exact List.find?_eq_none.mp hfind a ((h a (hq a hqa)).mpr ha) hqa
  | some a =>
    have hqa : q a = true := List.find?_some hfind
    have ha : a ∈ l := List.mem_of_find?_eq_some hfind
    cases hfind' : l'.find? q with
    | none => exact absurd hqa (List.find?_eq_none.mp hfind' a ((h a (hq a hqa)).mp ha))
    | some b =>
      have hqb : q b = true := List.find?_some hfind'
      have hb : b ∈ l := (h b (hq b hqb)).mpr (List.mem_of_find?_eq_some hfind')
      rw [hunique a ha b hb hqa hqb]

theorem perm (h : AgreeOn p l l') (hq : ∀ a, q a = true → p a) (hl : l.Nodup) (hl' : l'.Nodup) :
    (l.filter q).Perm (l'.filter q) := by
  refine (List.perm_ext_iff_of_nodup (hl.filter _) (hl'.filter _)).mpr fun a => ?_
  rw [List.mem_filter, List.mem_filter]
  exact and_congr_left fun ha => h a (hq a ha)

end AgreeOn

end Lists

namespace Holdings

/-- The holdings have the same messages and labels of one owner's. -/
structure SameFor (owner : String) (h h' : Holdings) : Prop where
  messages : AgreeOn (fun m : Message => m.ownerId = owner) h.messages h'.messages
  labels : AgreeOn (fun l : Label => l.ownerId = owner) h.labels h'.labels

namespace SameFor

variable {h h' : Holdings} {m : Message} {l : Label} {owner id name : String}

theorem symm (hsame : h.SameFor owner h') : h'.SameFor owner h :=
  ⟨hsame.messages.symm, hsame.labels.symm⟩

/-- The owner's messages in the order of a listing, which does not depend on the others. -/
theorem mailbox (hsame : h.SameFor owner h') (ho : h.Orderly) (ho' : h'.Orderly) :
    h.mailbox owner = h'.mailbox owner := by
  refine sortBy_eq_of_perm (fun _ _ _ => Row.precedes_trans) (fun _ _ => Row.precedes_total _ _)
    (fun a ha b hb hab hba => ?_)
    (hsame.messages.perm (fun _ => beq_iff_eq.mp) (.of_map _ ho.ids) (.of_map _ ho'.ids))
  exact eq_of_id ho.ids (List.mem_filter.mp ha).1 (List.mem_filter.mp hb).1
    (Row.id_eq_of_precedes hab hba)

/-- A message of the owner's is found in both. -/
theorem find? (hsame : h.SameFor owner h') (ho' : h'.Orderly) (hm : h.find? id = some m)
    (howner : m.ownerId = owner) : h'.find? id = some m := by
  obtain ⟨hmem, rfl⟩ := mem_of_find? hm
  have hmem' : m ∈ h'.messages := (hsame.messages m howner).mp hmem
  cases hfind : h'.find? m.id with
  | none => exact absurd (mem_ids.mpr ⟨m, hmem', rfl⟩) (find?_eq_none.mp hfind)
  | some x =>
    obtain ⟨hx, hid⟩ := mem_of_find? hfind
    rw [eq_of_id ho'.ids hx hmem' hid]

theorem findLabel? (hsame : h.SameFor owner h') (ho : h.Orderly) :
    h.findLabel? owner name = h'.findLabel? owner name := by
  refine hsame.labels.find? (fun l hl => ?_) fun k hk l hl hkn hln => ?_
  · simp only [Bool.and_eq_true, beq_iff_eq] at hl
    exact hl.1
  · simp only [Bool.and_eq_true, beq_iff_eq] at hkn hln
    refine ho.distinct k hk l hl (hkn.1.trans hln.1.symm) ?_
    exact Text.sameName_trans hkn.2 (Text.sameName_comm.mp hln.2)

theorem ownLabel? (hsame : h.SameFor owner h') (ho : h.Orderly) :
    (h.labels.find? fun l => l.id == id && l.ownerId == owner) =
      h'.labels.find? fun l => l.id == id && l.ownerId == owner := by
  refine hsame.labels.find? (fun l hl => ?_) fun k hk l hl hki hli => ?_
  · simp only [Bool.and_eq_true, beq_iff_eq] at hl
    exact hl.2
  · simp only [Bool.and_eq_true, beq_iff_eq] at hki hli
    exact ho.eq_of_labelId hk hl (hki.1.trans hli.1.symm)

theorem labelListing (hsame : h.SameFor owner h') (ho : h.Orderly) (ho' : h'.Orderly) :
    sortBy (fun a b => Text.nameLe a.name b.name) (h.labels.filter (·.ownerId == owner)) =
      sortBy (fun a b => Text.nameLe a.name b.name) (h'.labels.filter (·.ownerId == owner)) := by
  refine sortBy_eq_of_perm (fun _ _ _ => Text.nameLe_trans) (fun _ _ => Text.nameLe_total _ _)
    (fun k hk l hl hkl hlk => ?_)
    (hsame.labels.perm (fun _ => beq_iff_eq.mp) (.of_map _ ho.labelIds) (.of_map _ ho'.labelIds))
  obtain ⟨hk, howner⟩ := List.mem_filter.mp hk
  obtain ⟨hl, howner'⟩ := List.mem_filter.mp hl
  refine ho.distinct k hk l hl ?_ (Text.sameName_of_nameLe hkl hlk)
  rw [beq_iff_eq.mp howner, beq_iff_eq.mp howner']

/-- The replica keeps the owner's messages under the same labels. -/
theorem labelsOf (hsame : h.SameFor owner h') (ho : h.Orderly) (howner : m.ownerId = owner) :
    h.labelsOf m = h'.labelsOf m := by
  refine List.map_congr_left fun t _ => ?_
  cases t with
  | custom name => rw [labelOf, labelOf, howner, hsame.findLabel? ho]
  | _ => rfl

end SameFor

end Holdings

namespace Primary

/-- The rows differ at most in what other owners have. -/
structure Rows.SameFor (owner : String) (rows rows' : Rows) : Prop where
  users : rows'.users = rows.users
  blacklist : rows'.blacklist = rows.blacklist
  messages : AgreeOn (fun r : MessageRow => r.ownerId = owner) rows.messages rows'.messages
  labels : AgreeOn (fun l : Label => l.ownerId = owner) rows.labels rows'.labels

variable {rows rows' rows'' : Rows} {h h' : Holdings} {m : Message} {owner : String}

theorem Rows.SameFor.refl (owner : String) (rows : Rows) : rows.SameFor owner rows :=
  ⟨rfl, rfl, .refl _ _, .refl _ _⟩

theorem Rows.SameFor.symm (hsame : rows.SameFor owner rows') : rows'.SameFor owner rows :=
  ⟨hsame.users.symm, hsame.blacklist.symm, hsame.messages.symm, hsame.labels.symm⟩

theorem Rows.SameFor.trans (hsame : rows.SameFor owner rows')
    (hsame' : rows'.SameFor owner rows'') : rows.SameFor owner rows'' where
  users := hsame'.users.trans hsame.users
  blacklist := hsame'.blacklist.trans hsame.blacklist
  messages := hsame.messages.trans hsame'.messages
  labels := hsame.labels.trans hsame'.labels

theorem Rows.Shows.mem_messages (hs : rows.Shows h) (ho : h.Orderly) (hm : m.Storable) :
    MessageRow.ofMessage m ∈ rows.messages ↔ m ∈ h.messages := by
  rw [hs.messages, List.mem_map]
  refine ⟨fun ⟨x, hx, hrow⟩ => ?_, fun hmem => ⟨m, hmem, rfl⟩⟩
  have hread : (MessageRow.ofMessage x).message = (MessageRow.ofMessage m).message :=
    congrArg MessageRow.message hrow
  rw [(ho.storable x hx).stored_message, hm.stored_message] at hread
  exact Except.ok.inj hread ▸ hx

theorem Rows.SameFor.holdings (hsame : rows.SameFor owner rows') (hs : rows.Shows h)
    (hs' : rows'.Shows h') (ho : h.Orderly) (ho' : h'.Orderly) : h.SameFor owner h' where
  messages m howner := by
    constructor
    · intro hm
      have hstorable : m.Storable := ho.storable m hm
      rw [← hs'.mem_messages ho' hstorable, ← hsame.messages (.ofMessage m) howner,
        hs.mem_messages ho hstorable]
      exact hm
    · intro hm
      have hstorable : m.Storable := ho'.storable m hm
      rw [← hs.mem_messages ho hstorable, hsame.messages (.ofMessage m) howner,
        hs'.mem_messages ho' hstorable]
      exact hm
  labels l howner := by
    rw [← hs.labels, ← hs'.labels]
    exact hsame.labels l howner

end Primary

end LabelMail
