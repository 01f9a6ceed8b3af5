import LabelMail.Proofs.Mailroom.Charter

/-!
The labels that all mailboxes share. Each stands for a reserved tag and is named after its id. The
id is the tag's own name, unless a replacement of links gave the label another spelling: what stands
in for an unknown id is shared when the id spells a reserved tag, but it keeps the spelling. Two
labels may then stand for one tag.
-/
namespace LabelMail

namespace Replica

/-- The shared labels spell reserved tags by their names or as given, and other labels do not. -/
structure Conforms (given : String → Prop) (l : Label) : Prop where
  named : l.ownerId = shared → l.name = l.id
  spells : l.ownerId = shared →
    ∃ t ∈ Tag.reserved, Tag.ofName l.id = .ok t ∧ (l.id = t.name ∨ given l.id)
  owned : l.ownerId ≠ shared → ¬ Tag.SpellsReserved l.id

variable {given : String → Prop} {owner id i : String}

theorem conforms_sharedLabel {t : Tag} (ht : t ∈ Tag.reserved) :
    Conforms given (sharedLabel t) where
  named _ := rfl
  spells _ := ⟨t, ht, Tag.proper_of_mem_reserved ht, .inl rfl⟩
  owned hne := absurd rfl hne

theorem Conforms.renamed {old l : Label} (hold : Conforms given old) (hl : Conforms given l)
    (hid : old.id = l.id) : Conforms given { old with name := l.name } where
  named hshared := by
    by_cases howner : l.ownerId = shared
    · exact (hl.named howner).trans hid.symm
    · -- The id spells a reserved tag, which only the id of a shared label does.
      obtain ⟨t, ht, hspell, -⟩ := hold.spells hshared
      exact absurd ⟨t, ht, hid ▸ hspell⟩ (hl.owned howner)
  spells := hold.spells
  owned := hold.owned

/-- If the tags' own names are all that was given, a shared label is that of a tag. -/
theorem Conforms.eq_sharedLabel {l : Label} (hl : Conforms given l) (hshared : l.ownerId = shared)
    (hgiven : ∀ i t, given i → t ∈ Tag.reserved → Tag.ofName i = .ok t → i = t.name) :
    ∃ t ∈ Tag.reserved, l = sharedLabel t := by
  obtain ⟨t, ht, hspell, hid⟩ := hl.spells hshared
  have hname : l.id = t.name := hid.elim (fun hid => hid) fun hid => hgiven l.id t hid ht hspell
  have hlname : l.name = t.name := (hl.named hshared).trans hname
  refine ⟨t, ht, ?_⟩
  obtain ⟨id, owner, name⟩ := l
  cases hname
  cases hshared
  cases hlname
  rfl

theorem eq_of_sharedLabel {t u : Tag} (ht : t ∈ Tag.reserved) (hu : u ∈ Tag.reserved)
    (hsame : Tag.ofName (sharedLabel t).name = Tag.ofName (sharedLabel u).name) : t = u := by
  have hspell : Tag.ofName t.name = .ok t := Tag.proper_of_mem_reserved ht
  have hspell' : Tag.ofName u.name = .ok u := Tag.proper_of_mem_reserved hu
  rw [sharedLabel, sharedLabel, hspell, hspell'] at hsame
  exact Except.ok.inj hsame

def conforming (given : String → Prop) : Charter where
  Allows := Conforms given
  shared _ := conforms_sharedLabel
  renamed := Conforms.renamed

theorem conforms_placeholder (howner : owner ≠ shared)
    (hgiven : Tag.SpellsReserved i → given i) : Conforms given (placeholder owner i) := by
  by_cases hspells : Tag.SpellsReserved i
  · obtain ⟨t, ht, hit⟩ := hspells
    rw [placeholder_of_spells ⟨t, ht, hit⟩]
    exact ⟨fun _ => rfl, fun _ => ⟨t, ht, hit, .inr (hgiven ⟨t, ht, hit⟩)⟩,
      fun hne => absurd rfl hne⟩
  · rw [placeholder_of_not_spells hspells]
    exact ⟨fun hshared => absurd hshared howner, fun hshared => absurd hshared howner,
      fun _ => hspells⟩

theorem grants_conforming (howner : owner ≠ shared) (hid : ¬ Tag.SpellsReserved id) :
    (conforming given).Grants owner id where
  named _ := ⟨fun hshared => absurd hshared howner, fun hshared => absurd hshared howner,
    fun _ => hid⟩
  placeholder := conforms_placeholder howner fun hspells => absurd hspells hid

end Replica

namespace Mailroom

open Replica (shared Conforms conforming)

variable {σ : Type} {dealings : List Dealing} {idAt : Nat → String} {d : Dealing}

/-- Whose mail a dealing is about, where it says so. -/
def Dealing.owner? : Dealing → Option String
  | .call e => some e.caller
  | .errand _ e => e.owner?

/-- The id is among those to which an errand replaces the links of a message. -/
def Given (dealings : List Dealing) (i : String) : Prop :=
  ∃ now id owner labelIds, .errand now (.replaceLinks id owner labelIds) ∈ dealings ∧ i ∈ labelIds

theorem admits_conforming (hids : ∀ n, ¬ Tag.SpellsReserved (idAt n))
    (howners : ∀ d ∈ dealings, ∀ owner, d.owner? = some owner → owner ≠ shared)
    (hd : d ∈ dealings) : (conforming (Given dealings)).Admits idAt d := by
  have howner := howners d hd
  cases d with
  | call e => exact fun n => Replica.grants_conforming (howner e.caller rfl) (hids n)
  | errand now e =>
    cases e with
    | replaceLinks id owner labelIds =>
      exact fun i hi => Replica.conforms_placeholder (howner owner rfl) fun _ =>
        ⟨now, id, owner, labelIds, hd, hi⟩
    | _ => exact fun owner ho n => Replica.grants_conforming (howner owner ho) (hids n)

/-- After dealings of owners who have a name, a shared label is named after its id, which spells a
reserved tag and is the tag's own name or was given. If only the tags' own names were given, the
shared labels are those of the tags, one at most for each. -/
theorem shared_labels_spelled (room : Mailroom σ) (hb : room.Blank)
    (hids : ∀ n, ¬ Tag.SpellsReserved (room.idAt n)) (dealings : List Dealing)
    (howners : ∀ d ∈ dealings, ∀ owner, d.owner? = some owner → owner ≠ shared) :
    ((room.afterAll dealings).replica.rows.labels.map Label.id).Nodup ∧
    (∀ l ∈ (room.afterAll dealings).replica.rows.labels, l.ownerId = shared →
      l.name = l.id ∧ ∃ t ∈ Tag.reserved, Tag.ofName l.id = .ok t ∧
        (l.id = t.name ∨ Given dealings l.id)) ∧
    ((∀ i t, Given dealings i → t ∈ Tag.reserved → Tag.ofName i = .ok t → i = t.name) →
      (∀ l ∈ (room.afterAll dealings).replica.rows.labels, l.ownerId = shared →
        ∃ t ∈ Tag.reserved, l = sharedLabel t) ∧
      ∀ l ∈ (room.afterAll dealings).replica.rows.labels,
        ∀ k ∈ (room.afterAll dealings).replica.rows.labels,
          l.ownerId = shared → k.ownerId = shared → Tag.ofName l.name = Tag.ofName k.name →
            l = k) := by
  have hupheld : Upheld (conforming (Given dealings)) (room.afterAll dealings).holdings
      (room.afterAll dealings) :=
    (hb.upheld _).afterAll fun d hd => admits_conforming hids howners hd
  have hconforms : ∀ l ∈ (room.afterAll dealings).replica.rows.labels,
      Conforms (Given dealings) l := hupheld.rows.allowed
  refine ⟨hupheld.rows.labelIds, fun l hl hshared => ?_, fun hgiven =>
    ⟨fun l hl hshared => ?_, ?_⟩⟩
  · exact ⟨(hconforms l hl).named hshared, (hconforms l hl).spells hshared⟩
  · exact (hconforms l hl).eq_sharedLabel hshared hgiven
  · intro l hl k hk hlshared hkshared hsame
    obtain ⟨t, ht, rfl⟩ := (hconforms l hl).eq_sharedLabel hlshared hgiven
    obtain ⟨u, hu, rfl⟩ := (hconforms k hk).eq_sharedLabel hkshared hgiven
    rw [Replica.eq_of_sharedLabel ht hu hsame]

theorem not_spells_sample (n : Nat) : ¬ Tag.SpellsReserved (sample.idAt n) := by
  rintro ⟨t, ht, hspell⟩
  have hchars : (sample.idAt n).toList = List.replicate (n + 1) 'u' := String.toList_ofList
  have htrim : Text.trim (sample.idAt n) = sample.idAt n := by
    rw [Text.trim, Text.trimChars_eq_self fun c hc => ?_, String.ofList_toList]
    rw [hchars] at hc
    rw [List.eq_of_mem_replicate hc]
    decide
  dsimp only [Tag.ofName] at hspell
  rw [htrim] at hspell
  split at hspell
  · cases hspell
  · obtain ⟨c, hc, hhead⟩ := Tag.head_of_ofTrimmed (Except.ok.inj hspell ▸ ht)
    rw [hchars, List.replicate_succ] at hhead
    obtain rfl : 'u' = c := by simpa using hhead
    revert hc
    decide

/-- A delivery, whose copy for the recipient is then to have links to these labels only. -/
def relinked (labelIds : List String) : List Dealing :=
  [.call ⟨"alice", 0, .send ⟨some "bob", some "s", some "c"⟩ false⟩,
    .errand 0 (.replaceLinks "u" "bob" labelIds)]

theorem owners_relinked (labelIds : List String) :
    ∀ d ∈ relinked labelIds, ∀ owner, d.owner? = some owner → owner ≠ shared := by
  intro d hd owner howner
  simp only [relinked, List.mem_cons, List.not_mem_nil, or_false] at hd
  rcases hd with rfl | rfl
  · cases howner
    decide
  · cases howner
    decide

theorem shared_labels_spelled_relinked :
    let after := sample.afterAll (relinked ["inbox", "starred"])
    sample.Blank ∧ (∀ n, ¬ Tag.SpellsReserved (sample.idAt n)) ∧
      (∀ d ∈ relinked ["inbox", "starred"], ∀ owner, d.owner? = some owner → owner ≠ shared) ∧
      after.replica.rows.links = [⟨"uu", "sent"⟩, ⟨"u", "inbox"⟩, ⟨"u", "starred"⟩] ∧
      ∀ l ∈ after.replica.rows.labels, l.ownerId = shared →
        ∃ t ∈ Tag.reserved, l = sharedLabel t := by
  intro after
  have hgiven : ∀ i t, Given (relinked ["inbox", "starred"]) i → t ∈ Tag.reserved →
      Tag.ofName i = .ok t → i = t.name := by
    rintro i t ⟨now, id, owner, labelIds, hd, hi⟩ - hspell
    simp only [relinked, List.mem_cons, reduceCtorEq, List.not_mem_nil, or_false, false_or,
      Dealing.errand.injEq, Errand.replaceLinks.injEq] at hd
    obtain ⟨-, -, -, rfl⟩ := hd
    simp only [List.mem_cons, List.not_mem_nil, or_false] at hi
    rcases hi with rfl | rfl
    · cases hspell
      rfl
    · cases hspell
      rfl
  have hcanonical := (shared_labels_spelled sample blank_sample not_spells_sample _
    (owners_relinked ["inbox", "starred"])).2.2 hgiven
  exact ⟨blank_sample, not_spells_sample, owners_relinked _, by decide +kernel, hcanonical.1⟩

/-- The inbox in capitals becomes a shared label beside that of the inbox. -/
theorem two_shared_labels_for_inbox :
    sample.Blank ∧ (∀ n, ¬ Tag.SpellsReserved (sample.idAt n)) ∧
      (∀ d ∈ relinked ["INBOX"], ∀ owner, d.owner? = some owner → owner ≠ shared) ∧
      ⟨"INBOX", shared, "INBOX"⟩ ∈ (sample.afterAll (relinked ["INBOX"])).replica.rows.labels ∧
      sharedLabel .inbox ∈ (sample.afterAll (relinked ["INBOX"])).replica.rows.labels ∧
      Tag.ofName "INBOX" = .ok .inbox :=
  ⟨blank_sample, not_spells_sample, owners_relinked _, by decide +kernel, by decide +kernel, rfl⟩

end Mailroom

end LabelMail
