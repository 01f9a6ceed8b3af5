import LabelMail.Proofs.QuotedText
import LabelMail.Record
import LabelMail.Text.Collation
import Mathlib.Data.List.DropRight

/-!
Tags and their names. A tag is proper when its name spells it, which every tag read from a text is.
A set of proper tags is read back from the text that the store keeps of it. That the collation does
not tell two names apart does not depend on their order.
-/
namespace LabelMail

namespace Text

/-- What is trimmed has no blanks around it. -/
theorem trimChars_trimChars (s : List Char) : trimChars (trimChars s) = trimChars s := by
  have hstart : (trimChars s).dropWhile isBlank = trimChars s := by
    rw [List.dropWhile_eq_self_iff]
    intro hlength hblank
    have hprefix : trimChars s <+: s.dropWhile isBlank := List.rdropWhile_prefix isBlank _
    have hlong : 0 < (s.dropWhile isBlank).length :=
      Nat.lt_of_lt_of_le hlength hprefix.length_le
    have hhead := hprefix.getElem hlength
    rw [hhead] at hblank
    exact List.dropWhile_get_zero_not isBlank s hlong hblank
  have hend : dropEndWhile isBlank (trimChars s) = trimChars s :=
    List.rdropWhile_idempotent isBlank _
  rw [trimChars, hstart, hend]

theorem trim_trim (s : String) : trim (trim s) = trim s := by
  simp only [trim, String.toList_ofList, trimChars_trimChars]

/-- Only of blanks nothing is left. -/
theorem isEmpty_trim {s : String} (hs : allBlank s = false) : (trim s).isEmpty = false := by
  rw [← Bool.not_eq_true, String.isEmpty_iff]
  intro hempty
  have hend : trimChars s.toList = [] := by
    rw [← String.toList_ofList (l := trimChars s.toList)]
    exact congrArg String.toList hempty
  have hstart : s.toList.dropWhile isBlank = [] := by
    by_contra hne
    have hfirst := List.rdropWhile_eq_nil_iff.mp hend _ (List.head_mem hne)
    rw [List.head_dropWhile_not isBlank] at hfirst
    cases hfirst
  rw [List.dropWhile_eq_nil_iff, ← List.all_eq_true] at hstart
  rw [allBlank, hstart] at hs
  cases hs

theorem mem_of_mem_trim {s : String} {c : Char} (hc : c ∈ (trim s).toList) : c ∈ s.toList := by
  rw [trim, String.toList_ofList] at hc
  have hend : c ∈ s.toList.dropWhile isBlank := (List.rdropWhile_prefix isBlank _).subset hc
  exact (List.dropWhile_suffix isBlank).subset hend

theorem trimChars_eq_self {s : List Char} (hs : ∀ c ∈ s, isBlank c = false) :
    trimChars s = s := by
  have hstart : s.dropWhile isBlank = s := by
    rw [List.dropWhile_eq_self_iff]
    intro hl
    simp [hs _ (List.getElem_mem hl)]
  have hend : dropEndWhile isBlank s = s := by
    refine List.rdropWhile_eq_self_iff.mpr fun hne => ?_
    simp [hs _ (List.getLast_mem hne)]
  rw [trimChars, hstart, hend]

/-- Only NUL folds to NUL. -/
theorem toNat_eq_zero_of_toLower_eq {a b : Char} (h : a.toLower = b.toLower) (ha : a.toNat = 0) :
    b.toNat = 0 := by
  have hnul : a = Char.ofNat 0 := by rw [← ha, Char.ofNat_toNat]
  subst hnul
  have hlow : (Char.ofNat 0).toLower = Char.ofNat 0 := by decide
  rw [hlow] at h
  unfold Char.toLower at h
  split at h
  · next hupper =>
    have hval : (0 : UInt32) = b.val + 32 := congrArg Char.val h
    have hlow : (65 : UInt32) ≤ b.val := hupper.1
    have hhigh : b.val ≤ (90 : UInt32) := hupper.2
    rw [UInt32.le_iff_toNat_le] at hlow hhigh
    have hsum := congrArg UInt32.toNat hval
    rw [UInt32.toNat_add] at hsum
    simp at hsum hlow hhigh
    omega
  · rw [← h]
    rfl

theorem compareFolded_eq_comm {a b : List Char} (h : compareFolded a b = .eq) :
    compareFolded b a = .eq := by
  induction a generalizing b with
  | nil =>
    cases b with
    | nil => rfl
    | cons c s => simp [compareFolded] at h
  | cons c r ih =>
    cases b with
    | nil => simp [compareFolded] at h
    | cons d s =>
      unfold compareFolded at h ⊢
      split at h
      · next hsame =>
        have hfold : c.toLower = d.toLower := by simpa [sameFolded] using hsame
        have hsame' : sameFolded d c = true := by simp [sameFolded, hfold]
        rw [if_pos hsame']
        split at h
        · next hnul =>
          have hd : d.toNat = 0 := toNat_eq_zero_of_toLower_eq hfold (by simpa using hnul)
          rw [if_pos (by simpa using hd)]
          rw [Nat.compare_eq_eq] at h ⊢
          exact h.symm
        · next hnul =>
          have hd : d.toNat ≠ 0 := fun hd =>
            hnul (by simpa using toNat_eq_zero_of_toLower_eq hfold.symm hd)
          rw [if_neg (by simpa using hd)]
          exact ih h
      · next hdiff =>
        have hfold : c.toLower = d.toLower := by
          rw [Nat.compare_eq_eq] at h
          exact Char.toNat_inj.mp h
        exact absurd (by simp [sameFolded, hfold]) hdiff

theorem sameName_comm {a b : String} : sameName a b = true ↔ sameName b a = true := by
  simp only [sameName, beq_iff_eq]
  exact ⟨compareFolded_eq_comm, compareFolded_eq_comm⟩

end Text

namespace Tag

/-- The name of the tag spells it. -/
def Proper (t : Tag) : Prop := ofName t.name = .ok t

theorem proper_of_mem_reserved {t : Tag} (h : t ∈ reserved) : t.Proper := by
  simp only [reserved, List.mem_cons, List.not_mem_nil, or_false] at h
  rcases h with rfl | rfl | rfl | rfl | rfl | rfl | rfl | rfl <;> rfl

theorem proper_ofName {text : String} {t : Tag} (h : ofName text = .ok t) : t.Proper := by
  dsimp only [ofName] at h
  split at h
  · cases h
  · next hempty =>
    have ht : ofTrimmed (Text.trim text) = t := Except.ok.inj h
    subst ht
    by_cases hinbox : namesInbox (Text.trim text)
    · simp only [ofTrimmed, hinbox, if_true]
      exact proper_of_mem_reserved (by decide)
    · cases hfind : reserved.find? fun t => t.name == Text.trim text with
      | some t =>
        simp only [ofTrimmed, hinbox, hfind, Option.getD_some]
        exact proper_of_mem_reserved (List.mem_of_find?_eq_some hfind)
      | none =>
        have hcustom : ofTrimmed (Text.trim text) = custom (Text.trim text) := by
          simp only [ofTrimmed, hinbox, hfind, Option.getD_none]
          rfl
        rw [hcustom, Proper, ofName, name, Text.trim_trim, if_neg hempty, hcustom]

/-- The text spells a reserved tag. -/
def SpellsReserved (text : String) : Prop :=
  ∃ t ∈ reserved, ofName text = .ok t

/-- How the spellings of reserved tags begin. -/
theorem head_of_ofTrimmed {name : String} (ht : ofTrimmed name ∈ reserved) :
    ∃ c ∈ ['i', 'p', 's', 'd', 't', 'a', 'r'], name.toList.head?.map Char.toLower = some c := by
  by_cases hinbox : namesInbox name = true
  · simp only [namesInbox, List.any_cons, List.any_nil, Bool.or_false, Bool.or_eq_true,
      beq_iff_eq] at hinbox
    have hhead : name.toList.head?.map Char.toLower = (name.toList.map Char.toLower).head? :=
      List.head?_map.symm
    rcases hinbox with hinbox | hinbox
    · exact ⟨'i', by decide, by rw [hhead, hinbox]; decide⟩
    · exact ⟨'p', by decide, by rw [hhead, hinbox]; decide⟩
  · cases hfind : reserved.find? fun t => t.name == name with
    | some t =>
      have hname : t.name = name := by simpa using List.find?_some hfind
      have hheads : ∀ t ∈ reserved, ∃ c ∈ ['i', 'p', 's', 'd', 't', 'a', 'r'],
          t.name.toList.head?.map Char.toLower = some c := by
        intro t ht
        simp only [reserved, List.mem_cons, List.not_mem_nil, or_false] at ht
        rcases ht with rfl | rfl | rfl | rfl | rfl | rfl | rfl | rfl <;>
          exact ⟨_, by decide, rfl⟩
      exact hname ▸ hheads t (List.mem_of_find?_eq_some hfind)
    | none =>
      have hcustom : ofTrimmed name = custom name := by
        simp only [ofTrimmed, hinbox, hfind, Option.getD_none]
        rfl
      rw [hcustom] at ht
      simp [reserved] at ht

theorem ofName_of_not_blank {text : String} (htext : Text.allBlank text = false) :
    ofName text = .ok (ofTrimmed (Text.trim text)) := by
  simp only [ofName, Text.isEmpty_trim htext, Bool.false_eq_true, if_false]

end Tag

namespace TagSet

@[simp] theorem mem_ofList {t : Tag} {ts : List Tag} : t ∈ ofList ts ↔ t ∈ ts := by
  have hfold (s : TagSet) : t ∈ ts.foldl insert s ↔ t ∈ s ∨ t ∈ ts := by
    induction ts generalizing s with
    | nil => simp
    | cons u ts ih =>
      rw [List.foldl_cons, ih, mem_insert, List.mem_cons]
      tauto
  rw [ofList, hfold]
  simp

theorem ofNames_map_name {ts : List Tag} (h : ∀ t ∈ ts, t.Proper) :
    ofNames (ts.map Tag.name) = .ok (ofList ts) := by
  have hfold (s : TagSet) : (ts.map Tag.name).foldlM
      (fun s text => (Tag.ofName text).map s.insert) s = .ok (ts.foldl insert s) := by
    induction ts generalizing s with
    | nil => rfl
    | cons t ts ih =>
      have ht : Tag.ofName t.name = .ok t := h t List.mem_cons_self
      rw [List.map_cons, List.foldlM_cons, ht]
      exact ih (fun u hu => h u (List.mem_cons_of_mem t hu)) (s.insert t)
  exact hfold empty

/-- The members in the order of their names. -/
def byName (s : TagSet) : List Tag :=
  sortBy (fun a b => decide (a.name ≤ b.name)) s.toList

@[simp] theorem mem_byName {s : TagSet} {t : Tag} : t ∈ s.byName ↔ t ∈ s :=
  mem_sortBy

theorem names_eq (s : TagSet) : s.names = s.byName.map Tag.name :=
  (map_sortBy (f := Tag.name) fun _ _ => rfl).symm

/-- Of a set of proper tags the store gives back what it was given. -/
theorem decode_encode {s : TagSet} (h : ∀ t ∈ s, t.Proper) : decode s.encode = .ok s := by
  have hread : Json.parse (Json.symbolsOfText s.encode) =
      some (.array (s.names.map fun n => .string (some n))) := Json.parse_strings s.names
  have htexts : Json.asList Json.asText (.array (s.names.map fun n => .string (some n))) =
      some s.names := by
    rw [Json.asList, List.mapM_map]
    exact List.mapM_pure.trans (by simp)
  have hset : ofList s.byName = s := by
    ext t
    rw [mem_ofList, mem_byName]
  have hnames : ofNames s.names = .ok s := by
    rw [names_eq, ofNames_map_name fun t ht => h t (mem_byName.mp ht), hset]
  rw [decode, hread]
  simp only [bind, Option.bind, ofDoc, htexts, hnames]
  rfl

end TagSet

end LabelMail
