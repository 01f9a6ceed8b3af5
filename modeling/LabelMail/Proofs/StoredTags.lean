import LabelMail.Proofs.ByteOrder
import LabelMail.Proofs.Primary.Writing
import LabelMail.Proofs.RowOrder
import LabelMail.Proofs.TagRules

/-!
Sets of tags in the store. Whatever texts a set was made from and however it was changed since, all
of its tags are spelled by their names, so that the text that the store keeps of it gives it back.
Main statement: a message that was stored is found with the tags, the flags and the milliseconds
that it had.
-/
namespace LabelMail

open Calendar (Instant)

namespace TagSet

/-- A change to a set of tags, with the text of the tag that it is about. -/
inductive Change
  | insert (text : String)
  | add (text : String)
  | remove (text : String)
  | intoSpam
  | outOfSpam
  | flipArchive
  | flipTrash

variable {s s₀ : TagSet} {t u : Tag} {c : Change} {texts : List String}

/-- What is left of the set after a change; a text that spells no tag, and what the rules refuse,
leaves it as it is. -/
def change (s : TagSet) : Change → TagSet
  | .insert text => ((Tag.ofName text).map s.insert).toOption.getD s
  | .add text => ((Tag.ofName text >>= s.add).map Prod.fst).toOption.getD s
  | .remove text => ((Tag.ofName text).map fun t => (s.remove t).1).toOption.getD s
  | .intoSpam => s.intoSpam.1
  | .outOfSpam => s.outOfSpam.1
  | .flipArchive => (s.flipArchive.map Prod.fst).toOption.getD s
  | .flipTrash => s.flipTrash.1

def changed (s : TagSet) (changes : List Change) : TagSet :=
  changes.foldl change s

def Proper (s : TagSet) : Prop := ∀ t ∈ s, t.Proper

theorem Proper.insert (hs : s.Proper) (ht : t.Proper) : (s.insert t).Proper := by
  intro u hu
  rcases mem_insert.mp hu with rfl | hu
  · exact ht
  · exact hs u hu

/-- A set that gained nothing but reserved tags. -/
theorem Proper.of_reserved {s' : TagSet} (hs : s.Proper)
    (hsub : ∀ u ∈ s', u ∈ s ∨ u ∈ Tag.reserved) : s'.Proper := fun u hu =>
  (hsub u hu).elim (hs u) Tag.proper_of_mem_reserved

theorem proper_ofNames (h : ofNames texts = .ok s) : s.Proper := by
  suffices ∀ s₀ : TagSet, s₀.Proper →
      texts.foldlM (fun s text => (Tag.ofName text).map s.insert) s₀ = .ok s → s.Proper from
    this empty (fun t ht => absurd ht (not_mem_empty t)) h
  clear h
  induction texts with
  | nil => exact fun s₀ hs₀ h => Except.ok.inj h ▸ hs₀
  | cons text texts ih =>
    intro s₀ hs₀ h
    rw [List.foldlM_cons] at h
    cases htag : Tag.ofName text with
    | error e =>
      rw [htag] at h
      cases h
    | ok t =>
      rw [htag] at h
      exact ih _ (hs₀.insert (Tag.proper_ofName htag)) h

theorem proper_decode {text : String} (h : decode text = .ok s) : s.Proper := by
  unfold decode at h
  split at h
  · next s' hread =>
    obtain rfl := Except.ok.inj h
    obtain ⟨j, -, hdoc⟩ := Option.bind_eq_some_iff.mp hread
    obtain ⟨texts, -, hnames⟩ := Option.bind_eq_some_iff.mp hdoc
    cases hofNames : ofNames texts with
    | error e =>
      rw [hofNames] at hnames
      cases hnames
    | ok s'' =>
      rw [hofNames] at hnames
      obtain rfl := Option.some.inj hnames
      exact proper_ofNames hofNames
  · cases h

theorem Proper.intoSpam (hs : s.Proper) : s.intoSpam.1.Proper := by
  refine hs.of_reserved fun u hu => ?_
  rcases mem_intoSpam.mp hu with rfl | hu
  · exact .inr (by decide)
  · exact .inl hu.1

theorem Proper.add (hs : s.Proper) (ht : t.Proper) :
    (((s.add t).map Prod.fst).toOption.getD s).Proper := by
  cases hadd : s.add t with
  | error e => exact hs
  | ok r =>
    by_cases hspam : t = .spam
    · rw [TagSet.add, if_pos hspam] at hadd
      exact Except.ok.inj hadd ▸ hs.intoSpam
    · obtain ⟨htags, -⟩ := add_eq_ok hspam hadd
      have hnew := hs.insert ht
      rwa [← htags] at hnew

theorem Proper.change (hs : s.Proper) (c : Change) : (s.change c).Proper := by
  cases c with
  | insert text =>
    rw [TagSet.change]
    cases htag : Tag.ofName text with
    | error e => exact hs
    | ok t => exact hs.insert (Tag.proper_ofName htag)
  | add text =>
    rw [TagSet.change]
    cases htag : Tag.ofName text with
    | error e => exact hs
    | ok t => exact hs.add (Tag.proper_ofName htag)
  | remove text =>
    rw [TagSet.change]
    cases htag : Tag.ofName text with
    | error e => exact hs
    | ok t => exact hs.of_reserved fun u hu => .inl (mem_erase.mp hu).1
  | intoSpam => exact hs.intoSpam
  | outOfSpam => exact hs.of_reserved fun u hu => .inl (mem_erase.mp hu).1
  | flipArchive =>
    rw [TagSet.change]
    cases hflip : s.flipArchive with
    | error e => exact hs
    | ok r =>
      refine hs.of_reserved fun u hu => ?_
      rcases mem_of_mem_flipArchive hflip hu with hu | rfl | rfl
      · exact .inl hu
      · exact .inr (by decide)
      · exact .inr (by decide)
  | flipTrash =>
    refine hs.of_reserved fun u hu => ?_
    rcases mem_of_mem_flipTrash hu with hu | rfl | rfl
    · exact .inl hu
    · exact .inr (by decide)
    · exact .inr (by decide)

theorem Proper.changed (hs : s.Proper) (changes : List Change) : (s.changed changes).Proper := by
  induction changes generalizing s with
  | nil => exact hs
  | cons c changes ih => exact ih (hs.change c)

theorem nodup_byName (s : TagSet) : s.byName.Nodup := by
  have hlist : s.toList.Nodup := s.ascending.imp fun {t u} hlt heq => by
    subst heq
    exact Tag.lt_irrefl t hlt
  exact (sortBy_perm s.toList).nodup_iff.mpr hlist

/-- Proper tags of one name are one tag, so that no name is written twice. -/
theorem Proper.pairwise_names (hs : s.Proper) : s.names.Pairwise (· < ·) := by
  have hdistinct : s.names.Nodup := by
    rw [names_eq]
    refine s.nodup_byName.map_on fun t ht u hu heq => ?_
    have ht' : Tag.ofName t.name = .ok t := hs t (mem_byName.mp ht)
    rw [heq, show Tag.ofName u.name = .ok u from hs u (mem_byName.mp hu)] at ht'
    exact (Except.ok.inj ht').symm
  refine (hdistinct.and (pairwise_sortBy_text _)).imp fun {a b} h => ?_
  exact String.not_le.mp fun hle => h.1 (String.le_antisymm h.2 hle)

theorem length_names (s : TagSet) : s.names.length = s.size := by
  rw [names, (sortBy_perm _).length_eq, List.length_map, size]

end TagSet

namespace Primary

open Database

variable {db : Store} {m : Message} {id : String}

/-- What a row gives is what it was read as, whoever wrote the row. -/
theorem MessageRow.storable_message {row : MessageRow} (h : row.message = .ok m) :
    m.Storable ∧ m = row.toRow.message m.tags := by
  unfold message at h
  cases htags : TagSet.decode row.tags with
  | error e =>
    rw [htags] at h
    cases h
  | ok tags =>
    rw [htags] at h
    obtain rfl := Except.ok.inj h
    exact ⟨⟨TagSet.proper_decode htags, Instant.ofMillis_toMillis_ofMillis row.millis⟩, rfl⟩

theorem findMessage_row {row : MessageRow} {x : Message}
    (hrow : db.rows.messages.find? (·.id == id) = some row) (hx : row.message = .ok x) :
    Ends (findMessage id db) (fun found _ => found = some x) (fun _ _ => ¬ db.Sound) := by
  have hread : db.rows.read? id = .ok (some x) := Rows.read?_eq_some.mpr ⟨row, hrow, hx⟩
  refine (findMessage_read db id).mono (fun found _ hfound => ?_) fun e _ hfail hs => ?_
  · exact Except.ok.inj (hfound.1.symm.trans hread)
  · cases hread.symm.trans (hfail.2 hs)

/-- A message with a new id is found as it was stored, its time to the millisecond. -/
theorem insertMessage_found (hm : m.tags.Proper) :
    Ends ((do insertMessage m; findMessage m.id : Query (Option Message)) db)
      (fun found _ => found = some ((Row.ofMessage m).message m.tags))
      (fun _ _ => db.Sound → m.id ∈ db.rows.messages.map (·.id)) := by
  refine (statement_ends _ _ _).bind (fun _ db' h => ?_) (fun _ _ h hs => ?_)
  · obtain ⟨hrows, hl⟩ := h
    split at hrows
    · cases hrows
    · next hnew =>
      obtain ⟨-, hrows⟩ := Prod.mk.inj (Except.ok.inj hrows)
      have hfind : db'.rows.messages.find? (·.id == m.id) = some (.ofMessage m) := by
        have hnone : db.rows.messages.find? (·.id == m.id) = none := by
          simpa [hasMessage] using hnew
        rw [← hrows, List.find?_append, hnone]
        simp [messageRow_id]
      have hmessage :
          (MessageRow.ofMessage m).message = .ok ((Row.ofMessage m).message m.tags) := by
        simp only [MessageRow.message, MessageRow.ofMessage, TagSet.decode_encode hm]
        rfl
      refine (findMessage_row hfind hmessage).mono (fun _ _ h => h) fun _ _ h hs => ?_
      exact absurd (hs.later hl) h
  · obtain ⟨refusal, hrefused⟩ := h.2 hs
    split at hrefused
    · next htaken => simpa [hasMessage] using htaken
    · cases hrefused

/-- Storing the tags of a message changes nothing but tags and flags of the row with its id. -/
theorem saveTags_found (hm : m.tags.Proper) {row : MessageRow}
    (hrow : db.rows.messages.find? (·.id == m.id) = some row) :
    Ends ((do saveTags m; findMessage m.id : Query (Option Message)) db)
      (fun found _ =>
        found = some ({ row.toRow with read := m.read, starred := m.starred }.message m.tags))
      (fun _ _ => ¬ db.Sound) := by
  refine Ends.bind (Q := fun _ db' => db'.rows.messages.find? (·.id == m.id) =
      some { row with tags := m.tags.encode, read := m.read, starred := m.starred } ∧ db.Later db')
    (Ends.discard ((modifyRows_ends _ _).mono (fun n db' h => ?_) fun _ _ h => h))
    (fun _ db' h => ?_) (fun _ _ h => h.2)
  · obtain ⟨hrows, hl⟩ := h
    obtain ⟨-, hrows⟩ := Prod.mk.inj hrows
    refine ⟨?_, hl⟩
    have hid : row.id = m.id := by simpa using List.find?_some hrow
    have hkept : ∀ r : MessageRow, (if r.id = m.id then
        { r with tags := m.tags.encode, read := m.read, starred := m.starred } else r).id = r.id :=
      fun r => by split <;> rfl
    rw [← hrows, List.find?_map]
    simp only [Function.comp_def, hkept, hrow, Option.map_some, hid, if_true]
  · have hmessage : ({ row with tags := m.tags.encode, read := m.read, starred := m.starred } :
        MessageRow).message =
          .ok ({ row.toRow with read := m.read, starred := m.starred }.message m.tags) := by
      simp only [MessageRow.message, TagSet.decode_encode hm]
      rfl
    exact (findMessage_row h.1 hmessage).mono (fun _ _ h => h) fun _ _ he hs => he (hs.later h.2)

end Primary

/-- Whatever texts a set of tags was made from and however it was changed since, the text that the
store keeps of it gives it back and names each of its tags once, in the order of bytes. So a message
that is stored, or whose tags are, is found with the same tags, flags and milliseconds. The calendar
covers the milliseconds of each of its instants except a leap second at its very end. -/
theorem stored_tags_return (texts : List String) (changes : List TagSet.Change) {s₀ s : TagSet}
    (hs₀ : TagSet.ofNames texts = .ok s₀) (hs : s = s₀.changed changes) :
    TagSet.decode s.encode = .ok s ∧
      (∃ names : List String,
        Json.parse (Json.symbolsOfText s.encode) =
          some (.array (names.map fun name => .string (some name))) ∧
        (names.map Text.Utf8.encode).Pairwise (· < ·) ∧ names.length = s.size) ∧
      ∀ m : Message, m.tags = s → Instant.isCovered (m.timestamp.toMillis / 1000) = true →
        ∀ db : Primary.Store,
          Ends ((do Primary.insertMessage m; Primary.findMessage m.id :
              Primary.Query (Option Message)) db)
            (fun found _ => ∃ x, found = some x ∧ x.tags = s ∧ x.read = m.read ∧
              x.starred = m.starred ∧ x.timestamp.toMillis = m.timestamp.toMillis)
            (fun _ _ => db.Sound → m.id ∈ db.rows.messages.map (·.id)) ∧
          ∀ row, db.rows.messages.find? (·.id == m.id) = some row →
            Ends ((do Primary.saveTags m; Primary.findMessage m.id :
                Primary.Query (Option Message)) db)
              (fun found _ => ∃ x, found = some x ∧ x.tags = s ∧ x.read = m.read ∧
                x.starred = m.starred ∧ x.timestamp = Instant.ofMillis row.millis ∧
                (row.millis = m.timestamp.toMillis →
                  x.timestamp.toMillis = m.timestamp.toMillis))
              (fun _ _ => ¬ db.Sound) := by
  have hproper : s.Proper := hs ▸ (TagSet.proper_ofNames hs₀).changed changes
  refine ⟨TagSet.decode_encode hproper, ⟨s.names, Json.parse_strings s.names, ?_, s.length_names⟩,
    ?_⟩
  · exact List.pairwise_map.mpr (hproper.pairwise_names.imp Text.Utf8.encode_lt)
  · rintro m rfl hcovered db
    have hmillis := Instant.toMillis_ofMillis hcovered
    constructor
    · refine (Primary.insertMessage_found hproper).mono (fun found _ h => ?_) fun _ _ h => h
      exact ⟨_, h, rfl, rfl, rfl, hmillis⟩
    · intro row hrow
      refine (Primary.saveTags_found hproper hrow).mono (fun found _ h => ?_) fun _ _ h => h
      refine ⟨_, h, rfl, rfl, rfl, rfl, fun heq => ?_⟩
      exact (congrArg (fun millis => (Instant.ofMillis millis).toMillis) heq).trans hmillis

/-- Both spellings of the inbox, a reserved tag and one that only looks like it, quotes, a control
character, and two ways to write an accent. -/
def oddNames : List String :=
  [" INBOX ", "Primary", "sent", "Sent\u2003", "say \"hi\" \\ \u0001", "é😀", "é😀", "e\u0301"]

def oddTags : TagSet :=
  .ofList [.inbox, .sent, .custom "Sent", .custom "say \"hi\" \\ \u0001", .custom "é😀",
    .custom "e\u0301"]

def oddChanges : List TagSet.Change :=
  [.add "spam", .remove " é😀 ", .flipArchive, .insert "read"]

def oddMessage : Message where
  id := "m"
  senderId := "alice"
  senderName := "Alice"
  recipientId := "bob"
  recipientName := "Bob"
  recipientEmail := "bob@mail"
  subject := ""
  content := ""
  timestamp := ⟨1700000000, 1999999999⟩
  ownerId := "bob"
  read := true
  starred := false
  tags := oddTags.changed oddChanges

def oddRow : Primary.MessageRow :=
  .ofMessage { oddMessage with read := false, tags := .empty }

theorem stored_tags_return_odd :
    TagSet.ofNames oddNames = .ok oddTags ∧
      Instant.isCovered (oddMessage.timestamp.toMillis / 1000) = true ∧
      TagSet.decode oddMessage.tags.encode = .ok oddMessage.tags ∧
      Ends ((do Primary.insertMessage oddMessage; Primary.findMessage "m" :
          Primary.Query (Option Message)) ⟨Primary.Rows.empty, Database.sound, 0⟩)
        (fun found _ => ∃ x, found = some x ∧ x.tags = oddMessage.tags ∧ x.read = true ∧
          x.starred = false ∧ x.timestamp.toMillis = 1700000001999)
        (fun _ _ => False) ∧
      Ends ((do Primary.saveTags oddMessage; Primary.findMessage "m" :
          Primary.Query (Option Message))
          ⟨{ Primary.Rows.empty with messages := [oddRow] }, Database.sound, 0⟩)
        (fun found _ => ∃ x, found = some x ∧ x.tags = oddMessage.tags ∧ x.read = true ∧
          x.starred = false ∧ x.timestamp.toMillis = 1700000001999)
        (fun _ _ => False) := by
  have hnames : TagSet.ofNames oddNames = .ok oddTags := by decide +kernel
  have hcovered : Instant.isCovered (oddMessage.timestamp.toMillis / 1000) = true := by decide
  have hsound (rows : Primary.Rows) :
      Database.Sound (ρ := Primary.Rows) (ω := Primary.Write) ⟨rows, Database.sound, 0⟩ :=
    fun _ _ _ => rfl
  obtain ⟨hback, -, hstored⟩ := stored_tags_return oddNames oddChanges hnames rfl
  have hstored := hstored oddMessage rfl hcovered
  refine ⟨hnames, hcovered, hback, ?_, ?_⟩
  · refine (hstored ⟨Primary.Rows.empty, Database.sound, 0⟩).1.mono (fun _ _ h => h) ?_
    exact fun _ _ h => absurd (h (hsound _)) (by decide)
  · refine ((hstored ⟨{ Primary.Rows.empty with messages := [oddRow] }, Database.sound, 0⟩).2
      oddRow (by decide +kernel)).mono (fun _ _ h => ?_) fun _ _ h => h (hsound _)
    obtain ⟨x, hx, htags, hread, hstarred, -, hmillis⟩ := h
    exact ⟨x, hx, htags, hread, hstarred, hmillis (by decide +kernel)⟩

end LabelMail
