import LabelMail.Proofs.ReplyWords
import LabelMail.Web.Exchange

/-!
Paths that spell texts. A text is spelled by its UTF-8: letters, digits and four signs stand for
themselves, and any byte may be written as a percent sign and two hexadecimal digits. No spelling
has a slash in it, so that a path falls apart into just the spellings that it was put together from,
however many empty parts stand between them. Main statement: a path is read as the texts that it
spells, and a request hands each of them as it is to the operation whose place it takes.
-/
namespace LabelMail

namespace Web

open Text

namespace Percent

/-- A character that may be written as it is. -/
def isPlain (c : Char) : Bool :=
  c.isAlphanum || c == '-' || c == '.' || c == '_' || c == '~'

/-- The hexadecimal digit of that value, in either letter case. -/
def IsDigit (c : Char) (v : Nat) : Prop :=
  c = v.digitChar ∨ c = v.digitChar.toUpper

inductive SpellsBytes : List Char → List UInt8 → Prop
  | nil : SpellsBytes [] []
  | plain {c : Char} {w : List Char} {b : UInt8} {bytes : List UInt8} (hc : isPlain c = true)
      (hb : b.toNat = c.toNat) (rest : SpellsBytes w bytes) : SpellsBytes (c :: w) (b :: bytes)
  | escaped {c d : Char} {w : List Char} {b : UInt8} {bytes : List UInt8}
      (hc : IsDigit c (b.toNat / 16)) (hd : IsDigit d (b.toNat % 16))
      (rest : SpellsBytes w bytes) : SpellsBytes ('%' :: c :: d :: w) (b :: bytes)

def Spells (part text : String) : Prop :=
  SpellsBytes part.toList (Utf8.encode text)

def encodeByte (b : UInt8) : List Char :=
  if isPlain (Char.ofNat b.toNat) then [Char.ofNat b.toNat]
  else ['%', (b.toNat / 16).digitChar.toUpper, (b.toNat % 16).digitChar.toUpper]

/-- The text with every byte escaped that may not be written as it is. -/
def encode (text : String) : String :=
  String.ofList ((Utf8.encode text).flatMap encodeByte)

variable {b : UInt8} {bytes : List UInt8} {c : Char} {w : List Char} {v : Nat}
variable {part text : String}

theorem lt_of_isAlphanum (hc : c.isAlphanum = true) : c.toNat < 0x80 := by
  have hkinds : (c.isUpper = true ∨ c.isLower = true) ∨ c.isDigit = true :=
    (Bool.or_eq_true_iff.mp hc).imp_left Bool.or_eq_true_iff.mp
  rcases hkinds with (hupper | hlower) | hdigit
  · have hlast : 65 ≤ c.toNat ∧ c.toNat ≤ 90 := of_decide_eq_true hupper
    omega
  · have hlast : c.toNat ≤ 122 := of_decide_eq_true (Bool.and_eq_true_iff.mp hlower).2
    omega
  · have hlast : c.toNat ≤ 57 := of_decide_eq_true (Bool.and_eq_true_iff.mp hdigit).2
    omega

theorem lt_of_isPlain (hc : isPlain c = true) : c.toNat < 0x80 := by
  simp only [isPlain, Bool.or_eq_true, beq_iff_eq] at hc
  rcases hc with (((hc | rfl) | rfl) | rfl) | rfl
  · exact lt_of_isAlphanum hc
  all_goals decide

theorem ne_of_isPlain {d : Char} (hc : isPlain c = true) (hd : isPlain d = false) : c ≠ d :=
  fun heq => by rw [heq, hd] at hc; cases hc

theorem spellsBytes_encodeByte (bytes : List UInt8) :
    SpellsBytes (bytes.flatMap encodeByte) bytes := by
  induction bytes with
  | nil => exact .nil
  | cons b bytes ih =>
    rw [List.flatMap_cons, encodeByte]
    split
    · next hplain =>
      refine .plain hplain ?_ ih
      have hb : b.toNat < 256 := b.toNat_lt
      exact (Utf8.val_ofNat (by omega)).symm
    · exact .escaped (.inr rfl) (.inr rfl) ih

theorem spells_encode (text : String) : Spells (encode text) text := by
  rw [Spells, encode, String.toList_ofList]
  exact spellsBytes_encodeByte _

theorem spells_map_encode (texts : List String) :
    List.Forall₂ Spells (texts.map encode) texts := by
  induction texts with
  | nil => exact .nil
  | cons text _ ih => exact .cons (spells_encode text) ih

theorem high_lt (b : UInt8) : b.toNat / 16 < 16 := by
  have hb : b.toNat < 256 := b.toNat_lt
  omega

theorem IsDigit.value (hc : IsDigit c v) (hv : v < 16) :
    ∃ d, String.utf8EncodeChar c = [d] ∧ digitValue d = some v := by
  have hlower : ∀ v : Fin 16, (String.utf8EncodeChar v.val.digitChar).map digitValue =
      [some v.val] := by decide
  have hupper : ∀ v : Fin 16, (String.utf8EncodeChar v.val.digitChar.toUpper).map digitValue =
      [some v.val] := by decide
  have hvalue : (String.utf8EncodeChar c).map digitValue = [some v] := by
    rcases hc with rfl | rfl
    · exact hlower ⟨v, hv⟩
    · exact hupper ⟨v, hv⟩
  obtain ⟨d, hd, hdv⟩ := List.map_eq_singleton_iff.mp hvalue
  exact ⟨d, hd, hdv⟩

theorem decodeBytes_cons (hb : b ≠ 37) (r : List UInt8) :
    decodeBytes (b :: r) = b :: decodeBytes r := by
  match r with
  | [] => rfl
  | [_] => rfl
  | _ :: _ :: _ => rw [decodeBytes, if_neg hb]

theorem byteOf_digits {d e : UInt8} (hd : digitValue d = some (b.toNat / 16))
    (he : digitValue e = some (b.toNat % 16)) : byteOf d e = some b := by
  rw [byteOf, hd, he]
  change some (16 * (b.toNat / 16) + b.toNat % 16).toUInt8 = some b
  rw [Nat.div_add_mod]
  exact congrArg some (UInt8.ofNat_toNat)

theorem SpellsBytes.decodeBytes (h : SpellsBytes w bytes) :
    Percent.decodeBytes (w.flatMap String.utf8EncodeChar) = bytes := by
  induction h with
  | nil => rfl
  | @plain c w b bytes hc hb rest ih =>
    have hchar : Char.ofNat b.toNat = c := by rw [hb, Char.ofNat_toNat]
    have hone : String.utf8EncodeChar c = [b] := by
      rw [← hchar]
      exact Utf8.encodeChar_one (hb ▸ lt_of_isPlain hc)
    have hpercent : b ≠ 37 := by
      rintro rfl
      exact ne_of_isPlain hc (d := '%') rfl hchar.symm
    rw [List.flatMap_cons, hone, List.singleton_append, decodeBytes_cons hpercent, ih]
  | @escaped c d w b bytes hc hd rest ih =>
    obtain ⟨x, hx, hxv⟩ := hc.value (high_lt b)
    obtain ⟨y, hy, hyv⟩ := hd.value (Nat.mod_lt _ (by decide))
    rw [List.flatMap_cons, List.flatMap_cons, List.flatMap_cons, hx, hy]
    change Percent.decodeBytes (37 :: x :: y :: w.flatMap String.utf8EncodeChar) = _
    rw [Percent.decodeBytes, if_pos rfl, byteOf_digits hxv hyv]
    exact congrArg (b :: ·) ih

theorem decode_of_spells (h : Spells part text) : decode part.toList = some text := by
  have hbytes : Utf8.encode (String.ofList part.toList) =
      part.toList.flatMap String.utf8EncodeChar := by
    rw [Utf8.encode_eq, String.toList_ofList]
  rw [decode, hbytes, h.decodeBytes, Utf8.decode_encode]
  rfl

/-- Only the empty text has an empty spelling. -/
theorem Spells.ne_empty (h : Spells part text) (htext : text ≠ "") : part ≠ "" := by
  rintro rfl
  have hnone : Utf8.encode "" = [] := by simp [Utf8.encode_eq]
  have hbytes : Utf8.encode text = [] := by
    cases hb : Utf8.encode text with
    | nil => rfl
    | cons b bytes =>
      rw [Spells, hb] at h
      cases h
  exact htext (Utf8.encode_inj (hbytes.trans hnone.symm))

theorem IsDigit.ne_slash (hc : IsDigit c v) (hv : v < 16) : c ≠ '/' := by
  have hlower : ∀ v : Fin 16, v.val.digitChar ≠ '/' := by decide
  have hupper : ∀ v : Fin 16, v.val.digitChar.toUpper ≠ '/' := by decide
  rcases hc with rfl | rfl
  · exact hlower ⟨v, hv⟩
  · exact hupper ⟨v, hv⟩

theorem SpellsBytes.ne_slash (h : SpellsBytes w bytes) : ∀ c ∈ w, c ≠ '/' := by
  induction h with
  | nil => exact fun c hc => by cases hc
  | plain hc hb rest ih =>
    refine List.forall_mem_cons.mpr ⟨?_, ih⟩
    exact ne_of_isPlain hc rfl
  | @escaped c d w b bytes hc hd rest ih =>
    refine List.forall_mem_cons.mpr ⟨by decide, List.forall_mem_cons.mpr ⟨?_,
      List.forall_mem_cons.mpr ⟨?_, ih⟩⟩⟩
    · exact hc.ne_slash (high_lt b)
    · exact hd.ne_slash (Nat.mod_lt _ (by decide))

end Percent

namespace Target

variable {parts spellings texts : List String}

theorem spelled_of_spellings (h : List.Forall₂ Percent.Spells spellings texts) :
    spelled (spellings.map String.toList) = .ok texts := by
  induction h with
  | nil => rfl
  | cons hpart _ ih =>
    rw [List.map_cons, spelled, Percent.decode_of_spells hpart, ih]
    rfl

theorem ne_slash_of_spellings (h : List.Forall₂ Percent.Spells spellings texts) :
    ∀ part ∈ spellings, ∀ c ∈ part.toList, c ≠ '/' := by
  induction h with
  | nil => exact fun part hpart => by cases hpart
  | cons hpart _ ih => exact List.forall_mem_cons.mpr ⟨hpart.ne_slash, ih⟩

/-- The parts that a path was joined from are the parts that it is cut into. -/
theorem written_intercalate (hparts : ∀ part ∈ parts, ∀ c ∈ part.toList, c ≠ '/') :
    written ("/".intercalate parts) = (parts.filter (· ≠ "")).map String.toList := by
  have hslash : ∀ w ∈ parts.map String.toList, ∀ c ∈ w, (c == '/') = false := by
    intro w hw c hc
    obtain ⟨part, hpart, rfl⟩ := List.mem_map.mp hw
    exact beq_eq_false_iff_ne.mpr (hparts part hpart c hc)
  have hempty (part : String) : (!part.toList.isEmpty) = decide (part ≠ "") := by
    rw [Bool.eq_iff_iff]
    simp
  have hjoined : ("/".intercalate parts).toList = ['/'].intercalate (parts.map String.toList) :=
    String.toList_intercalate
  rw [written, hjoined]
  cases parts with
  | nil => rfl
  | cons part parts =>
    rw [pieces_intercalate (by decide) (by simp) hslash, List.filter_map]
    simp only [Function.comp_def, hempty]

/-- Whatever empty parts stand between the spellings, the path says what they spell. -/
theorem segments_intercalate (h : List.Forall₂ Percent.Spells (parts.filter (· ≠ "")) texts) :
    segments ("/".intercalate parts) = .ok (withoutFirstApi texts) := by
  have hparts : ∀ part ∈ parts, ∀ c ∈ part.toList, c ≠ '/' := by
    intro part hpart c hc
    by_cases hempty : part = ""
    · rw [hempty] at hc
      cases hc
    · have hmem : part ∈ parts.filter (· ≠ "") :=
        List.mem_filter.mpr ⟨hpart, decide_eq_true hempty⟩
      exact ne_slash_of_spellings h part hmem c hc
  rw [segments, written_intercalate hparts, spelled_of_spellings h]
  rfl

theorem withoutFirstApi_of_ne (h : texts.head? ≠ some "api") : withoutFirstApi texts = texts := by
  unfold withoutFirstApi
  split
  · exact absurd rfl h
  · rfl

/-- The parts, apart from empty ones, spell the texts, before which an `api` may come. -/
def Writes (parts texts : List String) : Prop :=
  List.Forall₂ Percent.Spells (parts.filter (· ≠ "")) ("api" :: texts) ∨
    List.Forall₂ Percent.Spells (parts.filter (· ≠ "")) texts ∧ texts.head? ≠ some "api"

theorem Writes.segments_eq (h : Writes parts texts) :
    segments ("/".intercalate parts) = .ok texts := by
  rcases h with h | ⟨h, hfirst⟩
  · exact segments_intercalate h
  · rw [segments_intercalate h, withoutFirstApi_of_ne hfirst]

theorem spells_api : Percent.Spells "api" "api" := by
  have hsame : Percent.encode "api" = "api" := by decide +kernel
  have hspells := Percent.spells_encode "api"
  rwa [hsame] at hspells

theorem writes_encode (hfirst : texts.head? ≠ some "api")
    (h : parts.filter (· ≠ "") ∈ [texts.map Percent.encode, "api" :: texts.map Percent.encode]) :
    Writes parts texts := by
  have hspells := Percent.spells_map_encode texts
  unfold Writes
  rcases List.mem_pair.mp h with heq | heq
  · rw [heq]
    exact .inr ⟨hspells, hfirst⟩
  · rw [heq]
    exact .inl (.cons spells_api hspells)

/-- A path that is put together from the encodings of texts says these texts. -/
theorem segments_encode (htexts : ∀ text ∈ texts, text ≠ "") (hfirst : texts.head? ≠ some "api") :
    segments ("/".intercalate ("" :: texts.map Percent.encode)) = .ok texts ∧
      segments ("/".intercalate ("" :: "api" :: texts.map Percent.encode)) = .ok texts := by
  have hfilter : (texts.map Percent.encode).filter (· ≠ "") = texts.map Percent.encode := by
    rw [List.filter_eq_self]
    intro part hpart
    obtain ⟨text, htext, rfl⟩ := List.mem_map.mp hpart
    exact decide_eq_true ((Percent.spells_encode text).ne_empty (htexts text htext))
  constructor
  · refine (writes_encode hfirst ?_).segments_eq
    rw [List.filter_cons_of_neg (by decide), hfilter]
    exact List.mem_cons_self
  · refine (writes_encode hfirst ?_).segments_eq
    rw [List.filter_cons_of_neg (by decide), List.filter_cons_of_pos (by decide), hfilter]
    exact List.mem_cons_of_mem _ List.mem_cons_self

end Target

/-- The endpoints whose paths say more than where they lead, each with the texts that it gets from
there. In the place of two ids a few words are the names of other endpoints. -/
inductive Carries : String → List String → List String → Endpoint → Prop
  | find (id : String) (hspam : id ≠ "spam") : Carries "GET" ["mails", id] [id] (.plain (.find id))
  | search (query : String) : Carries "GET" ["mails", "search", query] [query]
      (.plain (.search query))
  | searchIn (folder query : String) : Carries "GET" ["mails", "search", folder, query]
      [folder, query] (.plain (.searchIn folder query))
  | flipSpam (id : String) : Carries "POST" ["mails", id, "spam"] [id] (.plain (.flipSpam id))
  | changeLabel (id : String) : Carries "PATCH" ["mails", id, "label"] [id]
      (.ofBody Request.asLabelChange (.changeLabel id))
  | markRead (id : String) : Carries "PATCH" ["mails", id, "read"] [id]
      (.ofBody Request.asRead (.markRead id))
  | flipStar (id : String) : Carries "PATCH" ["mails", id, "star"] [id] (.plain (.flipStar id))
  | flipArchive (id : String) : Carries "PATCH" ["mails", id, "archive"] [id]
      (.plain (.flipArchive id))
  | flipTrash (id : String) : Carries "PATCH" ["mails", id, "trash"] [id] (.plain (.flipTrash id))
  | editDraft (id : String) (hall : id ≠ "markAllRead") (hsome : id ≠ "markUnread") :
      Carries "PATCH" ["mails", id] [id] (.ofBody Request.asDraftEdit (.editDraft id))
  | removeLabel (id label : String) : Carries "DELETE" ["mails", id, "label", label] [id, label]
      (.plain (.changeLabel id ⟨some label, .remove⟩))
  | delete (id : String) : Carries "DELETE" ["mails", id] [id] (.plain (.delete id))
  | list (name : String) : Carries "GET" ["labels", name, "emails"] [name]
      (.plain (.list (some name)))
  | findLabel (id : String) : Carries "GET" ["labels", id] [id] (.plain (.findLabel id))
  | renameLabel (id : String) : Carries "PATCH" ["labels", id] [id]
      (.ofBody Request.asLabelName (.renameLabel id))
  | deleteLabel (id : String) : Carries "DELETE" ["labels", id] [id] (.plain (.deleteLabel id))
  | unblacklist (url : String) : Carries "DELETE" ["blacklist", url] [url]
      (.plain (.unblacklist url))

/-- A text that is no word of letters, as those are that stand for themselves in a path. -/
def Free (text : String) : Prop :=
  text.toList.all Char.isAlpha = false

variable {method : String} {segments texts : List String} {endpoint : Endpoint}

theorem Free.ne {text word : String} (h : Free text) (hword : word.toList.all Char.isAlpha = true) :
    text ≠ word := by
  rintro rfl
  rw [Free, hword] at h
  cases h

theorem Carries.find_eq (h : Carries method segments texts endpoint) (query : Option String) :
    Endpoint.find method query segments = some endpoint := by
  cases h with
  | list | findLabel | renameLabel | deleteLabel =>
    simp only [Endpoint.find, Endpoint.labels]
  | unblacklist => simp only [Endpoint.find, Endpoint.blacklist]
  | _ => simp only [Endpoint.find, Endpoint.mails]

theorem not_free_of_words {words : List String}
    (h : (words.all fun word => word.toList.all Char.isAlpha) = true) :
    ¬ ∃ text ∈ words, Free text := by
  rintro ⟨text, htext, hfree⟩
  exact hfree.ne (List.all_eq_true.mp h text htext) rfl

theorem carries_of_mails {query : Option String} {rest : List String}
    (h : Endpoint.mails query method rest = some endpoint)
    (hfree : ∃ text ∈ "mails" :: rest, Free text) :
    ∃ texts, Carries method ("mails" :: rest) texts endpoint := by
  unfold Endpoint.mails at h
  split at h <;> cases h
  · exact absurd hfree (not_free_of_words (by decide))
  · exact absurd hfree (not_free_of_words (by decide))
  · exact ⟨_, .search _⟩
  · exact ⟨_, .searchIn _ _⟩
  · next id hspam => exact ⟨_, .find id hspam⟩
  · exact absurd hfree (not_free_of_words (by decide))
  · exact absurd hfree (not_free_of_words (by decide))
  · exact ⟨_, .flipSpam _⟩
  · exact absurd hfree (not_free_of_words (by decide))
  · exact absurd hfree (not_free_of_words (by decide))
  · exact ⟨_, .changeLabel _⟩
  · exact ⟨_, .markRead _⟩
  · exact ⟨_, .flipStar _⟩
  · exact ⟨_, .flipArchive _⟩
  · exact ⟨_, .flipTrash _⟩
  · next id hall hsome => exact ⟨_, .editDraft id hall hsome⟩
  · exact absurd hfree (not_free_of_words (by decide))
  · exact ⟨_, .removeLabel _ _⟩
  · exact ⟨_, .delete _⟩

theorem carries_of_labels {rest : List String} (h : Endpoint.labels method rest = some endpoint)
    (hfree : ∃ text ∈ "labels" :: rest, Free text) :
    ∃ texts, Carries method ("labels" :: rest) texts endpoint := by
  unfold Endpoint.labels at h
  split at h <;> cases h
  · exact absurd hfree (not_free_of_words (by decide))
  · exact absurd hfree (not_free_of_words (by decide))
  · exact ⟨_, .list _⟩
  · exact ⟨_, .findLabel _⟩
  · exact ⟨_, .renameLabel _⟩
  · exact ⟨_, .deleteLabel _⟩

/-- No other endpoint is found for segments of which one is free. -/
theorem carries_of_find {query : Option String}
    (h : Endpoint.find method query segments = some endpoint)
    (hfree : ∃ text ∈ segments, Free text) : ∃ texts, Carries method segments texts endpoint := by
  unfold Endpoint.find at h
  split at h
  · exact carries_of_mails h hfree
  · exact carries_of_labels h hfree
  · unfold Endpoint.blacklist at h
    split at h <;> cases h
    · exact absurd hfree (not_free_of_words (by decide))
    · exact ⟨_, .unblacklist _⟩
  · unfold Endpoint.sync at h
    split at h <;> cases h
    all_goals exact absurd hfree (not_free_of_words (by decide))
  · cases h

section Requests

variable {r : Request} {caller : String} {content : List UInt8}

/-- A request whose segments lead to an endpoint stands for the operation of that endpoint. -/
theorem Request.operation_of_some (hcaller : r.caller = some caller)
    (hpath : Target.segments r.path = .ok segments) (hbody : r.body = .bytes content)
    (hfind : Endpoint.find r.method r.query segments = some endpoint) :
    r.operation = (endpoint.operation content).map (caller, ·) := by
  unfold Request.operation
  rw [hcaller, hpath, hbody]
  dsimp only [Except.mapError, bind, Except.bind]
  rw [hfind]
  dsimp only
  cases endpoint.operation content <;> rfl

theorem Request.operation_of_none (hcaller : r.caller = some caller)
    (hpath : Target.segments r.path = .ok segments) (hbody : r.body = .bytes content)
    (hfind : Endpoint.find r.method r.query segments = none) :
    r.operation = .error .noEndpoint := by
  unfold Request.operation
  rw [hcaller, hpath, hbody]
  dsimp only [Except.mapError, bind, Except.bind]
  rw [hfind]
  rfl

end Requests

/-- A path that is put together from the encodings of texts is read as these texts, whether or not
an `api` comes first and wherever empty parts stand, and so is any other path that spells them. A
request whose path carries texts to an endpoint stands for the operation of that endpoint with these
texts, and one that has a text in another place, which is no word of letters, leads nowhere. -/
theorem spelled_paths_lead :
    (∀ texts : List String, (∀ text ∈ texts, text ≠ "") → texts.head? ≠ some "api" →
      Target.segments ("/".intercalate ("" :: texts.map Percent.encode)) = .ok texts ∧
      Target.segments ("/".intercalate ("" :: "api" :: texts.map Percent.encode)) = .ok texts ∧
      ∀ parts : List String,
        parts.filter (· ≠ "") ∈ [texts.map Percent.encode, "api" :: texts.map Percent.encode] →
        Target.Writes parts texts) ∧
    ∀ parts texts : List String, Target.Writes parts texts →
      Target.segments ("/".intercalate parts) = .ok texts ∧
      ∀ (r : Request) (caller : String) (content : List UInt8),
        r.path = "/".intercalate parts → r.caller = some caller → r.body = .bytes content →
        (∀ carried endpoint, Carries r.method texts carried endpoint →
          r.operation = (endpoint.operation content).map (caller, ·)) ∧
        ((∃ text ∈ texts, Free text) →
          (∀ carried endpoint, ¬ Carries r.method texts carried endpoint) →
          r.operation = .error .noEndpoint) := by
  refine ⟨fun texts htexts hfirst => ?_, fun parts texts h => ?_⟩
  · obtain ⟨hplain, hprefixed⟩ := Target.segments_encode htexts hfirst
    exact ⟨hplain, hprefixed, fun parts hparts => Target.writes_encode hfirst hparts⟩
  have hsegments : Target.segments ("/".intercalate parts) = .ok texts := h.segments_eq
  refine ⟨hsegments, fun r caller content hpath hcaller hbody =>
    ⟨fun carried endpoint hcarries => ?_, fun hfree hnone => ?_⟩⟩
  · exact r.operation_of_some hcaller (hpath ▸ hsegments) hbody (hcarries.find_eq r.query)
  · refine r.operation_of_none hcaller (hpath ▸ hsegments) hbody ?_
    cases hfind : Endpoint.find r.method r.query texts with
    | none => rfl
    | some endpoint =>
      obtain ⟨carried, hcarries⟩ := carries_of_find hfind hfree
      exact absurd hcarries (hnone carried endpoint)

/-- A search in a folder whose name has a slash and a letter that is not ASCII. -/
def oddSearch : Request where
  method := "GET"
  path := "/api//mails/search/caf%C3%A9%2Fbar/50%25%20%2B%20x~/"
  query := none
  user := some "bob"
  body := .bytes []

theorem spelled_paths_lead_odd :
    let parts := ["", "api", "", "mails", "search", "caf%C3%A9%2Fbar", "50%25%20%2B%20x~", ""]
    let texts := ["mails", "search", "café/bar", "50% + x~"]
    "/".intercalate parts = oddSearch.path ∧
    Target.Writes parts texts ∧
    Target.segments oddSearch.path = .ok texts ∧
    oddSearch.operation = .ok ("bob", .searchIn "café/bar" "50% + x~") := by
  intro parts texts
  have hpath : "/".intercalate parts = oddSearch.path := by decide +kernel
  have hwritten : parts.filter (· ≠ "") = "api" :: texts.map Percent.encode := by decide +kernel
  obtain ⟨hencoded, hspelled⟩ := spelled_paths_lead
  have hwrites : Target.Writes parts texts := by
    obtain ⟨-, -, hpadded⟩ := hencoded texts (by decide) (by decide)
    exact hpadded parts (hwritten ▸ List.mem_cons_of_mem _ List.mem_cons_self)
  obtain ⟨hsegments, hleads⟩ := hspelled parts texts hwrites
  refine ⟨hpath, hwrites, hpath ▸ hsegments, ?_⟩
  have hcaller : oddSearch.caller = some "bob" := by decide +kernel
  exact (hleads oddSearch "bob" [] hpath.symm hcaller rfl).1 _ _
    (.searchIn "café/bar" "50% + x~")

end Web

end LabelMail
