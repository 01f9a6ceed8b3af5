import LabelMail.Proofs.ListingByName
import LabelMail.Proofs.Wildcards

/-!
Searches and listings. A search reads the rows that match a pattern where a listing reads all of
them, and both then look at the folder of what they read. Main statement: in every state that
operations reach, a search ends as the listing would, whatever the store refuses, with those of the
messages that contain the query.
-/
namespace LabelMail

open Text (Wildcard.Finds)

namespace Message

/-- The query stands in the subject or in the content. -/
def Contains (m : Message) (query : String) : Prop :=
  Wildcard.Finds query m.subject ∨ Wildcard.Finds query m.content

instance (m : Message) (query : String) : Decidable (m.Contains query) :=
  inferInstanceAs (Decidable (_ ∨ _))

/-- The first message is the newer one, or of one time and has the greater id. -/
def Newer (m m' : Message) : Prop :=
  m'.timestamp.toMillis < m.timestamp.toMillis ∨
    (m.timestamp.toMillis = m'.timestamp.toMillis ∧ m'.id < m.id)

/-- Those of the messages that contain the query. -/
def having (query : String) (ms : List Message) : List Message :=
  ms.filter fun m => decide (m.Contains query)

theorem mem_having {m : Message} {query : String} {ms : List Message} :
    m ∈ having query ms ↔ m ∈ ms ∧ m.Contains query := by
  rw [having, List.mem_filter, decide_eq_true_iff]

end Message

/-- Messages with different ids, each of which may stand before the next, are in strict order. -/
theorem Holdings.Orderly.pairwise_newer {h : Holdings} {owner : String} (ho : h.Orderly) :
    (h.mailbox owner).Pairwise Message.Newer := by
  have hsorted : (h.mailbox owner).Pairwise
      fun m m' => (Row.ofMessage m).precedes (Row.ofMessage m') = true :=
    pairwise_sortBy (fun _ _ _ => Row.precedes_trans) fun _ _ => Row.precedes_total _ _
  have hids := List.pairwise_map.mp (Holdings.nodup_mailbox ho.ids owner)
  refine (hsorted.and hids).imp fun {m m'} hmm' => ?_
  refine (Row.precedes_iff.mp hmm'.1).imp_right fun htie => ⟨htie.1, ?_⟩
  exact String.not_le.mp fun hle => hmm'.2 (String.le_antisymm hle htie.2)

namespace Primary

open Database

variable {db : Store} {h : Holdings} {owner query : String} {f : Folder} {ms : List Message}

theorem mapM_stored (hms : ∀ m ∈ ms, m.Storable) :
    (ms.map MessageRow.ofMessage).mapM (fun r => (MonadExcept.ofExcept r.message : Query Message)) =
      pure ms := by
  induction ms with
  | nil => rfl
  | cons m ms ih =>
    obtain ⟨hm, hms⟩ := List.forall_mem_cons.mp hms
    rw [List.map_cons, List.mapM_cons, hm.stored_message, ih hms]
    rfl

theorem MessageRow.contains_iff {m : Message} (hnul : ∀ c ∈ query.toList, c.toNat ≠ 0) :
    (MessageRow.ofMessage m).contains (Text.Wildcard.containing query) =
      decide (m.Contains query) := by
  rw [Bool.eq_iff_iff, decide_eq_true_iff, contains, Bool.or_eq_true,
    Text.Wildcard.matchesText_containing_iff hnul, Text.Wildcard.matchesText_containing_iff hnul]
  rfl

theorem messagesOf_eq (hs : db.rows.Shows h) (ho : h.Orderly) :
    messagesOf owner db = select (fun _ => h.mailbox owner) db := by
  refine select_bind ?_
  rw [hs.rowsOf]
  exact mapM_stored fun m hm => ho.storable m (Holdings.mem_mailbox.mp hm).1

theorem messagesIn_eq (hs : db.rows.Shows h) (ho : h.Orderly) :
    messagesIn owner f db = select (fun _ => (h.mailbox owner).filter (f.holds · owner)) db := by
  refine (bind_congr (messagesOf_eq hs ho)).trans ?_
  exact select_bind rfl

/-- A search, if its pattern is not too long, is one statement as well. -/
theorem search_eq_bind (hshort : Text.Wildcard.tooLong (Text.Wildcard.containing query) = false)
    (f : Option Folder) :
    search owner query f =
      (do
        let rows ← select fun rows =>
          (rowsOf owner rows).filter (·.contains (Text.Wildcard.containing query))
        let ms ← rows.mapM fun r => MonadExcept.ofExcept r.message
        match f with
        | some f => return ms.filter (f.holds · owner)
        | none => return ms : Query (List Message)) := by
  unfold search
  simp only [hshort, Bool.false_and, Bool.false_eq_true, if_false]
  rfl

theorem search_eq (hs : db.rows.Shows h) (ho : h.Orderly) (hnul : ∀ c ∈ query.toList, c.toNat ≠ 0)
    (hshort : Text.Wildcard.tooLong (Text.Wildcard.containing query) = false)
    (f : Option Folder) :
    search owner query f db =
      select (fun _ => (Message.having query (h.mailbox owner)).filter
        fun m => f.all (·.holds m owner)) db := by
  have hfound : (rowsOf owner db.rows).filter (·.contains (Text.Wildcard.containing query)) =
      (Message.having query (h.mailbox owner)).map .ofMessage := by
    rw [hs.rowsOf, List.filter_map]
    refine congrArg _ (List.filter_congr fun m _ => ?_)
    rw [Function.comp_apply, MessageRow.contains_iff hnul]
  have hstorable : ∀ m ∈ Message.having query (h.mailbox owner), m.Storable := fun m hm =>
    ho.storable m (Holdings.mem_mailbox.mp (Message.mem_having.mp hm).1).1
  rw [search_eq_bind hshort]
  refine select_bind ?_
  rw [hfound, mapM_stored hstorable]
  cases f with
  | none => simp
  | some f => rfl

theorem search_eq_messagesOf (hs : db.rows.Shows h) (ho : h.Orderly)
    (hnul : ∀ c ∈ query.toList, c.toNat ≠ 0)
    (hshort : Text.Wildcard.tooLong (Text.Wildcard.containing query) = false) :
    search owner query none db = (Message.having query <$> messagesOf owner) db := by
  rw [search_eq hs ho hnul hshort, map_of_select (messagesOf_eq hs ho)]
  simp

theorem search_eq_messagesIn (hs : db.rows.Shows h) (ho : h.Orderly)
    (hnul : ∀ c ∈ query.toList, c.toNat ≠ 0)
    (hshort : Text.Wildcard.tooLong (Text.Wildcard.containing query) = false) :
    search owner query (some f) db = (Message.having query <$> messagesIn owner f) db := by
  rw [search_eq hs ho hnul hshort, map_of_select (messagesIn_eq hs ho)]
  refine congrArg (fun ms : List Message => select (fun _ => ms) db) ?_
  simp only [Message.having, List.filter_filter, Option.all_some, Bool.and_comm]

/-- Whatever is searched for, what is found are members of the mailbox in their order. -/
theorem search_sublist (hs : db.rows.Shows h) (ho : h.Orderly) (f : Option Folder) :
    Ends (search owner query f db) (fun ms _ => ms.Sublist (h.mailbox owner))
      (fun _ _ => True) := by
  refine (statement_ends _ _ _).bind (fun rows db' hrows => ?_) fun _ _ _ => trivial
  obtain ⟨found, hfound, rfl⟩ :
      ∃ found : List Message, found.Sublist (h.mailbox owner) ∧ rows = found.map .ofMessage := by
    have hrows := hrows.1
    dsimp only at hrows
    split at hrows
    · cases hrows
    · obtain ⟨rfl, -⟩ := Prod.mk.inj (Except.ok.inj hrows)
      rw [hs.rowsOf, List.filter_map]
      exact ⟨_, List.filter_sublist, rfl⟩
  rw [mapM_stored fun m hm => ho.storable m (Holdings.mem_mailbox.mp (hfound.subset hm)).1]
  cases f with
  | none => exact .of_ok hfound
  | some f => exact .of_ok (List.filter_sublist.trans hfound)

/-- A search whose pattern is too long fails if there is a message to try it on. -/
theorem search_of_tooLong (hs : db.rows.Shows h) (hmail : h.mailbox owner ≠ [])
    (hlong : Text.Wildcard.tooLong (Text.Wildcard.containing query) = true) (f : Option Folder) :
    Ends (search owner query f db) (fun _ _ => False) (fun _ _ => True) := by
  refine (statement_ends _ _ _).bind (fun rows db' hrows => ?_) fun _ _ _ => trivial
  have hrows := hrows.1
  have hmine : (rowsOf owner db.rows).isEmpty = false := by
    rw [hs.rowsOf, List.isEmpty_map]
    simpa using hmail
  dsimp only at hrows
  rw [hlong, hmine] at hrows
  cases hrows

end Primary

namespace Mailroom

variable {σ : Type} {room : Mailroom σ} {h : Holdings} {caller folder query : String}

theorem primary_atTime (room : Mailroom σ) (now : Int) : (room.atTime now).primary = room.primary :=
  rfl

theorem onPrimary_map {α β : Type} {q : Primary.Query β} {q' : Primary.Query α} {g : α → β}
    (hq : q room.primary = (g <$> q') room.primary) :
    onPrimary q room = (g <$> onPrimary q') room := by
  change q room.primary = EStateM.map g q' room.primary at hq
  change _ = EStateM.map g (onPrimary q') room
  simp only [onPrimary, hq, EStateM.map]
  cases q' room.primary <;> rfl

theorem wanted_of_not_blank (hquery : Text.allBlank query = false) :
    wanted query = .ok (Text.trim query) := by
  simp only [wanted, Text.isEmpty_trim hquery, Bool.false_eq_true, if_false]

/-- Blanks around the name of a folder do not count. -/
theorem folderOfText_trim (caller folder : String) :
    folderOfText caller (Text.trim folder) = (folderOfText caller folder : Action σ Folder) := by
  simp only [folderOfText, Folder.ofName, Tag.ofName_trim]

theorem list_some (hfolder : Text.allBlank folder = false) :
    (list caller (some folder) : Action σ (List Message)) =
      folderOfText caller folder >>= fun f => onPrimary (Primary.messagesIn caller f) := by
  have hname : ((Option.map Text.trim (some folder)).filter fun n => !n.isEmpty).getD
      Folder.inbox.name = Text.trim folder := by
    simp [Option.filter, Text.isEmpty_trim hfolder]
  rw [list, hname, folderOfText_trim]

/-- A search in a folder ends as the listing of the folder does, except that it leaves out what does
not contain the query. -/
theorem searchIn_eq_list (hs : room.primary.rows.Shows h) (ho : h.Orderly)
    (hfolder : Text.allBlank folder = false) (hquery : Text.allBlank query = false)
    (hnul : ∀ c ∈ (Text.trim query).toList, c.toNat ≠ 0)
    (hshort : Text.Wildcard.tooLong (Text.Wildcard.containing (Text.trim query)) = false) :
    searchIn caller folder query room =
      (Message.having (Text.trim query) <$> list caller (some folder)) room := by
  have hsearch : (searchIn caller folder query : Action σ (List Message)) =
      folderOfText caller folder >>= fun f =>
        onPrimary (Primary.search caller (Text.trim query) (some f)) := by
    simp only [searchIn, wanted_of_not_blank hquery, MonadExcept.ofExcept, pure_bind]
  rw [hsearch, list_some hfolder]
  refine (folderOfText_ends hs folder).bind_eq_map fun f mid hmid => onPrimary_map ?_
  exact Primary.search_eq_messagesIn hmid.shows ho hnul hshort

theorem search_eq_messagesOf (hs : room.primary.rows.Shows h) (ho : h.Orderly)
    (hquery : Text.allBlank query = false) (hnul : ∀ c ∈ (Text.trim query).toList, c.toNat ≠ 0)
    (hshort : Text.Wildcard.tooLong (Text.Wildcard.containing (Text.trim query)) = false) :
    search caller query room =
      (Message.having (Text.trim query) <$> onPrimary (Primary.messagesOf caller)) room := by
  have hsearch : (search caller query : Action σ (List Message)) =
      onPrimary (Primary.search caller (Text.trim query) none) := by
    simp only [search, wanted_of_not_blank hquery, MonadExcept.ofExcept, pure_bind]
  rw [hsearch]
  exact onPrimary_map (Primary.search_eq_messagesOf hs ho hnul hshort)

/-- Whatever operation returns messages as a list, they are members of the caller's mailbox in their
order. -/
theorem perform_lists (hs : room.primary.rows.Shows h) (ho : h.Orderly) (o : Operation) :
    Ends (perform caller o room)
      (fun a _ => ∀ ms, a = .messages ms → ms.Sublist (h.mailbox caller)) (fun _ _ => True) := by
  have hquery {mid : Mailroom σ} {q : Primary.Query (List Message)}
      (hq : Ends (q mid.primary) (fun ms _ => ms.Sublist (h.mailbox caller)) (fun _ _ => True)) :
      Ends (onPrimary q mid) (fun ms _ => ms.Sublist (h.mailbox caller)) (fun _ _ => True) := by
    refine (onPrimary_ends mid hq).mono (fun ms _ hms => ?_) fun _ _ _ => trivial
    obtain ⟨db, hms, -⟩ := hms
    exact hms
  have hlisting {mid : Mailroom σ} (hmid : mid.primary.rows.Shows h) (f : Folder) :
      Ends (onPrimary (Primary.messagesIn caller f) mid)
        (fun ms _ => ms.Sublist (h.mailbox caller)) (fun _ _ => True) := by
    refine hquery ((Primary.messagesIn_ends hmid ho f).mono (fun ms _ hms => ?_)
      fun _ _ _ => trivial)
    rw [hms.1]
    exact List.filter_sublist
  have hmessages {a : Action σ (List Message)}
      (ha : Ends (a room) (fun ms _ => ms.Sublist (h.mailbox caller)) (fun _ _ => True)) :
      Ends ((Outcome.messages <$> a) room)
        (fun a _ => ∀ ms, a = .messages ms → ms.Sublist (h.mailbox caller)) (fun _ _ => True) := by
    refine Ends.map (ha.mono (fun ms _ hms ms' heq => ?_) fun _ _ _ => trivial)
    exact Outcome.messages.inj heq ▸ hms
  have hother {α : Type} {a : Action σ α} {g : α → Outcome} (hg : ∀ x ms, g x ≠ .messages ms) :
      Ends ((g <$> a) room)
        (fun a _ => ∀ ms, a = .messages ms → ms.Sublist (h.mailbox caller)) (fun _ _ => True) :=
    Ends.map ⟨fun x _ _ ms heq => absurd heq (hg x ms), fun _ _ _ => trivial⟩
  cases o with
  | list folder =>
    refine hmessages ((folderOfText_ends hs _).bind (fun f mid hmid => ?_) fun _ _ _ => trivial)
    exact hlisting hmid.shows f
  | listSpam => exact hmessages (hlisting hs .spam)
  | search query =>
    refine hmessages (Ends.after_ofExcept (fun text _ => ?_) fun _ => trivial)
    exact hquery (Primary.search_sublist hs ho none)
  | searchIn folder query =>
    refine hmessages (Ends.after_ofExcept (fun text _ => ?_) fun _ => trivial)
    refine (folderOfText_ends hs folder).bind (fun f mid hmid => ?_) fun _ _ _ => trivial
    exact hquery (Primary.search_sublist hmid.shows ho (some f))
  | _ => exact hother fun _ _ => Outcome.noConfusion

/-- Where a listing shows anything, a search fails if its pattern is too long. -/
theorem Orderly.outcome_searchIn_of_tooLong (ho : room.Orderly) {now : Int} {o : Operation}
    {m : Message} {ms : List Message}
    (hlisted : room.outcome ⟨caller, now, o⟩ = some (.messages (m :: ms)))
    (hlong : Text.Wildcard.tooLong (Text.Wildcard.containing (Text.trim query)) = true)
    (folder : String) : room.outcome ⟨caller, now, .searchIn folder query⟩ = none := by
  have hs : (room.atTime now).primary.rows.Shows room.holdings := ho.shows
  have hmail : room.holdings.mailbox caller ≠ [] := by
    have hsub := (step_of_ends (e := ⟨caller, now, o⟩) (perform_lists hs ho.holdings o)).1 _ hlisted
      _ rfl
    exact List.ne_nil_of_mem (hsub.subset List.mem_cons_self)
  have hfails : Ends (perform caller (.searchIn folder query) (room.atTime now))
      (fun _ _ => False) (fun _ _ => True) := by
    refine Ends.map (Ends.after_ofExcept (fun text htext => ?_) fun _ => trivial)
    have htrim : text = Text.trim query := by
      unfold wanted at htext
      dsimp only at htext
      split at htext
      · cases htext
      · exact (Except.ok.inj htext).symm
    subst htrim
    refine (folderOfText_ends hs folder).bind (fun f mid hmid => ?_) fun _ _ _ => trivial
    refine (onPrimary_ends mid (Primary.search_of_tooLong hmid.shows hmail hlong (some f))).mono
      (fun _ _ ⟨_, h, _⟩ => h) fun _ _ _ => trivial
  cases hout : room.outcome ⟨caller, now, .searchIn folder query⟩ with
  | none => rfl
  | some o =>
    have hstep := step_of_ends (e := ⟨caller, now, .searchIn folder query⟩) hfails
    exact (hstep.1 o hout).elim

/-- In every state that operations reach, and whatever the store refuses, a search in a folder ends
as the listing of the folder does, with those of the messages listed that contain the query, and a
search everywhere ends so as a listing of all the caller's messages. All that is ever returned as a
list is the caller's, each message once and the newest first. -/
theorem searches_filter_listings (room : Mailroom σ) (hv : room.Vacant) (events : List Event)
    (now : Int) (caller : String) {folder query : String}
    (hfolder : Text.allBlank folder = false) (hquery : Text.allBlank query = false)
    (hnul : ∀ c ∈ query.toList, c.toNat ≠ 0)
    (hshort : Text.Wildcard.tooLong (Text.Wildcard.containing (Text.trim query)) = false) :
    let here := (room.after events).atTime now
    searchIn caller folder query here =
        (Message.having (Text.trim query) <$> list caller (some folder)) here ∧
      search caller query here =
        (Message.having (Text.trim query) <$> onPrimary (Primary.messagesOf caller)) here ∧
      (here.primary.Sound → ∃ listed all s s',
        list caller (some folder) here = .ok listed s ∧
        searchIn caller folder query here = .ok (Message.having (Text.trim query) listed) s ∧
        search caller query here = .ok (Message.having (Text.trim query) all) s' ∧
        ∀ m, m ∈ all ↔ m ∈ here.holdings.messages ∧ m.ownerId = caller) ∧
      ∀ o ms, (room.after events).outcome ⟨caller, now, o⟩ = some (.messages ms) →
        ms.Pairwise Message.Newer ∧ (ms.map Message.id).Nodup ∧
          ∀ m ∈ ms, m.ownerId = caller ∧ m ∈ here.holdings.messages := by
  intro here
  have ho : (room.after events).Orderly := hv.orderly.after events
  have hs : here.primary.rows.Shows here.holdings := ho.shows
  have hnul : ∀ c ∈ (Text.trim query).toList, c.toNat ≠ 0 := fun c hc =>
    hnul c (Text.mem_of_mem_trim hc)
  have hin : searchIn caller folder query here =
      (Message.having (Text.trim query) <$> list caller (some folder)) here :=
    searchIn_eq_list hs ho.holdings hfolder hquery hnul hshort
  have hall : search caller query here =
      (Message.having (Text.trim query) <$> onPrimary (Primary.messagesOf caller)) here :=
    search_eq_messagesOf hs ho.holdings hquery hnul hshort
  refine ⟨hin, hall, fun hsound => ?_, fun o ms hout => ?_⟩
  · have hlisting : Ends (list caller (some folder) here) _ _ :=
      list_named hs ho.holdings (Tag.ofName_of_not_blank hfolder)
    have hreading : Ends (Primary.messagesOf caller here.primary) _ _ :=
      Primary.messagesOf_ends hs ho.holdings
    obtain ⟨listed, s, hlisted, -⟩ := hlisting.succeeds fun _ _ h => h hsound
    obtain ⟨all, s', hmail, db, ⟨rfl, -⟩, -⟩ :=
      (onPrimary_ends here hreading).succeeds fun _ _ ⟨_, h, _⟩ => h.2 hsound
    refine ⟨listed, _, s, s', hlisted, ?_, ?_, fun m => Holdings.mem_mailbox⟩
    · rw [hin]
      exact map_of_ok hlisted
    · rw [hall]
      exact map_of_ok hmail
  · have hsub : ms.Sublist (here.holdings.mailbox caller) :=
      (step_of_ends (e := ⟨caller, now, o⟩) (perform_lists hs ho.holdings o)).1 _ hout ms rfl
    refine ⟨ho.holdings.pairwise_newer.sublist hsub, ?_, fun m hm => ?_⟩
    · exact (Holdings.nodup_mailbox ho.holdings.ids caller).sublist (hsub.map Message.id)
    · exact (Holdings.mem_mailbox.mp (hsub.subset hm)).symm

/-- Two deliveries of one time, of which only the first says "%_off". -/
def offers : List Event :=
  [⟨"alice", 0, .send ⟨some "bob", some "50%_Off", some "today"⟩ false⟩,
    ⟨"alice", 0, .send ⟨some "bob", some "50 xoff", some "today"⟩ false⟩]

theorem searches_filter_listings_escaped :
    sample.Vacant ∧ Text.allBlank " INBOX" = false ∧ Text.allBlank " %_o" = false ∧
    (∀ c ∈ " %_o".toList, c.toNat ≠ 0) ∧
    Text.Wildcard.tooLong (Text.Wildcard.containing (Text.trim " %_o")) = false ∧
    (∃ listed s, list "bob" (some " INBOX") ((sample.after offers).atTime 1) = .ok listed s ∧
      searchIn "bob" " INBOX" " %_o" ((sample.after offers).atTime 1) =
        .ok (Message.having (Text.trim " %_o") listed) s) ∧
    ((sample.after offers).outcome ⟨"bob", 1, .list (some " INBOX")⟩).map
      (fun o => o.told.map Message.id) = some ["uuu", "u"] ∧
    ((sample.after offers).outcome ⟨"bob", 1, .searchIn " INBOX" " %_o"⟩).map
      (fun o => o.told.map Message.id) = some ["u"] := by
  have hv : sample.Vacant := ⟨rfl, rfl⟩
  have hfolder : Text.allBlank " INBOX" = false := by decide +kernel
  have hquery : Text.allBlank " %_o" = false := by decide +kernel
  have hletters : " %_o".toList.all (·.toNat != 0) = true := by decide +kernel
  have hnul : ∀ c ∈ " %_o".toList, c.toNat ≠ 0 := fun c hc =>
    bne_iff_ne.mp (List.all_eq_true.mp hletters c hc)
  have hshort : Text.Wildcard.tooLong (Text.Wildcard.containing (Text.trim " %_o")) = false := by
    decide +kernel
  obtain ⟨-, -, hsound, -⟩ :=
    searches_filter_listings sample hv offers 1 "bob" hfolder hquery hnul hshort
  obtain ⟨listed, -, s, -, hlisted, hfound, -⟩ := hsound (by
    rw [primary_atTime]
    exact (sound_sample offers).1)
  refine ⟨hv, hfolder, hquery, hnul, hshort, ⟨listed, s, hlisted, hfound⟩, ?_, ?_⟩
  · decide +kernel
  · decide +kernel

/-- The same letter over and over. -/
def sameLetter (n : Nat) : String := String.ofList (List.replicate n 'a')

theorem eq_of_mem_sameLetter {n : Nat} {c : Char} (hc : c ∈ (sameLetter n).toList) : c = 'a' := by
  rw [sameLetter, String.toList_ofList] at hc
  exact List.eq_of_mem_replicate hc

theorem trim_sameLetter (n : Nat) : Text.trim (sameLetter n) = sameLetter n := by
  have hletters : ∀ c ∈ (sameLetter n).toList, Text.isBlank c = false := by
    intro c hc
    rw [eq_of_mem_sameLetter hc]
    decide
  rw [Text.trim, Text.trimChars_eq_self hletters, String.ofList_toList]

theorem allBlank_sameLetter (n : Nat) : Text.allBlank (sameLetter (n + 1)) = false := by
  rw [Text.allBlank, sameLetter, String.toList_ofList, List.replicate_succ]
  rfl

theorem tooLong_sameLetter :
    Text.Wildcard.tooLong
      (Text.Wildcard.containing (Text.trim (sameLetter Text.Wildcard.lengthLimit))) = true := by
  refine Text.Wildcard.tooLong_containing ?_
  rw [trim_sameLetter, sameLetter, String.toList_ofList, List.length_replicate]
  omega

/-- A delivery whose content has a NUL in the middle. -/
def torn : List Event :=
  [⟨"alice", 0, .send ⟨some "bob", some "s", some "ab\x00cd"⟩ false⟩]

/-- Bob's inbox is listed, but a search in it for very many letters fails, and one for letters that
the content of its only message has behind a NUL finds nothing. -/
theorem listings_beyond_searches :
    sample.Vacant ∧ Text.allBlank "inbox" = false ∧
    Text.allBlank (sameLetter Text.Wildcard.lengthLimit) = false ∧
    (∀ c ∈ (sameLetter Text.Wildcard.lengthLimit).toList, c.toNat ≠ 0) ∧
    (sample.after delivered).outcome ⟨"bob", 0, .list (some "inbox")⟩ =
      some (.messages [deliveryWith .inbox false]) ∧
    (sample.after delivered).outcome
      ⟨"bob", 0, .searchIn "inbox" (sameLetter Text.Wildcard.lengthLimit)⟩ = none ∧
    (∃ m, (sample.after torn).outcome ⟨"bob", 0, .list (some "inbox")⟩ = some (.messages [m]) ∧
      "cd".toList <:+: m.content.toList) ∧
    (sample.after torn).outcome ⟨"bob", 0, .searchIn "inbox" "cd"⟩ = some (.messages []) := by
  have hv : sample.Vacant := ⟨rfl, rfl⟩
  have ho : (sample.after delivered).Orderly := hv.orderly.after delivered
  have hlisted : (sample.after delivered).outcome ⟨"bob", 0, .list (some "inbox")⟩ =
      some (.messages [deliveryWith .inbox false]) := by decide +kernel
  refine ⟨hv, by decide +kernel, allBlank_sameLetter 49999, fun c hc => ?_, hlisted, ?_,
    ⟨{ deliveryWith .inbox false with content := "ab\x00cd" }, ?_, ?_⟩, ?_⟩
  · rw [eq_of_mem_sameLetter hc]
    decide
  · exact ho.outcome_searchIn_of_tooLong hlisted tooLong_sameLetter "inbox"
  · decide +kernel
  · decide +kernel
  · decide +kernel

end Mailroom

end LabelMail
