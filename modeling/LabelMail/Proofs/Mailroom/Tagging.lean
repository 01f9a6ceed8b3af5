import LabelMail.Proofs.Mailroom.Writing
import LabelMail.Proofs.Marking
import Mathlib.Data.List.ReduceOption

/-!
The changes of tags and flags as acts. Each of them alters messages of the caller, and the first use
of a custom tag enters a label before. Whatever fails has written nothing, except that a label which
was entered for a tag stays when the tag cannot be stored any more.
-/
namespace LabelMail.Mailroom

open Primary (IsRetagged CanRetag)

variable {σ α : Type} {room : Mailroom σ} {h : Holdings} {caller id owner name text : String}
variable {m x : Message} {l : Label}

/-- There is a message of that id, and it is the owner's. -/
def Owns (h : Holdings) (owner id : String) : Prop :=
  ∃ x ∈ h.messages, x.id = id ∧ x.ownerId = owner

theorem owns_of_find? (hx : h.find? id = some x) (howner : x.ownerId = caller) :
    Owns h caller id :=
  ⟨x, (Holdings.mem_of_find? hx).1, (Holdings.mem_of_find? hx).2, howner⟩

/-- The message found under the id is the caller's, and `m` is an edit of it. -/
structure EditOf (h : Holdings) (caller id : String) (labels : List Label) (m : Message) :
    Prop where
  found : ∃ x, h.find? id = some x ∧ x.ownerId = caller ∧ x.Edit labels m

theorem EditOf.id_eq {labels : List Label} (he : EditOf h caller id labels m) : m.id = id := by
  obtain ⟨x, hx, -, hedit⟩ := he.found
  rw [← (Holdings.mem_of_find? hx).2]
  exact congrArg Row.id hedit.envelope

theorem EditOf.legal (he : EditOf h caller id h.labels m) (fresh : String → Prop) :
    h.Legal caller fresh [.alter m] := by
  obtain ⟨x, hx, howner, hedit⟩ := he.found
  exact ⟨⟨x, (Holdings.mem_of_find? hx).1, howner, hedit⟩, trivial⟩

theorem canRetag_of_find? (ho : h.Orderly) (hx : h.find? id = some x) (hm : IsRetagged x m) :
    CanRetag h m := by
  intro y hy hid
  have hxid : x.id = m.id := by rw [← hm]
  rwa [Holdings.eq_of_id ho.ids hy (Holdings.mem_of_find? hx).1 (hid.trans hxid.symm)]

/-- An edit that leaves the text alone, stored and returned. -/
theorem saveEdit_ends {db : Primary.Store} (hs : db.rows.Shows h) (ho : h.Orderly)
    (hx : h.find? id = some x) (howner : x.ownerId = caller) (hedit : x.Edit h.labels m)
    (hm : IsRetagged x m) :
    Ends ((do Primary.saveTags m; return m : Primary.Query Message) db)
      (fun m' db' => m' = m ∧ EditOf h caller id h.labels m ∧ db'.rows.Shows (h.put m) ∧
        db.Later db')
      (fun _ db' => db.Idle db' ∧ ¬ db.Sound) := by
  refine (Primary.saveTags_ends hs (canRetag_of_find? ho hx hm)).bind (fun _ db' h' => ?_)
    (fun _ _ he => he)
  exact .of_ok ⟨rfl, ⟨x, hx, howner, hedit⟩, h'⟩

/-- A query that starts from a message of the caller and stores an edit of it. -/
theorem changeOwn_ends {f : Message → Primary.Query Message} (hs : room.primary.rows.Shows h)
    (ho : h.Orderly)
    (hf : ∀ x db, h.find? id = some x → x.ownerId = caller → db.rows.Shows h →
      Ends (f x db)
        (fun m db' => EditOf h caller id h.labels m ∧ db'.rows.Shows (h.put m) ∧ db.Later db')
        (fun _ db' => db.Idle db')) :
    Ends (onPrimary (Primary.ownMessage id caller >>= f) room)
      (fun m mid => EditOf h caller id h.labels m ∧ Wrote caller h [.alter m] room mid)
      (fun _ mid => Rests h room mid) := by
  have hquery : Ends ((Primary.ownMessage id caller >>= f) room.primary)
      (fun m db => EditOf h caller id h.labels m ∧ db.rows.Shows (h.put m) ∧ room.primary.Later db)
      (fun _ db => room.primary.Idle db) := by
    refine (Primary.ownMessage_ends hs ho).bind (fun x db hx => ?_) (fun _ _ he => he.1)
    obtain ⟨hx, howner, hi⟩ := hx
    refine (hf x db hx howner (hs.idle hi)).mono (fun m db' hm => ?_) (fun _ _ he => hi.trans he)
    exact ⟨hm.1, hm.2.1, hi.toLater.trans hm.2.2⟩
  refine (onPrimary_ends _ hquery).mono ?_ ?_
  · rintro m _ ⟨db, ⟨he, hs', hl⟩, rfl⟩
    exact ⟨he, wrote_primary he.legal hs' hl⟩
  · rintro _ _ ⟨db, hi, rfl⟩
    exact rests_primary hs hi

theorem flipStar_ends (hs : room.primary.rows.Shows h) (ho : h.Orderly) :
    Ends (flipStar id caller room)
      (fun m mid => EditOf h caller id h.labels m ∧ Wrote caller h [.alter m] room mid)
      (fun _ mid => Rests h room mid) := by
  refine changeOwn_ends hs ho fun x db hx howner hdb => ?_
  refine (saveEdit_ends hdb ho hx howner .starred rfl).mono (fun m db' hm => ?_)
    (fun _ _ he => he.1)
  obtain ⟨rfl, hm⟩ := hm
  exact hm

theorem flipArchive_ends (hs : room.primary.rows.Shows h) (ho : h.Orderly) :
    Ends (flipArchive id caller room)
      (fun m mid => EditOf h caller id h.labels m ∧ Wrote caller h [.alter m] room mid)
      (fun _ mid => Rests h room mid) := by
  refine changeOwn_ends hs ho fun x db hx howner hdb => ?_
  cases hflip : x.tags.flipArchive with
  | error e => exact .of_error (.refl db)
  | ok r =>
    refine (saveEdit_ends hdb ho hx howner (.archived hflip) rfl).mono (fun m db' hm => ?_)
      (fun _ _ he => he.1)
    obtain ⟨rfl, hm⟩ := hm
    exact hm

theorem flipTrash_ends (hs : room.primary.rows.Shows h) (ho : h.Orderly) :
    Ends (flipTrash id caller room)
      (fun m mid => EditOf h caller id h.labels m ∧ Wrote caller h [.alter m] room mid)
      (fun _ mid => Rests h room mid) := by
  refine changeOwn_ends hs ho fun x db hx howner hdb => ?_
  refine (saveEdit_ends hdb ho hx howner .trashed rfl).mono (fun m db' hm => ?_)
    (fun _ _ he => he.1)
  obtain ⟨rfl, hm⟩ := hm
  exact hm

/-- What is not stored because nothing changed is stored already. -/
theorem setRead_ends (hs : room.primary.rows.Shows h) (ho : h.Orderly) (read : Bool) :
    Ends (setRead id caller read room)
      (fun m mid => EditOf h caller id h.labels m ∧ Wrote caller h [.alter m] room mid)
      (fun _ mid => Rests h room mid) := by
  refine changeOwn_ends hs ho fun x db hx howner hdb => ?_
  rcases hset : x.setRead read with ⟨m, changed⟩
  have hm : (x.setRead read).1 = m := congrArg Prod.fst hset
  have hedit : x.Edit h.labels m := hm ▸ .read read
  cases changed with
  | true =>
    refine (saveEdit_ends hdb ho hx howner hedit ?_).mono (fun m' db' hm' => ?_)
      (fun _ _ he => he.1)
    · rw [← hm]
      rfl
    · obtain ⟨rfl, hm'⟩ := hm'
      exact hm'
  | false =>
    have hsame : m = x := hm.symm.trans (Message.setRead_eq_self (congrArg Prod.snd hset))
    refine .of_ok ⟨⟨x, hx, howner, hedit⟩, ?_, .refl db⟩
    rw [hsame, Holdings.put_eq_self ho.ids (Holdings.mem_of_find? hx).1]
    exact hdb

theorem attempt_ends {a : Action σ α} {Q : α → Mailroom σ → Prop} {E : Failure → Mailroom σ → Prop}
    (ha : Ends (a room) Q E) :
    Ends (attempt a room)
      (fun r room' => (∃ x, r = .ok x ∧ Q x room') ∨ ∃ e, r = .error e ∧ E e room')
      (fun _ _ => False) := by
  unfold attempt
  split
  · next x room' hr => exact .of_ok (.inl ⟨x, rfl, ha.ok x room' hr⟩)
  · next e room' hr => exact .of_ok (.inr ⟨e, rfl, ha.error e room' hr⟩)

theorem ownMessage_rests (hs : room.primary.rows.Shows h) (ho : h.Orderly) :
    Ends (onPrimary (Primary.ownMessage id caller) room)
      (fun x mid => h.find? id = some x ∧ x.ownerId = caller ∧ Rests h room mid)
      (fun _ mid => Rests h room mid) := by
  refine (reading_ends (P := fun x => h.find? id = some x ∧ x.ownerId = caller)
    (E := fun _ => True) hs ((Primary.ownMessage_ends hs ho).mono
      (fun _ _ hx => ⟨⟨hx.1, hx.2.1⟩, hx.2.2⟩) fun _ _ he => ⟨trivial, he.1⟩)).mono ?_ ?_
  · rintro x mid ⟨⟨hx, howner⟩, hmid⟩
    exact ⟨hx, howner, hmid⟩
  · exact fun _ _ he => he.2

/-- A message of the caller is found unless the database fails. -/
theorem ownMessage_found (hs : room.primary.rows.Shows h) (ho : h.Orderly)
    (hsound : room.primary.Sound) (hx : h.find? id = some x) (howner : x.ownerId = caller) :
    Ends (onPrimary (Primary.ownMessage id caller) room)
      (fun m mid => m = x ∧ Rests h room mid) (fun _ _ => False) := by
  refine (onPrimary_ends room (Primary.ownMessage_ends hs ho)).mono ?_ ?_
  · rintro m _ ⟨db, ⟨hm, -, hi⟩, rfl⟩
    exact ⟨Option.some.inj (hm.symm.trans hx), rests_primary hs hi⟩
  · rintro _ _ ⟨db, ⟨-, herror⟩, -⟩
    exact (herror hsound).2 x hx howner

/-- What is to be stored depends on the message as it is stored, however often it is listed. -/
theorem readChange_ends (hs : room.primary.rows.Shows h) (ho : h.Orderly) (read : Bool) :
    Ends (readChange caller read id room)
      (fun r mid => r = h.marked caller read id ∧ Rests h room mid)
      (fun _ mid => Rests h room mid ∧ ¬ room.primary.Sound) := by
  refine (attempt_ends (onPrimary_ends room ((Primary.ownMessage_ends hs ho).both
    (Primary.ownMessage_notFound hs ho)))).bind (fun r mid hr => ?_) (fun _ _ he => he.elim)
  rcases hr with ⟨x, rfl, db, ⟨⟨hx, rfl, hi⟩, -⟩, rfl⟩ | ⟨e, rfl, db, ⟨⟨hi, herr⟩, hnone⟩, rfl⟩
  · refine .of_ok ⟨?_, rests_primary hs hi⟩
    rw [Holdings.marked_of_find? hx]
    simp only [true_and]
    rfl
  · cases e with
    | notFound what =>
      exact .of_ok ⟨(Holdings.marked_eq_none (hnone what rfl)).symm, rests_primary hs hi⟩
    | _ => exact .of_error ⟨rests_primary hs hi, fun hd => by cases (herr hd).1⟩

/-- Messages of the caller with the flag set, which may be the same ones several times. -/
def AllRead (h : Holdings) (caller : String) (read : Bool) (ms : List Message) : Prop :=
  ∀ m ∈ ms, ∃ x ∈ h.messages, x.ownerId = caller ∧ (x.setRead read).1 = m

theorem legal_setRead (hnodup : h.ids.Nodup) {read : Bool} {ms : List Message}
    (hms : AllRead h caller read ms) (fresh : String → Prop) :
    h.Legal caller fresh (ms.map .alter) := by
  induction ms generalizing h with
  | nil => trivial
  | cons m ms ih =>
    obtain ⟨x, hx, howner, rfl⟩ := hms m List.mem_cons_self
    have hnodup' : (h.apply (.alter (x.setRead read).1)).ids.Nodup := by
      rw [Holdings.apply, Holdings.ids_put]
      exact hnodup
    refine ⟨⟨x, hx, howner, .read read⟩, ih hnodup' ?_⟩
    intro m' hm'
    obtain ⟨y, hy, howner', rfl⟩ := hms m' (List.mem_cons_of_mem _ hm')
    have hid : (x.setRead read).1.id ∈ h.ids := Holdings.mem_ids.mpr ⟨x, hx, rfl⟩
    by_cases hxy : y.id = x.id
    · obtain rfl := Holdings.eq_of_id hnodup hy hx hxy
      refine ⟨(y.setRead read).1, (Holdings.mem_put hid).mpr (.inl rfl), howner', ?_⟩
      exact Message.setRead_setRead y read
    · exact ⟨y, (Holdings.mem_put hid).mpr (.inr ⟨hy, hxy⟩), howner', rfl⟩

theorem after_alter (ms : List Message) : h.after (ms.map .alter) = Primary.puts h ms := by
  rw [Holdings.after, List.foldl_map]
  rfl

theorem allRead_marked (hnodup : h.ids.Nodup) (ids : List String) (read : Bool) :
    AllRead h caller read (ids.filterMap (h.marked caller read)) := by
  intro m hm
  obtain ⟨id, -, hm⟩ := List.mem_filterMap.mp hm
  obtain ⟨x, hx, -, howner, -, rfl⟩ := (Holdings.marked_eq_some hnodup).mp hm
  exact ⟨x, hx, howner, rfl⟩

theorem AllRead.canRetag (hnodup : h.ids.Nodup) {read : Bool} {ms : List Message}
    (hms : AllRead h caller read ms) : ∀ m ∈ ms, CanRetag h m := by
  intro m hm y hy hid
  obtain ⟨x, hx, -, rfl⟩ := hms m hm
  obtain rfl := Holdings.eq_of_id hnodup hy hx hid
  rfl

/-- A batch looks its messages up in the store as it was, and stores them all at its end. -/
theorem setReadMany_marks (hs : room.primary.rows.Shows h) (ho : h.Orderly) (ids : List String)
    (read : Bool) :
    Ends (setReadMany caller ids read room)
      (fun ms mid => ms = ids.filterMap (h.marked caller read) ∧
        Wrote caller h (ms.map .alter) room mid)
      (fun _ mid => Rests h room mid ∧ ¬ room.primary.Sound) := by
  have hread : Ends (ids.mapM (readChange caller read) room)
      (fun rs mid => rs = ids.map (h.marked caller read) ∧ Rests h room mid)
      (fun _ mid => Rests h room mid ∧ ¬ room.primary.Sound) :=
    Ends.mapM (fun id _ mid hmid => (readChange_ends hmid.shows ho read).mono
      (fun _ _ hr => ⟨hr.1, hmid.trans hr.2⟩)
      fun _ _ he => ⟨hmid.trans he.1, fun hd => he.2 (hmid.sound hd)⟩) (.refl hs)
  refine hread.bind (fun rs mid hrs => ?_) (fun _ _ he => he)
  obtain ⟨rfl, hrest⟩ := hrs
  have hms : (ids.map (h.marked caller read)).reduceOption = ids.filterMap (h.marked caller read) :=
    List.filterMap_map
  rw [hms]
  have hall : AllRead h caller read (ids.filterMap (h.marked caller read)) :=
    allRead_marked ho.ids ids read
  refine (onPrimary_ends _ (Primary.saveAllTags_ends hrest.shows (hall.canRetag ho.ids))).bind
    (fun _ _ hr => ?_) ?_
  · obtain ⟨db, ⟨hs', hl⟩, rfl⟩ := hr
    refine .of_ok ⟨rfl, hrest.then (wrote_primary (legal_setRead ho.ids hall) ?_ hl)⟩
    rw [after_alter]
    exact hs'
  · rintro _ _ ⟨db, ⟨hi, hns⟩, rfl⟩
    exact ⟨hrest.trans (rests_primary hrest.shows hi), fun hd => hns (hrest.sound hd)⟩

theorem setReadMany_ends (hs : room.primary.rows.Shows h) (ho : h.Orderly) (ids : List String)
    (read : Bool) :
    Ends (setReadMany caller ids read room)
      (fun ms mid => Wrote caller h (ms.map .alter) room mid) (fun _ mid => Rests h room mid) :=
  (setReadMany_marks hs ho ids read).mono (fun _ _ hw => hw.2) fun _ _ he => he.1

theorem setAllRead_marks (hs : room.primary.rows.Shows h) (ho : h.Orderly) :
    Ends (setAllRead caller room)
      (fun ms mid => ms = ((h.mailbox caller).map Message.id).filterMap (h.marked caller true) ∧
        Wrote caller h (ms.map .alter) room mid)
      (fun _ mid => Rests h room mid ∧ ¬ room.primary.Sound) := by
  refine (reading_ends (P := (· = h.mailbox caller)) (E := fun _ => ¬ room.primary.Sound) hs
    ((Primary.messagesOf_ends hs ho).mono (fun _ _ hr => hr) fun _ _ he => he.symm)).bind
    (fun ms mid hms => ?_) (fun _ _ he => he.symm)
  obtain ⟨rfl, hrest⟩ := hms
  exact (setReadMany_marks hrest.shows ho _ true).mono (fun _ _ hw => ⟨hw.1, hrest.then hw.2⟩)
    fun _ _ he => ⟨hrest.trans he.1, fun hd => he.2 (hrest.sound hd)⟩

theorem setAllRead_ends (hs : room.primary.rows.Shows h) (ho : h.Orderly) :
    Ends (setAllRead caller room)
      (fun ms mid => Wrote caller h (ms.map .alter) room mid) (fun _ mid => Rests h room mid) :=
  (setAllRead_marks hs ho).mono (fun _ _ hw => hw.2) fun _ _ he => he.1

/-- A tag as the owner spells it: a custom one has the name of a label or one of no label. -/
structure Spelled (h : Holdings) (owner : String) (t : Tag) : Prop where
  proper : t.Proper
  known : ∀ name, t = .custom name →
    Message.HasLabel h.labels owner t ∨ h.findLabel? owner name = none

/-- A tag that a text stands for in the owner's mailbox. -/
structure Named (h : Holdings) (owner text : String) (t : Tag) : Prop extends Spelled h owner t where
  spells : ∃ t₀, Tag.ofName text = .ok t₀ ∧ t = h.spelledTag owner t₀

theorem findLabel_rests (hs : room.primary.rows.Shows h) :
    Ends (onPrimary (Primary.findLabel owner name) room)
      (fun r mid => r = h.findLabel? owner name ∧ Rests h room mid)
      (fun _ mid => Rests h room mid ∧ ¬ room.primary.Sound) :=
  (reading_ends (E := fun _ => ¬ room.primary.Sound) hs
    ((Primary.findLabel_ends hs).mono (fun _ _ hr => hr) fun _ _ he => ⟨he.2, he.1⟩)).mono
    (fun _ _ hr => hr) fun _ _ he => ⟨he.2, he.1⟩

theorem spelling_ends (hs : room.primary.rows.Shows h) :
    Ends (spelling owner name room)
      (fun n mid => n = h.spelled owner name ∧ Rests h room mid)
      (fun _ mid => Rests h room mid ∧ ¬ room.primary.Sound) := by
  refine (findLabel_rests hs).bind (fun r mid hr => ?_) (fun _ _ he => he)
  obtain ⟨rfl, hrest⟩ := hr
  exact .of_ok ⟨rfl, hrest⟩

theorem spelled_custom (ho : h.Orderly) (hname : (Tag.custom name).Proper) :
    Spelled h owner (.custom (h.spelled owner name)) := by
  unfold Holdings.spelled
  cases hl : h.findLabel? owner name with
  | none =>
    refine ⟨hname, fun n hn => .inr ?_⟩
    obtain rfl := Tag.custom.inj hn
    exact hl
  | some l =>
    have hmem : l ∈ h.labels := List.mem_of_find?_eq_some hl
    have hfound := List.find?_some hl
    rw [Bool.and_eq_true] at hfound
    refine ⟨ho.named l hmem, fun n _ => .inl fun n' hn' => ⟨l, hmem, by simpa using hfound.1, ?_⟩⟩
    exact Tag.custom.inj hn'

theorem spelled_of_isReserved {t : Tag} (ht : t.Proper) (hres : t.isReserved = true) :
    Spelled h owner t := by
  refine ⟨ht, ?_⟩
  rintro name rfl
  cases hres

theorem tagOfText_ends (hs : room.primary.rows.Shows h) (ho : h.Orderly) :
    Ends (tagOfText owner text room)
      (fun t mid => Named h owner text t ∧ Rests h room mid)
      (fun _ mid => Rests h room mid) := by
  unfold tagOfText
  cases hof : Tag.ofName text with
  | error e => exact .of_error (.refl hs)
  | ok t =>
    have ht : t.Proper := Tag.proper_ofName hof
    cases t with
    | custom name =>
      refine Ends.map ((spelling_ends hs).mono (fun n mid hn => ?_) fun _ _ he => he.1)
      obtain ⟨rfl, hrest⟩ := hn
      exact ⟨⟨spelled_custom ho ht, _, hof, rfl⟩, hrest⟩
    | _ => exact .of_ok ⟨⟨spelled_of_isReserved ht rfl, _, hof, rfl⟩, .refl hs⟩

end LabelMail.Mailroom
