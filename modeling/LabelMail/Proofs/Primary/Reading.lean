import LabelMail.Primary.Blacklist
import LabelMail.Proofs.Acts
import LabelMail.Proofs.Statements

/-!
What the queries of the primary store return that only read, in terms of its holdings. They leave
the rows as they are, and on a sound database they fail only for what they did not find.
-/
namespace LabelMail.Primary

open Database

variable {db : Store} {h : Holdings} {id owner name : String}

theorem messageRow_id (m : Message) : (MessageRow.ofMessage m).id = m.id := rfl

theorem Rows.Shows.find? {rows : Rows} (hs : rows.Shows h) (p : MessageRow → Bool) :
    rows.messages.find? p = (h.messages.find? fun m => p (.ofMessage m)).map .ofMessage := by
  rw [hs.messages, List.find?_map]
  rfl

theorem Rows.Shows.rowsOf {rows : Rows} (hs : rows.Shows h) :
    rowsOf owner rows = (h.mailbox owner).map .ofMessage := by
  rw [Primary.rowsOf, hs.messages, List.filter_map, Holdings.mailbox]
  exact (map_sortBy (f := MessageRow.ofMessage) fun _ _ => rfl).symm

/-- Two databases with the same rows show the same. -/
theorem Rows.Shows.idle {db' : Store} (hs : db.rows.Shows h) (hi : db.Idle db') :
    db'.rows.Shows h := by
  rwa [hi.rows]

/-- A query that leaves the rows as they are, whatever it returns. -/
def Looks (q : Query α) : Prop :=
  ∀ db : Store, Ends (q db) (fun _ db' => db.Idle db') (fun _ db' => db.Idle db')

theorem looks_select (f : Rows → α) : Looks (select f : Query α) := fun _ =>
  (select_ends f).mono (fun _ _ h => h.2) (fun _ _ h => h.1)

theorem looks_pure (a : α) : Looks (pure a : Query α) := Moves.pure a

theorem looks_throw (e : Failure) : Looks (throw e : Query α) := Moves.throw e

theorem looks_ofExcept (v : Except Failure α) : Looks (MonadExcept.ofExcept v : Query α) :=
  Moves.ofExcept v

theorem Looks.bind {q : Query α} {f : α → Query β} (hq : Looks q) (hf : ∀ a, Looks (f a)) :
    Looks (q >>= f) :=
  Moves.bind hq hf

theorem Looks.map {q : Query α} (hq : Looks q) (g : α → β) : Looks (g <$> q) :=
  Moves.map hq g

theorem Looks.mapM {g : α → Query β} {l : List α} (hg : ∀ a, Looks (g a)) : Looks (l.mapM g) :=
  Moves.mapM hg

theorem looks_findMessage (id : String) : Looks (findMessage id) := by
  refine (looks_select _).bind fun row => ?_
  cases row with
  | none => exact looks_pure none
  | some row => exact (looks_ofExcept _).map some

theorem looks_messagesOf (owner : String) : Looks (messagesOf owner) :=
  (looks_select _).bind fun _ => .mapM fun _ => looks_ofExcept _

theorem looks_messagesIn (owner : String) (f : Folder) : Looks (messagesIn owner f) :=
  (looks_messagesOf owner).bind fun _ => looks_pure _

theorem looks_search (owner query : String) (f : Option Folder) : Looks (search owner query f) := by
  refine Looks.bind (fun db => ?_) fun rows =>
    (Looks.mapM fun _ => looks_ofExcept _).bind fun ms => ?_
  · refine (statement_ends _ _ _).mono (fun rows db' h => ⟨h.2, ?_⟩) (fun _ _ h => h.1)
    have hrows := h.1
    dsimp only at hrows
    split at hrows
    · cases hrows
    · exact ((Prod.mk.inj (Except.ok.inj hrows)).2).symm
  · cases f with
    | none => exact looks_pure _
    | some f => exact looks_pure _

theorem looks_ownLabel (id owner : String) : Looks (ownLabel id owner) := by
  refine (looks_select _).bind fun l => ?_
  cases l with
  | none => exact looks_throw _
  | some l => exact looks_pure l

theorem looks_trashedIds (owner : String) : Looks (trashedIds owner) :=
  (looks_messagesOf owner).bind fun _ => looks_pure _

theorem looks_ownMessage (id owner : String) : Looks (ownMessage id owner) := by
  refine (looks_findMessage id).bind fun found => ?_
  cases found with
  | none => exact looks_throw _
  | some m =>
    dsimp only
    split
    · exact looks_pure m
    · exact looks_throw _

/-- A call to the blacklist writes to no table but that of the addresses. -/
theorem ask_ends (hs : db.rows.Shows h) (now : Int) (c : Blacklist.Call) :
    Ends (ask now c db) (fun _ db' => db'.rows.Shows h ∧ db.Later db')
      (fun _ db' => db'.rows.Shows h ∧ db.Later db') := by
  have htable {writes : List ListingRow → List Write}
      {f : List ListingRow → Bool × List ListingRow} :
      Ends (onListings writes f db) (fun _ db' => db'.rows.Shows h ∧ db.Later db')
        (fun _ db' => db'.rows.Shows h ∧ db.Later db') := by
    refine (statement_ends _ _ _).mono (fun _ db' hok => ⟨?_, hok.2⟩)
      (fun _ db' herr => ⟨hs.idle herr.1, herr.1.toLater⟩)
    have hrows := hok.1
    split at hrows
    · cases hrows
    · obtain ⟨-, hrows⟩ := Prod.mk.inj (Except.ok.inj hrows)
      rw [← hrows]
      exact ⟨hs.messages, hs.labels⟩
  unfold ask
  cases Url.accepted c.url with
  | error e => exact .of_error ⟨hs, Later.refl db⟩
  | ok url =>
    unfold askTable
    cases c.verb with
    | lookup => exact htable
    | add => exact htable
    | remove => exact htable

theorem looks_onListings {writes : List ListingRow → List Write}
    {f : List ListingRow → α × List ListingRow} (hf : ∀ table, (f table).2 = table) :
    Looks (onListings writes f) := by
  intro db
  refine (statement_ends _ _ _).mono (fun _ db' hok => ⟨hok.2, ?_⟩) fun _ _ herr => herr.1
  have hrows := hok.1
  split at hrows
  · cases hrows
  · next table htable =>
    obtain ⟨-, hrows⟩ := Prod.mk.inj (Except.ok.inj hrows)
    rw [← hrows, hf, ← htable]

/-- Asking whether an address is listed changes nothing. -/
theorem looks_lookup (now : Int) (url : String) : Looks (ask now ⟨.lookup, url⟩) := by
  unfold ask
  cases Url.accepted url with
  | error e => exact looks_throw e
  | ok url =>
    exact looks_onListings (f := fun table => (isListed url table, table)) fun _ => rfl

theorem readRow_ends {m : Message} (hm : m.Storable) :
    Ends ((MonadExcept.ofExcept (MessageRow.ofMessage m).message : Query Message) db)
      (fun x db' => x = m ∧ db' = db) (fun _ _ => False) := by
  rw [hm.stored_message]
  exact .of_ok ⟨rfl, rfl⟩

theorem findMessage_ends (hs : db.rows.Shows h) (ho : h.Orderly) :
    Ends (findMessage id db) (fun r db' => r = h.find? id ∧ db.Idle db')
      (fun _ db' => db.Idle db' ∧ ¬ db.Sound) := by
  refine (select_ends _).bind (fun row db' hrow => ?_) (fun _ _ h => h)
  obtain ⟨rfl, hi⟩ := hrow
  rw [hs.find?]
  cases hfind : h.messages.find? (fun m => (MessageRow.ofMessage m).id == id) with
  | none => exact .of_ok ⟨hfind.symm, hi⟩
  | some m =>
    have hm : m.Storable := ho.storable m (List.mem_of_find?_eq_some hfind)
    dsimp only [Option.map_some]
    rw [hm.stored_message]
    exact .of_ok ⟨hfind.symm, hi⟩

theorem MessageRow.message_id {row : MessageRow} {m : Message} (hm : row.message = .ok m) :
    m.id = row.id := by
  unfold message at hm
  cases htags : TagSet.decode row.tags with
  | ok tags =>
    rw [htags] at hm
    obtain rfl := Except.ok.inj hm
    rfl
  | error e =>
    rw [htags] at hm
    cases hm

/-- What the first row with this id gives, if there is one. -/
def Rows.read? (rows : Rows) (id : String) : Except Failure (Option Message) :=
  (rows.messages.find? (·.id == id)).elim (.ok none) fun row => row.message.map some

theorem Rows.read?_eq_some {rows : Rows} {m : Message} : rows.read? id = .ok (some m) ↔
    ∃ row, rows.messages.find? (·.id == id) = some row ∧ row.message = .ok m := by
  unfold read?
  cases rows.messages.find? (·.id == id) with
  | none => simp
  | some row => cases hrow : row.message <;> simp [Except.map, hrow]

/-- Whatever the rows are, a message is found as its row gives it. -/
theorem findMessage_read (db : Store) (id : String) :
    Ends (findMessage id db) (fun found db' => db.rows.read? id = .ok found ∧ db.Idle db')
      (fun e db' => db.Idle db' ∧ (db.Sound → db.rows.read? id = .error e)) := by
  refine (select_ends _).bind (fun row db' hrow => ?_) fun _ _ hfail =>
    ⟨hfail.1, fun hs => absurd hs hfail.2⟩
  obtain ⟨rfl, hi⟩ := hrow
  unfold Rows.read?
  cases db.rows.messages.find? (·.id == id) with
  | none => exact .of_ok ⟨rfl, hi⟩
  | some row =>
    refine Ends.map (Ends.ofExcept (fun m hm => ⟨?_, hi⟩) fun e he => ⟨hi, fun _ => ?_⟩)
    · rw [Option.elim_some, hm]
      rfl
    · rw [Option.elim_some, he]
      rfl

theorem ownMessage_ends (hs : db.rows.Shows h) (ho : h.Orderly) :
    Ends (ownMessage id owner db)
      (fun m db' => h.find? id = some m ∧ m.ownerId = owner ∧ db.Idle db')
      (fun e db' => db.Idle db' ∧
        (db.Sound → e = noMessage id ∧ ∀ m, h.find? id = some m → m.ownerId ≠ owner)) := by
  refine (findMessage_ends hs ho).bind (fun r db' hr => ?_)
    (fun _ _ h => ⟨h.1, fun hd => absurd hd h.2⟩)
  obtain ⟨rfl, hi⟩ := hr
  cases hfind : h.find? id with
  | none => exact .of_error ⟨hi, fun _ => ⟨rfl, fun m hm => by cases hm⟩⟩
  | some m =>
    dsimp only
    split
    · next howner => exact .of_ok ⟨rfl, howner, hi⟩
    · next howner =>
      exact .of_error ⟨hi, fun _ => ⟨rfl, fun m' hm' => Option.some.inj hm' ▸ howner⟩⟩

/-- Only what is not there, or not the owner's, is reported as not found. -/
theorem ownMessage_notFound (hs : db.rows.Shows h) (ho : h.Orderly) :
    Ends (ownMessage id owner db) (fun _ _ => True)
      (fun e _ => ∀ what, e = .notFound what → ∀ m, h.find? id = some m → m.ownerId ≠ owner) := by
  have hfind : Ends (findMessage id db) (fun r _ => r = h.find? id)
      (fun e _ => ∀ what, e ≠ .notFound what) := by
    refine ((select_ends _).both (select_fails _)).bind (fun row db' hrow => ?_) (fun e _ he => ?_)
    · obtain ⟨⟨rfl, hi⟩, -⟩ := hrow
      rw [hs.find?]
      cases hx : h.messages.find? (fun m => (MessageRow.ofMessage m).id == id) with
      | none => exact .of_ok hx.symm
      | some m =>
        dsimp only [Option.map_some]
        rw [(ho.storable m (List.mem_of_find?_eq_some hx)).stored_message]
        exact .of_ok hx.symm
    · rw [he.2]
      exact fun what hwhat => by cases hwhat
  refine hfind.bind (fun r db' hr => ?_) (fun e _ he what hwhat => absurd hwhat (he what))
  subst hr
  cases hx : h.find? id with
  | none => exact .of_error fun _ _ m hm => by cases hm
  | some m =>
    dsimp only
    split
    · exact .of_ok trivial
    · next howner => exact .of_error fun _ _ m' hm' => Option.some.inj hm' ▸ howner

theorem messagesOf_ends (hs : db.rows.Shows h) (ho : h.Orderly) :
    Ends (messagesOf owner db) (fun r db' => r = h.mailbox owner ∧ db.Idle db')
      (fun _ db' => db.Idle db' ∧ ¬ db.Sound) := by
  refine (select_ends _).bind (fun rows db' hrows => ?_) (fun _ _ h => h)
  obtain ⟨rfl, hi⟩ := hrows
  rw [hs.rowsOf, List.mapM_map]
  have hread : ∀ m ∈ h.mailbox owner, ∀ db₁ : Store, db.Idle db₁ →
      Ends ((MonadExcept.ofExcept (MessageRow.ofMessage m).message : Query Message) db₁)
        (fun b db₂ => b = id m ∧ db.Idle db₂) (fun _ db₂ => db.Idle db₂ ∧ ¬ db.Sound) := by
    intro m hm db₁ hi₁
    rw [(ho.storable m (Holdings.mem_mailbox.mp hm).1).stored_message]
    exact .of_ok ⟨rfl, hi₁⟩
  refine (Ends.mapM hread hi).mono (fun r db₁ hr => ⟨?_, hr.2⟩) (fun _ _ h => h)
  rw [hr.1, List.map_id]

theorem messagesIn_ends (hs : db.rows.Shows h) (ho : h.Orderly) (f : Folder) :
    Ends (messagesIn owner f db)
      (fun r db' => r = (h.mailbox owner).filter (f.holds · owner) ∧ db.Idle db')
      (fun _ db' => db.Idle db' ∧ ¬ db.Sound) := by
  refine (messagesOf_ends hs ho).bind (fun r db' hr => ?_) (fun _ _ h => h)
  exact .of_ok ⟨by rw [hr.1], hr.2⟩

theorem findLabel_ends (hs : db.rows.Shows h) :
    Ends (findLabel owner name db) (fun r db' => r = h.findLabel? owner name ∧ db.Idle db')
      (fun _ db' => db.Idle db' ∧ ¬ db.Sound) := by
  refine (select_ends _).mono (fun r db' hr => ⟨?_, hr.2⟩) (fun _ _ h => h)
  rw [hr.1, hs.labels, Holdings.findLabel?]

theorem ownLabel_ends (hs : db.rows.Shows h) :
    Ends (ownLabel id owner db)
      (fun l db' => l ∈ h.labels ∧ l.id = id ∧ l.ownerId = owner ∧ db.Idle db')
      (fun _ db' => db.Idle db' ∧
        (db.Sound → ∀ l ∈ h.labels, ¬ (l.id = id ∧ l.ownerId = owner))) := by
  refine (select_ends _).bind (fun r db' hr => ?_) (fun _ _ h => ⟨h.1, fun hd => absurd hd h.2⟩)
  obtain ⟨rfl, hi⟩ := hr
  rw [hs.labels]
  cases hfind : h.labels.find? fun l => l.id == id && l.ownerId == owner with
  | none =>
    refine .of_error ⟨hi, fun _ l hl hown => ?_⟩
    simpa [hown.1, hown.2] using List.find?_eq_none.mp hfind l hl
  | some l =>
    have hown : l.id = id ∧ l.ownerId = owner := by simpa using List.find?_some hfind
    exact .of_ok ⟨List.mem_of_find?_eq_some hfind, hown.1, hown.2, hi⟩

theorem trashedIds_ends (hs : db.rows.Shows h) (ho : h.Orderly) :
    Ends (trashedIds owner db)
      (fun r db' =>
        r = ((h.mailbox owner).filter fun m => decide (.trash ∈ m.tags)).map Message.id ∧
          db.Idle db')
      (fun _ db' => db.Idle db' ∧ ¬ db.Sound) := by
  refine (messagesOf_ends hs ho).bind (fun r db' hr => ?_) (fun _ _ h => h)
  exact .of_ok ⟨by rw [hr.1], hr.2⟩

end LabelMail.Primary
