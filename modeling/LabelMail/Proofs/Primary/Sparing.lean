import LabelMail.Primary.Labels
import LabelMail.Proofs.Primary.Reading

/-!
What the queries for messages and labels spare: the directory of users and the table of the
blacklist, whether a query goes through or is refused.
-/
namespace LabelMail.Primary

open Database

variable {α β : Type}

/-- The tables of the users and of the blacklist are as they were. -/
structure SparedTables (db db' : Store) : Prop extends db.Later db' where
  users : db'.rows.users = db.rows.users
  blacklist : db'.rows.blacklist = db.rows.blacklist

theorem SparedTables.trans {db db' db'' : Store} (h : SparedTables db db')
    (h' : SparedTables db' db'') : SparedTables db db'' :=
  ⟨h.toLater.trans h'.toLater, h'.users.trans h.users, h'.blacklist.trans h.blacklist⟩

instance : IsPreorder Store SparedTables where
  refl db := ⟨.refl db, rfl, rfl⟩
  trans _ _ _ := SparedTables.trans

theorem spared_of_idle {db db' : Store} (h : db.Idle db') : SparedTables db db' :=
  ⟨h.toLater, congrArg Rows.users h.rows, congrArg Rows.blacklist h.rows⟩

/-- A query that leaves the users and the blacklist as they are. -/
def Sparing (q : Query α) : Prop :=
  Moves SparedTables q

theorem Looks.sparing {q : Query α} (hq : Looks q) : Sparing q :=
  Moves.mono hq fun _ _ => spared_of_idle

theorem sparing_statement {onDuplicate : Failure} {writes : Rows → List Write}
    {f : Rows → Except Refusal (α × Rows)}
    (hf : ∀ rows a rows', f rows = .ok (a, rows') →
      rows'.users = rows.users ∧ rows'.blacklist = rows.blacklist) :
    Sparing (statement onDuplicate writes f) := fun db => by
  refine (statement_ends _ _ _).mono (fun a db' hok => ?_) fun _ _ herr => spared_of_idle herr.1
  obtain ⟨husers, hblacklist⟩ := hf db.rows a db'.rows hok.1
  exact ⟨hok.2, husers, hblacklist⟩

theorem sparing_modifyRows {writes : Rows → List Write} {f : Rows → α × Rows}
    (hf : ∀ rows, (f rows).2.users = rows.users ∧ (f rows).2.blacklist = rows.blacklist) :
    Sparing (modifyRows writes f) := by
  refine sparing_statement fun rows a rows' h => ?_
  have hrows : (f rows).2 = rows' := congrArg Prod.snd (Except.ok.inj h)
  rw [← hrows]
  exact hf rows

theorem Sparing.transaction {q : Query α} (hq : Sparing q) : Sparing (transaction q) := fun db => by
  let Q (_ : α) (rows : Rows) : Prop :=
    rows.users = db.rows.users ∧ rows.blacklist = db.rows.blacklist
  refine (transaction_ends (Q := Q) (R := True) fun db₁ hi => ?_).mono
    (fun _ _ h => ⟨h.2, h.1.1, h.1.2⟩) fun _ _ h => spared_of_idle h.1
  have hfirst : SparedTables db db₁ := spared_of_idle hi
  refine (hq db₁).mono (fun _ _ h => ⟨?_, h.toLater⟩) fun _ _ h => ⟨h.toLater, fun _ => trivial⟩
  exact ⟨(hfirst.trans h).users, (hfirst.trans h).blacklist⟩

theorem sparing_insertMessage (m : Message) : Sparing (insertMessage m) := by
  refine sparing_statement fun rows a rows' h => ?_
  split at h
  · cases h
  · rw [← (Prod.mk.inj (Except.ok.inj h)).2]
    exact ⟨rfl, rfl⟩

theorem sparing_insertPair (m m' : Message) : Sparing (insertPair m m') :=
  Sparing.transaction ((sparing_insertMessage m).bind fun _ => sparing_insertMessage m')

theorem sparing_changeRow (id : String) (f : MessageRow → MessageRow) : Sparing (changeRow id f) :=
  sparing_modifyRows fun _ => ⟨rfl, rfl⟩

theorem sparing_saveTags (m : Message) : Sparing (saveTags m) := (sparing_changeRow _ _).discard

theorem sparing_saveAllTags (ms : List Message) : Sparing (saveAllTags ms) :=
  Sparing.transaction (.forM sparing_saveTags)

theorem sparing_saveContent (m : Message) : Sparing (saveContent m) := by
  refine (sparing_changeRow _ _).bind fun changed => ?_
  split
  · exact .throw _
  · exact .pure ()

theorem sparing_deleteOwn (id owner : String) : Sparing (deleteOwn id owner) := by
  refine (sparing_modifyRows fun _ => ⟨rfl, rfl⟩).bind fun deleted => ?_
  split
  · exact .throw _
  · exact .pure ()

theorem sparing_deleteIfTrashed (owner id : String) : Sparing (deleteIfTrashed owner id) := by
  refine (looks_select _).sparing.bind fun row => ?_
  cases row with
  | none => exact .pure none
  | some row =>
    refine (looks_ofExcept _).sparing.bind fun m => ?_
    split
    · exact (sparing_modifyRows fun _ => ⟨rfl, rfl⟩).bind fun _ => .pure _
    · exact .pure none

theorem sparing_deleteTrashed (owner : String) (ids : List String) :
    Sparing (deleteTrashed owner ids) :=
  Sparing.transaction ((Moves.mapM (sparing_deleteIfTrashed owner)).bind fun _ => .pure _)

theorem sparing_insertLabel (l : Label) : Sparing (insertLabel l) := by
  refine sparing_statement fun rows a rows' h => ?_
  split at h
  · cases h
  · rw [← (Prod.mk.inj (Except.ok.inj h)).2]
    exact ⟨rfl, rfl⟩

theorem sparing_updateLabel (id name : String) : Sparing (updateLabel id name) := by
  refine sparing_statement fun rows a rows' h => ?_
  dsimp only at h
  split at h
  · cases h
  · rw [← (Prod.mk.inj (Except.ok.inj h)).2]
    exact ⟨rfl, rfl⟩

theorem sparing_renameLabel (id owner text : String) : Sparing (renameLabel id owner text) := by
  refine (looks_ofExcept _).sparing.bind fun name => ?_
  refine (looks_ownLabel id owner).sparing.bind fun l => ?_
  refine (looks_select _).sparing.bind fun found => ?_
  have hrest : Sparing (do
      let retagged := withoutTag (.custom l.name) (·.insert (.custom name)) (← messagesOf owner)
      Database.transaction do
        updateLabel id name
        retagged.forM saveTags
      return ({ l with name := name }, retagged) : Query (Label × List Message)) := by
    refine (looks_messagesOf owner).sparing.bind fun ms => ?_
    refine Moves.bind (Sparing.transaction ?_) fun _ => .pure _
    exact (sparing_updateLabel id name).bind fun _ => .forM sparing_saveTags
  cases found with
  | none => exact hrest
  | some other =>
    dsimp only
    split
    · exact (Moves.throw _).bind fun _ => hrest
    · exact hrest

theorem sparing_deleteLabel (id owner : String) : Sparing (deleteLabel id owner) := by
  refine (looks_ownLabel id owner).sparing.bind fun l => ?_
  refine (looks_messagesOf owner).sparing.bind fun ms => ?_
  refine Moves.bind (Sparing.transaction ?_) fun _ => .pure _
  exact (Moves.forM sparing_saveTags).bind fun _ => sparing_modifyRows fun _ => ⟨rfl, rfl⟩

end LabelMail.Primary
