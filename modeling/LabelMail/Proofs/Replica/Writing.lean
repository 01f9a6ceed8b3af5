import LabelMail.Proofs.Replica.Copies
import LabelMail.Proofs.Statements

/-!
Writes to the replica. Each one fails only if the database is not sound. A write in one statement or
transaction then leaves the rows as they were, and a relinking that is interrupted spares the other
messages.
-/
namespace LabelMail.Replica

def rows (r : Replica) : Rows := r.database.rows

def Sound (r : Replica) : Prop := r.database.Sound

def Later (r r' : Replica) : Prop := r.database.Later r'.database

/-- The query succeeds with a value and rows in `Q`, or it fails with rows in `E`, which happens
only in a replica that is not sound. -/
def Leaves (r : Replica) (q : Query α) (Q : α → Rows → Prop) (E : Rows → Prop) : Prop :=
  Ends (q r) (fun a r' => Q a r'.rows ∧ r.Later r') fun _ r' => E r'.rows ∧ r.Later r' ∧ ¬ r.Sound

variable {α β : Type} {r : Replica} {q : Query α} {f : α → Query β} {Q Q' : α → Rows → Prop}
variable {E F : Rows → Prop} {S : β → Rows → Prop} {R : Rows} {m : Message} {labels : List Label}
variable {h : Holdings} {id owner : String} {ids : List String}

namespace Leaves

theorem mono (hq : Leaves r q Q E) (hQ : ∀ a R, Q a R → Q' a R) (hE : ∀ R, E R → F R) :
    Leaves r q Q' F :=
  Ends.mono hq (fun a _ h => ⟨hQ a _ h.1, h.2⟩) fun _ _ h => ⟨hE _ h.1, h.2⟩

theorem bind (hq : Leaves r q Q E) (hf : ∀ a r', Q a r'.rows → Leaves r' (f a) S E) :
    Leaves r (q >>= f) S E := by
  refine Ends.bind hq (fun a r' h => ?_) (fun _ _ h => h)
  refine Ends.mono (hf a r' h.1) (fun b r'' h' => ⟨h'.1, h.2.trans h'.2⟩) fun e r'' h' => ?_
  exact ⟨h'.1, h.2.trans h'.2.1, fun hs => h'.2.2 (hs.later h.2)⟩

theorem pure {a : α} (hQ : Q a r.rows) : Leaves r (pure a) Q E :=
  .of_ok ⟨hQ, .refl _⟩

theorem discard {T : Unit → Rows → Prop} (hq : Leaves r q (fun _ R => T () R) E) :
    Leaves r (Functor.discard q) T E :=
  Ends.discard (T := fun _ r' => T () (rows r') ∧ r.Later r') hq

/-- A query of the database that changes no row if it fails. -/
theorem onDatabase {q : Database.Query Rows Write α}
    (hq : Ends (q r.database) (fun a db => Q a db.rows ∧ r.database.Later db)
      (fun _ db => r.database.Idle db ∧ ¬ r.database.Sound)) :
    Leaves r (Replica.onDatabase q) Q (· = r.rows) := by
  unfold Leaves Replica.onDatabase
  split
  · next a db hr => exact .of_ok (hq.ok a db hr)
  · next e db hr =>
    obtain ⟨hidle, hs⟩ := hq.error e db hr
    exact .of_error ⟨hidle.rows, hidle.toLater, hs⟩

theorem statement (writes : Rows → List Write) (f : Rows → α × Rows) :
    Leaves r (Replica.onDatabase (Replica.statement writes f)) (fun a R => f r.rows = (a, R))
      (· = r.rows) :=
  onDatabase (Database.modifyRows_ends writes f)

theorem select (f : Rows → α) :
    Leaves r (Replica.select f) (fun a R => a = f r.rows ∧ R = r.rows) (· = r.rows) :=
  onDatabase ((Database.select_ends f).mono (fun _ _ h => ⟨⟨h.1, h.2.rows⟩, h.2.toLater⟩)
    fun _ _ h => h)

theorem transaction {q : Database.Query Rows Write α}
    (hq : ∀ db, db.rows = r.rows → Ends (q db) (fun a db' => Q a db'.rows ∧ db.Later db')
      (fun _ db' => db.Later db' ∧ ¬ db.Sound)) :
    Leaves r (Replica.onDatabase (Database.transaction q)) Q (· = r.rows) :=
  onDatabase (Database.transaction_ends (R := False) fun db hidle => hq db hidle.rows)

/-- The announcement of what was written. -/
theorem announce {T : Unit → Rows → Prop} (hT : T () r.rows) : Leaves r Replica.announce T E :=
  .of_ok ⟨hT, .refl _⟩

/-- A transaction whose success is announced before its result is used. -/
theorem announced_value {q : Database.Query Rows Write α} {g : α → β} {V : Rows → α → Prop}
    {T : Rows → Rows}
    (hq : ∀ db, Ends (q db) (fun a db' => (V db.rows a ∧ db'.rows = T db.rows) ∧ db.Later db')
      (fun _ db' => db.Later db' ∧ ¬ db.Sound)) :
    Leaves r (do let a ← Replica.onDatabase (Database.transaction q); Replica.announce; return g a)
      (fun b R => (∃ a, V r.rows a ∧ b = g a) ∧ R = T r.rows) (· = r.rows) := by
  refine (transaction (Q := fun a R => V r.rows a ∧ R = T r.rows) fun db hdb => ?_).bind
    fun a r' hr => ?_
  · rw [← hdb]
    exact hq db
  · exact (announce (T := fun _ R => R = T r.rows) hr.2).bind fun _ _ hr' =>
      pure ⟨⟨a, hr.1, rfl⟩, hr'⟩

theorem announced {q : Database.Query Rows Write α} {g : α → β} {T : Rows → Rows}
    (hq : ∀ db, Ends (q db) (fun _ db' => db'.rows = T db.rows ∧ db.Later db')
      (fun _ db' => db.Later db' ∧ ¬ db.Sound)) :
    Leaves r (do let a ← Replica.onDatabase (Database.transaction q); Replica.announce; return g a)
      (fun _ R => R = T r.rows) (· = r.rows) :=
  (announced_value (V := fun _ _ => True) fun db =>
    (hq db).mono (fun _ _ h => ⟨⟨trivial, h.1⟩, h.2⟩) fun _ _ h => h).mono
    (fun _ _ h => h.2) fun _ h => h

end Leaves

/-- A query that fails only in a replica that is not sound. -/
def Steady (q : Query α) : Prop :=
  ∀ r, Leaves r q (fun _ _ => True) fun _ => True

theorem steady_of_leaves {Q : Replica → α → Rows → Prop} {E : Replica → Rows → Prop}
    (hq : ∀ r, Leaves r q (Q r) (E r)) : Steady q := fun r =>
  (hq r).mono (fun _ _ _ => trivial) fun _ _ => trivial

theorem Steady.bind (hq : Steady q) (hf : ∀ a, Steady (f a)) : Steady (q >>= f) := fun r =>
  (hq r).bind fun a r' _ => hf a r'

theorem Steady.discard (hq : Steady q) : Steady (Functor.discard q) := fun r =>
  Leaves.discard (T := fun _ _ => True) (hq r)

theorem leaves_putMessage (m : Message) :
    Leaves r (putMessage m)
      (fun _ R => R = { r.rows with messages := putRow (.ofMessage m) r.rows.messages })
      (· = r.rows) :=
  (Leaves.statement _ _).bind fun _ _ hr => .announce (Prod.mk.inj hr).2.symm

theorem leaves_putLabel (l : Label) :
    Leaves r (putLabel l)
      (fun _ R => R = { r.rows with labels := putLabelRow l r.rows.labels }) (· = r.rows) :=
  (Leaves.statement _ _).bind fun _ _ hr => .announce (Prod.mk.inj hr).2.symm

theorem labelStatement_ends (l : Label) (db : Database Rows Write) :
    Ends (labelStatement l db)
      (fun _ db' => db'.rows = { db.rows with labels := putLabelRow l db.rows.labels } ∧
        db.Later db')
      (fun _ db' => db.Idle db' ∧ ¬ db.Sound) := by
  unfold labelStatement statement
  refine (Database.modifyRows_ends _ _).mono (fun _ _ h => ⟨?_, h.2⟩) fun _ _ h => h
  exact (Prod.mk.inj h.1).2.symm

theorem labelStatements_ends (labels : List Label) (db : Database Rows Write) :
    Ends (labels.forM labelStatement db)
      (fun _ db' => db'.rows = db.rows.putLabelRows labels ∧ db.Later db')
      (fun _ db' => db.Later db' ∧ ¬ db.Sound) := by
  induction labels generalizing db with
  | nil => exact .of_ok ⟨rfl, .refl db⟩
  | cons l labels ih =>
    refine (labelStatement_ends l db).bind (fun _ mid hmid => ?_) (fun _ _ h => ⟨h.1.toLater, h.2⟩)
    obtain ⟨hrows, hl⟩ := hmid
    refine (ih mid).mono (fun _ db' h => ⟨?_, hl.trans h.2⟩)
      fun _ _ h => ⟨hl.trans h.1, fun hs => h.2 (hs.later hl)⟩
    rw [h.1, hrows]
    rfl

theorem leaves_putLabels (labels : List Label) :
    Leaves r (putLabels labels) (fun _ R => R = r.rows.putLabelRows labels) (· = r.rows) := by
  unfold putLabels
  split
  · next hnone =>
    rw [List.isEmpty_iff.mp hnone]
    exact .pure rfl
  · refine Leaves.bind
      (Leaves.transaction (Q := fun _ R => R = r.rows.putLabelRows labels) fun db hdb => ?_)
      fun _ _ hr => .announce hr
    exact (labelStatements_ends labels db).mono (fun _ _ h => ⟨hdb ▸ h.1, h.2⟩) fun _ _ h => h

theorem unlink_ends (p : Link → Bool) (db : Database Rows Write) :
    Ends (unlink p db)
      (fun _ db' => db'.rows = { db.rows with links := db.rows.links.filter fun l => !p l } ∧
        db.Later db')
      (fun _ db' => db.Idle db' ∧ ¬ db.Sound) := by
  unfold unlink statement
  refine (Database.modifyRows_ends _ _).mono (fun _ _ h => ⟨?_, h.2⟩) fun _ _ h => h
  exact (Prod.mk.inj h.1).2.symm

theorem deleteRow_ends (id : String) (db : Database Rows Write) :
    Ends (deleteRow id db)
      (fun b db' => (b = db.rows.messages.any (·.id == id) ∧ db'.rows = db.rows.without id) ∧
        db.Later db')
      (fun _ db' => db.Later db' ∧ ¬ db.Sound) := by
  have hunlink : Ends ((discard (unlink (·.messageId == id)) : Database.Query Rows Write Unit) db)
      (fun _ db' => db'.rows = { db.rows with links := db.rows.links.filter (·.messageId != id) } ∧
        db.Later db')
      (fun _ db' => db.Idle db' ∧ ¬ db.Sound) := .discard (unlink_ends _ db)
  refine hunlink.bind (fun _ mid hmid => ?_) (fun _ _ h => ⟨h.1.toLater, h.2⟩)
  obtain ⟨hrows, hl⟩ := hmid
  refine (Database.modifyRows_ends _ _).mono (fun b db' h => ⟨?_, hl.trans h.2⟩)
    fun _ _ h => ⟨hl.trans h.1.toLater, fun hs => h.2 (hs.later hl)⟩
  obtain ⟨hb, hrows'⟩ := Prod.mk.inj h.1
  rw [← hb, ← hrows', hrows]
  exact ⟨rfl, rfl⟩

theorem any_without_of_ne {R : Rows} {i : String} (hne : i ≠ id) :
    (R.without id).messages.any (·.id == i) = R.messages.any (·.id == i) := by
  rw [Rows.without, List.any_filter]
  congr 1
  funext row
  by_cases hrow : row.id = i
  · simp [hrow, hne]
  · simp [hrow]

/-- Each deletion says whether there was such a message, if none is asked for twice. -/
theorem deleteRows_ends (ids : List String) (db : Database Rows Write) :
    Ends (ids.mapM deleteRow db)
      (fun bs db' => ((ids.Nodup → bs = ids.map fun id => db.rows.messages.any (·.id == id)) ∧
        db'.rows = db.rows.withoutAll ids) ∧ db.Later db')
      (fun _ db' => db.Later db' ∧ ¬ db.Sound) := by
  induction ids generalizing db with
  | nil => exact .of_ok ⟨⟨fun _ => rfl, rfl⟩, .refl db⟩
  | cons id ids ih =>
    rw [List.mapM_cons]
    refine (deleteRow_ends id db).bind (fun b mid hmid => ?_) (fun _ _ h => h)
    obtain ⟨⟨hb, hrows⟩, hl⟩ := hmid
    refine (ih mid).bind (fun bs db' h => .of_ok ⟨⟨fun hnodup => ?_, ?_⟩, hl.trans h.2⟩)
      fun _ _ h => ⟨hl.trans h.1, fun hs => h.2 (hs.later hl)⟩
    · obtain ⟨hid, hnodup⟩ := List.nodup_cons.mp hnodup
      rw [List.map_cons, hb, h.1.1 hnodup, hrows]
      refine congrArg _ (List.map_congr_left fun i hi => any_without_of_ne ?_)
      exact fun heq => hid (heq ▸ hi)
    · rw [h.1.2, hrows]
      rfl

theorem leaves_deleteMessage (id : String) :
    Leaves r (deleteMessage id) (fun _ R => R = r.rows.without id) (· = r.rows) :=
  Leaves.announced (g := fun b => b) (T := fun R => R.without id) fun db =>
    (deleteRow_ends id db).mono (fun _ _ h => ⟨h.1.2, h.2⟩) fun _ _ h => h

theorem counts_deleteMessages (ids : List String) :
    Leaves r (deleteMessages ids)
      (fun n R => (ids.Nodup → n = ids.countP fun id => r.rows.messages.any (·.id == id)) ∧
        R = r.rows.withoutAll ids)
      (· = r.rows) := by
  let V (R : Rows) (bs : List Bool) : Prop :=
    ids.Nodup → bs = ids.map fun id => R.messages.any (·.id == id)
  refine (Leaves.announced_value (V := V) (T := Rows.withoutAll ids) (deleteRows_ends ids)).mono ?_
    fun _ h => h
  rintro n R ⟨⟨bs, hbs, rfl⟩, hR⟩
  refine ⟨fun hnodup => ?_, hR⟩
  rw [hbs hnodup, List.count, List.countP_map]
  refine List.countP_congr fun id _ => ?_
  simp

theorem leaves_deleteMessages (ids : List String) :
    Leaves r (deleteMessages ids) (fun _ R => R = r.rows.withoutAll ids) (· = r.rows) :=
  (counts_deleteMessages ids).mono (fun _ _ h => h.2) fun _ h => h

theorem deleteLabelRow_ends (id : String) (db : Database Rows Write) :
    Ends ((do
        let unlinked ← unlink (·.labelId == id)
        statement (fun rows => if hasLabel rows id then [.deleteLabel id] else []) fun rows =>
          ((), { rows with labels := rows.labels.filter (·.id != id) })
        return unlinked : Database.Query Rows Write Nat) db)
      (fun _ db' => db'.rows = db.rows.withoutLabel id ∧ db.Later db')
      (fun _ db' => db.Later db' ∧ ¬ db.Sound) := by
  refine (unlink_ends _ db).bind (fun n mid hmid => ?_) (fun _ _ h => ⟨h.1.toLater, h.2⟩)
  obtain ⟨hrows, hl⟩ := hmid
  refine (Database.modifyRows_ends _ _).bind (fun _ db' h => .of_ok ⟨?_, hl.trans h.2⟩)
    fun _ _ h => ⟨hl.trans h.1.toLater, fun hs => h.2 (hs.later hl)⟩
  rw [← (Prod.mk.inj h.1).2, hrows]
  rfl

theorem leaves_deleteLabel (id : String) :
    Leaves r (deleteLabel id) (fun _ R => R = r.rows.withoutLabel id) (· = r.rows) :=
  Leaves.announced (g := fun n => n) (T := fun R => R.withoutLabel id) (deleteLabelRow_ends id)

theorem leaves_idsOf (owner : String) :
    Leaves r (idsOf owner) (fun _ R => R = r.rows) (· = r.rows) :=
  (Leaves.select _).mono (fun _ _ h => h.2) fun _ h => h

theorem steady_putLabel (l : Label) : Steady (putLabel l) :=
  steady_of_leaves fun _ => leaves_putLabel l

theorem steady_deleteLabel (id : String) : Steady (deleteLabel id) :=
  steady_of_leaves fun _ => leaves_deleteLabel id

theorem steady_deleteMessages (ids : List String) : Steady (deleteMessages ids) :=
  steady_of_leaves fun _ => leaves_deleteMessages ids

end LabelMail.Replica
