import LabelMail.Database
import LabelMail.Proofs.Ends

/-!
Statements and transactions of a database that may fail. A database is sound when its plan refuses
none of the statements to come; only a sound one promises that a statement goes through. What is
refused leaves the rows as they were.
-/
namespace LabelMail.Database

variable {ρ ω α : Type}

/-- From here on the plan refuses nothing. -/
def Sound (db : Database ρ ω) : Prop :=
  ∀ n writes, db.count ≤ n → db.plan n writes = none

/-- The same database after some more statements. -/
structure Later (db db' : Database ρ ω) : Prop where
  plan : db'.plan = db.plan
  count : db.count ≤ db'.count

theorem Later.refl (db : Database ρ ω) : db.Later db := ⟨rfl, Nat.le_refl _⟩

theorem Later.trans {db db' db'' : Database ρ ω} (h : db.Later db') (h' : db'.Later db'') :
    db.Later db'' :=
  ⟨h'.plan.trans h.plan, Nat.le_trans h.count h'.count⟩

theorem Sound.later {db db' : Database ρ ω} (hs : db.Sound) (h : db.Later db') : db'.Sound := by
  intro n writes hn
  rw [h.plan]
  exact hs n writes (Nat.le_trans h.count hn)

/-- Some more statements, none of which changed a row. -/
structure Idle (db db' : Database ρ ω) : Prop extends db.Later db' where
  rows : db'.rows = db.rows

theorem Idle.refl (db : Database ρ ω) : db.Idle db := ⟨Later.refl db, rfl⟩

theorem Idle.trans {db db' db'' : Database ρ ω} (h : db.Idle db') (h' : db'.Idle db'') :
    db.Idle db'' :=
  ⟨h.toLater.trans h'.toLater, h'.rows.trans h.rows⟩

instance : IsPreorder (Database ρ ω) Idle where
  refl := Idle.refl
  trans _ _ _ := Idle.trans

variable {β : Type} {db : Database ρ ω}

/-- A statement that goes through does what `f` says; otherwise the plan or `f` refused it. -/
theorem statement_ends (onDuplicate : Failure) (writes : ρ → List ω)
    (f : ρ → Except Refusal (α × ρ)) :
    Ends (statement onDuplicate writes f db)
      (fun a db' => f db.rows = .ok (a, db'.rows) ∧ db.Later db')
      (fun _ db' => db.Idle db' ∧ (db.Sound → ∃ refusal, f db.rows = .error refusal)) := by
  have hlater (rows : ρ) : db.Later { db with rows := rows, count := db.count + 1 } :=
    ⟨rfl, Nat.le_succ _⟩
  unfold statement
  split
  · next refusal hplan =>
    refine .of_error ⟨⟨hlater db.rows, rfl⟩, fun hs => ?_⟩
    rw [hs db.count _ (Nat.le_refl _)] at hplan
    cases hplan
  · split
    · next a rows hf => exact .of_ok ⟨hf, hlater rows⟩
    · next refusal hf => exact .of_error ⟨⟨hlater db.rows, rfl⟩, fun _ => ⟨refusal, hf⟩⟩

theorem modifyRows_ends (writes : ρ → List ω) (f : ρ → α × ρ) :
    Ends (modifyRows writes f db) (fun a db' => f db.rows = (a, db'.rows) ∧ db.Later db')
      (fun _ db' => db.Idle db' ∧ ¬ db.Sound) := by
  refine (statement_ends _ writes _).mono ?_ ?_
  · rintro a db' ⟨hf, hl⟩
    exact ⟨Except.ok.inj hf, hl⟩
  · rintro e db' ⟨hi, hs⟩
    refine ⟨hi, fun h => ?_⟩
    obtain ⟨refusal, hf⟩ := hs h
    cases hf

theorem select_ends (f : ρ → α) :
    Ends (select f db) (fun a db' => a = f db.rows ∧ db.Idle db')
      (fun _ db' => db.Idle db' ∧ ¬ db.Sound) := by
  refine (statement_ends _ (fun _ => []) _).mono ?_ ?_
  · rintro a db' ⟨hf, hl⟩
    obtain ⟨rfl, hrows⟩ := Prod.mk.inj (Except.ok.inj hf)
    exact ⟨rfl, hl, hrows.symm⟩
  · rintro e db' ⟨hi, hs⟩
    refine ⟨hi, fun h => ?_⟩
    obtain ⟨refusal, hf⟩ := hs h
    cases hf

theorem select_fails (f : ρ → α) :
    Ends (select f db) (fun _ _ => True) (fun e _ => e = .database "") := by
  unfold select statement
  split
  · next refusal _ => cases refusal <;> exact .of_error rfl
  · exact .of_ok trivial

/-- A statement that reads, with what is made of the rows without another one. -/
theorem select_bind {f : ρ → α} {k : α → Query ρ ω β} {b : β} (hk : k (f db.rows) = pure b) :
    (select f >>= k) db = select (fun _ => b) db := by
  change EStateM.bind (select f) k db = _
  unfold EStateM.bind select statement
  cases db.plan db.count [] with
  | none => exact congrFun hk _
  | some refusal => rfl

theorem bind_congr {q q' : Query ρ ω α} {k : α → Query ρ ω β} (h : q db = q' db) :
    (q >>= k) db = (q' >>= k) db := by
  change EStateM.bind q k db = EStateM.bind q' k db
  unfold EStateM.bind
  rw [h]

theorem map_of_select {q : Query ρ ω α} {a : α} {g : α → β} (h : q db = select (fun _ => a) db) :
    (g <$> q) db = select (fun _ => g a) db := by
  change EStateM.map g q db = _
  unfold EStateM.map
  rw [h]
  unfold select statement
  cases db.plan db.count [] <;> rfl

/-- A transaction does all that its query does or nothing. On a sound database it only fails for a
reason `R` of the query itself. -/
theorem transaction_ends {q : Query ρ ω α} {Q : α → ρ → Prop} {R : Prop}
    (hq : ∀ db₁, db.Idle db₁ → Ends (q db₁) (fun a db' => Q a db'.rows ∧ db₁.Later db')
      (fun _ db' => db₁.Later db' ∧ (db₁.Sound → R))) :
    Ends (transaction q db) (fun a db' => Q a db'.rows ∧ db.Later db')
      (fun _ db' => db.Idle db' ∧ (db.Sound → R)) := by
  have hinner : Ends ((do boundary; let a ← q; boundary; return a : Query ρ ω α) db)
      (fun a db' => Q a db'.rows ∧ db.Later db')
      (fun _ db' => db.Later db' ∧ (db.Sound → R)) := by
    refine (select_ends _).bind (fun _ db₁ h₁ => ?_)
      (fun _ _ h => ⟨h.1.toLater, fun hs => absurd hs h.2⟩)
    refine (hq db₁ h₁.2).bind (fun a db₂ h₂ => ?_)
      (fun _ _ h => ⟨h₁.2.toLater.trans h.1, fun hs => h.2 (hs.later h₁.2.toLater)⟩)
    have h₁₂ : db.Later db₂ := h₁.2.toLater.trans h₂.2
    refine (select_ends _).bind (fun _ db₃ h₃ => ?_)
      (fun _ _ h => ⟨h₁₂.trans h.1.toLater, fun hs => absurd (hs.later h₁₂) h.2⟩)
    exact .of_ok ⟨by rw [h₃.2.rows]; exact h₂.1, h₁₂.trans h₃.2.toLater⟩
  unfold transaction rollback
  split
  · next a db' hr =>
    exact .of_ok (hinner.ok a db' hr)
  · next e db' hr =>
    obtain ⟨hl, hs⟩ := hinner.error e db' hr
    exact .of_error ⟨⟨⟨hl.plan, hl.count⟩, rfl⟩, hs⟩

end LabelMail.Database
