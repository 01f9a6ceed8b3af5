import LabelMail.Proofs.Alike
import LabelMail.Proofs.Statements

/-!
Statements and transactions of two sound databases. Neither plan refuses anything, so that how a
statement ends depends on the rows alone, and what it makes of related rows may be related again.
-/
namespace LabelMail.Database

variable {ρ ω α : Type} {R S : ρ → ρ → Prop} {db db' : Database ρ ω}

/-- Neither database refuses anything from here on, and `R` relates their rows. -/
structure Paired (R : ρ → ρ → Prop) (db db' : Database ρ ω) : Prop where
  sound : db.Sound
  sound' : db'.Sound
  rows : R db.rows db'.rows

namespace Paired

theorem mono (h : Paired R db db') (hle : ∀ rows rows', R rows rows' → S rows rows') :
    Paired S db db' :=
  ⟨h.sound, h.sound', hle _ _ h.rows⟩

theorem idle {db₁ db₁' : Database ρ ω} (h : Paired R db db') (hi : db.Idle db₁)
    (hi' : db'.Idle db₁') : Paired R db₁ db₁' where
  sound := h.sound.later hi.toLater
  sound' := h.sound'.later hi'.toLater
  rows := by
    rw [hi.rows, hi'.rows]
    exact h.rows

/-- A statement that both refuse for one reason or that both make for one value. -/
theorem statement {onDuplicate : Failure} {writes : ρ → List ω}
    {f : ρ → Except Refusal (α × ρ)} (h : Paired R db db')
    (hf : (∃ refusal, f db.rows = .error refusal ∧ f db'.rows = .error refusal ∧
        S db.rows db'.rows) ∨
      ∃ a rows rows', f db.rows = .ok (a, rows) ∧ f db'.rows = .ok (a, rows') ∧ S rows rows') :
    Same (Paired S) (Database.statement onDuplicate writes f)
      (Database.statement onDuplicate writes f) db db' := by
  have hplan : db.plan db.count (writes db.rows) = none := h.sound _ _ (Nat.le_refl _)
  have hplan' : db'.plan db'.count (writes db'.rows) = none := h.sound' _ _ (Nat.le_refl _)
  have hsound (rows : ρ) : Sound { db with rows := rows, count := db.count + 1 } :=
    h.sound.later ⟨rfl, Nat.le_succ _⟩
  have hsound' (rows : ρ) : Sound { db' with rows := rows, count := db'.count + 1 } :=
    h.sound'.later ⟨rfl, Nat.le_succ _⟩
  unfold Same Database.statement
  rcases hf with ⟨refusal, he, he', hS⟩ | ⟨a, rows, rows', hok, hok', hS⟩
  · simp only [hplan, hplan', he, he']
    exact .error ⟨hsound db.rows, hsound' db'.rows, hS⟩
  · simp only [hplan, hplan', hok, hok']
    exact .ok ⟨rfl, hsound rows, hsound' rows', hS⟩

theorem select {f : ρ → α} (h : Paired R db db') (hf : f db.rows = f db'.rows) :
    Same (Paired R) (Database.select f) (Database.select f) db db' :=
  h.statement (.inr ⟨_, _, _, rfl, by rw [hf], h.rows⟩)

/-- Writes that may return different values. -/
theorem modifyRows {writes : ρ → List ω} {f : ρ → α × ρ} (h : Paired R db db')
    (hf : S (f db.rows).2 (f db'.rows).2) :
    Alike (fun a s b t => (a = (f db.rows).1 ∧ b = (f db'.rows).1) ∧ Paired S s t) (Paired S)
      (Database.modifyRows writes f db) (Database.modifyRows writes f db') := by
  refine .of_ends ((modifyRows_ends writes f).mono (fun _ _ h => h) fun _ _ he => he.2 h.sound)
    ((modifyRows_ends writes f).mono (fun _ _ h => h) fun _ _ he => he.2 h.sound')
    fun a s b t hs ht => ?_
  obtain ⟨hrows, hl⟩ := hs
  obtain ⟨hrows', hl'⟩ := ht
  rw [hrows, hrows'] at hf ⊢
  exact ⟨⟨rfl, rfl⟩, h.sound.later hl, h.sound'.later hl', hf⟩

/-- Both transactions do all of what their query does, or both do nothing. -/
theorem transaction {q : Query ρ ω α} (h : Paired R db db')
    (hq : ∀ s t, db.Idle s → db'.Idle t → Same (Paired R) q q s t) :
    Same (Paired R) (Database.transaction q) (Database.transaction q) db db' := by
  let T (s t : Database ρ ω) : Prop := db.Idle s ∧ db'.Idle t
  have hbegin : Same T boundary boundary db db' :=
    .of_ends ((select_ends _).mono (fun _ _ h => h) fun _ _ he => he.2 h.sound)
      ((select_ends _).mono (fun _ _ h => h) fun _ _ he => he.2 h.sound')
      fun _ _ _ _ hs ht => ⟨rfl, hs.2, ht.2⟩
  have hbody : Same (Paired R) (do boundary; let a ← q; boundary; return a : Query ρ ω α)
      (do boundary; let a ← q; boundary; return a) db db' := by
    refine hbegin.bind (fun _ s t hst => ?_) fun s t hst => ?_
    · refine (hq s t hst.1 hst.2).bind (fun a s t hst => ?_) fun _ _ h => h
      exact (hst.select rfl).bind (fun _ s t hst => .pure a hst) fun _ _ h => h
    · exact h.idle hst.1 hst.2
  unfold Same at hbody
  unfold Same Database.transaction
  generalize (do boundary; let a ← q; boundary; return a : Query ρ ω α) db = r at hbody
  generalize (do boundary; let a ← q; boundary; return a : Query ρ ω α) db' = r' at hbody
  cases hbody with
  | ok h => exact .ok h
  | error hst => exact .error ⟨hst.sound, hst.sound', h.rows⟩

end Paired

end LabelMail.Database
