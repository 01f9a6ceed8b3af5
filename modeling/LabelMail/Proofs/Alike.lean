import LabelMail.Proofs.Ends

/-!
How two actions end that start in two states. They end alike when both succeed or both fail for the
same reason, with values and states that are related. What relates the ends of longer actions
follows from what relates those of their steps.
-/
namespace LabelMail

variable {ε σ τ α β γ δ : Type}

/-- `Q` relates values and states if both succeeded, and `E` the states if both failed. -/
inductive Alike (Q : α → σ → β → τ → Prop) (E : σ → τ → Prop) :
    EStateM.Result ε σ α → EStateM.Result ε τ β → Prop
  | ok {a : α} {s : σ} {b : β} {t : τ} (h : Q a s b t) : Alike Q E (.ok a s) (.ok b t)
  | error {e : ε} {s : σ} {t : τ} (h : E s t) : Alike Q E (.error e s) (.error e t)

namespace Alike

variable {r : EStateM.Result ε σ α} {r' : EStateM.Result ε τ β}
variable {x : EStateM ε σ α} {y : EStateM ε τ β} {f : α → EStateM ε σ γ} {g : β → EStateM ε τ δ}
variable {s : σ} {t : τ} {Q Q' : α → σ → β → τ → Prop} {S : γ → σ → δ → τ → Prop}
variable {E E' : σ → τ → Prop}

theorem mono (h : Alike Q E r r') (hq : ∀ a s b t, Q a s b t → Q' a s b t)
    (he : ∀ s t, E s t → E' s t) : Alike Q' E' r r' := by
  cases h with
  | ok h => exact .ok (hq _ _ _ _ h)
  | error h => exact .error (he _ _ h)

/-- What is known of each of the two ends is known of both. -/
theorem both {P : α → σ → Prop} {F : ε → σ → Prop} {P' : β → τ → Prop} {F' : ε → τ → Prop}
    (h : Alike Q E r r') (hr : Ends r P F) (hr' : Ends r' P' F') :
    Alike (fun a s b t => Q a s b t ∧ P a s ∧ P' b t)
      (fun s t => E s t ∧ ∃ e, F e s ∧ F' e t) r r' := by
  cases h with
  | ok h => exact .ok ⟨h, hr.ok _ _ rfl, hr'.ok _ _ rfl⟩
  | error h => exact .error ⟨h, _, hr.error _ _ rfl, hr'.error _ _ rfl⟩

/-- How two actions end is known from each of them if they never end in different ways. -/
theorem of_specs {P : α → σ → Prop} {F : ε → σ → Prop} {P' : β → τ → Prop} {F' : ε → τ → Prop}
    (hr : Ends r P F) (hr' : Ends r' P' F') (hok : ∀ a s b t, P a s → P' b t → Q a s b t)
    (herror : ∀ e s e' t, F e s → F' e' t → e = e' ∧ E s t)
    (hleft : ∀ a s e t, P a s → ¬ F' e t) (hright : ∀ e s b t, F e s → ¬ P' b t) :
    Alike Q E r r' := by
  cases r with
  | ok a s =>
    have hP : P a s := hr.ok a s rfl
    cases r' with
    | ok b t => exact .ok (hok a s b t hP (hr'.ok b t rfl))
    | error e t => exact absurd (hr'.error e t rfl) (hleft a s e t hP)
  | error e s =>
    have hF : F e s := hr.error e s rfl
    cases r' with
    | ok b t => exact absurd (hr'.ok b t rfl) (hright e s b t hF)
    | error e' t =>
      obtain ⟨rfl, h⟩ := herror e s e' t hF (hr'.error e' t rfl)
      exact .error h

/-- Two actions that both succeed end alike. -/
theorem of_ends {P : α → σ → Prop} {P' : β → τ → Prop} (hr : Ends r P fun _ _ => False)
    (hr' : Ends r' P' fun _ _ => False) (h : ∀ a s b t, P a s → P' b t → Q a s b t) :
    Alike Q E r r' :=
  .of_specs hr hr' h (fun _ _ _ _ he => he.elim) (fun _ _ _ _ _ he => he) fun _ _ _ _ he => he.elim

theorem bind (hx : Alike Q E (x s) (y t))
    (hf : ∀ a s b t, Q a s b t → Alike S E' (f a s) (g b t)) (he : ∀ s t, E s t → E' s t) :
    Alike S E' ((x >>= f) s) ((y >>= g) t) := by
  change Alike S E' (EStateM.bind x f s) (EStateM.bind y g t)
  unfold EStateM.bind
  generalize x s = r at hx
  generalize y t = r' at hx
  cases hx with
  | ok h => exact hf _ _ _ _ h
  | error h => exact .error (he _ _ h)

theorem map {p : α → γ} {q : β → δ}
    (hx : Alike (fun a s b t => S (p a) s (q b) t) E (x s) (y t)) :
    Alike S E ((p <$> x) s) ((q <$> y) t) := by
  change Alike S E (EStateM.map p x s) (EStateM.map q y t)
  unfold EStateM.map
  generalize x s = r at hx
  generalize y t = r' at hx
  cases hx with
  | ok h => exact .ok h
  | error h => exact .error h

end Alike

/-- The action returns the same from both states, and `R` relates the states it leaves behind. -/
def Same (R : σ → τ → Prop) (x : EStateM ε σ α) (y : EStateM ε τ α) (s : σ) (t : τ) : Prop :=
  Alike (fun a s b t => a = b ∧ R s t) R (x s) (y t)

namespace Same

variable {x : EStateM ε σ α} {y : EStateM ε τ α} {f : α → EStateM ε σ β} {g : α → EStateM ε τ β}
variable {s : σ} {t : τ} {R S : σ → τ → Prop}

theorem pure (a : α) (h : R s t) : Same R (Pure.pure a : EStateM ε σ α) (Pure.pure a) s t :=
  Alike.ok ⟨rfl, h⟩

theorem throw (e : ε) (h : R s t) :
    Same R (MonadExcept.throw e : EStateM ε σ α) (MonadExcept.throw e) s t :=
  Alike.error h

theorem ofExcept (v : Except ε α) (h : R s t) :
    Same R (MonadExcept.ofExcept v : EStateM ε σ α) (MonadExcept.ofExcept v) s t := by
  cases v with
  | ok a => exact .pure a h
  | error e => exact .throw e h

theorem mono (h : Same R x y s t) (hr : ∀ s t, R s t → S s t) : Same S x y s t :=
  Alike.mono h (fun _ s _ t h => ⟨h.1, hr s t h.2⟩) hr

theorem bind (hx : Same R x y s t) (hf : ∀ a s t, R s t → Same S (f a) (g a) s t)
    (he : ∀ s t, R s t → S s t) : Same S (x >>= f) (y >>= g) s t := by
  refine Alike.bind hx (fun a s b t h => ?_) he
  obtain ⟨rfl, h⟩ := h
  exact hf a s t h

theorem map (hx : Same R x y s t) (p : α → β) : Same R (p <$> x) (p <$> y) s t :=
  Alike.map (Alike.mono hx (fun _ _ _ _ h => ⟨congrArg p h.1, h.2⟩) fun _ _ h => h)

theorem discard (hx : Same R x y s t) :
    Same R (Functor.discard x : EStateM ε σ PUnit) (Functor.discard y) s t :=
  hx.map _

theorem mapM {f : α → EStateM ε σ β} {g : α → EStateM ε τ β}
    (hf : ∀ a s t, R s t → Same R (f a) (g a) s t) (l : List α) (h : R s t) :
    Same R (l.mapM f) (l.mapM g) s t := by
  induction l generalizing s t with
  | nil => exact .pure [] h
  | cons a l ih =>
    rw [List.mapM_cons, List.mapM_cons]
    exact (hf a s t h).bind (fun b _ _ h => (ih h).bind (fun bs _ _ h => .pure (b :: bs) h)
      fun _ _ h => h) fun _ _ h => h

theorem forM {f : α → EStateM ε σ PUnit} {g : α → EStateM ε τ PUnit}
    (hf : ∀ a s t, R s t → Same R (f a) (g a) s t) (l : List α) (h : R s t) :
    Same R (l.forM f) (l.forM g) s t := by
  induction l generalizing s t with
  | nil => exact .pure _ h
  | cons a l ih => exact (hf a s t h).bind (fun _ _ _ h => ih h) fun _ _ h => h

end Same

end LabelMail
