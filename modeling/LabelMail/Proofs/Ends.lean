import Mathlib.Data.List.Forall2
import Mathlib.Order.Defs.Unbundled

/-!
How an action ends. An action that may fail leaves a state behind in either case, so what is known
after it is a condition on value and state together with one on failure and state. The conditions of
a longer action follow from those of its steps. Where the same is to be known in either case, and of
the state alone, it is a relation between the states before and after.
-/
namespace LabelMail

variable {ε σ α β : Type}

/-- `Q` holds of value and state if the action succeeded, and `E` of failure and state if not. -/
structure Ends (r : EStateM.Result ε σ α) (Q : α → σ → Prop) (E : ε → σ → Prop) : Prop where
  ok : ∀ a s, r = .ok a s → Q a s
  error : ∀ e s, r = .error e s → E e s

namespace Ends

variable {r : EStateM.Result ε σ α} {x : EStateM ε σ α} {f : α → EStateM ε σ β} {s : σ}
variable {Q Q' : α → σ → Prop} {E F : ε → σ → Prop} {S : β → σ → Prop}

theorem of_ok {a : α} (h : Q a s) : Ends (.ok a s) Q E where
  ok _ _ hr := by cases hr; exact h
  error _ _ hr := by cases hr

theorem of_error {e : ε} (h : E e s) : Ends (.error e s : EStateM.Result ε σ α) Q E where
  ok _ _ hr := by cases hr
  error _ _ hr := by cases hr; exact h

theorem mono (h : Ends r Q E) (hq : ∀ a s, Q a s → Q' a s) (he : ∀ e s, E e s → F e s) :
    Ends r Q' F :=
  ⟨fun a s hr => hq a s (h.ok a s hr), fun e s hr => he e s (h.error e s hr)⟩

theorem both (h : Ends r Q E) (h' : Ends r Q' F) :
    Ends r (fun a s => Q a s ∧ Q' a s) (fun e s => E e s ∧ F e s) :=
  ⟨fun a s hr => ⟨h.ok a s hr, h'.ok a s hr⟩, fun e s hr => ⟨h.error e s hr, h'.error e s hr⟩⟩

/-- What follows a step is only asked for after the step has succeeded. -/
theorem bind (hx : Ends (x s) Q F) (hf : ∀ a s', Q a s' → Ends (f a s') S E)
    (he : ∀ e s', F e s' → E e s') : Ends ((x >>= f) s) S E := by
  change Ends (EStateM.bind x f s) S E
  unfold EStateM.bind
  cases hr : x s with
  | ok a s' => exact hf a s' (hx.ok a s' hr)
  | error e s' => exact .of_error (he e s' (hx.error e s' hr))

theorem map {g : α → β} (hx : Ends (x s) (fun a s' => S (g a) s') E) : Ends ((g <$> x) s) S E := by
  change Ends (EStateM.map g x s) S E
  unfold EStateM.map
  cases hr : x s with
  | ok a s' => exact .of_ok (hx.ok a s' hr)
  | error e s' => exact .of_error (hx.error e s' hr)

theorem discard {T : Unit → σ → Prop} (hx : Ends (x s) (fun _ s' => T () s') E) :
    Ends ((discard x) s) T E :=
  map hx

theorem ofExcept {v : Except ε α} (hq : ∀ a, v = .ok a → Q a s) (he : ∀ e, v = .error e → E e s) :
    Ends ((MonadExcept.ofExcept v : EStateM ε σ α) s) Q E := by
  cases v with
  | ok a => exact .of_ok (hq a rfl)
  | error e => exact .of_error (he e rfl)

/-- What follows a value that may be a failure. -/
theorem after_ofExcept {v : Except ε α} (hf : ∀ a, v = .ok a → Ends (f a s) S E)
    (he : ∀ e, E e s) : Ends ((MonadExcept.ofExcept v >>= f) s) S E := by
  cases v with
  | ok a => exact hf a rfl
  | error e => exact .of_error (he e)

/-- A loop relates its items to what its rounds return. -/
theorem mapM_forall₂ {I : σ → Prop} {R : α → β → Prop} {g : α → EStateM ε σ β} {l : List α}
    (hg : ∀ a ∈ l, ∀ s, I s → Ends (g a s) (fun b s' => R a b ∧ I s') E) (hs : I s) :
    Ends (l.mapM g s) (fun bs s' => List.Forall₂ R l bs ∧ I s') E := by
  induction l generalizing s with
  | nil => exact .of_ok ⟨.nil, hs⟩
  | cons a l ih =>
    rw [List.mapM_cons]
    refine bind (hg a List.mem_cons_self s hs) (fun b s' hb => ?_) (fun _ _ h => h)
    refine bind (ih (fun c hc => hg c (List.mem_cons_of_mem a hc)) hb.2) (fun bs s'' hbs => ?_)
      (fun _ _ h => h)
    exact .of_ok ⟨.cons hb.1 hbs.1, hbs.2⟩

/-- A loop whose rounds return what `k` says of their items returns what `k` says of all. -/
theorem mapM {I : σ → Prop} {g : α → EStateM ε σ β} {k : α → β} {l : List α}
    (hg : ∀ a ∈ l, ∀ s, I s → Ends (g a s) (fun b s' => b = k a ∧ I s') E) (hs : I s) :
    Ends (l.mapM g s) (fun bs s' => bs = l.map k ∧ I s') E := by
  refine (mapM_forall₂ hg hs).mono (fun bs s' h => ⟨?_, h.2⟩) (fun _ _ h => h)
  have heq : List.Forall₂ Eq (l.map k) bs :=
    List.forall₂_map_left_iff.mpr (h.1.imp fun _ _ hb => hb.symm)
  rw [List.forall₂_eq_eq_eq] at heq
  exact heq.symm

/-- A loop returns what its rounds return. -/
theorem mapM_all {I : σ → Prop} {P : β → Prop} {g : α → EStateM ε σ β} {l : List α}
    (hg : ∀ a ∈ l, ∀ s, I s → Ends (g a s) (fun b s' => P b ∧ I s') E) (hs : I s) :
    Ends (l.mapM g s) (fun bs s' => (∀ b ∈ bs, P b) ∧ I s') E := by
  refine (mapM_forall₂ (R := fun _ b => P b) hg hs).mono (fun bs s' h => ⟨?_, h.2⟩)
    (fun _ _ h => h)
  have hall : List.Forall₂ (fun b (_ : α) => P b ∧ True) bs l :=
    h.1.flip.imp fun _ _ hb => ⟨hb, trivial⟩
  exact ((List.forall₂_and_left bs l).mp hall).1

/-- Two actions that go on differently after the same start. -/
theorem bind_eq_map {γ : Type} {k : α → EStateM ε σ γ} {g : β → γ} (hx : Ends (x s) Q E)
    (hk : ∀ a s', Q a s' → k a s' = (g <$> f a) s') : (x >>= k) s = (g <$> (x >>= f)) s := by
  change EStateM.bind x k s = EStateM.map g (EStateM.bind x f) s
  simp only [EStateM.bind, EStateM.map]
  cases hr : x s with
  | ok a s' => exact hk a s' (hx.ok a s' hr)
  | error e s' => rfl

/-- An action that cannot have failed returns a value of which `Q` holds. -/
theorem succeeds (h : Ends r Q E) (he : ∀ e s, ¬ E e s) : ∃ a s, r = .ok a s ∧ Q a s := by
  cases hr : r with
  | ok a s => exact ⟨a, s, rfl, h.ok a s hr⟩
  | error e s => exact absurd (h.error e s hr) (he e s)

end Ends

section Running

variable {x : EStateM ε σ α} {f : α → EStateM ε σ β} {g : α → β} {a : α} {s s' : σ}

theorem bind_of_ok (hx : x s = .ok a s') : (x >>= f) s = f a s' := by
  change EStateM.bind x f s = _
  rw [EStateM.bind, hx]

theorem map_of_ok (hx : x s = .ok a s') : (g <$> x) s = .ok (g a) s' := by
  change EStateM.map g x s = _
  rw [EStateM.map, hx]

end Running

theorem ok_of_run' {x : EStateM ε σ α} {s : σ} {a : α} (hrun : x.run' s = some a) :
    ∃ s', x s = .ok a s' := by
  unfold EStateM.run' at hrun
  cases hx : x.run s with
  | ok b s' =>
    rw [hx] at hrun
    exact ⟨s', Option.some.inj hrun ▸ hx⟩
  | error e s' =>
    rw [hx] at hrun
    cases hrun

/-- However the action ends, the state that it leaves is related to the one that it found. -/
def Moves (R : σ → σ → Prop) (x : EStateM ε σ α) : Prop :=
  ∀ s, Ends (x s) (fun _ s' => R s s') fun _ s' => R s s'

namespace Moves

variable {ι : Type*} {x : EStateM ε σ α} {f : α → EStateM ε σ β} {l : List ι}
variable {R R' : σ → σ → Prop}

theorem mono (hx : Moves R x) (hR : ∀ s s', R s s' → R' s s') : Moves R' x := fun s =>
  (hx s).mono (fun _ s' => hR s s') fun _ s' => hR s s'

theorem map (hx : Moves R x) (g : α → β) : Moves R (g <$> x) := fun s =>
  Ends.map (S := fun _ s' => R s s') (hx s)

theorem discard (hx : Moves R x) : Moves R (Functor.discard x) :=
  hx.map _

theorem bind [IsTrans σ R] (hx : Moves R x) (hf : ∀ a, Moves R (f a)) : Moves R (x >>= f) := by
  intro s
  refine (hx s).bind (fun a s' h => ?_) fun _ _ h => h
  exact (hf a s').mono (fun _ _ h' => trans_of R h h') fun _ _ h' => trans_of R h h'

theorem pure [Std.Refl R] (a : α) : Moves R (pure a : EStateM ε σ α) := fun s =>
  .of_ok (refl_of R s)

theorem throw [Std.Refl R] (e : ε) : Moves R (throw e : EStateM ε σ α) := fun s =>
  .of_error (refl_of R s)

theorem ofExcept [Std.Refl R] (v : Except ε α) :
    Moves R (MonadExcept.ofExcept v : EStateM ε σ α) := fun s =>
  Ends.ofExcept (fun _ _ => refl_of R s) fun _ _ => refl_of R s

theorem mapM [IsPreorder σ R] {g : ι → EStateM ε σ α} (hg : ∀ i, Moves R (g i)) :
    Moves R (l.mapM g) := by
  induction l with
  | nil => exact .pure []
  | cons i l ih =>
    rw [List.mapM_cons]
    exact (hg i).bind fun b => ih.bind fun bs => .pure (b :: bs)

theorem forM [IsPreorder σ R] {g : ι → EStateM ε σ PUnit} (hg : ∀ i, Moves R (g i)) :
    Moves R (l.forM g) := by
  induction l with
  | nil => exact .pure PUnit.unit
  | cons i l ih => exact (hg i).bind fun _ => ih

end Moves

end LabelMail
