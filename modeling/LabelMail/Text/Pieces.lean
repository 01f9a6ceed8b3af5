/-!
Cutting a list at its separators. The pieces of a list are what stands before the first separator,
between two neighbours and after the last one, so there is always one piece more than there are
separators, and joining the pieces again gives the list back.
-/
namespace LabelMail.Text

def pieces (p : α → Bool) : List α → List (List α)
  | [] => [[]]
  | c :: r =>
    if p c then [] :: pieces p r
    else match pieces p r with
      | [] => [[c]]
      | w :: ws => (c :: w) :: ws

/-- What stands before the first separator, and what follows it if there is one. -/
def cutFirst (p : α → Bool) (s : List α) : List α × Option (List α) :=
  match s.dropWhile (fun c => !p c) with
  | [] => (s, none)
  | _ :: r => (s.takeWhile (fun c => !p c), some r)

/-- The list without the longest run at its end whose members satisfy `p`. -/
def dropEndWhile (p : α → Bool) (s : List α) : List α :=
  (s.reverse.dropWhile p).reverse

theorem pieces_ne_nil (p : α → Bool) (s : List α) : pieces p s ≠ [] := by
  cases s with
  | nil => simp [pieces]
  | cons c r =>
    rw [pieces]
    split
    · simp
    · split <;> simp

theorem pieces_of_none {p : α → Bool} {s : List α} (h : ∀ c ∈ s, p c = false) :
    pieces p s = [s] := by
  induction s with
  | nil => rfl
  | cons c r ih =>
    rw [pieces, ih fun d hd => h d (List.mem_cons_of_mem _ hd)]
    simp [h c]

theorem dropEndWhile_eq_self {p : α → Bool} {s : List α}
    (h : ∀ c, s.getLast? = some c → p c = false) : dropEndWhile p s = s := by
  unfold dropEndWhile
  cases hr : s.reverse with
  | nil => simpa using hr.symm
  | cons c r =>
    have hc : p c = false := h c (by rw [List.getLast?_eq_head?_reverse, hr]; rfl)
    rw [List.dropWhile_cons_of_neg (by simp [hc]), ← hr, List.reverse_reverse]

end LabelMail.Text
