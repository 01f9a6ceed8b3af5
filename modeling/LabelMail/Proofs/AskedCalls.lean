import LabelMail.Blacklist.Simulated
import LabelMail.Proofs.HonestService

/-!
Calls as they went. A caller waits for a reply no longer than it has time for, and a call has gone
through when an answer was there by then. A blacklist that heeds the call has the addresses
afterwards that the answer speaks of; after a call that failed or was given up, it has the addresses
that it had before. The trial blacklist and the table of the primary store heed their calls.
-/
namespace LabelMail

namespace Blacklist

variable {τ : Type} {url u : String}

/-- What somebody has of a reply who waits for it this long. -/
def Reply.within (reply : Reply) (left : Nat) : Option (Except Failure Bool) :=
  if reply.delay.any (· ≤ left) then some reply.answer else none

theorem Reply.within_delay {reply : Reply} {left d : Nat} (hd : reply.delay = some d) :
    reply.within left = if left < d then none else some reply.answer := by
  by_cases h : left < d
  · simp [within, hd, h]
  · simp [within, hd, h, Nat.le_of_not_lt h]

theorem Reply.within_never {reply : Reply} {left : Nat} (hd : reply.delay = none) :
    reply.within left = none := by
  simp [within, hd]

/-- A call that was made: the time left for it, and the state that it found. -/
structure Asked (τ : Type) where
  call : Call
  left : Nat
  state : τ

namespace Asked

variable {ask : Oracle τ} {listed : τ → List String} {a : Asked τ}

def reply (ask : Oracle τ) (a : Asked τ) : Reply := (ask a.call a.state).1

def after (ask : Oracle τ) (a : Asked τ) : τ := (ask a.call a.state).2

/-- The answer that came in time, if one did. -/
def result (ask : Oracle τ) (a : Asked τ) : Option (Except Failure Bool) :=
  (a.reply ask).within a.left

/-- The milliseconds until the answer was there. -/
def wait (ask : Oracle τ) (a : Asked τ) : Nat := (a.reply ask).delay.getD 0

/-- The call got its yes or no. -/
def Through (ask : Oracle τ) (a : Asked τ) : Prop := ∃ b, a.result ask = some (.ok b)

/-- The blacklist does what it answers to the call, and nothing without an answer. -/
structure Heeded (ask : Oracle τ) (listed : τ → List String) (a : Asked τ) : Prop where
  answer : ∀ b, a.result ask = some (.ok b) → b = (answered a.call (listed a.state)).1
  done : a.Through ask → ∀ u, u ∈ listed (a.after ask) ↔ u ∈ (answered a.call (listed a.state)).2
  spared : ¬ a.Through ask → ∀ u, u ∈ listed (a.after ask) ↔ u ∈ listed a.state

/-- A call that is answered at once is answered in time. -/
theorem result_atOnce {v : Except Failure Bool} (hdelay : (a.reply ask).delay = some 0)
    (hanswer : (a.reply ask).answer = v) : a.result ask = some v := by
  rw [result, Reply.within_delay hdelay, if_neg (Nat.not_lt_zero _), hanswer]

theorem not_through_of_error {e : Failure} (h : a.result ask = some (.error e)) :
    ¬ a.Through ask := by
  rintro ⟨b, hb⟩
  rw [h] at hb
  cases hb

theorem not_through_of_none (h : a.result ask = none) : ¬ a.Through ask := by
  rintro ⟨b, hb⟩
  rw [h] at hb
  cases hb

/-- A call that does not go through is heeded if it changes nothing. -/
theorem heeded_of_not_through (h : ¬ a.Through ask)
    (hsame : listed (a.after ask) = listed a.state) : a.Heeded ask listed where
  answer b hb := absurd ⟨b, hb⟩ h
  done hthrough := absurd hthrough h
  spared _ u := by rw [hsame]

/-- A call that goes through is heeded if its answer and what it does agree. -/
theorem heeded_of_answered
    (hanswer : a.result ask = some (.ok (answered a.call (listed a.state)).1))
    (hafter : listed (a.after ask) = (answered a.call (listed a.state)).2) :
    a.Heeded ask listed where
  answer b hb := by
    rw [hanswer] at hb
    exact (Except.ok.inj (Option.some.inj hb)).symm
  done _ u := by rw [hafter]
  spared h := absurd ⟨_, hanswer⟩ h

end Asked

theorem mem_answered_add {urls : List String} :
    u ∈ (answered ⟨.add, url⟩ urls).2 ↔ u ∈ urls ∨ u = url := by
  by_cases hurl : url ∈ urls
  · have hmem : u = url → u ∈ urls := fun h => h ▸ hurl
    simpa [answered, hurl] using hmem
  · simp [answered, hurl]

theorem mem_answered_remove {urls : List String} :
    u ∈ (answered ⟨.remove, url⟩ urls).2 ↔ u ∈ urls ∧ u ≠ url := by
  simp [answered]

namespace Simulated

theorem perform_answered (s : Simulated) (c : Call) :
    (s.perform c).1 = (answered c s.urls).1 ∧ (s.perform c).2.urls = (answered c s.urls).2 := by
  obtain ⟨verb, url⟩ := c
  cases verb with
  | lookup => exact ⟨rfl, rfl⟩
  | add => by_cases hurl : url ∈ s.urls <;> simp [perform, answered, hurl]
  | remove => exact ⟨rfl, rfl⟩

/-- A call finds the blacklist out of order, and then nothing happens, or it is performed. -/
theorem ask_cases (c : Call) (s : Simulated) :
    ((ask c s).2.urls = s.urls ∧
      ((ask c s).1.delay = none ∨
        (ask c s).1.delay = some 0 ∧ ∃ e, (ask c s).1.answer = .error e)) ∨
    ((ask c s).2.urls = (answered c s.urls).2 ∧ (ask c s).1.delay = some 0 ∧
      (ask c s).1.answer = .ok (answered c s.urls).1) := by
  unfold ask
  dsimp only
  split
  · exact .inl ⟨rfl, .inl rfl⟩
  · split
    · exact .inl ⟨rfl, .inr ⟨rfl, _, rfl⟩⟩
    · split
      · exact .inl ⟨rfl, .inr ⟨rfl, _, rfl⟩⟩
      · obtain ⟨hanswer, hurls⟩ := perform_answered { s with calls := s.calls ++ [c] } c
        exact .inr ⟨hurls, rfl, congrArg Except.ok hanswer⟩

/-- Whatever of the trial blacklist is out of order, it heeds every call. -/
theorem heeds (a : Asked Simulated) : a.Heeded ask urls := by
  obtain ⟨hurls, hnever | ⟨hdelay, e, herror⟩⟩ | ⟨hurls, hdelay, hanswer⟩ :=
    ask_cases a.call a.state
  · exact Asked.heeded_of_not_through (Asked.not_through_of_none (Reply.within_never hnever)) hurls
  · exact Asked.heeded_of_not_through
      (Asked.not_through_of_error (Asked.result_atOnce hdelay herror)) hurls
  · exact Asked.heeded_of_answered (Asked.result_atOnce hdelay hanswer) hurls

end Simulated

end Blacklist

namespace Primary

open Blacklist

/-- The addresses in the table of the store. -/
def listedUrls (db : Store) : List String :=
  (db.rows.blacklist.getD []).map ListingRow.url

/-- Whether its statements are refused or not, the store heeds the calls for addresses in order. -/
theorem asOracle_heeds {now : Int} {a : Asked Store}
    (h : Url.accepted a.call.url = .ok a.call.url) : a.Heeded (asOracle now) listedUrls := by
  obtain ⟨c, left, db⟩ := a
  replace h : Url.accepted c.url = .ok c.url := h
  have hends : Ends (ask now c db) _ _ := ask_answered c
  cases hask : ask now c db with
  | ok b db' =>
    obtain ⟨u, table, hu, htable, rfl, hrows, -⟩ := hends.ok b db' hask
    obtain rfl : c.url = u := Except.ok.inj (h.symm.trans hu)
    obtain ⟨hanswer, hafter⟩ := tableAnswer_answered now c table
    have hasked : asOracle now c db = (.atOnce (.ok (tableAnswer now c table).1), db') := by
      rw [asOracle, hask]
    have hreply : Asked.reply (asOracle now) ⟨c, left, db⟩ =
        .atOnce (.ok (tableAnswer now c table).1) := by
      rw [Asked.reply, hasked]
    have hlisted : listedUrls db = table.map ListingRow.url := by
      rw [listedUrls, htable, Option.getD_some]
    have hresult : Asked.result (asOracle now) ⟨c, left, db⟩ =
        some (.ok (answered c (listedUrls db)).1) := by
      rw [hlisted, ← hanswer]
      exact Asked.result_atOnce (congrArg Reply.delay hreply) (congrArg Reply.answer hreply)
    refine Asked.heeded_of_answered hresult ?_
    rw [Asked.after, hasked, hlisted, ← hafter]
    dsimp only
    rw [listedUrls, hrows, Option.getD_some]
  | error e db' =>
    have hasked : asOracle now c db = (.atOnce (.error e), db') := by
      rw [asOracle, hask]
    have hreply : Asked.reply (asOracle now) ⟨c, left, db⟩ = .atOnce (.error e) := by
      rw [Asked.reply, hasked]
    refine Asked.heeded_of_not_through (Asked.not_through_of_error
      (Asked.result_atOnce (congrArg Reply.delay hreply) (congrArg Reply.answer hreply))) ?_
    rw [Asked.after, hasked]
    dsimp only
    rw [listedUrls, listedUrls, (hends.error e db' hask).1.rows]

end Primary

end LabelMail
