import LabelMail.Proofs.Primary.Reading

/-!
The table of the blacklist. A call is answered from the table, and only a call for a removal takes
an address from it, and then no other than the one it names.
-/
namespace LabelMail.Primary

open Database Blacklist

variable {α : Type} {db : Store} {now : Int} {url other : String}

/-- The blacklist has the address. -/
def Rows.Lists (rows : Rows) (url : String) : Prop :=
  ∃ table, rows.blacklist = some table ∧ isListed url table = true

/-- What a statement about the table finds in it and makes of it. -/
theorem onListings_ends {writes : List ListingRow → List Write}
    {f : List ListingRow → α × List ListingRow} :
    Ends (onListings writes f db)
      (fun a db' => ∃ table, db.rows.blacklist = some table ∧ a = (f table).1 ∧
        db'.rows = { db.rows with blacklist := some (f table).2 } ∧ db.Later db')
      (fun e db' => db.Idle db' ∧ (∃ detail, e = .database detail) ∧
        (db.Sound → db.rows.blacklist = none)) := by
  have hlater (rows : Rows) : db.Later { db with rows := rows, count := db.count + 1 } :=
    ⟨rfl, Nat.le_succ _⟩
  have hidle : db.Idle { db with count := db.count + 1 } := ⟨hlater db.rows, rfl⟩
  have hdetail (refusal : Refusal) :
      ∃ detail, failureOf (.database "") refusal = .database detail := by
    cases refusal <;> exact ⟨_, rfl⟩
  unfold onListings statement
  split
  · next refusal hplan =>
    refine .of_error ⟨hidle, hdetail refusal, fun hs => ?_⟩
    rw [hs db.count _ (Nat.le_refl _)] at hplan
    cases hplan
  · cases htable : db.rows.blacklist with
    | none =>
      simp only [htable]
      exact .of_error ⟨hidle, hdetail .broken, fun _ => trivial⟩
    | some table =>
      simp only [htable]
      exact .of_ok ⟨table, rfl, rfl, rfl, hlater _⟩

/-- What a call makes of the table: its answer, and the table afterwards. -/
def tableAnswer (now : Int) (c : Call) (table : List ListingRow) : Bool × List ListingRow :=
  match c.verb with
  | .lookup => (isListed c.url table, table)
  | .add =>
    if isListed c.url table then (false, table) else (true, table ++ [⟨c.url, now, now⟩])
  | .remove => (isListed c.url table, table.filter (·.url != c.url))

theorem accepted_error {e : Failure} (h : Url.accepted url = .error e) :
    ∃ why, e = .invalid why := by
  unfold Url.accepted at h
  dsimp only at h
  split at h
  · exact ⟨_, (Except.error.inj h).symm⟩
  · split at h
    · exact ⟨_, (Except.error.inj h).symm⟩
    · cases h

/-- A call is answered from the table, if the address is in order and the store does not fail. -/
theorem ask_answered (c : Call) :
    Ends (ask now c db)
      (fun b db' => ∃ u table, Url.accepted c.url = .ok u ∧ db.rows.blacklist = some table ∧
        b = (tableAnswer now ⟨c.verb, u⟩ table).1 ∧
        db'.rows = { db.rows with blacklist := some (tableAnswer now ⟨c.verb, u⟩ table).2 } ∧
        db.Later db')
      (fun e db' => db.Idle db' ∧ (Url.accepted c.url = .error e ∨
        (∃ detail, e = .database detail) ∧ (db.Sound → db.rows.blacklist = none))) := by
  unfold ask
  cases hurl : Url.accepted c.url with
  | error e => exact .of_error ⟨.refl db, .inl rfl⟩
  | ok u =>
    obtain ⟨writes, hask⟩ : ∃ writes,
        askTable now ⟨c.verb, u⟩ = onListings writes (tableAnswer now ⟨c.verb, u⟩) := by
      cases c.verb <;> exact ⟨_, rfl⟩
    refine Ends.mono (hask ▸ onListings_ends) (fun b db' hok => ?_) fun e db' herr => ?_
    · obtain ⟨table, htable, hb, hrows, hlater⟩ := hok
      exact ⟨u, table, rfl, htable, hb, hrows, hlater⟩
    · exact ⟨herr.1, .inr herr.2⟩

/-- A call that leaves the address in the table leaves it listed. -/
theorem Rows.Lists.ask (hl : db.rows.Lists url) {c : Call} (hkept : ∀ u table,
      Url.accepted c.url = .ok u → isListed url table →
      isListed url (tableAnswer now ⟨c.verb, u⟩ table).2) :
    Ends (Primary.ask now c db) (fun _ db' => db'.rows.Lists url)
      (fun _ db' => db'.rows.Lists url) := by
  refine (ask_answered c).mono (fun _ db' hok => ?_) fun _ _ herr => herr.1.rows ▸ hl
  obtain ⟨u, table, hu, htable, -, hrows, -⟩ := hok
  obtain ⟨_, hsome, hlisted⟩ := hl
  obtain rfl := Option.some.inj (htable.symm.trans hsome)
  exact ⟨_, by rw [hrows], hkept u table hu hlisted⟩

theorem Rows.Lists.add (hl : db.rows.Lists url) :
    Ends (Primary.ask now ⟨.add, other⟩ db) (fun _ db' => db'.rows.Lists url)
      (fun _ db' => db'.rows.Lists url) := by
  refine hl.ask fun u table _ hlisted => ?_
  unfold tableAnswer
  dsimp only
  split
  · exact hlisted
  · rw [isListed, List.any_append, Bool.or_eq_true]
    exact .inl hlisted

theorem Rows.Lists.remove (hl : db.rows.Lists url) (hother : Url.accepted other ≠ .ok url) :
    Ends (Primary.ask now ⟨.remove, other⟩ db) (fun _ db' => db'.rows.Lists url)
      (fun _ db' => db'.rows.Lists url) := by
  refine hl.ask fun u table hu hlisted => ?_
  have hne : url ≠ u := fun heq => hother (heq ▸ hu)
  obtain ⟨row, hrow, hrowurl⟩ := List.any_eq_true.mp hlisted
  rw [beq_iff_eq] at hrowurl
  have hkept : row ∈ table.filter (·.url != u) :=
    List.mem_filter.mpr ⟨hrow, by simpa [hrowurl] using hne⟩
  exact List.any_eq_true.mpr ⟨row, hkept, by simp [hrowurl]⟩

/-- The answer for a listed address is yes, unless the store fails. -/
theorem Rows.Lists.lookup (hl : db.rows.Lists url) (hurl : Url.accepted url = .ok url) :
    Ends (Primary.ask now ⟨.lookup, url⟩ db) (fun b _ => b = true) (fun _ _ => True) := by
  refine (ask_answered _).mono (fun b db' hok => ?_) fun _ _ _ => trivial
  obtain ⟨u, table, hu, htable, rfl, -⟩ := hok
  obtain ⟨_, hsome, hlisted⟩ := hl
  obtain rfl := Option.some.inj (htable.symm.trans hsome)
  rw [hurl] at hu
  obtain rfl := Except.ok.inj hu
  exact hlisted

/-- A call that fails changes nothing, and neither does a removal that finds nothing to remove. -/
theorem ask_idle (c : Call) :
    Ends (ask now c db) (fun b db' => c.verb = .remove → b = false → db.Idle db')
      (fun _ db' => db.Idle db') := by
  refine (ask_answered c).mono (fun b db' hok hverb hb => ?_) fun _ _ herr => herr.1
  obtain ⟨u, table, -, htable, hanswer, hrows, hlater⟩ := hok
  refine ⟨hlater, ?_⟩
  simp only [tableAnswer, hverb] at hanswer hrows
  have hkept : table.filter (·.url != u) = table := by
    refine List.filter_eq_self.mpr fun row hrow => ?_
    have hnone := List.any_eq_false.mp (hanswer.symm.trans hb) row hrow
    simpa using hnone
  rw [hrows, hkept, ← htable]

end LabelMail.Primary
